import Mathlib.Order.Fin.Basic
import Raii.Foundation.Comparison
import Raii.UniqueRc

/-!
# Comparison operators

`operator==` and `operator<=>` of two objects compare the stored handles.
Against `nullptr` the first asks the policy and the second casts `nullptr` to
the handle type, so the four operators look at different things.
-/

namespace Raii

open Foundation
open Nullable (null)

structure PointerKinds where
  Kind : Type
  Name : Type
  Cell : Type
  Deleter : Type
  Pointer : Type
  InvalidHandle : Kind → Type
  policy : (kind : Kind) → InvalidHandlePolicy Pointer (InvalidHandle kind)
  isReference : Kind → Bool
  defaultDeleter : Kind → Option Deleter
  convertDeleter : (source target : Kind) → Option (Deleter → Deleter)
  assignDeleter : (source target : Kind) → Option (Deleter → Deleter)
  selfResetCheck : Bool
  [decEqKind : DecidableEq Kind]
  [decEqName : DecidableEq Name]
  [decEqCell : DecidableEq Cell]
  [nullable : Nullable Pointer]
  [linearOrder : LinearOrder Pointer]
  null_le : ∀ ptr : Pointer, null ≤ ptr

attribute [instance] PointerKinds.decEqKind PointerKinds.decEqName
  PointerKinds.decEqCell PointerKinds.nullable PointerKinds.linearOrder

abbrev PointerKinds.signature (P : PointerKinds) : Signature where
  Kind := P.Kind
  Name := P.Name
  Cell := P.Cell
  Deleter := P.Deleter
  Handle _ := P.Pointer
  InvalidHandle := P.InvalidHandle
  policy := P.policy
  isReference := P.isReference
  defaultDeleter := P.defaultDeleter
  convertHandle _ _ := some id
  convertDeleter := P.convertDeleter
  assignDeleter := P.assignDeleter
  selfResetCheck := P.selfResetCheck

inductive Operand (P : PointerKinds) where
  | nullptr
  | object (obj : Obj P.signature)

variable {P : PointerKinds} {Env : Type}

namespace UniqueRc

def operatorEq (lhs rhs : Obj P.signature) (w : World P.signature Env) : Bool :=
  decide ((get lhs w : P.Pointer) = get rhs w)

def operatorEqNullptr (lhs : Obj P.signature) (w : World P.signature Env) : Bool :=
  !operatorBool lhs w

def operatorCmp (lhs rhs : Obj P.signature) (w : World P.signature Env) : Ordering :=
  compare (get lhs w : P.Pointer) (get rhs w)

def operatorCmpNullptr (lhs : Obj P.signature) (w : World P.signature Env) :
    Ordering :=
  compare (get lhs w : P.Pointer) null

end UniqueRc

namespace Operand

/-- With `nullptr` on the left, the compiler rewrites the expression. -/
def eq (w : World P.signature Env) : Operand P → Operand P → Bool
  | .object lhs, .object rhs => UniqueRc.operatorEq lhs rhs w
  | .object lhs, .nullptr => UniqueRc.operatorEqNullptr lhs w
  | .nullptr, .object rhs => UniqueRc.operatorEqNullptr rhs w
  | .nullptr, .nullptr => true

def cmp (w : World P.signature Env) : Operand P → Operand P → Ordering
  | .object lhs, .object rhs => UniqueRc.operatorCmp lhs rhs w
  | .object lhs, .nullptr => UniqueRc.operatorCmpNullptr lhs w
  | .nullptr, .object rhs => (UniqueRc.operatorCmpNullptr rhs w).swap
  | .nullptr, .nullptr => .eq

def among (objs : Obj P.signature → Prop) : Operand P → Prop
  | .nullptr => True
  | .object obj => objs obj

def key (w : World P.signature Env) : Operand P → P.Pointer
  | .nullptr => null
  | .object obj => UniqueRc.get obj w

end Operand

section Coherence

variable {w : World P.signature Env}

theorem operatorEqNullptr_iff (hexact : ∀ kind, (P.policy kind).Exact)
    (obj : Obj P.signature) :
    UniqueRc.operatorEqNullptr obj w = true ↔
      UniqueRc.get obj w = P.signature.invalid obj.kind := by
  rw [UniqueRc.operatorEqNullptr, UniqueRc.operatorBool, Signature.isOwned,
    (hexact obj.kind).isOwned_eq, bne, Bool.not_not, beq_iff_eq]
  rfl

end Coherence

end Raii
