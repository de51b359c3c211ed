import Raii.Storage
import Raii.UniquePtr

/-!
# Objects and arrays behind `unique_ptr`

`unique_ptr<T>` and `unique_ptr<T[]>` with `default_delete`, over memory that
`new` and `new[]` allocate.  A pointer does not tell which of the two it comes
from, nor the dynamic type of the object: to delete through a pointer of the
wrong form, or through one to a base class without a virtual destructor, is
undefined.
-/

namespace Raii

open Foundation

/--
The element types of a program.  `unqualified` is the type without its
cv-qualifiers, `isBaseOf` the same type or a base class; `convertible` and
`convertibleArray` say that `U *` converts to `T *` and `U (*)[]` to `T (*)[]`.
Objects are initialised from arguments, by `{}` or not at all, which leaves
`none` in an object without a default constructor.  `access` is what the
program does with an lvalue of a static type: new contents and some output.
-/
structure ElementTypes where
  Elem : Type
  Unqualified : Type
  Args : Type
  Access : Type
  Value : Type
  Output : Type
  Address : Type
  Name : Type
  unqualified : Elem → Unqualified
  isBaseOf : Unqualified → Unqualified → Bool
  virtualDestructor : Unqualified → Bool
  convertible : Elem → Elem → Bool
  convertibleArray : Elem → Elem → Bool
  construct : Elem → Args → Value
  valueInit : Elem → Value
  defaultInit : Elem → Option Value
  access : (static dynamic : Elem) → Access → Option Value → Option (Option Value × List Output)
  isBaseOf_refl : ∀ T, isBaseOf T T = true
  isBaseOf_trans : ∀ {T U V}, isBaseOf T U = true → isBaseOf U V = true → isBaseOf T V = true
  isBaseOf_of_convertible : ∀ {U T}, convertible U T = true →
    isBaseOf (unqualified T) (unqualified U) = true
  unqualified_of_convertibleArray : ∀ {U T}, convertibleArray U T = true →
    unqualified U = unqualified T
  [decEqElem : DecidableEq Elem]
  [decEqUnqualified : DecidableEq Unqualified]
  [decEqAddress : DecidableEq Address]
  [decEqName : DecidableEq Name]

attribute [instance] ElementTypes.decEqElem ElementTypes.decEqUnqualified
  ElementTypes.decEqAddress ElementTypes.decEqName

structure PtrKind (T : ElementTypes) where
  elem : T.Elem
  isArray : Bool
  deriving DecidableEq

structure Block (T : ElementTypes) where
  elem : T.Elem
  isArray : Bool
  objects : List (Option T.Value)

/-- `new U{args...}`, `new U[size]{}`, `new U` and `new U[size]`. -/
inductive NewExpr (T : ElementTypes) where
  | single (elem : T.Elem) (args : T.Args)
  | array (elem : T.Elem) (size : Nat)
  | singleForOverwrite (elem : T.Elem)
  | arrayForOverwrite (elem : T.Elem) (size : Nat)

namespace NewExpr

variable {T : ElementTypes}

def block : NewExpr T → Block T
  | single elem args => ⟨elem, false, [some (T.construct elem args)]⟩
  | array elem size => ⟨elem, true, List.replicate size (some (T.valueInit elem))⟩
  | singleForOverwrite elem => ⟨elem, false, [T.defaultInit elem]⟩
  | arrayForOverwrite elem size => ⟨elem, true, List.replicate size (T.defaultInit elem)⟩

end NewExpr

inductive Observation (T : ElementTypes) where
  | output (output : T.Output)
  | destroyed (elem : T.Elem) (value : Option T.Value)

inductive Lvalue (T : ElementTypes) where
  | deref (access : T.Access)
  | subscript (index : Nat) (access : T.Access)

namespace Block

variable {T : ElementTypes}

/--
The delete expression of `default_delete` for a pointer to the block is
defined: the form is that of `new`, and the static type is the dynamic one, or
for an object a base class of it with a virtual destructor.
-/
def deletable (kind : PtrKind T) (block : Block T) : Bool :=
  (block.isArray == kind.isArray) &&
    (decide (T.unqualified block.elem = T.unqualified kind.elem) ||
      (!kind.isArray && T.isBaseOf (T.unqualified kind.elem) (T.unqualified block.elem) &&
        T.virtualDestructor (T.unqualified kind.elem)))

/-- The elements of an array are destroyed last to first. -/
def destroyed (block : Block T) : List (Observation T) :=
  block.objects.reverse.map (.destroyed block.elem)

def accessAt (static : T.Elem) (index : Nat) (access : T.Access) (block : Block T) :
    Option (Block T × List T.Output) := do
  let value ← block.objects[index]?
  let (value, output) ← T.access static block.elem access value
  some (⟨block.elem, block.isArray, block.objects.set index value⟩, output)

end Block

abbrev ElementMemory (T : ElementTypes) := Store T.Address (Block T) (List (Observation T))

def deleteExpr {T : ElementTypes} (kind : PtrKind T) (ptr : T.Address)
    (m : ElementMemory T) : Option (ElementMemory T) := do
  let block ← m.1 ptr
  if block.deletable kind then some (Function.update m.1 ptr none, m.2 ++ block.destroyed)
  else none

namespace ElementTypes

variable (T : ElementTypes)

def convertDeleter (source target : PtrKind T) : Bool :=
  (source.isArray == target.isArray) &&
    if target.isArray then T.convertibleArray source.elem target.elem
    else T.convertible source.elem target.elem

abbrev pointers : PtrSignature where
  Kind := PtrKind T
  Name := T.Name
  Deleter := Unit
  Pointer _ := Option T.Address
  isArray kind := kind.isArray
  defaultDeleter _ := some ()
  convertPointer source target :=
    if T.convertible source.elem target.elem then some id else none
  convertArray source target := T.convertibleArray source.elem target.elem
  convertDeleter source target := if T.convertDeleter source target then some id else none
  assignDeleter source target := if T.convertDeleter source target then some id else none
  nullable _ := ⟨none⟩

abbrev World := Raii.World T.pointers.signature (ElementMemory T)

def defaultDelete : DeleterCall T.pointers.signature (ElementMemory T)
  | _, _, none, w => some w
  | this, _, some ptr, w => (deleteExpr this.kind ptr w.env).map w.setEnv

/-- The array form has no `operator*`, the other one no `operator[]`. -/
def accessBlock (kind : PtrKind T) : Lvalue T → Block T → Option (Block T × List T.Output)
  | .deref access, block =>
      if kind.isArray then none else block.accessAt kind.elem 0 access
  | .subscript index access, block =>
      if kind.isArray then block.accessAt kind.elem index access else none

def values : Resources (Obj T.pointers.signature) (NewExpr T) (Lvalue T) (Block T)
    (List (Observation T)) where
  acquire _ new seen := some (new.block, seen)
  access this lvalue block seen :=
    (T.accessBlock this.kind lvalue block).map fun p => (p.1, seen ++ p.2.map .output)
  retire this block seen :=
    if block.deletable this.kind then some (seen ++ block.destroyed) else none

def disposal : Disposal T.pointers.signature (ElementMemory T) T.Address where
  resource _ ptr := ptr
  dispose this ptr m := deleteExpr this.kind ptr m
  call := T.defaultDelete
  isSome_resource kind ptr := by
    cases ptr <;> simp [toBool, Nullable.null]
  resource_convert := by
    intro source target convert hconvert hnd
    obtain ⟨-, heq⟩ := Option.ite_none_right_eq_some.mp hconvert
    rw [← Option.some.inj heq]
    rfl
  refusesInvalid _ := rfl
  call_eq := by
    intro this del hnd w r hr
    subst hr
    rfl

def backing : Backing T.pointers.signature T.Address (NewExpr T) (Lvalue T) (Block T)
    (List (Observation T)) where
  values := T.values
  disposal := T.disposal
  dispose_eq := by
    funext this ptr m
    simp only [disposal, deleteExpr, Resources.indirect, values, Option.bind_eq_bind]
    congr 1
    funext block
    split <;> rfl
  selfResetCheck_eq := rfl

end ElementTypes

/-! ## Programs -/

namespace NewExpr

variable {T : ElementTypes}

def elem : NewExpr T → T.Elem
  | single elem _ => elem
  | array elem _ => elem
  | singleForOverwrite elem => elem
  | arrayForOverwrite elem _ => elem

/-- `pointer`, or a type of pointers that is accepted as well, for arrays by `safe_conversion_raw`. -/
def accepted (new : NewExpr T) (kind : PtrKind T) : Bool :=
  decide (new.elem = kind.elem) ||
    if kind.isArray then T.convertibleArray new.elem kind.elem
    else T.convertible new.elem kind.elem

end NewExpr

/-- A statement; `ptr` is the address that `new` returns. -/
inductive ElementOp (T : ElementTypes) where
  | pointer (op : PtrOp T.pointers)
  | makeUnique (this : Obj T.pointers.signature) (ptr : T.Address) (args : T.Args)
  | makeUniqueArray (this : Obj T.pointers.signature) (ptr : T.Address) (size : Nat)
  | makeUniqueForOverwrite (this : Obj T.pointers.signature) (ptr : T.Address)
  | makeUniqueArrayForOverwrite (this : Obj T.pointers.signature) (ptr : T.Address) (size : Nat)
  | constructPointer (this : Obj T.pointers.signature) (ptr : T.Address) (new : NewExpr T)
  | reset (this : Obj T.pointers.signature) (ptr : T.Address) (new : NewExpr T)
  | access (this : Obj T.pointers.signature) (lvalue : Lvalue T)

namespace ElementOp

variable {T : ElementTypes}

def base : ElementOp T → Option (StoreOp T.pointers.signature (NewExpr T) (Lvalue T))
  | pointer op => if op.accepted then some (.rc op.base) else none
  | makeUnique this ptr args =>
      if this.kind.isArray then none
      else some (.constructNew this (some ptr) (.single this.kind.elem args))
  | makeUniqueArray this ptr size =>
      if this.kind.isArray then
        some (.constructNew this (some ptr) (.array this.kind.elem size))
      else none
  | makeUniqueForOverwrite this ptr =>
      if this.kind.isArray then none
      else some (.constructNew this (some ptr) (.singleForOverwrite this.kind.elem))
  | makeUniqueArrayForOverwrite this ptr size =>
      if this.kind.isArray then
        some (.constructNew this (some ptr) (.arrayForOverwrite this.kind.elem size))
      else none
  | constructPointer this ptr new =>
      if new.accepted this.kind then some (.constructNew this (some ptr) new) else none
  | reset this ptr new =>
      if new.accepted this.kind then some (.resetNew this (some ptr) new) else none
  | access this lvalue => some (.access this lvalue)

def exec (op : ElementOp T) (w : T.World) : Option T.World :=
  op.base.bind fun op => T.backing.exec op w

def Matches : ElementOp T → Prop
  | constructPointer this _ new => new.block.deletable this.kind = true
  | reset this _ new => new.block.deletable this.kind = true
  | _ => True

def Proper (op : ElementOp T) (w : T.World) : Prop :=
  op.Matches ∧ ∀ op', op.base = some op' → T.backing.Fresh op' w

end ElementOp

end Raii
