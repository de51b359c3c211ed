import Raii.UniqueRc

/-!
# `unique_ptr`

`unique_ptr<T, Deleter>` and `unique_ptr<T[], Deleter>` derive from `unique_rc`
over pointers, with `nullptr` as the invalid handle.  Their members check
conversions of their own and delegate the rest to `Base`.
-/

namespace Raii

/--
The instantiations of `unique_ptr` in one program, with deleters that are
objects.  `convertArray` is the convertibility of `U (*)[]` to `T (*)[]`, for
pointers that are plain pointers to the elements; `movedPointer` is what is left
of a pointer that is moved into the deleter's parameter, which for those is the
pointer itself.  The debug check of `reset` is compiled out.
-/
structure PtrSignature where
  Kind : Type
  Name : Type
  Deleter : Type
  Pointer : Kind → Type
  isArray : Kind → Bool
  defaultDeleter : Kind → Option Deleter
  convertPointer : (source target : Kind) → Option (Pointer source → Pointer target)
  convertArray : (source target : Kind) → Bool
  convertDeleter : (source target : Kind) → Option (Deleter → Deleter)
  assignDeleter : (source target : Kind) → Option (Deleter → Deleter)
  movedPointer : (kind : Kind) → Pointer kind → Pointer kind := fun _ ptr => ptr
  [nullable : (kind : Kind) → Nullable (Pointer kind)]
  [decEqKind : DecidableEq Kind]
  [decEqName : DecidableEq Name]
  [decEqPointer : (kind : Kind) → DecidableEq (Pointer kind)]

attribute [instance] PtrSignature.nullable PtrSignature.decEqKind
  PtrSignature.decEqName PtrSignature.decEqPointer

namespace PtrSignature

open Nullable (null)

abbrev signature (P : PtrSignature) : Signature where
  Kind := P.Kind
  Name := P.Name
  Cell := Empty
  Deleter := P.Deleter
  Handle := P.Pointer
  InvalidHandle _ := NullptrT
  policy _ := nullptrInvalidHandlePolicy
  isReference _ := false
  defaultDeleter := P.defaultDeleter
  convertHandle := P.convertPointer
  convertDeleter := P.convertDeleter
  assignDeleter := P.assignDeleter
  selfResetCheck := false
  movedHandle := P.movedPointer

variable (P : PtrSignature)

@[simp] theorem signature_invalid (kind : P.Kind) :
    P.signature.invalid kind = (null : P.Pointer kind) := rfl

@[simp] theorem signature_isOwned (kind : P.Kind) (ptr : P.Pointer kind) :
    P.signature.isOwned kind ptr = toBool ptr := rfl

@[simp] theorem signature_movedHandle (kind : P.Kind) :
    P.signature.movedHandle kind = P.movedPointer kind := rfl

def safeConversionFrom (source target : P.Kind) : Bool :=
  if P.isArray target then P.isArray source && P.convertArray source target
  else (P.convertPointer source target).isSome && !P.isArray source

end PtrSignature

inductive PtrOp (P : PtrSignature) where
  | construct (this : Obj P.signature)
  | constructNullptr (this : Obj P.signature)
  | constructPointer (this : Obj P.signature) (ptr : P.Pointer this.kind)
  | constructDeleter (this : Obj P.signature) (ptr : P.Pointer this.kind)
      (del : P.Deleter)
  | moveConstruct (kind : P.Kind) (this other : P.Name) (left : P.Deleter)
  | convertConstruct (this other : Obj P.signature) (left : P.Deleter)
  | moveAssign (kind : P.Kind) (this other : P.Name) (left : P.Deleter)
  | convertAssign (this other : Obj P.signature) (left : P.Deleter)
  | assignNullptr (this : Obj P.signature)
  | reset (this : Obj P.signature) (ptr : P.Pointer this.kind)
  | resetNullptr (this : Obj P.signature)
  | release (this : Obj P.signature)
  | swap (kind : P.Kind) (this other : P.Name)
  | destroy (this : Obj P.signature)

namespace UniquePtr

variable {P : PtrSignature}

/--
`reset()`.  The single form inherits it with its default argument, the array
form passes `invalid()`.
-/
def resetNullptr (this : Obj P.signature) : Op P.signature :=
  if P.isArray this.kind then .reset this (P.signature.invalid this.kind)
  else .resetInvalid this

end UniquePtr

namespace PtrOp

variable {P : PtrSignature}

def accepted : PtrOp P → Bool
  | .convertConstruct this other _ => P.safeConversionFrom other.kind this.kind
  | .convertAssign this other _ => P.safeConversionFrom other.kind this.kind
  | _ => true

def base : PtrOp P → Op P.signature
  | .construct this => .construct this
  | .constructNullptr this => .construct this
  | .constructPointer this ptr => .constructHandle this ptr
  | .constructDeleter this ptr del => .constructDeleter this ptr (.value del)
  | .moveConstruct kind this other left => .moveConstruct kind this other left
  | .convertConstruct this other left => .convertConstruct this other left
  | .moveAssign kind this other left => .moveAssign kind this other left
  | .convertAssign this other left => .convertAssign this other left
  | .assignNullptr this => UniquePtr.resetNullptr this
  | .reset this ptr => .reset this ptr
  | .resetNullptr this => UniquePtr.resetNullptr this
  | .release this => .release this
  | .swap kind this other => .swap kind this other
  | .destroy this => .destroy this

def exec {Env : Type} (call : DeleterCall P.signature Env) (op : PtrOp P)
    (w : World P.signature Env) : Option (World P.signature Env) :=
  if op.accepted then op.base.exec call w else none

end PtrOp

end Raii
