import Mathlib.Logic.Function.Basic
import Raii.Policy

/-!
# Objects, deleters and the worlds they live in

A program instantiates `unique_rc` at several template arguments.  The static
side of that is a `Signature`; the dynamic side is a `World`, which holds every
`unique_rc` object of the program, the deleter objects that reference deleters
are bound to, and whatever the deleters themselves act on.
-/

namespace Raii

/--
The instantiations of `unique_rc` in one program, a `Kind` for each.  Deleter
objects of all types are values of the single type `Deleter`: the library only
constructs, moves, assigns, swaps and calls them.  The three conversion fields
answer `none` where a `requires` clause of the converting move constructor or
of the converting move assignment rejects the pair of instantiations.
`movedHandle` is what is left of a handle that is passed to the deleter with
`std::move`: all of it, unless the deleter takes its argument by value and the
move constructor of the handle type clears its source.
-/
structure Signature where
  Kind : Type
  Name : Type
  Cell : Type
  Deleter : Type
  Handle : Kind → Type
  InvalidHandle : Kind → Type
  policy : (kind : Kind) → InvalidHandlePolicy (Handle kind) (InvalidHandle kind)
  isReference : Kind → Bool
  defaultDeleter : Kind → Option Deleter
  convertHandle : (source target : Kind) → Option (Handle source → Handle target)
  convertDeleter : (source target : Kind) → Option (Deleter → Deleter)
  assignDeleter : (source target : Kind) → Option (Deleter → Deleter)
  selfResetCheck : Bool
  movedHandle : (kind : Kind) → Handle kind → Handle kind := fun _ hnd => hnd
  [decEqKind : DecidableEq Kind]
  [decEqName : DecidableEq Name]
  [decEqCell : DecidableEq Cell]
  [decEqHandle : (kind : Kind) → DecidableEq (Handle kind)]

attribute [instance] Signature.decEqKind Signature.decEqName
  Signature.decEqCell Signature.decEqHandle

namespace Signature

variable (S : Signature)

def invalid (kind : S.Kind) : S.Handle kind :=
  (S.policy kind).assign (S.policy kind).invalid

def isOwned (kind : S.Kind) (hnd : S.Handle kind) : Bool :=
  (S.policy kind).isOwned hnd

def defaultConstruct (kind : S.Kind) : Option S.Deleter :=
  if S.isReference kind then none else S.defaultDeleter kind

theorem isReference_of_defaultConstruct {kind : S.Kind} {del : S.Deleter}
    (h : S.defaultConstruct kind = some del) : S.isReference kind = false := by
  cases href : S.isReference kind with
  | false => rfl
  | true => simp [defaultConstruct, href] at h

end Signature

structure Obj (S : Signature) where
  kind : S.Kind
  name : S.Name
  deriving DecidableEq

inductive DeleterMember (S : Signature) where
  | value (del : S.Deleter)
  | reference (cell : S.Cell)

structure Holder (S : Signature) (kind : S.Kind) where
  handle : S.Handle kind
  deleter : DeleterMember S

/--
`objects` is the storage of every variable.  It keeps its last contents when
the object's lifetime ends, which `live` records.  `env` is the part of the
program that only deleters touch.
-/
structure World (S : Signature) (Env : Type) where
  live : Obj S → Bool
  objects : (obj : Obj S) → Holder S obj.kind
  cells : S.Cell → S.Deleter
  env : Env

namespace World

variable {S : Signature} {Env : Type}

def getHandle (w : World S Env) (obj : Obj S) : S.Handle obj.kind :=
  (w.objects obj).handle

def setHandle (obj : Obj S) (hnd : S.Handle obj.kind) (w : World S Env) :
    World S Env :=
  { w with
    objects := Function.update w.objects obj
      { w.objects obj with handle := hnd } }

/--
The deleter object `get_deleter()` refers to: the member of the holder itself,
or the cell a reference deleter is bound to.
-/
def deleterRef (w : World S Env) (obj : Obj S) : Obj S ⊕ S.Cell :=
  match (w.objects obj).deleter with
  | .value _ => .inl obj
  | .reference cell => .inr cell

def getDeleter (w : World S Env) (obj : Obj S) : S.Deleter :=
  match (w.objects obj).deleter with
  | .value del => del
  | .reference cell => w.cells cell

def setDeleter (obj : Obj S) (del : S.Deleter) (w : World S Env) :
    World S Env :=
  match (w.objects obj).deleter with
  | .value _ =>
      { w with
        objects := Function.update w.objects obj
          { w.objects obj with deleter := .value del } }
  | .reference cell => { w with cells := Function.update w.cells cell del }

def setEnv (env : Env) (w : World S Env) : World S Env := { w with env := env }

def construct (obj : Obj S) (hdt : Holder S obj.kind) (w : World S Env) :
    World S Env :=
  { w with
    live := Function.update w.live obj true
    objects := Function.update w.objects obj hdt }

def endLifetime (obj : Obj S) (w : World S Env) : World S Env :=
  { w with live := Function.update w.live obj false }

theorem deleter_eq_value {w : World S Env} {obj : Obj S}
    (h : w.deleterRef obj = .inl obj) :
    (w.objects obj).deleter = .value (w.getDeleter obj) := by
  unfold deleterRef at h
  cases hdel : (w.objects obj).deleter with
  | value del => simp only [getDeleter, hdel]
  | reference cell => simp only [hdel, reduceCtorEq] at h

theorem deleter_eq_reference {w : World S Env} {obj : Obj S} {cell : S.Cell}
    (h : w.deleterRef obj = .inr cell) :
    (w.objects obj).deleter = .reference cell := by
  unfold deleterRef at h
  cases hdel : (w.objects obj).deleter with
  | value del => simp only [hdel, reduceCtorEq] at h
  | reference cell' => rw [(by simpa only [hdel, Sum.inr.injEq] using h : cell' = cell)]

theorem getDeleter_eq_cells {w : World S Env} {obj : Obj S} {cell : S.Cell}
    (h : w.deleterRef obj = .inr cell) : w.getDeleter obj = w.cells cell := by
  simp only [getDeleter, deleter_eq_reference h]

theorem eq_of_deleterRef {w : World S Env} {obj other : Obj S}
    (h : w.deleterRef other = .inl obj) : other = obj := by
  unfold deleterRef at h
  cases hdel : (w.objects other).deleter with
  | value del => simpa only [hdel, Sum.inl.injEq] using h
  | reference cell => simp only [hdel, reduceCtorEq] at h

/-! ## What each write changes -/

section SetHandle

variable (obj : Obj S) (hnd : S.Handle obj.kind) (w : World S Env)

@[simp] theorem live_setHandle : (w.setHandle obj hnd).live = w.live := rfl

@[simp] theorem cells_setHandle : (w.setHandle obj hnd).cells = w.cells := rfl

@[simp] theorem env_setHandle : (w.setHandle obj hnd).env = w.env := rfl

@[simp] theorem setHandle_getHandle : w.setHandle obj (w.getHandle obj) = w := by
  simp [setHandle, getHandle]

@[simp] theorem getHandle_setHandle :
    (w.setHandle obj hnd).getHandle = Function.update w.getHandle obj hnd := by
  funext other
  by_cases h : other = obj
  · subst h
    simp [getHandle, setHandle]
  · simp [getHandle, setHandle, h]

theorem deleter_setHandle (other : Obj S) :
    ((w.setHandle obj hnd).objects other).deleter = (w.objects other).deleter := by
  by_cases h : other = obj
  · subst h
    simp [setHandle]
  · simp [setHandle, h]

@[simp] theorem getDeleter_setHandle :
    (w.setHandle obj hnd).getDeleter = w.getDeleter := by
  funext other
  simp only [getDeleter, deleter_setHandle, cells_setHandle]

@[simp] theorem deleterRef_setHandle :
    (w.setHandle obj hnd).deleterRef = w.deleterRef := by
  funext other
  simp only [deleterRef, deleter_setHandle]

end SetHandle

section SetDeleter

variable (obj : Obj S) (del : S.Deleter) (w : World S Env)

@[simp] theorem live_setDeleter : (w.setDeleter obj del).live = w.live := by
  unfold setDeleter
  split <;> rfl

@[simp] theorem env_setDeleter : (w.setDeleter obj del).env = w.env := by
  unfold setDeleter
  split <;> rfl

@[simp] theorem getHandle_setDeleter :
    (w.setDeleter obj del).getHandle = w.getHandle := by
  funext other
  unfold setDeleter
  split
  · by_cases h : other = obj
    · subst h
      simp [getHandle]
    · simp [getHandle, h]
  · rfl

@[simp] theorem deleterRef_setDeleter :
    (w.setDeleter obj del).deleterRef = w.deleterRef := by
  funext other
  unfold setDeleter
  split
  case h_1 old hold =>
      by_cases h : other = obj
      · subst h
        simp [deleterRef, hold]
      · simp [deleterRef, h]
  case h_2 => rfl

theorem getDeleter_setDeleter (other : Obj S) :
    (w.setDeleter obj del).getDeleter other =
      if w.deleterRef other = w.deleterRef obj then del
      else w.getDeleter other := by
  unfold setDeleter
  split
  case h_1 old hold =>
      by_cases h : other = obj
      · subst h
        simp [getDeleter]
      · cases hother : (w.objects other).deleter <;>
          simp [getDeleter, deleterRef, hold, hother, h]
  case h_2 cell hold =>
      cases hother : (w.objects other).deleter with
      | value _ => simp [getDeleter, deleterRef, hold, hother]
      | reference cell' =>
          by_cases h : cell' = cell <;>
            simp [getDeleter, deleterRef, hold, hother, h]

@[simp] theorem getDeleter_setDeleter_self :
    (w.setDeleter obj del).getDeleter obj = del := by
  simp [getDeleter_setDeleter]

theorem getDeleter_setDeleter_of_value (hobj : w.deleterRef obj = .inl obj) :
    (w.setDeleter obj del).getDeleter = Function.update w.getDeleter obj del := by
  funext other
  rw [getDeleter_setDeleter, hobj, Function.update_apply]
  by_cases h : other = obj
  · simp [h, hobj]
  · rw [if_neg fun href => h (eq_of_deleterRef href), if_neg h]

theorem cells_setDeleter_of_value (hobj : w.deleterRef obj = .inl obj) :
    (w.setDeleter obj del).cells = w.cells := by
  simp only [setDeleter, deleter_eq_value hobj]

theorem cells_setDeleter (cell : S.Cell) :
    (w.setDeleter obj del).cells cell =
      if w.deleterRef obj = .inr cell then del else w.cells cell := by
  unfold setDeleter
  split
  case h_1 old hold => simp [deleterRef, hold]
  case h_2 cell' hold =>
      by_cases h : cell = cell'
      · subst h
        simp [deleterRef, hold]
      · simp [deleterRef, hold, h, Ne.symm h]

end SetDeleter

section Construct

variable (obj : Obj S) (hdt : Holder S obj.kind) (w : World S Env)

@[simp] theorem live_construct :
    (w.construct obj hdt).live = Function.update w.live obj true := rfl

@[simp] theorem cells_construct : (w.construct obj hdt).cells = w.cells := rfl

@[simp] theorem env_construct : (w.construct obj hdt).env = w.env := rfl

@[simp] theorem getHandle_construct :
    (w.construct obj hdt).getHandle =
      Function.update w.getHandle obj hdt.handle := by
  funext other
  by_cases h : other = obj
  · subst h
    simp [getHandle, construct]
  · simp [getHandle, construct, h]

theorem objects_construct_of_ne {other : Obj S} (h : other ≠ obj) :
    (w.construct obj hdt).objects other = w.objects other := by
  simp [construct, h]

@[simp] theorem objects_construct_self :
    (w.construct obj hdt).objects obj = hdt := by
  simp [construct]

theorem deleterRef_construct_of_ne {other : Obj S} (h : other ≠ obj) :
    (w.construct obj hdt).deleterRef other = w.deleterRef other := by
  simp only [deleterRef, objects_construct_of_ne obj hdt w h]

@[simp] theorem getDeleter_construct_value (hnd : S.Handle obj.kind)
    (del : S.Deleter) :
    (w.construct obj ⟨hnd, .value del⟩).getDeleter =
      Function.update w.getDeleter obj del := by
  funext other
  by_cases h : other = obj
  · subst h
    simp [getDeleter]
  · simp [getDeleter, objects_construct_of_ne obj _ w h, h]

@[simp] theorem deleterRef_construct_value (hnd : S.Handle obj.kind)
    (del : S.Deleter) :
    (w.construct obj ⟨hnd, .value del⟩).deleterRef =
      Function.update w.deleterRef obj (.inl obj) := by
  funext other
  by_cases h : other = obj
  · subst h
    simp [deleterRef]
  · simp [deleterRef, objects_construct_of_ne obj _ w h, h]

@[simp] theorem getDeleter_construct_reference (hnd : S.Handle obj.kind)
    (cell : S.Cell) :
    (w.construct obj ⟨hnd, .reference cell⟩).getDeleter =
      Function.update w.getDeleter obj (w.cells cell) := by
  funext other
  by_cases h : other = obj
  · subst h
    simp [getDeleter]
  · simp [getDeleter, objects_construct_of_ne obj _ w h, h]

@[simp] theorem deleterRef_construct_reference (hnd : S.Handle obj.kind)
    (cell : S.Cell) :
    (w.construct obj ⟨hnd, .reference cell⟩).deleterRef =
      Function.update w.deleterRef obj (.inr cell) := by
  funext other
  by_cases h : other = obj
  · subst h
    simp [deleterRef]
  · simp [deleterRef, objects_construct_of_ne obj _ w h, h]

end Construct

section EndLifetime

variable (obj : Obj S) (w : World S Env)

@[simp] theorem live_endLifetime :
    (w.endLifetime obj).live = Function.update w.live obj false := rfl

@[simp] theorem objects_endLifetime :
    (w.endLifetime obj).objects = w.objects := rfl

@[simp] theorem getHandle_endLifetime :
    (w.endLifetime obj).getHandle = w.getHandle := rfl

@[simp] theorem getDeleter_endLifetime :
    (w.endLifetime obj).getDeleter = w.getDeleter := rfl

@[simp] theorem deleterRef_endLifetime :
    (w.endLifetime obj).deleterRef = w.deleterRef := rfl

@[simp] theorem cells_endLifetime : (w.endLifetime obj).cells = w.cells := rfl

@[simp] theorem env_endLifetime : (w.endLifetime obj).env = w.env := rfl

end EndLifetime

section SetEnv

variable (env : Env) (w : World S Env)

@[simp] theorem live_setEnv : (w.setEnv env).live = w.live := rfl

@[simp] theorem objects_setEnv : (w.setEnv env).objects = w.objects := rfl

@[simp] theorem getHandle_setEnv : (w.setEnv env).getHandle = w.getHandle := rfl

@[simp] theorem getDeleter_setEnv : (w.setEnv env).getDeleter = w.getDeleter := rfl

@[simp] theorem deleterRef_setEnv : (w.setEnv env).deleterRef = w.deleterRef := rfl

@[simp] theorem cells_setEnv : (w.setEnv env).cells = w.cells := rfl

@[simp] theorem env_setEnv : (w.setEnv env).env = env := rfl

theorem setDeleter_setEnv (obj : Obj S) (del : S.Deleter) :
    (w.setEnv env).setDeleter obj del = (w.setDeleter obj del).setEnv env := by
  simp only [setDeleter, objects_setEnv]
  split <;> rfl

end SetEnv

end World

end Raii
