import Raii.Holder

/-!
# `unique_rc`

Construction, assignment and destruction of `unique_rc`, and programs over it.
A program is a list of `Op`s; `exec` runs one of them and answers `none` where
the compiler or the language rejects it: a pair of instantiations outside the
`requires` clauses, an object used outside its lifetime, a failed assertion.
-/

namespace Raii

namespace UniqueRc

variable {S : Signature} {Env : Type} (call : DeleterCall S Env)

def get (this : Obj S) (w : World S Env) : S.Handle this.kind := w.getHandle this

def operatorBool (this : Obj S) (w : World S Env) : Bool :=
  S.isOwned this.kind (get this w)

def constructDeleter (this : Obj S) (hnd : S.Handle this.kind)
    (del : DeleterMember S) (w : World S Env) : World S Env :=
  w.construct this ⟨hnd, del⟩

def constructHandle (this : Obj S) (hnd : S.Handle this.kind)
    (del : S.Deleter) (w : World S Env) : World S Env :=
  w.construct this ⟨hnd, .value del⟩

def construct (this : Obj S) (del : S.Deleter) (w : World S Env) : World S Env :=
  constructHandle this (S.invalid this.kind) del w

def moveConstruct (kind : S.Kind) (this other : S.Name) (left : S.Deleter)
    (w : World S Env) : World S Env :=
  UniqueRcHolderImpl.moveConstruct kind this other left w

def release (this : Obj S) (w : World S Env) :
    S.Handle this.kind × World S Env :=
  UniqueRcHolderImpl.release this w

def reset (this : Obj S) (hnd : S.Handle this.kind) (w : World S Env) :
    Option (World S Env) :=
  UniqueRcHolderImpl.reset call this hnd w

def resetInvalid (this : Obj S) (w : World S Env) : Option (World S Env) :=
  reset call this (S.invalid this.kind) w

def moveAssign (kind : S.Kind) (this other : S.Name) (left : S.Deleter)
    (w : World S Env) : Option (World S Env) :=
  UniqueRcHolderImpl.moveAssign call kind this other left w

def swap (kind : S.Kind) (this other : S.Name) (w : World S Env) : World S Env :=
  UniqueRcHolderImpl.swap kind this other w

/--
`std::forward<D>(res.get_deleter())` as the initialiser of a `Deleter` element:
a reference is bound to the cell the source refers to, an object is converted
from the moved or copied deleter of the source.
-/
def forwardDeleter (kind : S.Kind) (other : Obj S)
    (convert : S.Deleter → S.Deleter) (left : S.Deleter) (w : World S Env) :
    DeleterMember S × World S Env :=
  match (w.objects other).deleter with
  | .value del => (.value (convert del), w.setDeleter other left)
  | .reference cell =>
      if S.isReference kind then (.reference cell, w)
      else (.value (convert (w.cells cell)), w)

def convertConstruct (this other : Obj S)
    (convert : S.Handle other.kind → S.Handle this.kind)
    (convertDel : S.Deleter → S.Deleter) (left : S.Deleter)
    (w : World S Env) : World S Env :=
  let (hnd, w) := release other w
  let (del, w) := forwardDeleter this.kind other convertDel left w
  w.construct this ⟨convert hnd, del⟩

def convertAssign (this other : Obj S)
    (convert : S.Handle other.kind → S.Handle this.kind)
    (convertDel : S.Deleter → S.Deleter) (left : S.Deleter)
    (w : World S Env) : Option (World S Env) := do
  let (hnd, w) := release other w
  let w ← reset call this (convert hnd) w
  some (w.assignDeleter this other convertDel left)

/-- `~unique_rc()`.  While the deleter runs, what the move has left of the handle is stored. -/
def destroy (this : Obj S) (w : World S Env) : Option (World S Env) :=
  let hnd := w.getHandle this
  if S.isOwned this.kind hnd then do
    let w := w.setHandle this (S.movedHandle this.kind hnd)
    let w ← call this (w.getDeleter this) hnd w
    some ((w.setHandle this (S.invalid this.kind)).endLifetime this)
  else some (w.endLifetime this)

/-! ## What the conversions and the destructor do -/

section ForwardDeleter

variable (kind : S.Kind) (other : Obj S) (convert : S.Deleter → S.Deleter)
  (left : S.Deleter) (w : World S Env)

@[simp] theorem live_forwardDeleter :
    (forwardDeleter kind other convert left w).2.live = w.live := by
  unfold forwardDeleter
  split
  · simp
  · split <;> rfl

@[simp] theorem env_forwardDeleter :
    (forwardDeleter kind other convert left w).2.env = w.env := by
  unfold forwardDeleter
  split
  · simp
  · split <;> rfl

@[simp] theorem getHandle_forwardDeleter :
    (forwardDeleter kind other convert left w).2.getHandle = w.getHandle := by
  unfold forwardDeleter
  split
  · simp
  · split <;> rfl

@[simp] theorem deleterRef_forwardDeleter :
    (forwardDeleter kind other convert left w).2.deleterRef = w.deleterRef := by
  unfold forwardDeleter
  split
  · simp
  · split <;> rfl

@[simp] theorem cells_forwardDeleter :
    (forwardDeleter kind other convert left w).2.cells = w.cells := by
  unfold forwardDeleter
  split
  case h_1 del hdel =>
      exact World.cells_setDeleter_of_value _ _ _ (by simp [World.deleterRef, hdel])
  case h_2 => split <;> rfl

end ForwardDeleter

section ConvertConstruct

variable (this other : Obj S)
  (convert : S.Handle other.kind → S.Handle this.kind)
  (convertDel : S.Deleter → S.Deleter) (left : S.Deleter) (w : World S Env)

@[simp] theorem live_convertConstruct :
    (convertConstruct this other convert convertDel left w).live =
      Function.update w.live this true := by
  simp [convertConstruct, release, UniqueRcHolderImpl.release]

@[simp] theorem env_convertConstruct :
    (convertConstruct this other convert convertDel left w).env = w.env := by
  simp [convertConstruct, release, UniqueRcHolderImpl.release]

@[simp] theorem cells_convertConstruct :
    (convertConstruct this other convert convertDel left w).cells = w.cells := by
  simp [convertConstruct, release, UniqueRcHolderImpl.release]

theorem deleterRef_convertConstruct_of_ne {obj : Obj S} (h : obj ≠ this) :
    (convertConstruct this other convert convertDel left w).deleterRef obj =
      w.deleterRef obj := by
  simp [convertConstruct, release, UniqueRcHolderImpl.release,
    World.deleterRef_construct_of_ne _ _ _ h]

theorem getHandle_convertConstruct :
    (convertConstruct this other convert convertDel left w).getHandle =
      Function.update
        (Function.update w.getHandle other (S.invalid other.kind))
        this (convert (w.getHandle other)) := by
  simp [convertConstruct, release, UniqueRcHolderImpl.release]

end ConvertConstruct

theorem convertAssign_eq_some_iff {this other : Obj S}
    {convert : S.Handle other.kind → S.Handle this.kind}
    {convertDel : S.Deleter → S.Deleter} {left : S.Deleter}
    {w w' : World S Env} :
    convertAssign call this other convert convertDel left w = some w' ↔
      ∃ w₁, reset call this (convert (w.getHandle other))
          (w.setHandle other (S.invalid other.kind)) = some w₁ ∧
        w' = w₁.assignDeleter this other convertDel left := by
  constructor
  · intro hrun
    obtain ⟨w₁, hreset, hassign⟩ := Option.bind_eq_some_iff.mp hrun
    exact ⟨w₁, hreset, (Option.some.inj hassign).symm⟩
  · rintro ⟨w₁, hreset, rfl⟩
    exact Option.bind_eq_some_iff.mpr ⟨w₁, hreset, rfl⟩

theorem destroy_of_not_owned {this : Obj S} {w : World S Env}
    (h : S.isOwned this.kind (w.getHandle this) = false) :
    destroy call this w = some (w.endLifetime this) := by
  simp [destroy, h]

theorem destroy_of_owned {this : Obj S} {w : World S Env}
    (h : S.isOwned this.kind (w.getHandle this) = true) :
    destroy call this w =
      (call this (w.getDeleter this) (w.getHandle this)
        (w.setHandle this (S.movedHandle this.kind (w.getHandle this)))).map fun w =>
          (w.setHandle this (S.invalid this.kind)).endLifetime this := by
  simp only [destroy, h, if_true, World.getDeleter_setHandle]
  cases call this (w.getDeleter this) (w.getHandle this)
    (w.setHandle this (S.movedHandle this.kind (w.getHandle this))) <;> rfl

theorem destroy_of_copied {this : Obj S} {w : World S Env}
    (h : S.isOwned this.kind (w.getHandle this) = true)
    (hmoved : S.movedHandle this.kind (w.getHandle this) = w.getHandle this) :
    destroy call this w =
      (call this (w.getDeleter this) (w.getHandle this) w).map fun w =>
        (w.setHandle this (S.invalid this.kind)).endLifetime this := by
  rw [destroy_of_owned call h, hmoved, World.setHandle_getHandle]

end UniqueRc

/-! ## Programs -/

/--
One operation of a program.  `left` is the value a moved-from deleter is left
with, should the operation move one.
-/
inductive Op (S : Signature) where
  | construct (this : Obj S)
  | constructHandle (this : Obj S) (hnd : S.Handle this.kind)
  | constructDeleter (this : Obj S) (hnd : S.Handle this.kind)
      (del : DeleterMember S)
  | moveConstruct (kind : S.Kind) (this other : S.Name) (left : S.Deleter)
  | convertConstruct (this other : Obj S) (left : S.Deleter)
  | moveAssign (kind : S.Kind) (this other : S.Name) (left : S.Deleter)
  | convertAssign (this other : Obj S) (left : S.Deleter)
  | swap (kind : S.Kind) (this other : S.Name)
  | reset (this : Obj S) (hnd : S.Handle this.kind)
  | resetInvalid (this : Obj S)
  | release (this : Obj S)
  | destroy (this : Obj S)

namespace DeleterMember

def fits {S : Signature} (kind : S.Kind) : DeleterMember S → Bool
  | .value _ => !S.isReference kind
  | .reference _ => S.isReference kind

end DeleterMember

namespace Op

variable {S : Signature} {Env : Type}

def inLifetime (w : World S Env) : Op S → Bool
  | .construct this => !w.live this
  | .constructHandle this _ => !w.live this
  | .constructDeleter this _ _ => !w.live this
  | .moveConstruct kind this other _ =>
      !w.live ⟨kind, this⟩ && w.live ⟨kind, other⟩
  | .convertConstruct this other _ => !w.live this && w.live other
  | .moveAssign kind this other _ => w.live ⟨kind, this⟩ && w.live ⟨kind, other⟩
  | .convertAssign this other _ => w.live this && w.live other
  | .swap kind this other => w.live ⟨kind, this⟩ && w.live ⟨kind, other⟩
  | .reset this _ => w.live this
  | .resetInvalid this => w.live this
  | .release this => w.live this
  | .destroy this => w.live this

/--
The statement itself.  Two objects of one instantiation never reach the
converting operations: overload resolution prefers the plain moves.
-/
def run (call : DeleterCall S Env) : Op S → World S Env → Option (World S Env)
  | .construct this, w => do
      let del ← S.defaultConstruct this.kind
      some (UniqueRc.construct this del w)
  | .constructHandle this hnd, w => do
      let del ← S.defaultConstruct this.kind
      some (UniqueRc.constructHandle this hnd del w)
  | .constructDeleter this hnd del, w =>
      if del.fits this.kind then some (UniqueRc.constructDeleter this hnd del w)
      else none
  | .moveConstruct kind this other left, w =>
      some (UniqueRc.moveConstruct kind this other left w)
  | .convertConstruct this other left, w => do
      if this.kind = other.kind then none else
      let convert ← S.convertHandle other.kind this.kind
      let convertDel ← S.convertDeleter other.kind this.kind
      some (UniqueRc.convertConstruct this other convert convertDel left w)
  | .moveAssign kind this other left, w =>
      UniqueRc.moveAssign call kind this other left w
  | .convertAssign this other left, w => do
      if this.kind = other.kind then none else
      let convert ← S.convertHandle other.kind this.kind
      let convertDel ← S.assignDeleter other.kind this.kind
      UniqueRc.convertAssign call this other convert convertDel left w
  | .swap kind this other, w => some (UniqueRc.swap kind this other w)
  | .reset this hnd, w => UniqueRc.reset call this hnd w
  | .resetInvalid this, w => UniqueRc.resetInvalid call this w
  | .release this, w => some (UniqueRc.release this w).2
  | .destroy this, w => UniqueRc.destroy call this w

def plain : Op S → Bool
  | .convertConstruct .. => false
  | .convertAssign .. => false
  | _ => true

def exec (call : DeleterCall S Env) (op : Op S) (w : World S Env) :
    Option (World S Env) :=
  if op.inLifetime w then op.run call w else none

theorem exec_eq_some_iff {call : DeleterCall S Env} {op : Op S}
    {w w' : World S Env} :
    op.exec call w = some w' ↔
      op.inLifetime w = true ∧ op.run call w = some w' := by
  simp [exec]

theorem run_convertConstruct_eq_some_iff {call : DeleterCall S Env}
    {this other : Obj S} {left : S.Deleter} {w w' : World S Env} :
    (convertConstruct this other left).run call w = some w' ↔
      this.kind ≠ other.kind ∧
      ∃ convert, S.convertHandle other.kind this.kind = some convert ∧
      ∃ convertDel, S.convertDeleter other.kind this.kind = some convertDel ∧
      UniqueRc.convertConstruct this other convert convertDel left w = w' := by
  by_cases hkind : this.kind = other.kind <;>
    simp [run, hkind, Option.bind_eq_some_iff]

theorem run_convertAssign_eq_some_iff {call : DeleterCall S Env}
    {this other : Obj S} {left : S.Deleter} {w w' : World S Env} :
    (convertAssign this other left).run call w = some w' ↔
      this.kind ≠ other.kind ∧
      ∃ convert, S.convertHandle other.kind this.kind = some convert ∧
      ∃ convertDel, S.assignDeleter other.kind this.kind = some convertDel ∧
      UniqueRc.convertAssign call this other convert convertDel left w =
        some w' := by
  by_cases hkind : this.kind = other.kind <;>
    simp [run, hkind, Option.bind_eq_some_iff]

end Op

/-! ## Deleters that only leave a record -/

structure Call (S : Signature) where
  object : Obj S
  deleter : S.Deleter
  handle : S.Handle object.kind
  get : S.Handle object.kind

def recordCall {S : Signature} : DeleterCall S (List (Call S)) :=
  fun this del hnd w => some (w.setEnv (w.env ++ [⟨this, del, hnd, w.getHandle this⟩]))

section RecordCall

variable {S : Signature} {w w' : World S (List (Call S))}

def callOf (this : Obj S) (get : S.Handle this.kind)
    (w : World S (List (Call S))) : List (Call S) :=
  if S.isOwned this.kind (w.getHandle this) then
    [⟨this, w.getDeleter this, w.getHandle this, get⟩]
  else []

theorem callOf_of_not_owned {this : Obj S} {get : S.Handle this.kind}
    (h : S.isOwned this.kind (w.getHandle this) = false) :
    callOf this get w = [] := by
  simp [callOf, h]

theorem reset_recordCall_eq_some_iff {this : Obj S} {hnd : S.Handle this.kind} :
    UniqueRcHolderImpl.reset recordCall this hnd w = some w' ↔
      (S.isOwned this.kind (w.getHandle this) = true →
        S.selfResetCheck = true → w.getHandle this ≠ hnd) ∧
      w' = (w.setHandle this hnd).setEnv (w.env ++ callOf this hnd w) := by
  cases howned : S.isOwned this.kind (w.getHandle this) with
  | false =>
      rw [UniqueRcHolderImpl.reset_of_not_owned recordCall howned,
        callOf_of_not_owned howned, List.append_nil]
      simp only [Bool.false_eq_true, false_implies, true_and, Option.some.injEq]
      exact eq_comm
  | true =>
      by_cases hne : S.selfResetCheck = true → w.getHandle this ≠ hnd
      · rw [UniqueRcHolderImpl.reset_of_owned recordCall howned hne]
        simp only [recordCall, callOf, howned, if_true, Option.some.injEq,
          World.env_setHandle, World.getHandle_setHandle,
          Function.update_self]
        exact ⟨fun h => ⟨fun _ => hne, h.symm⟩, fun h => h.2.symm⟩
      · obtain ⟨hcheck, heq⟩ := Classical.not_imp.mp hne
        obtain rfl : w.getHandle this = hnd := not_not.mp heq
        simp [UniqueRcHolderImpl.reset, howned, hcheck]

theorem moveAssign_recordCall_eq_some_iff {kind : S.Kind} {this other : S.Name}
    {left : S.Deleter} :
    UniqueRc.moveAssign recordCall kind this other left w = some w' ↔
      (S.isOwned kind ((w.setHandle ⟨kind, other⟩ (S.invalid kind)).getHandle
          ⟨kind, this⟩) = true → S.selfResetCheck = true →
        (w.setHandle ⟨kind, other⟩ (S.invalid kind)).getHandle ⟨kind, this⟩ ≠
          w.getHandle ⟨kind, other⟩) ∧
      w' = (UniqueRcHolderImpl.moveInto kind this other left w).setEnv (w.env ++
        callOf ⟨kind, this⟩ (w.getHandle ⟨kind, other⟩)
          (w.setHandle ⟨kind, other⟩ (S.invalid kind))) := by
  rw [UniqueRc.moveAssign, UniqueRcHolderImpl.moveAssign_eq_some_iff]
  simp only [reset_recordCall_eq_some_iff, UniqueRcHolderImpl.moveInto,
    ← World.assignDeleter_setEnv]
  constructor
  · rintro ⟨w₁, ⟨hcheck, rfl⟩, rfl⟩
    exact ⟨hcheck, rfl⟩
  · rintro ⟨hcheck, rfl⟩
    exact ⟨_, ⟨hcheck, rfl⟩, rfl⟩

theorem destroy_recordCall_eq {this : Obj S} :
    UniqueRc.destroy recordCall this w =
      some (((if S.isOwned this.kind (w.getHandle this) then
          w.setHandle this (S.invalid this.kind) else w).setEnv
        (w.env ++ callOf this (S.movedHandle this.kind (w.getHandle this)) w)).endLifetime
          this) := by
  cases howned : S.isOwned this.kind (w.getHandle this) with
  | false =>
      rw [UniqueRc.destroy_of_not_owned recordCall howned,
        callOf_of_not_owned howned, List.append_nil]
      rfl
  | true =>
      rw [UniqueRc.destroy_of_owned recordCall howned, callOf, if_pos howned]
      simp [recordCall, World.setEnv, World.setHandle, World.getHandle]

theorem convertAssign_recordCall_eq_some_iff {this other : Obj S}
    {convert : S.Handle other.kind → S.Handle this.kind}
    {convertDel : S.Deleter → S.Deleter} {left : S.Deleter} :
    UniqueRc.convertAssign recordCall this other convert convertDel left w = some w' ↔
      (S.isOwned this.kind ((w.setHandle other (S.invalid other.kind)).getHandle
          this) = true → S.selfResetCheck = true →
        (w.setHandle other (S.invalid other.kind)).getHandle this ≠
          convert (w.getHandle other)) ∧
      w' = (((w.setHandle other (S.invalid other.kind)).setHandle this
        (convert (w.getHandle other))).assignDeleter this other convertDel
          left).setEnv (w.env ++ callOf this (convert (w.getHandle other))
            (w.setHandle other (S.invalid other.kind))) := by
  rw [UniqueRc.convertAssign_eq_some_iff]
  simp only [UniqueRc.reset, reset_recordCall_eq_some_iff,
    ← World.assignDeleter_setEnv]
  constructor
  · rintro ⟨w₁, ⟨hcheck, rfl⟩, rfl⟩
    exact ⟨hcheck, rfl⟩
  · rintro ⟨hcheck, rfl⟩
    exact ⟨_, ⟨hcheck, rfl⟩, rfl⟩

end RecordCall

/--
What a program can do in one operation, if deleters only leave a record: the
operands, the conditions under which it runs, and the world it leaves.
-/
inductive Executed {S : Signature} (w : World S (List (Call S))) :
    Op S → World S (List (Call S)) → Prop
  | construct {this : Obj S} {del : S.Deleter} (hlive : w.live this = false)
      (hdel : S.defaultConstruct this.kind = some del) :
      Executed w (.construct this)
        (w.construct this ⟨S.invalid this.kind, .value del⟩)
  | constructHandle {this : Obj S} {hnd : S.Handle this.kind} {del : S.Deleter}
      (hlive : w.live this = false)
      (hdel : S.defaultConstruct this.kind = some del) :
      Executed w (.constructHandle this hnd) (w.construct this ⟨hnd, .value del⟩)
  | constructDeleter {this : Obj S} {hnd : S.Handle this.kind}
      {del : DeleterMember S} (hlive : w.live this = false)
      (hfits : del.fits this.kind = true) :
      Executed w (.constructDeleter this hnd del) (w.construct this ⟨hnd, del⟩)
  | moveConstruct {kind : S.Kind} {this other : S.Name} {left : S.Deleter}
      (hthis : w.live ⟨kind, this⟩ = false) (hother : w.live ⟨kind, other⟩ = true) :
      Executed w (.moveConstruct kind this other left)
        (UniqueRcHolderImpl.moveConstruct kind this other left w)
  | convertConstruct {this other : Obj S} {left : S.Deleter}
      {convert : S.Handle other.kind → S.Handle this.kind}
      {convertDel : S.Deleter → S.Deleter}
      (hthis : w.live this = false) (hother : w.live other = true)
      (hkind : this.kind ≠ other.kind)
      (hconvert : S.convertHandle other.kind this.kind = some convert)
      (hconvertDel : S.convertDeleter other.kind this.kind = some convertDel) :
      Executed w (.convertConstruct this other left)
        (UniqueRc.convertConstruct this other convert convertDel left w)
  | moveAssign {kind : S.Kind} {this other : S.Name} {left : S.Deleter}
      (hthis : w.live ⟨kind, this⟩ = true) (hother : w.live ⟨kind, other⟩ = true) :
      Executed w (.moveAssign kind this other left)
        ((UniqueRcHolderImpl.moveInto kind this other left w).setEnv (w.env ++
          callOf ⟨kind, this⟩ (w.getHandle ⟨kind, other⟩)
            (w.setHandle ⟨kind, other⟩ (S.invalid kind))))
  | convertAssign {this other : Obj S} {left : S.Deleter}
      {convert : S.Handle other.kind → S.Handle this.kind}
      {convertDel : S.Deleter → S.Deleter}
      (hthis : w.live this = true) (hother : w.live other = true)
      (hkind : this.kind ≠ other.kind)
      (hconvert : S.convertHandle other.kind this.kind = some convert)
      (hconvertDel : S.assignDeleter other.kind this.kind = some convertDel) :
      Executed w (.convertAssign this other left)
        ((((w.setHandle other (S.invalid other.kind)).setHandle this
          (convert (w.getHandle other))).assignDeleter this other convertDel
            left).setEnv (w.env ++ callOf this (convert (w.getHandle other))
              (w.setHandle other (S.invalid other.kind))))
  | swap {kind : S.Kind} {this other : S.Name}
      (hthis : w.live ⟨kind, this⟩ = true) (hother : w.live ⟨kind, other⟩ = true) :
      Executed w (.swap kind this other) (UniqueRcHolderImpl.swap kind this other w)
  | reset {this : Obj S} {hnd : S.Handle this.kind} (hlive : w.live this = true) :
      Executed w (.reset this hnd)
        ((w.setHandle this hnd).setEnv (w.env ++ callOf this hnd w))
  | resetInvalid {this : Obj S} (hlive : w.live this = true) :
      Executed w (.resetInvalid this)
        ((w.setHandle this (S.invalid this.kind)).setEnv
          (w.env ++ callOf this (S.invalid this.kind) w))
  | release {this : Obj S} (hlive : w.live this = true) :
      Executed w (.release this) (w.setHandle this (S.invalid this.kind))
  | destroy {this : Obj S} (hlive : w.live this = true) :
      Executed w (.destroy this)
        (((if S.isOwned this.kind (w.getHandle this) then
            w.setHandle this (S.invalid this.kind) else w).setEnv
          (w.env ++ callOf this (S.movedHandle this.kind (w.getHandle this)) w)).endLifetime
            this)

theorem Op.executed_of_exec {S : Signature} {op : Op S}
    {w w' : World S (List (Call S))} (hexec : op.exec recordCall w = some w') :
    Executed w op w' := by
  obtain ⟨hlive, hrun⟩ := exec_eq_some_iff.mp hexec
  cases op with
  | construct this =>
      obtain ⟨del, hdel, hbuilt⟩ := Option.bind_eq_some_iff.mp hrun
      simp only [inLifetime, Bool.not_eq_true'] at hlive
      exact Option.some.inj hbuilt ▸ .construct hlive hdel
  | constructHandle this hnd =>
      obtain ⟨del, hdel, hbuilt⟩ := Option.bind_eq_some_iff.mp hrun
      simp only [inLifetime, Bool.not_eq_true'] at hlive
      exact Option.some.inj hbuilt ▸ .constructHandle hlive hdel
  | constructDeleter this hnd del =>
      obtain ⟨hfits, hbuilt⟩ := Option.ite_none_right_eq_some.mp hrun
      simp only [inLifetime, Bool.not_eq_true'] at hlive
      exact Option.some.inj hbuilt ▸ .constructDeleter hlive hfits
  | moveConstruct kind this other left =>
      simp only [inLifetime, Bool.and_eq_true, Bool.not_eq_true'] at hlive
      exact Option.some.inj hrun ▸ .moveConstruct hlive.1 hlive.2
  | convertConstruct this other left =>
      simp only [inLifetime, Bool.and_eq_true, Bool.not_eq_true'] at hlive
      obtain ⟨hkind, convert, hconvert, convertDel, hconvertDel, rfl⟩ :=
        run_convertConstruct_eq_some_iff.mp hrun
      exact .convertConstruct hlive.1 hlive.2 hkind hconvert hconvertDel
  | moveAssign kind this other left =>
      simp only [inLifetime, Bool.and_eq_true] at hlive
      obtain ⟨-, rfl⟩ := moveAssign_recordCall_eq_some_iff.mp hrun
      exact .moveAssign hlive.1 hlive.2
  | convertAssign this other left =>
      simp only [inLifetime, Bool.and_eq_true] at hlive
      obtain ⟨hkind, convert, hconvert, convertDel, hconvertDel, hassign⟩ :=
        run_convertAssign_eq_some_iff.mp hrun
      obtain ⟨-, rfl⟩ := convertAssign_recordCall_eq_some_iff.mp hassign
      exact .convertAssign hlive.1 hlive.2 hkind hconvert hconvertDel
  | swap kind this other =>
      simp only [inLifetime, Bool.and_eq_true] at hlive
      exact Option.some.inj hrun ▸ .swap hlive.1 hlive.2
  | reset this hnd =>
      obtain ⟨-, rfl⟩ := reset_recordCall_eq_some_iff.mp hrun
      exact .reset hlive
  | resetInvalid this =>
      obtain ⟨-, rfl⟩ := reset_recordCall_eq_some_iff.mp hrun
      exact .resetInvalid hlive
  | release this => exact Option.some.inj hrun ▸ .release hlive
  | destroy this =>
      simp only [run, destroy_recordCall_eq, Option.some.injEq] at hrun
      exact hrun ▸ .destroy hlive

end Raii
