import Mathlib.Data.List.Forall2
import Raii.Foundation.Run
import Raii.UniquePtr

/-!
# `unique_ptr` refines `std::unique_ptr`

The reference is the specification of `std::unique_ptr` in the C++ standard,
read as a machine of its own: an object is a stored pointer and a stored
deleter, and each member function does what its *Effects* paragraph says.  One
thing is left open, since the destructors differ in it: what `get()` answers
while the deleter runs that a destructor has called.  The standard passes
`get()` itself, so there the stored pointer stays; `unique_rc` moves it out.
-/

namespace Raii

open Foundation
open Nullable (null)

namespace StdUniquePtr

variable {P : PtrSignature}

structure Stored (P : PtrSignature) (kind : P.Kind) where
  pointer : P.Pointer kind
  deleter : P.Deleter

structure Machine (P : PtrSignature) where
  objects : (obj : Obj P.signature) → Option (Stored P obj.kind)
  calls : List (Call P.signature)

def Machine.initial : Machine P := ⟨fun _ => none, []⟩

def store (obj : Obj P.signature) (stored : Option (Stored P obj.kind))
    (m : Machine P) : Machine P :=
  { m with objects := Function.update m.objects obj stored }

def create (this : Obj P.signature) (stored : Stored P this.kind) (m : Machine P) :
    Option (Machine P) :=
  if (m.objects this).isNone then some (store this (some stored) m) else none

def callDeleter (this : Obj P.signature) (ptr : P.Pointer this.kind)
    (m : Machine P) : Option (Machine P) := do
  let stored ← m.objects this
  some { m with calls := m.calls ++ [⟨this, stored.deleter, ptr, stored.pointer⟩] }

def dispose (this : Obj P.signature) (old : P.Pointer this.kind) (m : Machine P) :
    Option (Machine P) :=
  if toBool old then callDeleter this old m else some m

def reset (this : Obj P.signature) (p : P.Pointer this.kind) (m : Machine P) :
    Option (Machine P) := do
  let stored ← m.objects this
  dispose this stored.pointer (store this (some { stored with pointer := p }) m)

def release (u : Obj P.signature) (m : Machine P) :
    Option (P.Pointer u.kind × Machine P) := do
  let stored ← m.objects u
  some (stored.pointer, store u (some { stored with pointer := null }) m)

/--
`get_deleter() = std::forward<E>(u.get_deleter())`.  A deleter that is assigned
to itself stays as it is.
-/
def assignDeleter (this u : Obj P.signature) (convert : P.Deleter → P.Deleter)
    (left : P.Deleter) (m : Machine P) : Option (Machine P) := do
  let target ← m.objects this
  let source ← m.objects u
  if this = u then some m else
  let m := store this (some { target with deleter := convert source.deleter }) m
  some (store u (some { source with deleter := left }) m)

def moveConstruct (this u : Obj P.signature)
    (convert : P.Pointer u.kind → P.Pointer this.kind)
    (convertDel : P.Deleter → P.Deleter) (left : P.Deleter) (m : Machine P) :
    Option (Machine P) := do
  let source ← m.objects u
  let m := store u (some ⟨null, left⟩) m
  create this ⟨convert source.pointer, convertDel source.deleter⟩ m

/-- Calls `reset(u.release())`, then assigns the deleter. -/
def moveAssign (this u : Obj P.signature)
    (convert : P.Pointer u.kind → P.Pointer this.kind)
    (convertDel : P.Deleter → P.Deleter) (left : P.Deleter) (m : Machine P) :
    Option (Machine P) := do
  let (ptr, m) ← release u m
  let m ← reset this (convert ptr) m
  assignDeleter this u convertDel left m

def swap (kind : P.Kind) (this u : P.Name) (m : Machine P) : Option (Machine P) := do
  let stored ← m.objects ⟨kind, this⟩
  let stored' ← m.objects ⟨kind, u⟩
  some (store ⟨kind, u⟩ (some stored) (store ⟨kind, this⟩ (some stored') m))

/-- What a destructor leaves in the stored pointer while it calls the deleter. -/
abbrev Leaves (P : PtrSignature) := (kind : P.Kind) → P.Pointer kind → P.Pointer kind

/-- `get_deleter()(get())`. -/
def standard : Leaves P := fun _ ptr => ptr

/-- If `get() == nullptr` there are no effects; otherwise the deleter is called on `get()`. -/
def destroy (leaves : Leaves P) (this : Obj P.signature) (m : Machine P) :
    Option (Machine P) := do
  let stored ← m.objects this
  let m ← dispose this stored.pointer
    (store this (some { stored with pointer := leaves this.kind stored.pointer }) m)
  some (store this none m)

/-- The pointer conversions that the *Constraints* of the converting members admit. -/
def conversion (source target : P.Kind) :
    Option (P.Pointer source → P.Pointer target) :=
  match P.isArray source, P.isArray target with
  | false, false => P.convertPointer source target
  | true, true =>
      if P.convertArray source target then P.convertPointer source target else none
  | _, _ => none

def step (leaves : Leaves P) : PtrOp P → Machine P → Option (Machine P)
  | .construct this, m => do
      let del ← P.defaultDeleter this.kind
      create this ⟨null, del⟩ m
  | .constructNullptr this, m => do
      let del ← P.defaultDeleter this.kind
      create this ⟨null, del⟩ m
  | .constructPointer this p, m => do
      let del ← P.defaultDeleter this.kind
      create this ⟨p, del⟩ m
  | .constructDeleter this p del, m => create this ⟨p, del⟩ m
  | .moveConstruct kind this u left, m =>
      moveConstruct ⟨kind, this⟩ ⟨kind, u⟩ id id left m
  | .convertConstruct this u left, m => do
      if this.kind = u.kind then none else
      let convert ← conversion u.kind this.kind
      let convertDel ← P.convertDeleter u.kind this.kind
      moveConstruct this u convert convertDel left m
  | .moveAssign kind this u left, m =>
      moveAssign ⟨kind, this⟩ ⟨kind, u⟩ id id left m
  | .convertAssign this u left, m => do
      if this.kind = u.kind then none else
      let convert ← conversion u.kind this.kind
      let convertDel ← P.assignDeleter u.kind this.kind
      moveAssign this u convert convertDel left m
  | .assignNullptr this, m => reset this null m
  | .reset this p, m => reset this p m
  | .resetNullptr this, m => reset this null m
  | .release u, m => (release u m).map (·.2)
  | .swap kind this u, m => swap kind this u m
  | .destroy this, m => destroy leaves this m

end StdUniquePtr

/-! ## The machine a world implements -/

namespace StdUniquePtr

variable {P : PtrSignature} {w : World P.signature (List (Call P.signature))}

def abstraction (w : World P.signature (List (Call P.signature))) : Machine P where
  objects obj :=
    if w.live obj then some ⟨w.getHandle obj, w.getDeleter obj⟩ else none
  calls := w.env

theorem deleterRef_eq_inl (obj : Obj P.signature) : w.deleterRef obj = .inl obj := by
  cases hdel : (w.objects obj).deleter with
  | value del => simp only [World.deleterRef, hdel]
  | reference cell => exact cell.elim

theorem objects_of_live {obj : Obj P.signature} (h : w.live obj = true) :
    (abstraction w).objects obj = some ⟨w.getHandle obj, w.getDeleter obj⟩ :=
  if_pos h

theorem objects_of_dead {obj : Obj P.signature} (h : w.live obj = false) :
    (abstraction w).objects obj = none := by
  simp [abstraction, h]

theorem abstraction_eq_store {w' : World P.signature (List (Call P.signature))}
    {obj : Obj P.signature} {stored : Option (Stored P obj.kind)}
    (hobj : (abstraction w').objects obj = stored)
    (hother : ∀ other, other ≠ obj →
      (abstraction w').objects other = (abstraction w).objects other)
    (hcalls : w'.env = w.env) :
    abstraction w' = store obj stored (abstraction w) := by
  have hobjects : (abstraction w').objects =
      Function.update (abstraction w).objects obj stored :=
    Function.eq_update_iff.mpr ⟨hobj, hother⟩
  simp only [store, ← hobjects]
  rw [abstraction, abstraction, hcalls]

theorem abstraction_eq_store_store {w' : World P.signature (List (Call P.signature))}
    {first second : Obj P.signature} {stored : Option (Stored P first.kind)}
    {stored' : Option (Stored P second.kind)}
    (hsecond : (abstraction w').objects second = stored')
    (hfirst : first ≠ second → (abstraction w').objects first = stored)
    (hother : ∀ other, other ≠ first → other ≠ second →
      (abstraction w').objects other = (abstraction w).objects other)
    (hcalls : w'.env = w.env) :
    abstraction w' = store second stored' (store first stored (abstraction w)) := by
  have hobjects : (abstraction w').objects = Function.update
      (Function.update (abstraction w).objects first stored) second stored' := by
    refine Function.eq_update_iff.mpr ⟨hsecond, fun other hne => ?_⟩
    by_cases heq : other = first
    · subst heq
      simpa using hfirst hne
    · simpa [heq] using hother other heq hne
  simp only [store, ← hobjects]
  rw [abstraction, abstraction, hcalls]

theorem abstraction_setHandle {obj : Obj P.signature} (hlive : w.live obj = true)
    (ptr : P.Pointer obj.kind) :
    abstraction (w.setHandle obj ptr) =
      store obj (some ⟨ptr, w.getDeleter obj⟩) (abstraction w) := by
  apply abstraction_eq_store
  · simp [abstraction, hlive]
  · intro other h
    simp [abstraction, h]
  · rfl

theorem abstraction_setDeleter {obj : Obj P.signature} (hlive : w.live obj = true)
    (del : P.Deleter) :
    abstraction (w.setDeleter obj del) =
      store obj (some ⟨w.getHandle obj, del⟩) (abstraction w) := by
  have hdeleter := World.getDeleter_setDeleter_of_value obj del w (deleterRef_eq_inl obj)
  apply abstraction_eq_store
  · simp [abstraction, hlive]
  · intro other h
    simp [abstraction, hdeleter, h]
  · simp

theorem abstraction_construct (obj : Obj P.signature) (ptr : P.Pointer obj.kind)
    (del : P.Deleter) :
    abstraction (w.construct obj ⟨ptr, .value del⟩) =
      store obj (some ⟨ptr, del⟩) (abstraction w) := by
  apply abstraction_eq_store
  · simp [abstraction]
  · intro other h
    simp [abstraction, h]
  · rfl

theorem abstraction_endLifetime (obj : Obj P.signature) :
    abstraction (w.endLifetime obj) = store obj none (abstraction w) := by
  apply abstraction_eq_store
  · simp [abstraction]
  · intro other h
    simp [abstraction, h]
  · rfl

theorem store_store (obj : Obj P.signature) (first second : Option (Stored P obj.kind))
    (m : Machine P) : store obj second (store obj first m) = store obj second m := by
  simp [store]

theorem create_abstraction {this : Obj P.signature} (hlive : w.live this = false)
    (ptr : P.Pointer this.kind) (del : P.Deleter) :
    create this ⟨ptr, del⟩ (abstraction w) =
      some (abstraction (w.construct this ⟨ptr, .value del⟩)) := by
  rw [create, objects_of_dead hlive, abstraction_construct]
  rfl

theorem dispose_abstraction {this : Obj P.signature} (hlive : w.live this = true)
    (old : P.Pointer this.kind) :
    dispose this old (abstraction w) =
      some (abstraction (w.setEnv (w.env ++
        if toBool old then [⟨this, w.getDeleter this, old, w.getHandle this⟩]
        else []))) := by
  cases howned : toBool old with
  | false =>
      rw [dispose, howned, if_neg Bool.false_ne_true, if_neg Bool.false_ne_true,
        List.append_nil]
      rfl
  | true =>
      rw [dispose, howned, if_pos rfl, if_pos rfl, callDeleter, objects_of_live hlive]
      rfl

theorem reset_abstraction {this : Obj P.signature} (hlive : w.live this = true)
    (ptr : P.Pointer this.kind) :
    reset this ptr (abstraction w) =
      some (abstraction ((w.setHandle this ptr).setEnv (w.env ++ callOf this ptr w))) := by
  rw [reset, objects_of_live hlive, Option.bind_eq_bind, Option.bind_some,
    ← abstraction_setHandle hlive, dispose_abstraction (by simpa using hlive),
    World.getDeleter_setHandle, World.getHandle_setHandle, Function.update_self]
  rfl

theorem release_abstraction {u : Obj P.signature} (hlive : w.live u = true) :
    release u (abstraction w) =
      some (w.getHandle u, abstraction (w.setHandle u (null : P.Pointer u.kind))) := by
  rw [release, objects_of_live hlive, abstraction_setHandle hlive]
  rfl

theorem assignDeleter_abstraction {this u : Obj P.signature}
    (hthis : w.live this = true) (hu : w.live u = true)
    (convert : P.Deleter → P.Deleter) (left : P.Deleter) :
    assignDeleter this u convert left (abstraction w) =
      some (abstraction (w.assignDeleter this u convert left)) := by
  rw [assignDeleter, objects_of_live hthis, objects_of_live hu,
    World.assignDeleter_of_value _ _ _ _ _ (deleterRef_eq_inl u)]
  by_cases heq : this = u
  · simp [heq]
  · rw [if_neg heq, abstraction_setDeleter (by simpa using hu),
      abstraction_setDeleter hthis]
    simp [heq]

theorem convertConstruct_abstraction {this u : Obj P.signature}
    (hthis : w.live this = false) (hu : w.live u = true)
    (convert : P.Pointer u.kind → P.Pointer this.kind)
    (convertDel : P.Deleter → P.Deleter) (left : P.Deleter) :
    moveConstruct this u convert convertDel left (abstraction w) =
      some (abstraction (UniqueRc.convertConstruct this u convert convertDel left w)) := by
  have hforward := World.deleter_eq_value
    (deleterRef_eq_inl (w := w.setHandle u (null : P.Pointer u.kind)) u)
  have hsource : abstraction ((w.setHandle u (null : P.Pointer u.kind)).setDeleter u left) =
      store u (some ⟨null, left⟩) (abstraction w) := by
    rw [abstraction_setDeleter (by simpa using hu), abstraction_setHandle hu, store_store]
    simp
  simp only [moveConstruct, objects_of_live hu, Option.bind_eq_bind, Option.bind_some,
    ← hsource]
  rw [create_abstraction (by simpa using hthis)]
  simp [UniqueRc.convertConstruct, UniqueRc.release, UniqueRcHolderImpl.release,
    UniqueRc.forwardDeleter, hforward]

theorem moveConstruct_abstraction {kind : P.Kind} {this u : P.Name}
    (hthis : w.live ⟨kind, this⟩ = false) (hu : w.live ⟨kind, u⟩ = true)
    (left : P.Deleter) :
    moveConstruct ⟨kind, this⟩ ⟨kind, u⟩ id id left (abstraction w) =
      some (abstraction (UniqueRc.moveConstruct kind this u left w)) := by
  have hne : (⟨kind, u⟩ : Obj P.signature) ≠ ⟨kind, this⟩ := by
    intro heq
    rw [heq, hthis] at hu
    exact Bool.false_ne_true hu
  have hhandles := UniqueRcHolderImpl.getHandle_moveConstruct kind this u left w
  have hdeleters := UniqueRcHolderImpl.getDeleter_moveConstruct_of_value
    kind this u left w (deleterRef_eq_inl _)
  simp only [moveConstruct, objects_of_live hu, Option.bind_eq_bind, Option.bind_some]
  rw [create, if_pos (by simp [store, hne.symm, objects_of_dead hthis])]
  refine congrArg some (abstraction_eq_store_store ?_ ?_ ?_ ?_).symm
  · simp [UniqueRc.moveConstruct, abstraction, hhandles, hdeleters, hne.symm]
  · intro _
    simp [UniqueRc.moveConstruct, abstraction, hhandles, hdeleters, hne, hu]
  · intro other hsource htarget
    simp [UniqueRc.moveConstruct, abstraction, hhandles, hdeleters, hsource, htarget]
  · simp [UniqueRc.moveConstruct]

theorem moveAssign_abstraction {this u : Obj P.signature}
    (hthis : w.live this = true) (hu : w.live u = true)
    (convert : P.Pointer u.kind → P.Pointer this.kind)
    (convertDel : P.Deleter → P.Deleter) (left : P.Deleter) :
    moveAssign this u convert convertDel left (abstraction w) =
      some (abstraction ((((w.setHandle u (null : P.Pointer u.kind)).setHandle this
        (convert (w.getHandle u))).assignDeleter this u convertDel left).setEnv
          (w.env ++ callOf this (convert (w.getHandle u))
            (w.setHandle u (null : P.Pointer u.kind))))) := by
  simp only [moveAssign, release_abstraction hu, Option.bind_eq_bind, Option.bind_some]
  rw [reset_abstraction (by simpa using hthis), Option.bind_some,
    assignDeleter_abstraction (by simpa using hthis) (by simpa using hu),
    World.assignDeleter_setEnv]
  rfl

theorem swap_abstraction {kind : P.Kind} {this u : P.Name}
    (hthis : w.live ⟨kind, this⟩ = true) (hu : w.live ⟨kind, u⟩ = true) :
    StdUniquePtr.swap kind this u (abstraction w) =
      some (abstraction (UniqueRc.swap kind this u w)) := by
  have hhandles := UniqueRcHolderImpl.getHandle_swap kind this u w
  have hdeleters := UniqueRcHolderImpl.getDeleter_swap_of_value kind this u w
    (deleterRef_eq_inl _) (deleterRef_eq_inl _)
  simp only [StdUniquePtr.swap, objects_of_live hthis, objects_of_live hu,
    Option.bind_eq_bind, Option.bind_some]
  refine congrArg some (abstraction_eq_store_store ?_ ?_ ?_ ?_).symm
  · simp [UniqueRc.swap, abstraction, hhandles, hdeleters, hu]
  · intro hne
    simp [UniqueRc.swap, abstraction, hhandles, hdeleters, hthis, hne]
  · intro other hfirst hsecond
    simp [UniqueRc.swap, abstraction, hhandles, hdeleters, hfirst, hsecond]
  · simp [UniqueRc.swap]

theorem destroy_abstraction {leaves : Leaves P} {this : Obj P.signature}
    (hlive : w.live this = true)
    (hleaves : toBool (w.getHandle this) = true →
      leaves this.kind (w.getHandle this) = P.movedPointer this.kind (w.getHandle this)) :
    destroy leaves this (abstraction w) =
      (UniqueRc.destroy recordCall this w).map abstraction := by
  have hcalled : dispose this (w.getHandle this)
      (store this (some ⟨leaves this.kind (w.getHandle this), w.getDeleter this⟩)
        (abstraction w)) =
      some (store this (some ⟨leaves this.kind (w.getHandle this), w.getDeleter this⟩)
        (abstraction (w.setEnv (w.env ++
          callOf this (P.movedPointer this.kind (w.getHandle this)) w)))) := by
    have hcall : (if toBool (w.getHandle this) then
        [⟨this, w.getDeleter this, w.getHandle this, leaves this.kind (w.getHandle this)⟩]
        else []) = callOf this (P.movedPointer this.kind (w.getHandle this)) w := by
      unfold callOf
      split
      case isTrue howned => rw [if_pos (by exact howned), hleaves howned]
      case isFalse hnull => rw [if_neg (by exact hnull)]
    rw [← abstraction_setHandle hlive, dispose_abstraction (by simpa using hlive)]
    simp only [World.env_setHandle, World.getDeleter_setHandle, World.getHandle_setHandle,
      Function.update_self, hcall]
    have hset := abstraction_setHandle (w := w.setEnv (w.env ++
      callOf this (P.movedPointer this.kind (w.getHandle this)) w)) hlive
      (leaves this.kind (w.getHandle this))
    exact congrArg some hset
  rw [destroy, objects_of_live hlive, destroy_recordCall_eq, Option.bind_eq_bind,
    Option.bind_some, hcalled, Option.bind_eq_bind, Option.bind_some, Option.map_some,
    abstraction_endLifetime, store_store]
  cases howned : P.signature.isOwned this.kind (w.getHandle this) with
  | false => rfl
  | true =>
      have hcleared := abstraction_setHandle
        (w := w.setEnv (w.env ++
          callOf this (P.movedPointer this.kind (w.getHandle this)) w)) hlive
        (null : P.Pointer this.kind)
      rw [if_pos rfl, ← store_store this _ none, ← hcleared]
      rfl

theorem create_of_live {this : Obj P.signature} (hlive : w.live this = true)
    (stored : Stored P this.kind) : create this stored (abstraction w) = none := by
  rw [create, objects_of_live hlive]
  rfl

theorem create_eq_map {this : Obj P.signature} (ptr : P.Pointer this.kind)
    (del : P.Deleter) :
    create this ⟨ptr, del⟩ (abstraction w) =
      ((Op.constructDeleter this ptr (.value del)).exec recordCall w).map abstraction := by
  cases hlive : w.live this with
  | false =>
      rw [create_abstraction hlive]
      simp [Op.exec, Op.inLifetime, Op.run, hlive, DeleterMember.fits,
        UniqueRc.constructDeleter]
  | true => simp [create_of_live hlive, Op.exec, Op.inLifetime, hlive]

theorem create_default_eq_map {this : Obj P.signature} (ptr : P.Pointer this.kind) :
    ((P.defaultDeleter this.kind).bind fun del =>
      create this ⟨ptr, del⟩ (abstraction w)) =
        ((Op.constructHandle this ptr).exec recordCall w).map abstraction := by
  cases hdel : P.defaultDeleter this.kind with
  | none => simp [Op.exec, Op.run, Signature.defaultConstruct, hdel]
  | some del =>
      rw [Option.bind_some, create_eq_map]
      simp [Op.exec, Op.run, Op.inLifetime, Signature.defaultConstruct, hdel, DeleterMember.fits,
        UniqueRc.constructDeleter, UniqueRc.constructHandle]

theorem reset_eq_map {this : Obj P.signature} (ptr : P.Pointer this.kind) :
    reset this ptr (abstraction w) =
      ((Op.reset this ptr).exec recordCall w).map abstraction := by
  cases hlive : w.live this with
  | false => simp [reset, objects_of_dead hlive, Op.exec, Op.inLifetime, hlive]
  | true =>
      have hreset : UniqueRc.reset recordCall this ptr w =
          some ((w.setHandle this ptr).setEnv (w.env ++ callOf this ptr w)) :=
        reset_recordCall_eq_some_iff.mpr
          ⟨fun _ hcheck => absurd hcheck Bool.false_ne_true, rfl⟩
      rw [reset_abstraction hlive, Op.exec, Op.inLifetime, Op.run, if_pos hlive, hreset,
        Option.map_some]

theorem resetNullptr_eq_map (this : Obj P.signature) :
    reset this null (abstraction w) =
      ((UniquePtr.resetNullptr this).exec recordCall w).map abstraction := by
  rw [reset_eq_map, UniquePtr.resetNullptr]
  split <;> rfl

theorem conversion_eq (source target : P.Kind) :
    conversion source target =
      if P.safeConversionFrom source target then P.convertPointer source target
      else none := by
  unfold conversion PtrSignature.safeConversionFrom
  cases P.isArray source <;> cases P.isArray target <;>
    cases P.convertPointer source target <;> simp

theorem moveAssign_of_dead {this u : Obj P.signature}
    (hdead : (w.live this && w.live u) = false)
    (convert : P.Pointer u.kind → P.Pointer this.kind)
    (convertDel : P.Deleter → P.Deleter) (left : P.Deleter) :
    moveAssign this u convert convertDel left (abstraction w) = none := by
  cases hu : w.live u with
  | false =>
      rw [moveAssign, release, objects_of_dead hu]
      rfl
  | true =>
      rw [hu, Bool.and_true] at hdead
      simp only [moveAssign, release_abstraction hu, Option.bind_eq_bind, Option.bind_some]
      rw [reset, objects_of_dead (by simpa using hdead)]
      rfl

theorem moveConstruct_of_dead {this u : Obj P.signature}
    (hdead : (!w.live this && w.live u) = false)
    (convert : P.Pointer u.kind → P.Pointer this.kind)
    (convertDel : P.Deleter → P.Deleter) (left : P.Deleter) :
    moveConstruct this u convert convertDel left (abstraction w) = none := by
  cases hu : w.live u with
  | false =>
      rw [moveConstruct, objects_of_dead hu]
      rfl
  | true =>
      rw [hu, Bool.and_true, Bool.not_eq_false'] at hdead
      simp only [moveConstruct, objects_of_live hu, Option.bind_eq_bind, Option.bind_some]
      by_cases heq : this = u
      · subst heq
        simp [create, store]
      · simp [create, store, heq, objects_of_live hdead]

theorem converting_eq_map {α β : Type} {f : α → β} {source target : P.Kind}
    {convertDel : Option (P.Deleter → P.Deleter)} {accepted alive : Bool}
    {member : (P.Pointer source → P.Pointer target) → (P.Deleter → P.Deleter) → Option α}
    {reference : (P.Pointer source → P.Pointer target) → (P.Deleter → P.Deleter) →
      Option β}
    (haccepted : accepted = P.safeConversionFrom source target)
    (hmember : ∀ convert convertDel, reference convert convertDel =
      (if alive then member convert convertDel else none).map f) :
    (if target = source then none
      else (conversion source target).bind fun convert => convertDel.bind fun convertDel =>
        reference convert convertDel) =
      (if accepted then
        if alive then
          if target = source then none
          else (P.convertPointer source target).bind fun convert =>
            convertDel.bind fun convertDel => member convert convertDel
        else none
      else none).map f := by
  rw [conversion_eq, haccepted]
  by_cases hkind : target = source
  · simp [hkind]
  cases P.safeConversionFrom source target with
  | false => simp [hkind]
  | true =>
      cases P.convertPointer source target with
      | none => simp [hkind]
      | some convert =>
          cases convertDel with
          | none => simp [hkind]
          | some convertDel => simpa [hkind] using hmember convert convertDel

theorem convertConstruct_eq_map (leaves : Leaves P) (this u : Obj P.signature) (left : P.Deleter) :
    step leaves (.convertConstruct this u left) (abstraction w) =
      ((PtrOp.convertConstruct this u left).exec recordCall w).map abstraction := by
  apply converting_eq_map rfl
  intro convert convertDel
  rw [PtrOp.base, Op.inLifetime]
  cases hlive : !w.live this && w.live u with
  | false => exact moveConstruct_of_dead hlive convert convertDel left
  | true =>
      rw [Bool.and_eq_true, Bool.not_eq_true'] at hlive
      exact convertConstruct_abstraction hlive.1 hlive.2 convert convertDel left

theorem convertAssign_eq_map (leaves : Leaves P) (this u : Obj P.signature) (left : P.Deleter) :
    step leaves (.convertAssign this u left) (abstraction w) =
      ((PtrOp.convertAssign this u left).exec recordCall w).map abstraction := by
  apply converting_eq_map rfl
  intro convert convertDel
  rw [PtrOp.base, Op.inLifetime]
  cases hlive : w.live this && w.live u with
  | false => exact moveAssign_of_dead hlive convert convertDel left
  | true =>
      have hassigned : UniqueRc.convertAssign recordCall this u convert convertDel left w =
          some _ :=
        convertAssign_recordCall_eq_some_iff.mpr
          ⟨fun _ hcheck => absurd hcheck Bool.false_ne_true, rfl⟩
      rw [if_pos rfl, hassigned]
      rw [Bool.and_eq_true] at hlive
      exact moveAssign_abstraction hlive.1 hlive.2 convert convertDel left

theorem moveAssign_eq_map (kind : P.Kind) (this u : P.Name) (left : P.Deleter) :
    moveAssign ⟨kind, this⟩ ⟨kind, u⟩ id id left (abstraction w) =
      ((Op.moveAssign kind this u left).exec recordCall w).map abstraction := by
  cases hlive : w.live ⟨kind, this⟩ && w.live ⟨kind, u⟩ with
  | false => simp [moveAssign_of_dead hlive, Op.exec, Op.inLifetime, hlive]
  | true =>
      have hassigned : UniqueRc.moveAssign recordCall kind this u left w = some _ :=
        moveAssign_recordCall_eq_some_iff.mpr
          ⟨fun _ hcheck => absurd hcheck Bool.false_ne_true, rfl⟩
      rw [Op.exec, Op.inLifetime, Op.run, if_pos hlive, hassigned]
      rw [Bool.and_eq_true] at hlive
      exact moveAssign_abstraction hlive.1 hlive.2 id id left

theorem moveConstruct_eq_map (kind : P.Kind) (this u : P.Name) (left : P.Deleter) :
    moveConstruct ⟨kind, this⟩ ⟨kind, u⟩ id id left (abstraction w) =
      ((Op.moveConstruct kind this u left).exec recordCall w).map abstraction := by
  cases hlive : !w.live ⟨kind, this⟩ && w.live ⟨kind, u⟩ with
  | false => simp [moveConstruct_of_dead hlive, Op.exec, Op.inLifetime, hlive]
  | true =>
      rw [Op.exec, Op.inLifetime, Op.run, if_pos hlive]
      rw [Bool.and_eq_true, Bool.not_eq_true'] at hlive
      exact moveConstruct_abstraction hlive.1 hlive.2 left

theorem release_eq_map (u : Obj P.signature) :
    (release u (abstraction w)).map (·.2) =
      ((Op.release u).exec recordCall w).map abstraction := by
  cases hlive : w.live u with
  | false => simp [release, objects_of_dead hlive, Op.exec, Op.inLifetime, hlive]
  | true =>
      rw [release_abstraction hlive, Op.exec, Op.inLifetime, Op.run, if_pos hlive]
      rfl

theorem swap_eq_map (kind : P.Kind) (this u : P.Name) :
    swap kind this u (abstraction w) =
      ((Op.swap kind this u).exec recordCall w).map abstraction := by
  cases hlive : w.live ⟨kind, this⟩ && w.live ⟨kind, u⟩ with
  | false =>
      rw [Op.exec, Op.inLifetime, hlive]
      cases hthis : w.live ⟨kind, this⟩ with
      | false => simp [swap, objects_of_dead hthis]
      | true =>
          rw [hthis, Bool.true_and] at hlive
          simp [swap, objects_of_live hthis, objects_of_dead hlive]
  | true =>
      rw [Op.exec, Op.inLifetime, Op.run, if_pos hlive]
      rw [Bool.and_eq_true] at hlive
      exact swap_abstraction hlive.1 hlive.2

theorem destroy_eq_map {leaves : Leaves P}
    (hleaves : ∀ kind ptr, toBool ptr = true → leaves kind ptr = P.movedPointer kind ptr)
    (this : Obj P.signature) :
    destroy leaves this (abstraction w) =
      ((Op.destroy this).exec recordCall w).map abstraction := by
  cases hlive : w.live this with
  | false => simp [destroy, objects_of_dead hlive, Op.exec, Op.inLifetime, hlive]
  | true =>
      rw [Op.exec, Op.inLifetime, Op.run, if_pos hlive]
      exact destroy_abstraction hlive (hleaves _ _)

theorem step_abstraction {leaves : Leaves P}
    (hleaves : ∀ kind ptr, toBool ptr = true → leaves kind ptr = P.movedPointer kind ptr)
    (op : PtrOp P) (w : World P.signature (List (Call P.signature))) :
    step leaves op (abstraction w) = (op.exec recordCall w).map abstraction := by
  cases op with
  | construct this => exact create_default_eq_map null
  | constructNullptr this => exact create_default_eq_map null
  | constructPointer this ptr => exact create_default_eq_map ptr
  | constructDeleter this ptr del => exact create_eq_map ptr del
  | moveConstruct kind this u left => exact moveConstruct_eq_map kind this u left
  | convertConstruct this u left => exact convertConstruct_eq_map leaves this u left
  | moveAssign kind this u left => exact moveAssign_eq_map kind this u left
  | convertAssign this u left => exact convertAssign_eq_map leaves this u left
  | assignNullptr this => exact resetNullptr_eq_map this
  | reset this ptr => exact reset_eq_map ptr
  | resetNullptr this => exact resetNullptr_eq_map this
  | release u => exact release_eq_map u
  | swap kind this u => exact swap_eq_map kind this u
  | destroy this => exact destroy_eq_map hleaves this

end StdUniquePtr

/-! ## Whole runs -/

structure Observed (P : PtrSignature) (kind : P.Kind) where
  get : P.Pointer kind
  operatorBool : Bool
  deleter : P.Deleter

section Runs

variable {P : PtrSignature}

open StdUniquePtr (abstraction)

def UniquePtr.observe (obj : Obj P.signature)
    (w : World P.signature (List (Call P.signature))) : Option (Observed P obj.kind) :=
  if w.live obj then
    some ⟨UniqueRc.get obj w, UniqueRc.operatorBool obj w, w.getDeleter obj⟩
  else none

def StdUniquePtr.observe (obj : Obj P.signature) (m : StdUniquePtr.Machine P) :
    Option (Observed P obj.kind) :=
  (m.objects obj).map fun stored =>
    ⟨stored.pointer, toBool stored.pointer, stored.deleter⟩

/--
All objects look alike, and the same deleters have been called, in the same
order, on the same pointers, while `get()` answered the same.
-/
structure Agree (w : World P.signature (List (Call P.signature)))
    (m : StdUniquePtr.Machine P) : Prop where
  observed : ∀ obj, UniquePtr.observe obj w = StdUniquePtr.observe obj m
  calls : w.env = m.calls

theorem agree_abstraction (w : World P.signature (List (Call P.signature))) :
    Agree w (abstraction w) where
  observed obj := by
    cases hlive : w.live obj with
    | false =>
        simp [UniquePtr.observe, StdUniquePtr.observe, StdUniquePtr.objects_of_dead, hlive]
    | true =>
        rw [UniquePtr.observe, StdUniquePtr.observe, StdUniquePtr.objects_of_live hlive,
          if_pos hlive]
        rfl
  calls := rfl

theorem agree_trace {leaves : StdUniquePtr.Leaves P}
    (hleaves : ∀ kind ptr, toBool ptr = true → leaves kind ptr = P.movedPointer kind ptr)
    (ops : List (PtrOp P)) {w : World P.signature (List (Call P.signature))}
    (hlive : ∀ obj, w.live obj = false) (hcalls : w.env = []) :
    List.Forall₂ Agree (trace (PtrOp.exec recordCall) ops w)
      (trace (StdUniquePtr.step leaves) ops StdUniquePtr.Machine.initial) := by
  have hinitial : abstraction w = StdUniquePtr.Machine.initial := by
    rw [abstraction, StdUniquePtr.Machine.initial, hcalls]
    simp [hlive]
  rw [← hinitial, trace_abstract (StdUniquePtr.step_abstraction hleaves),
    List.forall₂_map_right_iff, List.forall₂_same]
  exact fun _ _ => agree_abstraction _

/--
Both runs take the same steps, agree after each of them, and fail together, if
`get()` answers in a destructor's call what the move has left.  This is the
standard's machine where the move leaves pointers other than null alone.
-/
theorem unique_ptr_refines_std (ops : List (PtrOp P))
    {w : World P.signature (List (Call P.signature))}
    (hlive : ∀ obj, w.live obj = false) (hcalls : w.env = []) :
    List.Forall₂ Agree (trace (PtrOp.exec recordCall) ops w)
        (trace (StdUniquePtr.step P.movedPointer) ops StdUniquePtr.Machine.initial) ∧
      ((∀ kind ptr, toBool ptr = true → P.movedPointer kind ptr = ptr) →
        List.Forall₂ Agree (trace (PtrOp.exec recordCall) ops w)
          (trace (StdUniquePtr.step StdUniquePtr.standard) ops
            StdUniquePtr.Machine.initial)) :=
  ⟨agree_trace (fun _ _ _ => rfl) ops hlive hcalls, fun hmoved =>
    agree_trace (fun kind ptr hptr => (hmoved kind ptr hptr).symm) ops hlive hcalls⟩

end Runs

/-! ## A small program -/

def intPtrSignature : PtrSignature where
  Kind := Bool
  Name := Nat
  Deleter := Nat
  Pointer _ := Nat
  isArray := id
  defaultDeleter _ := some 0
  convertPointer _ _ := none
  convertArray _ _ := false
  convertDeleter _ _ := none
  assignDeleter _ _ := none
  nullable _ := ⟨0⟩

def intPtrWorld : World intPtrSignature.signature (List (Call intPtrSignature.signature)) where
  live _ := false
  objects _ := ⟨(0 : Nat), .value (0 : Nat)⟩
  cells := Empty.elim
  env := []

/-- `p.reset(p.get())`, a move into `p`, and the end of `p`. -/
def intPtrProgram : List (PtrOp intPtrSignature) :=
  [.constructDeleter ⟨true, (1 : Nat)⟩ (8 : Nat) (3 : Nat),
    .constructPointer ⟨true, (2 : Nat)⟩ (16 : Nat),
    .reset ⟨true, (1 : Nat)⟩ (8 : Nat),
    .moveAssign true (1 : Nat) (2 : Nat) (7 : Nat),
    .destroy ⟨true, (1 : Nat)⟩]

theorem unique_ptr_refines_std_selfReset :
    (trace (StdUniquePtr.step StdUniquePtr.standard) intPtrProgram
      StdUniquePtr.Machine.initial).length = 6 ∧
    List.Forall₂ Agree (trace (PtrOp.exec recordCall) intPtrProgram intPtrWorld)
      (trace (StdUniquePtr.step StdUniquePtr.standard) intPtrProgram
        StdUniquePtr.Machine.initial) :=
  ⟨rfl, (unique_ptr_refines_std intPtrProgram (fun _ => rfl) rfl).2 fun _ _ _ => rfl⟩

/-- A fancy pointer whose move constructor clears its source; the deleter takes it by value. -/
def clearedPtrSignature : PtrSignature :=
  { intPtrSignature with movedPointer := fun _ _ => (0 : Nat) }

def clearedPtrWorld :
    World clearedPtrSignature.signature (List (Call clearedPtrSignature.signature)) where
  live _ := false
  objects _ := ⟨(0 : Nat), .value (0 : Nat)⟩
  cells := Empty.elim
  env := []

def clearedPtrProgram : List (PtrOp clearedPtrSignature) :=
  [.constructDeleter ⟨false, (1 : Nat)⟩ (8 : Nat) (3 : Nat), .destroy ⟨false, (1 : Nat)⟩]

theorem not_unique_ptr_refines_std :
    (∃ w m, run (PtrOp.exec recordCall) clearedPtrProgram clearedPtrWorld = some w ∧
      run (StdUniquePtr.step StdUniquePtr.standard) clearedPtrProgram
        StdUniquePtr.Machine.initial = some m ∧
      w.env = [⟨⟨false, (1 : Nat)⟩, (3 : Nat), (8 : Nat), (0 : Nat)⟩] ∧
      m.calls = [⟨⟨false, (1 : Nat)⟩, (3 : Nat), (8 : Nat), (8 : Nat)⟩]) ∧
    ¬ List.Forall₂ Agree (trace (PtrOp.exec recordCall) clearedPtrProgram clearedPtrWorld)
      (trace (StdUniquePtr.step StdUniquePtr.standard) clearedPtrProgram
        StdUniquePtr.Machine.initial) := by
  refine ⟨⟨_, _, rfl, rfl, rfl, rfl⟩, fun h => ?_⟩
  have hcalls := ((List.forall₂_iff_get.mp h).2 2 (by decide) (by decide)).calls
  have hget : [(0 : Nat)] = [8] :=
    congrArg (List.map fun made : Call clearedPtrSignature.signature => (made.get : Nat))
      hcalls
  exact absurd hget (by decide)

end Raii
