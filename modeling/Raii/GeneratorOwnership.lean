import Mathlib.Data.List.Perm.Basic
import Raii.Foundation.Exclusive
import Raii.Generator

/-!
# Who owns a coroutine

At every moment of a program, a coroutine frame is in memory exactly if one
generator owns it.  The iterators own nothing: they dangle as soon as the
generator of their coroutine has destroyed it.
-/

namespace Raii

open Foundation

variable {G : GeneratorShape}

def CoroutineHandle.owned (hnd : CoroutineHandle G.Address) : Option G.Address :=
  if toBool hnd.address then some hnd.address else none

def World.coroutineOf (w : GeneratorWorld G) (this : G.Name) : Option G.Address :=
  if w.live ⟨(), this⟩ then (w.getHandle ⟨(), this⟩).owned else none

def Coroutines.drop (m : Coroutines G) : Option G.Address → Coroutines G
  | none => m
  | some address => (m.setFrame address none).log (.destroyed address)

def World.Managed (w : GeneratorWorld G) : Prop :=
  Exclusive w.coroutineOf fun address => (w.env.frame address).isSome = true

section Owner

variable {w w' : GeneratorWorld G} {this other : G.Name} {address : G.Address}
  {hnd : CoroutineHandle G.Address}

@[simp] theorem owned_null : CoroutineHandle.owned (G := G) ⟨Nullable.null⟩ = none := by
  simp [CoroutineHandle.owned]

theorem owned_of_isOwned (h : G.signature.isOwned () hnd = true) :
    hnd.owned = some hnd.address := if_pos h

theorem owned_of_not_isOwned (h : G.signature.isOwned () hnd = false) : hnd.owned = none :=
  if_neg (Bool.eq_false_iff.mp h)

theorem coroutineOf_of_live (hlive : w.live ⟨(), this⟩ = true) :
    w.coroutineOf this = (w.getHandle ⟨(), this⟩).owned := if_pos hlive

theorem coroutineOf_of_dead (hdead : w.live ⟨(), this⟩ = false) :
    w.coroutineOf this = none := if_neg (Bool.eq_false_iff.mp hdead)

theorem coroutineOf_congr (hlive : w'.live = w.live) (hget : w'.getHandle = w.getHandle) :
    w'.coroutineOf = w.coroutineOf := by
  funext this
  rw [World.coroutineOf, World.coroutineOf, hlive, hget]

theorem coroutineOf_setHandle (hlive : w.live ⟨(), this⟩ = true) :
    (w.setHandle ⟨(), this⟩ hnd).coroutineOf =
      Function.update w.coroutineOf this hnd.owned := by
  funext other
  by_cases heq : other = this
  · subst heq
    rw [Function.update_self, coroutineOf_of_live (by exact hlive)]
    simp
  · rw [Function.update_of_ne heq, World.coroutineOf, World.coroutineOf]
    simp [heq]

theorem coroutineOf_construct (del : DeleterMember G.signature) :
    (w.construct ⟨(), this⟩ ⟨hnd, del⟩).coroutineOf =
      Function.update w.coroutineOf this hnd.owned := by
  funext other
  by_cases heq : other = this
  · subst heq
    rw [Function.update_self, coroutineOf_of_live (by simp)]
    simp
  · rw [Function.update_of_ne heq, World.coroutineOf, World.coroutineOf]
    simp [heq]

theorem coroutineOf_endLifetime :
    (w.endLifetime ⟨(), this⟩).coroutineOf = Function.update w.coroutineOf this none := by
  funext other
  by_cases heq : other = this
  · subst heq
    rw [Function.update_self, coroutineOf_of_dead (by simp)]
  · rw [Function.update_of_ne heq, World.coroutineOf, World.coroutineOf]
    simp [heq]

theorem isSome_frame_drop (m : Coroutines G) (ended : Option G.Address) :
    ((m.drop ended).frame address).isSome = true ↔
      (m.frame address).isSome = true ∧ some address ≠ ended := by
  cases ended with
  | none => simp [Coroutines.drop]
  | some other =>
      by_cases heq : address = other
      · subst heq
        simp [Coroutines.drop]
      · simp [Coroutines.drop, heq, frame_setFrame_of_ne heq]

theorem reset_coroutine (hnd : CoroutineHandle G.Address) (hlive : w.live ⟨(), this⟩ = true)
    (hframe : ∀ address, w.coroutineOf this = some address →
      (w.env.frame address).isSome = true ∧ hnd.owned ≠ some address) :
    ∃ w', UniqueRcHolderImpl.reset coroutineDestroy ⟨(), this⟩ hnd w = some w' ∧
      w'.live = w.live ∧
      w'.getHandle = Function.update w.getHandle ⟨(), this⟩ hnd ∧
      w'.env = w.env.drop (w.coroutineOf this) := by
  rw [coroutineOf_of_live hlive] at hframe ⊢
  cases howned : G.signature.isOwned () (w.getHandle ⟨(), this⟩) with
  | false =>
      refine ⟨_, UniqueRcHolderImpl.reset_of_not_owned coroutineDestroy howned, rfl, ?_, ?_⟩
      · simp
      · rw [owned_of_not_isOwned howned]
        rfl
  | true =>
      have hthere := hframe _ (owned_of_isOwned howned)
      have hne : w.getHandle ⟨(), this⟩ ≠ hnd := by
        rintro heq
        exact hthere.2 (heq ▸ owned_of_isOwned howned)
      have hcalled : coroutineDestroy ⟨(), this⟩ (w.getDeleter ⟨(), this⟩)
          (w.getHandle ⟨(), this⟩) (w.setHandle ⟨(), this⟩ hnd) = some
            ((w.setHandle ⟨(), this⟩ hnd).setEnv
              (w.env.drop (some (w.getHandle ⟨(), this⟩).address))) :=
        Option.map_eq_some_iff.mpr ⟨_, destroy_eq_some_iff.mpr ⟨hthere.1, rfl⟩, rfl⟩
      refine ⟨_, (UniqueRcHolderImpl.reset_of_owned coroutineDestroy howned
        fun _ => hne).trans hcalled, rfl, ?_, ?_⟩
      · simp
      · rw [owned_of_isOwned howned]
        rfl

end Owner

/-! ## Statements that are defined -/

def Coroutines.Resumable (m : Coroutines G) (address : G.Address) : Prop :=
  ∃ frame state, m.frame address = some frame ∧ frame.state = some state ∧
    G.body state ≠ .threw

namespace GeneratorOp

/--
The operands exist, the memory for a new frame is free, and the coroutine that
an iterator stands for is in memory and where the statement needs it.
-/
def Ready (w : GeneratorWorld G) : GeneratorOp G → Prop
  | .construct this => w.live ⟨(), this⟩ = false
  | .start this address _ =>
      w.live ⟨(), this⟩ = false ∧ toBool address = true ∧ w.env.frame address = none
  | .moveConstruct this other => w.live ⟨(), this⟩ = false ∧ w.live ⟨(), other⟩ = true
  | .moveAssign this other => w.live ⟨(), this⟩ = true ∧ w.live ⟨(), other⟩ = true
  | .destroy this => w.live ⟨(), this⟩ = true
  | .begin _ this => w.live ⟨(), this⟩ = true ∧
      ∀ address, w.coroutineOf this = some address → w.env.Resumable address
  | .increment it => ∃ begun, w.env.iters it = some begun ∧ begun.valid w.env = true ∧
      w.env.Resumable begun.coroutine.address
  | .deref it => ∃ begun frame value, w.env.iters it = some begun ∧
      begun.valid w.env = true ∧ w.env.frame begun.coroutine.address = some frame ∧
      frame.promise.currentValue = some value
  | .compare it => ∃ begun, w.env.iters it = some begun ∧
      (toBool begun.coroutine.address = true → begun.valid w.env = true)

end GeneratorOp

section Exec

variable {w w' : GeneratorWorld G} {this other : G.Name} {hnd : CoroutineHandle G.Address}
  {m m' : Coroutines G}

theorem isSome_resume_iff : (hnd.resume m).isSome = true ↔ m.Resumable hnd.address := by
  constructor
  · intro h
    obtain ⟨m', hresume⟩ := Option.isSome_iff_exists.mp h
    obtain ⟨frame, state, hframe, hstate, hcase⟩ := resume_cases hresume
    refine ⟨frame, state, hframe, hstate, fun hthrew => ?_⟩
    rcases hcase with ⟨value, state', hbody, -⟩ | ⟨hbody, -⟩ <;>
      cases hbody.symm.trans hthrew
  · rintro ⟨frame, state, hframe, hstate, hbody⟩
    cases hnext : G.body state with
    | yielded value state' => simp [CoroutineHandle.resume, hframe, hstate, hnext]
    | returned => simp [CoroutineHandle.resume, hframe, hstate, hnext]
    | threw => exact absurd hnext hbody

theorem isSome_frame_resume (hresume : hnd.resume m = some m') (address : G.Address) :
    (m'.frame address).isSome = (m.frame address).isSome := by
  obtain ⟨frame, state, hframe, -, hcase⟩ := resume_cases hresume
  by_cases heq : address = hnd.address
  · subst heq
    rcases hcase with ⟨value, state', -, rfl⟩ | ⟨-, rfl⟩ <;> simp [hframe]
  · rcases hcase with ⟨value, state', -, rfl⟩ | ⟨-, rfl⟩ <;>
      simp [frame_setFrame_of_ne heq]

theorem exec_start {address : G.Address} (state : G.State)
    (hdead : w.live ⟨(), this⟩ = false) (hnull : toBool address = true)
    (hfree : w.env.frame address = none) :
    ∃ w', (GeneratorOp.start this address state).exec w = some w' ∧
      w'.coroutineOf = Function.update w.coroutineOf this (some address) ∧
      w'.env = (w.env.setFrame address
        (some ⟨w.env.events.length, ⟨none⟩, some state⟩)).log (.started address state) := by
  have hstart : w.env.start address state = some ((w.env.setFrame address
      (some ⟨w.env.events.length, ⟨none⟩, some state⟩)).log (.started address state)) :=
    start_eq_some_iff.mpr ⟨hnull, hfree, rfl⟩
  have hlive : (Op.constructHandle (S := G.signature) ⟨(), this⟩
      (⟨address⟩ : CoroutineHandle G.Address)).inLifetime w = true := by
    simpa [Op.inLifetime] using hdead
  have howned : CoroutineHandle.owned (G := G) ⟨address⟩ = some address := if_pos hnull
  refine ⟨_, Option.bind_eq_some_iff.mpr ⟨_, hstart,
    Op.exec_eq_some_iff.mpr ⟨hlive, rfl⟩⟩, ?_, rfl⟩
  exact (coroutineOf_construct (.value ())).trans (congrArg _ howned)

theorem exec_destroy {address : G.Address} (howns : w.coroutineOf this = some address)
    (hframe : (w.env.frame address).isSome = true) :
    ∃ w', (GeneratorOp.destroy this).exec w = some w' ∧
      w'.coroutineOf = Function.update w.coroutineOf this none ∧
      w'.env = w.env.drop (some address) := by
  have hlive : w.live ⟨(), this⟩ = true := (Option.ite_none_right_eq_some.mp howns).1
  rw [coroutineOf_of_live hlive] at howns
  obtain ⟨howned, heq⟩ := Option.ite_none_right_eq_some.mp howns
  obtain rfl := Option.some.inj heq
  have hcalled : coroutineDestroy ⟨(), this⟩ (w.getDeleter ⟨(), this⟩)
      (w.getHandle ⟨(), this⟩) w = some (w.setEnv
        (w.env.drop (some (w.getHandle ⟨(), this⟩).address))) :=
    Option.map_eq_some_iff.mpr ⟨_, destroy_eq_some_iff.mpr ⟨hframe, rfl⟩, rfl⟩
  refine ⟨_, Op.exec_eq_some_iff.mpr ⟨hlive, (UniqueRc.destroy_of_copied coroutineDestroy
    howned rfl).trans (congrArg _ hcalled)⟩, ?_, rfl⟩
  rw [coroutineOf_endLifetime, coroutineOf_setHandle (by exact hlive)]
  funext other
  by_cases heq : other = this
  · simp [heq]
  · rw [Function.update_of_ne heq, Function.update_of_ne heq, Function.update_of_ne heq]
    rfl

theorem exists_begin (hlive : w.live ⟨(), this⟩ = true)
    (hresumable : ∀ address, w.coroutineOf this = some address → w.env.Resumable address) :
    ∃ it w', Generator.begin this w = some (it, w') ∧ w'.coroutineOf = w.coroutineOf ∧
      ∀ address, (w'.env.frame address).isSome = (w.env.frame address).isSome := by
  cases howned : UniqueRc.operatorBool ⟨(), this⟩ w with
  | false => exact ⟨_, w, by simp only [Generator.begin, howned]; rfl, rfl, fun _ => rfl⟩
  | true =>
      have haddress := (coroutineOf_of_live hlive).trans (owned_of_isOwned howned)
      obtain ⟨m, hresume⟩ := Option.isSome_iff_exists.mp
        (isSome_resume_iff.mpr (hresumable _ haddress))
      refine ⟨⟨w.getHandle ⟨(), this⟩, (w.env.frame (w.getHandle ⟨(), this⟩).address).elim
        0 Frame.started⟩, w.setEnv m, ?_, rfl, isSome_frame_resume hresume⟩
      simp only [Generator.begin, howned, if_true]
      exact Option.map_eq_some_iff.mpr ⟨m, hresume, rfl⟩

theorem exists_operatorEq {it : Iter G}
    (hvalid : toBool it.coroutine.address = true → it.valid w.env = true) :
    ∃ atEnd, it.operatorEq w = some atEnd := by
  cases hnull : toBool it.coroutine.address with
  | false => exact ⟨true, by simp [Iter.operatorEq, hnull]⟩
  | true =>
      have hthere := hvalid hnull
      obtain ⟨frame, hframe, -⟩ := (Option.any_eq_true _ _).mp hthere
      exact ⟨frame.state.isNone, by
        simp [Iter.operatorEq, hnull, hthere, CoroutineHandle.done, hframe]⟩

theorem moveConstruct_managed (h : w.Managed) (hthis : w.live ⟨(), this⟩ = false)
    (hother : w.live ⟨(), other⟩ = true) :
    (UniqueRc.moveConstruct () this other () w).Managed := by
  have hne : this ≠ other := by
    rintro rfl
    exact Bool.false_ne_true (hthis.symm.trans hother)
  refine (h.handOver this other).congr ?_ fun address => ?_
  · funext x
    by_cases hx : x = this
    · subst hx
      rw [Function.update_self, coroutineOf_of_live hother, coroutineOf_of_live
        (by simp [UniqueRc.moveConstruct])]
      simp [UniqueRc.moveConstruct, UniqueRcHolderImpl.getHandle_moveConstruct, hne]
    · rw [Function.update_of_ne hx]
      by_cases hx' : x = other
      · subst hx'
        rw [Function.update_self, coroutineOf_of_live
          (by simpa [UniqueRc.moveConstruct, hx] using hother)]
        simp only [UniqueRc.moveConstruct, UniqueRcHolderImpl.getHandle_moveConstruct,
          Function.update_self]
        exact owned_null
      · rw [Function.update_of_ne hx', World.coroutineOf, World.coroutineOf]
        simp [UniqueRc.moveConstruct, UniqueRcHolderImpl.getHandle_moveConstruct, hx, hx']
  · rw [if_neg hne, coroutineOf_of_dead hthis]
    simp [UniqueRc.moveConstruct]

theorem moveAssign_managed (h : w.Managed) (hthis : w.live ⟨(), this⟩ = true)
    (hother : w.live ⟨(), other⟩ = true) :
    ∃ w', UniqueRc.moveAssign coroutineDestroy () this other () w = some w' ∧ w'.Managed := by
  have hreleased : (w.setHandle ⟨(), other⟩ (G.signature.invalid ())).coroutineOf =
      Function.update w.coroutineOf other none :=
    (coroutineOf_setHandle hother).trans (by rw [show
      (G.signature.invalid ()).owned = none from owned_null])
  have hkept : (w.setHandle ⟨(), other⟩ (G.signature.invalid ())).coroutineOf this =
      if this = other then none else w.coroutineOf this := by
    rw [hreleased, Function.update_apply]
  obtain ⟨w₁, hreset, hlive, hget, henv⟩ := reset_coroutine
    (w := w.setHandle ⟨(), other⟩ (G.signature.invalid ()))
    (w.getHandle ⟨(), other⟩) hthis (by
      intro address howned
      rw [hkept] at howned
      split at howned
      · cases howned
      · refine ⟨(h.covers address).mpr ⟨this, howned⟩, fun heq => ?_⟩
        rw [← coroutineOf_of_live hother] at heq
        exact absurd (h.unique howned heq) ‹_›)
  refine ⟨_, (UniqueRcHolderImpl.moveAssign_eq_some_iff coroutineDestroy).mpr
    ⟨w₁, hreset, rfl⟩, (h.handOver this other).congr ?_ fun address => ?_⟩
  · rw [coroutineOf_congr (World.live_assignDeleter ..) (World.getHandle_assignDeleter ..),
      ← hreleased, coroutineOf_of_live hother,
      ← coroutineOf_setHandle (w := w.setHandle ⟨(), other⟩ (G.signature.invalid ())) hthis]
    exact coroutineOf_congr hlive (hget.trans (World.getHandle_setHandle ..).symm)
  · rw [World.env_assignDeleter, henv, isSome_frame_drop, hkept]
    rfl

theorem destroy_managed (h : w.Managed) (hlive : w.live ⟨(), this⟩ = true) :
    ∃ w', (GeneratorOp.destroy this).exec w = some w' ∧ w'.Managed := by
  cases howns : w.coroutineOf this with
  | none =>
      have howned : G.signature.isOwned () (w.getHandle ⟨(), this⟩) = false := by
        rw [coroutineOf_of_live hlive] at howns
        exact Bool.eq_false_iff.mpr fun howned => by
          rw [owned_of_isOwned howned] at howns
          cases howns
      refine ⟨_, Op.exec_eq_some_iff.mpr ⟨hlive,
        UniqueRc.destroy_of_not_owned coroutineDestroy howned⟩,
        (h.clear this).congr coroutineOf_endLifetime fun address => ?_⟩
      simp [howns]
  | some address =>
      obtain ⟨w', hexec, howner, henv⟩ :=
        exec_destroy howns ((h.covers address).mpr ⟨this, howns⟩)
      refine ⟨w', hexec, (h.clear this).congr howner fun other => ?_⟩
      rw [henv, isSome_frame_drop, howns]

end Exec

section Statements

variable {w w' : GeneratorWorld G} {op : GeneratorOp G}

namespace GeneratorOp

theorem ready_of_exec (hexec : op.exec w = some w') : op.Ready w := by
  cases op with
  | construct this => simpa [Ready, Op.inLifetime] using (Op.exec_eq_some_iff.mp hexec).1
  | start this address state =>
      obtain ⟨m, hstart, hbuilt⟩ := Option.bind_eq_some_iff.mp hexec
      obtain ⟨hnull, hfree, -⟩ := start_eq_some_iff.mp hstart
      exact ⟨by simpa [Ready, Op.inLifetime] using (Op.exec_eq_some_iff.mp hbuilt).1, hnull, hfree⟩
  | moveConstruct this other =>
      simpa [Ready, Op.inLifetime] using (Op.exec_eq_some_iff.mp hexec).1
  | moveAssign this other =>
      simpa [Ready, Op.inLifetime] using (Op.exec_eq_some_iff.mp hexec).1
  | destroy this => simpa [Ready, Op.inLifetime] using (Op.exec_eq_some_iff.mp hexec).1
  | begin it this =>
      obtain ⟨hlive, hbegin⟩ := Option.ite_none_right_eq_some.mp hexec
      obtain ⟨⟨begun, w₁⟩, hbegun, -⟩ := Option.bind_eq_some_iff.mp hbegin
      refine ⟨hlive, fun address howned => ?_⟩
      rw [coroutineOf_of_live hlive] at howned
      obtain ⟨hget, ⟨hnull, -⟩ | ⟨hnull, m, hresume, -⟩⟩ := begin_cases hbegun
      · exact absurd (howned.symm.trans (owned_of_not_isOwned hnull)) (Option.some_ne_none _)
      · obtain rfl := Option.some.inj (howned.symm.trans (owned_of_isOwned hnull))
        rw [hget] at hresume
        exact isSome_resume_iff.mp (Option.isSome_iff_exists.mpr ⟨m, hresume⟩)
  | increment it =>
      obtain ⟨begun, hit, hincrement⟩ := Option.bind_eq_some_iff.mp hexec
      obtain ⟨hvalid, m, hresume, -⟩ := increment_eq_some_iff.mp hincrement
      exact ⟨begun, hit, hvalid,
        isSome_resume_iff.mp (Option.isSome_iff_exists.mpr ⟨m, hresume⟩)⟩
  | deref it =>
      obtain ⟨begun, hit, hderef⟩ := Option.bind_eq_some_iff.mp hexec
      obtain ⟨⟨value, w₁⟩, hread, -⟩ := Option.bind_eq_some_iff.mp hderef
      obtain ⟨hvalid, promise, hpromise, hvalue, -⟩ := deref_eq_some_iff.mp hread
      obtain ⟨frame, hframe, rfl⟩ := Option.map_eq_some_iff.mp hpromise
      exact ⟨begun, frame, value, hit, hvalid, hframe, hvalue⟩
  | compare it =>
      obtain ⟨begun, hit, hcompare⟩ := Option.bind_eq_some_iff.mp hexec
      obtain ⟨atEnd, heq, -⟩ := Option.bind_eq_some_iff.mp hcompare
      refine ⟨begun, hit, fun hnull => ?_⟩
      rw [Iter.operatorEq, if_pos hnull] at heq
      exact (Option.ite_none_right_eq_some.mp heq).1

theorem exists_exec (h : w.Managed) (hready : op.Ready w) :
    ∃ w', op.exec w = some w' ∧ w'.Managed := by
  cases op with
  | construct this =>
      have hlive : (Op.construct (S := G.signature) ⟨(), this⟩).inLifetime w = true := by
        simpa [Ready, Op.inLifetime] using hready
      refine ⟨_, Op.exec_eq_some_iff.mpr ⟨hlive, rfl⟩, ?_⟩
      have howner : (UniqueRc.construct ⟨(), this⟩ () w).coroutineOf =
          Function.update w.coroutineOf this none :=
        (coroutineOf_construct _).trans (congrArg _ owned_null)
      refine (h.install this (coroutineOf_of_dead hready) (by simp)).congr howner
        fun address => ?_
      simp [UniqueRc.construct, UniqueRc.constructHandle]
  | start this address state =>
      obtain ⟨hdead, hnull, hfree⟩ := hready
      obtain ⟨w', hexec, howner, henv⟩ := exec_start state hdead hnull hfree
      refine ⟨w', hexec, (h.install this (coroutineOf_of_dead hdead) ?_).congr howner
        fun other => ?_⟩
      · rintro a heq
        simp [← Option.some.inj heq, hfree]
      · by_cases heq : other = address
        · subst heq
          simp [henv]
        · simp [henv, frame_setFrame_of_ne heq, heq]
  | moveConstruct this other =>
      have hlive : (Op.moveConstruct (S := G.signature) () this other ()).inLifetime w =
          true := by
        simpa [Ready, Op.inLifetime] using hready
      exact ⟨_, Op.exec_eq_some_iff.mpr ⟨hlive, rfl⟩, moveConstruct_managed h hready.1 hready.2⟩
  | moveAssign this other =>
      have hlive : (Op.moveAssign (S := G.signature) () this other ()).inLifetime w =
          true := by
        simpa [Ready, Op.inLifetime] using hready
      obtain ⟨w', hassign, hmanaged⟩ := moveAssign_managed h hready.1 hready.2
      exact ⟨w', Op.exec_eq_some_iff.mpr ⟨hlive, hassign⟩, hmanaged⟩
  | destroy this => exact destroy_managed h hready
  | begin it this =>
      obtain ⟨hlive, hresumable⟩ := hready
      obtain ⟨begun, w₁, hbegun, howner, henv⟩ := exists_begin hlive hresumable
      refine ⟨_, Option.ite_none_right_eq_some.mpr ⟨hlive,
        Option.bind_eq_some_iff.mpr ⟨_, hbegun, rfl⟩⟩,
        Exclusive.congr h howner fun address => Bool.eq_iff_iff.mp (henv address)⟩
  | increment it =>
      obtain ⟨begun, hit, hvalid, hresumable⟩ := hready
      obtain ⟨m, hresume⟩ := Option.isSome_iff_exists.mp (isSome_resume_iff.mpr hresumable)
      exact ⟨w.setEnv m, Option.bind_eq_some_iff.mpr ⟨begun, hit,
        increment_eq_some_iff.mpr ⟨hvalid, m, hresume, rfl⟩⟩,
        Exclusive.congr h rfl fun address =>
          Bool.eq_iff_iff.mp (isSome_frame_resume hresume address)⟩
  | deref it =>
      obtain ⟨begun, frame, value, hit, hvalid, hframe, hvalue⟩ := hready
      have hpromise : begun.coroutine.promise w.env = some frame.promise :=
        Option.map_eq_some_iff.mpr ⟨frame, hframe, rfl⟩
      have hread := deref_eq_some_iff.mpr ⟨hvalid, frame.promise, hpromise, hvalue, rfl⟩
      exact ⟨_, Option.bind_eq_some_iff.mpr ⟨begun, hit,
        Option.bind_eq_some_iff.mpr ⟨_, hread, rfl⟩⟩, Exclusive.congr h rfl fun _ => Iff.rfl⟩
  | compare it =>
      obtain ⟨begun, hit, hvalid⟩ := hready
      obtain ⟨atEnd, hcompare⟩ := exists_operatorEq hvalid
      exact ⟨w, Option.bind_eq_some_iff.mpr ⟨begun, hit,
        Option.bind_eq_some_iff.mpr ⟨atEnd, hcompare, rfl⟩⟩, h⟩

theorem managed (h : w.Managed) (hexec : op.exec w = some w') : w'.Managed := by
  obtain ⟨w₁, hexec₁, hmanaged⟩ := exists_exec h (ready_of_exec hexec)
  exact Option.some.inj (hexec₁.symm.trans hexec) ▸ hmanaged

end GeneratorOp

def startedFrames (events : List (FrameEvent G)) : List G.Address :=
  events.filterMap fun
    | .started address _ => some address
    | _ => none

def destroyedFrames (events : List (FrameEvent G)) : List G.Address :=
  events.filterMap fun
    | .destroyed address => some address
    | _ => none

def Coroutines.Settled (m : Coroutines G) : Prop :=
  ∀ address, (startedFrames m.events).count address =
    (destroyedFrames m.events).count address +
      if (m.frame address).isSome = true then 1 else 0

theorem frameInvariant_settled : FrameInvariant (G := G) Coroutines.Settled where
  start {m m' address state} h hstart other := by
    obtain ⟨-, hfree, rfl⟩ := start_eq_some_iff.mp hstart
    have hbefore := h other
    by_cases heq : other = address
    · subst heq
      rw [hfree] at hbefore
      simpa [startedFrames, destroyedFrames] using hbefore
    · simpa [startedFrames, destroyedFrames, frame_setFrame_of_ne heq, Ne.symm heq] using hbefore
  resume h hresume other := by
    have hbefore := h other
    rw [← isSome_frame_resume hresume] at hbefore
    obtain ⟨frame, state, -, -, hcase⟩ := resume_cases hresume
    rcases hcase with ⟨value, state', -, rfl⟩ | ⟨-, rfl⟩ <;> exact hbefore
  destroy {m m' hnd} h hdestroy other := by
    obtain ⟨hthere, rfl⟩ := destroy_eq_some_iff.mp hdestroy
    have hbefore := h other
    by_cases heq : other = hnd.address
    · subst heq
      rw [if_pos hthere] at hbefore
      simpa [startedFrames, destroyedFrames] using hbefore
    · simpa [startedFrames, destroyedFrames, frame_setFrame_of_ne heq, Ne.symm heq] using hbefore
  read h _ _ := h
  iters _ h := h

theorem World.NoCoroutines.managed (h : w.NoCoroutines) : w.Managed := by
  have hnone : ∀ this, w.coroutineOf this = none := fun this =>
    coroutineOf_of_dead (h.live _)
  constructor
  · intro this other address howns
    rw [hnone this] at howns
    cases howns
  · intro address
    simp [h.frame, hnone]

/--
Every frame in memory has one owner among the generators, and has been
allocated once more often than destroyed; when no generator is left there are
no frames, and every one allocated was destroyed.
-/
theorem frames_accounted {ops : List (GeneratorOp G)} (hstart : w.NoCoroutines)
    (hrun : run GeneratorOp.exec ops w = some w') :
    (∀ address, (w'.env.frame address).isSome = true ↔
      ∃! this, w'.coroutineOf this = some address) ∧
    w'.env.Settled ∧
    ((∀ this, w'.coroutineOf this = none) → (∀ address, w'.env.frame address = none) ∧
      (destroyedFrames w'.env.events).Perm (startedFrames w'.env.events)) := by
  have hmanaged : w'.Managed :=
    run_preserves (fun _ _ _ h hexec => GeneratorOp.managed h hexec) hstart.managed hrun
  have hsettled : w'.env.Settled := by
    refine frameInvariant_settled.run (fun address => ?_) hrun
    rw [hstart.events, hstart.frame]
    rfl
  refine ⟨fun address => ?_, hsettled, fun hnone => ?_⟩
  · exact hmanaged.existsUnique
  · have hempty : ∀ address, w'.env.frame address = none := by
      intro address
      simpa using hmanaged.none_left hnone address
    refine ⟨hempty, List.perm_iff_count.mpr fun address => ?_⟩
    have hcount := hsettled address
    rw [hempty address] at hcount
    exact hcount.symm

/--
A program runs to its end exactly if each of its statements is ready: no
destructor and no assignment ever meets a frame that is gone, whatever the
iterators do.
-/
theorem generators_return_iff {ops : List (GeneratorOp G)} (hstart : w.NoCoroutines) :
    (∃ w', run GeneratorOp.exec ops w = some w') ↔
      Along GeneratorOp.exec (fun op w => op.Ready w) ops w := by
  refine run_isSome_iff_along (I := World.Managed) (C := fun _ _ => True)
    (fun op w w' h _ hexec => GeneratorOp.managed h hexec) (fun op w h _ => ?_) hstart.managed
    (along_of_forall_mem fun _ _ _ => trivial)
  constructor
  · intro hdefined
    obtain ⟨w', hexec⟩ := Option.isSome_iff_exists.mp hdefined
    exact GeneratorOp.ready_of_exec hexec
  · intro hready
    obtain ⟨w', hexec, -⟩ := GeneratorOp.exists_exec h hready
    exact Option.isSome_iff_exists.mpr ⟨w', hexec⟩

end Statements

end Raii
