import Raii.Burial
import Raii.Reentrancy

/-!
# Destructors that run programs

The destructor keeps the handle stored while its deleter runs.  A deleter that
leaves that object alone, at any depth of calls, cannot tell it from one that
has already ended: the object is buried, and the rest of the world is kept as
by the other operations.  An assignment reads the deleter of its source after
the old handle is disposed, so its operands have to outlive that call.
-/

namespace Raii

open Foundation

variable {P : Sharing}

def Move.operands : Move P → List (Obj P.signature)
  | .acquire _ => []
  | .perform op => op.operands

def Move.ended : Move P → List (Obj P.signature)
  | .acquire _ => []
  | .perform op => op.ended

/-- The objects whose deleters are assigned when the old handle has been disposed. -/
def Move.assigned : Move P → List (Obj P.signature)
  | .perform (.moveAssign kind this other _) => [⟨kind, this⟩, ⟨kind, other⟩]
  | .perform (.convertAssign this other _) => [this, other]
  | _ => []

namespace Script

def avoids (dying : Obj P.signature → Bool) : Script P → Bool
  | .done => true
  | .step move nested rest =>
      move.operands.all (fun obj => !dying obj) && nested.avoids dying && rest.avoids dying

def keepsAlive (kept : List (Obj P.signature)) : Script P → Bool
  | .done => true
  | .step move nested rest =>
      move.ended.all (fun obj => !kept.contains obj) && nested.keepsAlive kept &&
        rest.keepsAlive kept

/--
A deleter that a destructor calls leaves the object alone, and one that an
assignment calls ends the lifetime of neither operand.
-/
def wellNested : Script P → Bool
  | .done => true
  | .step move nested rest =>
      move.ended.all (fun this => nested.avoids (fun obj => obj == this)) &&
        nested.keepsAlive move.assigned && nested.wellNested && rest.wellNested

/-- The run, undefined where an assignment goes on with an operand that has died meanwhile. -/
def runChecked : Script P → ClientWorld P → Option (ClientWorld P)
  | .done => some
  | .step move nested rest => fun w =>
      (move.step (deleterCall fun w =>
        (nested.runChecked w).filter fun w => move.assigned.all w.live) w).bind
          rest.runChecked

theorem avoids_none (script : Script P) : script.avoids (fun _ => false) = true := by
  induction script with
  | done => rfl
  | step move nested rest ihNested ihRest => simp [avoids, ihNested, ihRest]

theorem avoids_or {dying dying' : Obj P.signature → Bool} {script : Script P}
    (h : script.avoids dying = true) (h' : script.avoids dying' = true) :
    script.avoids (fun obj => dying obj || dying' obj) = true := by
  induction script with
  | done => rfl
  | step move nested rest ihNested ihRest =>
      simp only [avoids, Bool.and_eq_true, List.all_eq_true, Bool.not_eq_true'] at h h' ⊢
      refine ⟨⟨fun obj hobj => ?_, ihNested h.1.2 h'.1.2⟩, ihRest h.2 h'.2⟩
      rw [h.1.1 obj hobj, h'.1.1 obj hobj, Bool.or_false]

end Script

/-! ## Programs that leave an object alone -/

section Elsewhere

variable {dying : Obj P.signature → Bool} {w : ClientWorld P}

theorem objects_take {hnd : P.Handle} {w' : ClientWorld P} (htake : w.take hnd = some w') :
    w'.live = w.live ∧ w'.getHandle = w.getHandle := by
  simp only [World.take] at htake
  split at htake
  · obtain ⟨-, hw⟩ := Option.ite_none_right_eq_some.mp htake
    exact Option.some.inj hw ▸ ⟨rfl, rfl⟩
  · exact Option.some.inj htake ▸ ⟨rfl, rfl⟩

theorem objects_elim_take {hnd : Option P.Handle} {w' : ClientWorld P}
    (htake : hnd.elim (some w) w.take = some w') :
    w'.live = w.live ∧ w'.getHandle = w.getHandle := by
  cases hnd with
  | none => exact Option.some.inj htake ▸ ⟨rfl, rfl⟩
  | some hnd => exact objects_take htake

theorem objects_elim_give (hnd : Option P.Handle) :
    (hnd.elim w w.give).live = w.live ∧ (hnd.elim w w.give).getHandle = w.getHandle := by
  cases hnd with
  | none => exact ⟨rfl, rfl⟩
  | some hnd =>
      simp only [Option.elim_some, World.give]
      split <;> exact ⟨rfl, rfl⟩

theorem untouched_of_step {obj : Obj P.signature} {body : ClientWorld P → Option (ClientWorld P)}
    (hbody : ∀ w w', body w = some w' → Untouched obj w w') {move : Move P}
    (hnamed : ∀ this ∈ move.operands, obj ≠ this) {w' : ClientWorld P}
    (hmove : move.step (deleterCall body) w = some w') : Untouched obj w w' := by
  cases move with
  | acquire hnd =>
      obtain ⟨-, rfl⟩ := Move.step_acquire_eq_some_iff.mp hmove
      exact ⟨rfl, rfl⟩
  | perform op =>
      obtain ⟨w₁, w₂, htake, hexec, rfl⟩ := Move.step_perform_eq_some_iff.mp hmove
      have hcall : ∀ this del hnd w w', deleterCall body this del hnd w = some w' →
          Untouched obj w w' := by
        intro this del hnd w w' hcalled
        obtain ⟨w₁, hran, rfl⟩ := Option.map_eq_some_iff.mp hcalled
        have hdone := hbody _ _ hran
        exact ⟨hdone.live, hdone.getHandle⟩
      have htaken := objects_elim_take htake
      have hdone := (writes_untouched hnamed Op.ended_subset).exec hcall hexec
      have hgiven := objects_elim_give (w := w₂) (Move.returned w₁ op)
      exact ⟨by rw [hgiven.1, hdone.live, htaken.1],
        by rw [hgiven.2, hdone.getHandle, htaken.2]⟩

theorem untouched_of_run {script : Script P} (havoids : script.avoids dying = true)
    {obj : Obj P.signature} (hobj : dying obj = true) {w w' : ClientWorld P}
    (hrun : script.run w = some w') : Untouched obj w w' := by
  induction script generalizing w w' with
  | done => exact Option.some.inj hrun ▸ ⟨rfl, rfl⟩
  | step move nested rest ihNested ihRest =>
      simp only [Script.avoids, Bool.and_eq_true, List.all_eq_true,
        Bool.not_eq_true'] at havoids
      obtain ⟨w₁, hmove, hrest⟩ := Option.bind_eq_some_iff.mp hrun
      have hnamed : ∀ this ∈ move.operands, obj ≠ this := by
        rintro this hthis rfl
        exact Bool.false_ne_true ((havoids.1.1 obj hthis).symm.trans hobj)
      exact (untouched_of_step (fun _ _ => ihNested havoids.1.2) hnamed hmove).trans
        (ihRest havoids.2 hrest)

end Elsewhere

/-! ## Operands that outlive their assignment -/

section Operands

variable {w w' : ClientWorld P}

theorem alive_of_step {obj : Obj P.signature} {body : ClientWorld P → Option (ClientWorld P)}
    (hbody : ∀ w w', body w = some w' → w.live obj = true → w'.live obj = true)
    {move : Move P} (hended : ∀ this ∈ move.ended, obj ≠ this)
    (hmove : move.step (deleterCall body) w = some w') (hlive : w.live obj = true) :
    w'.live obj = true := by
  cases move with
  | acquire hnd =>
      obtain ⟨-, rfl⟩ := Move.step_acquire_eq_some_iff.mp hmove
      exact hlive
  | perform op =>
      obtain ⟨w₁, w₂, htake, hexec, rfl⟩ := Move.step_perform_eq_some_iff.mp hmove
      have hcall : ∀ this del hnd w w', deleterCall body this del hnd w = some w' →
          w.live obj = true → w'.live obj = true := by
        intro this del hnd w w' hcalled hlive
        obtain ⟨w₁, hran, rfl⟩ := Option.map_eq_some_iff.mp hcalled
        have hdone : w₁.live obj = true := hbody _ _ hran hlive
        exact hdone
      rw [(objects_elim_give (Move.returned w₁ op)).1]
      exact (writes_alive hended op.operands).exec hcall hexec
        ((objects_elim_take htake).1 ▸ hlive)

namespace Script

theorem alive_of_run {kept : List (Obj P.signature)} {script : Script P}
    (hkept : script.keepsAlive kept = true) {obj : Obj P.signature} (hobj : obj ∈ kept)
    (hrun : script.run w = some w') (hlive : w.live obj = true) : w'.live obj = true := by
  induction script generalizing w w' with
  | done => exact Option.some.inj hrun ▸ hlive
  | step move nested rest ihNested ihRest =>
      simp only [keepsAlive, Bool.and_eq_true, List.all_eq_true, Bool.not_eq_true',
        List.contains_eq_mem, decide_eq_false_iff_not] at hkept
      obtain ⟨w₁, hmove, hrest⟩ := Option.bind_eq_some_iff.mp hrun
      have hended : ∀ this ∈ move.ended, obj ≠ this := by
        rintro this hthis rfl
        exact hkept.1.1 obj hthis hobj
      exact ihRest hkept.2 hrest
        (alive_of_step (fun _ _ => ihNested hkept.1.2) hended hmove hlive)

end Script

theorem step_mono {body body' : ClientWorld P → Option (ClientWorld P)} {move : Move P}
    (hbody : ∀ w w', (∀ obj ∈ move.assigned, w.live obj = true) → body w = some w' →
      body' w = some w')
    (hmove : move.step (deleterCall body) w = some w') :
    move.step (deleterCall body') w = some w' := by
  cases move with
  | acquire hnd => exact hmove
  | perform op =>
      obtain ⟨w₁, w₂, htake, hexec, hgive⟩ := Move.step_perform_eq_some_iff.mp hmove
      have hassigned : ∀ obj ∈ (Move.perform op).assigned, w₁.live obj = true := by
        obtain ⟨hlifetime, -⟩ := Op.exec_eq_some_iff.mp hexec
        cases op <;> simp_all [Move.assigned, Op.inLifetime]
      refine Move.step_perform_eq_some_iff.mpr
        ⟨w₁, w₂, htake, Op.exec_mono ?_ hexec, hgive⟩
      intro this del hnd w w' hlive hcalled
      obtain ⟨w₃, hran, rfl⟩ := Option.map_eq_some_iff.mp hcalled
      have hran' : body' (w.enter this del hnd) = some w₃ :=
        hbody _ _ (fun obj hobj => (congrFun hlive obj).trans (hassigned obj hobj)) hran
      exact Option.map_eq_some_iff.mpr ⟨w₃, hran', rfl⟩

theorem Script.runChecked_of_wellNested {script : Script P}
    (hnested : script.wellNested = true) (hrun : script.run w = some w') :
    script.runChecked w = some w' := by
  induction script generalizing w w' with
  | done => exact hrun
  | step move nested rest ihNested ihRest =>
      simp only [wellNested, Bool.and_eq_true] at hnested
      obtain ⟨w₁, hmove, hrest⟩ := Option.bind_eq_some_iff.mp hrun
      refine Option.bind_eq_some_iff.mpr ⟨w₁, step_mono ?_ hmove, ihRest hnested.2 hrest⟩
      intro w w' hlive hran
      refine Option.filter_eq_some_iff.mpr ⟨ihNested hnested.1.2 hran, ?_⟩
      exact List.all_eq_true.mpr fun obj hobj =>
        alive_of_run hnested.1.1.2 hobj hran (hlive obj hobj)

end Operands

/-! ## Custody while objects are being destroyed -/

section Custody

variable {dying : Obj P.signature → Bool} {log : List (Entry P)}
  {call : DeleterCall P.signature (Ledger P)} {w w' : ClientWorld P}

theorem Custody.congr_live (h : Custody w) (hlive : w'.live = w.live)
    (hget : ∀ obj, w.live obj = true → w'.getHandle obj = w.getHandle obj)
    (hclient : w'.env.client = w.env.client) (hpending : w'.env.pending = w.env.pending)
    (hhistory : w'.env.history = w.env.history) : Custody w' := by
  have hholds : holds w' = holds w := by
    funext place hnd
    cases place with
    | client => simp only [holds, hclient]
    | object obj =>
        simp only [holds, hlive, eq_iff_iff]
        exact and_congr_right fun hobj => by rw [hget obj hobj]
    | pending => simp only [holds, hpending]
  exact ⟨by rw [hholds, hhistory]; exact h.books, by rw [hclient]; exact h.client_nodup,
    by rw [hpending]; exact h.pending_nodup⟩

theorem exists_mirrors
    (hcall : ∀ this del hnd w w', dying this = false → World.Dying dying log w →
      P.isOwned hnd = true → Custody (World.inLocal hnd (w.bury dying log)) →
      call this del hnd w = some w' →
      Custody (w'.bury dying log) ∧ w'.env.pending = w.env.pending) :
    ∃ call', Settles call' ∧ Mirrors dying log call call' := by
  classical
  refine ⟨fun this del hnd v =>
    if dying this = false ∧ (∀ obj, dying obj = true → v.live obj = false) ∧
        v.env.calls = log then
      (call this del hnd (v.exhume dying)).map (World.bury dying log)
    else none, ?_, ?_⟩
  · intro this del hnd v v' howned h hrun
    obtain ⟨⟨hthis, hdying, hlog⟩, hmap⟩ := Option.ite_none_right_eq_some.mp hrun
    obtain ⟨w₁, hcalled, rfl⟩ := Option.map_eq_some_iff.mp hmap
    have hbury := World.bury_exhume hdying hlog
    have halive : World.Dying dying log (v.exhume dying) :=
      ⟨fun obj hobj => by simp [World.exhume, hobj], hlog⟩
    obtain ⟨hcustody, hpending⟩ := hcall this del hnd _ w₁ hthis halive howned
      (hbury.symm ▸ h) hcalled
    exact ⟨hcustody, hpending, [], hlog.symm, by simp⟩
  · intro this del hnd w hthis hw
    have hdead : ∀ obj, dying obj = true → (w.bury dying log).live obj = false := by
      intro obj hobj
      simp [hobj]
    refine (if_pos ⟨hthis, hdead, rfl⟩).trans ?_
    rw [World.exhume_bury hw.live hw.log]

structure Undisturbed (dying : Obj P.signature → Bool) (w w' : ClientWorld P) : Prop where
  custody : ∀ log, Custody (w'.bury dying log)
  pending : w'.env.pending = w.env.pending

theorem custody_bury_log {log log' : List (Entry P)} (h : Custody (w.bury dying log)) :
    Custody (w.bury dying log') :=
  h.congr rfl rfl rfl rfl rfl

theorem undisturbed_deleterCall {body : ClientWorld P → Option (ClientWorld P)}
    (hbody : ∀ w w', (∀ obj, dying obj = true → w.live obj = true) →
      Custody (w.bury dying []) → body w = some w' → Undisturbed dying w w')
    {this : Obj P.signature} {del : P.Deleter} {hnd : P.Handle}
    (hdying : ∀ obj, dying obj = true → w.live obj = true)
    (h : Custody ((w.enter this del hnd).bury dying []))
    (hcalled : deleterCall body this del hnd w = some w') : Undisturbed dying w w' := by
  obtain ⟨w₁, hran, rfl⟩ := Option.map_eq_some_iff.mp hcalled
  have hafter := hbody (w.enter this del hnd) w₁ hdying h hran
  have hleft : Custody ((w₁.bury dying []).leave hnd) :=
    (hafter.custody []).leave (by exact hafter.pending)
  refine ⟨fun log => hleft.congr rfl rfl rfl rfl rfl, ?_⟩
  simp [World.leave, hafter.pending, World.enter]

namespace Script

theorem destroy_undisturbed {nested : Script P} {this : Obj P.signature}
    (hnested : ∀ w w', (∀ obj, (dying obj || obj == this) = true → w.live obj = true) →
      Custody (w.bury (fun obj => dying obj || obj == this) []) → nested.run w = some w' →
      Undisturbed (fun obj => dying obj || obj == this) w w')
    (hdying : ∀ obj, dying obj = true → w.live obj = true) (hthis : dying this = false)
    (hlive : w.live this = true) (h : Custody (w.bury dying []))
    (hrun : UniqueRc.destroy (deleterCall nested.run) this w = some w') :
    Undisturbed dying w w' := by
  cases howned : P.isOwned (w.getHandle this) with
  | false =>
      rw [UniqueRc.destroy_of_not_owned (deleterCall nested.run) howned,
        Option.some.injEq] at hrun
      subst hrun
      refine ⟨fun log => ?_, rfl⟩
      rw [← World.endLifetime_bury]
      exact (custody_bury_log h).endLifetime this howned
  | true =>
      rw [UniqueRc.destroy_of_owned (deleterCall nested.run) howned] at hrun
      obtain ⟨w₁, hcalled, rfl⟩ := Option.map_eq_some_iff.mp hrun
      obtain ⟨w₂, hran, rfl⟩ := Option.map_eq_some_iff.mp hcalled
      -- with the object buried, its handle is in the hands of the deleter only
      have hburied : Custody (World.bury (fun obj => dying obj || obj == this) []
          ((w.setHandle this (P.signature.movedHandle this.kind (w.getHandle this))).enter
            this (w.getDeleter this) (w.getHandle this))) := by
        have hreleased := h.release (show (w.bury dying []).live this = true by simp [hlive, hthis])
        rw [World.inLocal_of_owned (by exact howned)] at hreleased
        refine (hreleased.endLifetime this (by simp)).congr_live ?_ ?_ rfl rfl rfl
        · rw [World.live_endLifetime]
          exact ((World.update_false_and w.live dying this).trans
            (World.update_false_or w.live this)).symm
        · intro obj hobj
          have hobj' : obj ≠ this := by
            rintro rfl
            simp at hobj
          simp [World.enter, hobj']
      have halive : ∀ obj, (dying obj || obj == this) = true → w.live obj = true := by
        intro obj hobj
        simp only [Bool.or_eq_true, beq_iff_eq] at hobj
        rcases hobj with hobj | rfl
        · exact hdying obj hobj
        · exact hlive
      have hafter := hnested _ _ (by exact halive) hburied hran
      have hleft := (hafter.custody []).leave hafter.pending
      refine ⟨fun log => hleft.congr_live ?_ ?_ rfl rfl rfl, ?_⟩
      · exact World.update_false_or w₂.live this
      · intro obj hobj
        have hobj' : obj ≠ this := by
          rintro rfl
          simp [World.leave] at hobj
        simp [World.leave, hobj']
      · simp [World.leave, hafter.pending, World.enter]

theorem move_undisturbed {move : Move P} {nested : Script P}
    (hoperands : ∀ obj ∈ move.operands, dying obj = false)
    (hnested : ∀ w w', (∀ obj, dying obj = true → w.live obj = true) →
      Custody (w.bury dying []) → nested.run w = some w' → Undisturbed dying w w')
    (hdestroy : ∀ this, move = .perform (.destroy this) → ∀ w w',
      (∀ obj, (dying obj || obj == this) = true → w.live obj = true) →
      Custody (w.bury (fun obj => dying obj || obj == this) []) → nested.run w = some w' →
      Undisturbed (fun obj => dying obj || obj == this) w w')
    (hdying : ∀ obj, dying obj = true → w.live obj = true)
    (h : Custody (w.bury dying []))
    (hmove : move.step (deleterCall nested.run) w = some w') : Undisturbed dying w w' := by
  cases move with
  | acquire hnd =>
      obtain ⟨⟨-, hfresh⟩, rfl⟩ := Move.step_acquire_eq_some_iff.mp hmove
      have hacquired : Custody ((w.bury dying []).acquire hnd) := h.acquire hfresh
      exact ⟨fun _ => hacquired.congr rfl rfl rfl rfl rfl, rfl⟩
  | perform op =>
      obtain ⟨w₁, w₂, htake, hexec, rfl⟩ := Move.step_perform_eq_some_iff.mp hmove
      by_cases hop : ∃ this, op = .destroy this
      · obtain ⟨this, rfl⟩ := hop
        obtain rfl := Option.some.inj htake
        obtain ⟨hlive, hrun⟩ := Op.exec_eq_some_iff.mp hexec
        exact destroy_undisturbed (hdestroy this rfl) hdying
          (hoperands this List.mem_cons_self) hlive h hrun
      · have hop' : ∀ this, op ≠ .destroy this := fun this heq => hop ⟨this, heq⟩
        have htaken : (Move.given op).elim (some (w.bury dying w₁.env.calls))
            (w.bury dying w₁.env.calls).take = some (w₁.bury dying w₁.env.calls) :=
          elim_take_bury htake
        have hdying₁ : ∀ obj, dying obj = true → w₁.live obj = true := by
          intro obj hobj
          rw [(objects_elim_take htake).1, hdying obj hobj]
        obtain ⟨call', hsettles, hmirrors⟩ :=
          @exists_mirrors P dying w₁.env.calls (deleterCall nested.run) (by
            intro this del hnd w w' _ hw howned hlocal hcalled
            rw [World.inLocal_of_owned howned] at hlocal
            have hafter := undisturbed_deleterCall hnested hw.live
              (hlocal.congr rfl rfl rfl rfl rfl) hcalled
            exact ⟨hafter.custody _, hafter.pending⟩)
        have hexec' := hmirrors.exec ⟨hdying₁, rfl⟩ hoperands
        rw [hexec, Option.map_some] at hexec'
        obtain ⟨hcustody, hcontinues⟩ :=
          ((custody_bury_log h).take_given htaken).exec hsettles hop' hexec'
        have hafter := hcustody.give_returned
        rw [returned_bury, elim_give_bury] at hafter
        refine ⟨fun _ => custody_bury_log hafter, ?_⟩
        exact (Continues.give (Move.returned w₁ op) w₂).pending.trans
          (hcontinues.pending.trans (Continues.take htake).pending)

theorem undisturbed {script : Script P} (hnested : script.wellNested = true)
    (havoids : script.avoids dying = true)
    (hdying : ∀ obj, dying obj = true → w.live obj = true)
    (h : Custody (w.bury dying [])) (hrun : script.run w = some w') :
    Undisturbed dying w w' := by
  induction script generalizing dying w w' with
  | done =>
      obtain rfl := Option.some.inj hrun
      exact ⟨fun _ => custody_bury_log h, rfl⟩
  | step move nested rest ihNested ihRest =>
      simp only [wellNested, Bool.and_eq_true] at hnested
      simp only [avoids, Bool.and_eq_true, List.all_eq_true, Bool.not_eq_true'] at havoids
      obtain ⟨w₁, hmove, hrest⟩ := Option.bind_eq_some_iff.mp hrun
      have hfirst : Undisturbed dying w w₁ := by
        refine move_undisturbed havoids.1.1 (fun _ _ => ihNested hnested.1.2 havoids.1.2)
          (fun this hmove _ _ => ?_) hdying h hmove
        subst hmove
        have hleft : nested.avoids (fun obj => obj == this) = true :=
          List.all_eq_true.mp hnested.1.1.1 this List.mem_cons_self
        exact ihNested hnested.1.2 (avoids_or havoids.1.2 hleft)
      have hnamed : ∀ obj, dying obj = true → ∀ this ∈ move.operands, obj ≠ this := by
        rintro obj hobj this hthis rfl
        exact Bool.false_ne_true ((havoids.1.1 obj hthis).symm.trans hobj)
      have hlive : ∀ obj, dying obj = true → w₁.live obj = true := by
        intro obj hobj
        rw [(untouched_of_step (fun _ _ => untouched_of_run havoids.1.2 hobj)
          (hnamed obj hobj) hmove).live, hdying obj hobj]
      have hlast := ihRest hnested.2 havoids.2 hlive (hfirst.custody []) hrest
      exact ⟨hlast.custody, hlast.pending.trans hfirst.pending⟩

end Script

end Custody

/-! ## Programs with destructors -/

section Programs

variable {w w' : ClientWorld P}

theorem custody_bury_none {log : List (Entry P)} :
    Custody (w.bury (fun _ => false) log) ↔ Custody w := by
  have hlive : (w.bury (fun _ => false) log).live = w.live := by
    funext obj
    simp
  exact ⟨fun h => h.congr hlive.symm rfl rfl rfl rfl, fun h => h.congr hlive rfl rfl rfl rfl⟩

/--
Single ownership of programs whose deleters run programs of their own, with
destructors at any depth, as long as no deleter names an object whose
destructor is waiting for it or destroys an operand of an assignment that is.
No assignment then goes on with an object that has died.
-/
theorem destructor_single_ownership {script : Script P} (hnested : script.wellNested = true)
    (h : Accounted w) (hrun : script.run w = some w') :
    script.runChecked w = some w' ∧ Accounted w' := by
  refine ⟨Script.runChecked_of_wellNested hnested hrun, ?_⟩
  have hafter := Script.undisturbed hnested script.avoids_none (by simp)
    (custody_bury_none.mpr h.custody) hrun
  exact (custody_bury_none.mp (hafter.custody [])).accounted (hafter.pending.trans h.idle)

/--
Called on 7 while object 0 is destroyed, this deleter builds object 2 and
assigns object 1 to it, and the deleter called then builds and destroys object 3.
-/
def nestedDestructors : Script intSharing :=
  .step (.perform (.destroy ⟨(), (0 : Nat)⟩))
    (.step (.acquire (5 : Int)) .done
      (.step (.perform (.constructHandle ⟨(), (2 : Nat)⟩ (5 : Int))) .done
        (.step (.perform (.moveAssign () (2 : Nat) (1 : Nat) ()))
          (.step (.acquire (6 : Int)) .done
            (.step (.perform (.constructHandle ⟨(), (3 : Nat)⟩ (6 : Int))) .done
              (.step (.perform (.destroy ⟨(), (3 : Nat)⟩)) .done .done)))
          .done)))
    .done

theorem destructor_single_ownership_nestedDestructors :
    ∃ w w', run (Move.step quietDeleter) twoOwners intWorld = some w ∧
      nestedDestructors.run w = some w' ∧ nestedDestructors.runChecked w = some w' ∧
        Accounted w' := by
  obtain ⟨w', hrun⟩ := Option.isSome_iff_exists.mp
    (show ((run (Move.step quietDeleter) twoOwners intWorld).bind
      nestedDestructors.run).isSome by decide +kernel)
  obtain ⟨w, hfirst, hnested⟩ := Option.bind_eq_some_iff.mp hrun
  have hinitial : intWorld.Initial := ⟨fun _ => rfl, rfl, rfl, rfl⟩
  exact ⟨w, w', hfirst, hnested, destructor_single_ownership (by decide)
    (hinitial.accounted.run hfirst) hnested⟩

/-! ## Deleters that name the dying object -/

theorem history_elim_take {hnd : Option P.Handle}
    (htake : hnd.elim (some w) w.take = some w') : w'.env.history = w.env.history := by
  cases hnd with
  | none => exact Option.some.inj htake ▸ rfl
  | some hnd =>
      simp only [Option.elim_some, World.take] at htake
      split at htake
      · obtain ⟨-, hw⟩ := Option.ite_none_right_eq_some.mp htake
        exact Option.some.inj hw ▸ rfl
      · exact Option.some.inj htake ▸ rfl

theorem history_elim_give (hnd : Option P.Handle) :
    (hnd.elim w w.give).env.history = w.env.history := by
  cases hnd with
  | none => rfl
  | some hnd =>
      simp only [Option.elim_some, World.give]
      split <;> rfl

namespace Script

theorem history_suffix {script : Script P} (hrun : script.run w = some w') :
    w.env.history <:+ w'.env.history := by
  induction script generalizing w w' with
  | done => exact Option.some.inj hrun ▸ List.suffix_rfl
  | step move nested rest ihNested ihRest =>
      obtain ⟨w₁, hmove, hrest⟩ := Option.bind_eq_some_iff.mp hrun
      refine List.IsSuffix.trans ?_ (ihRest hrest)
      cases move with
      | acquire hnd =>
          obtain ⟨-, rfl⟩ := Move.step_acquire_eq_some_iff.mp hmove
          exact List.suffix_cons _ _
      | perform op =>
          obtain ⟨w₂, w₃, htake, hexec, rfl⟩ := Move.step_perform_eq_some_iff.mp hmove
          rw [history_elim_give, ← history_elim_take htake]
          have hwrites : Writes (fun w w' : ClientWorld P =>
              w.env.history <:+ w'.env.history) op.operands op.ended :=
            writes_env (R := fun (before after : Ledger P) =>
              before.history <:+ after.history)
              (fun _ => List.suffix_rfl) List.IsSuffix.trans op.operands op.ended
          refine hwrites.exec ?_ hexec
          intro this del hnd w w' hcalled
          obtain ⟨w₁, hran, rfl⟩ := Option.map_eq_some_iff.mp hcalled
          exact (ihNested hran).trans (List.suffix_cons _ _)

def append : Script P → Script P → Script P
  | .done, second => second
  | .step move nested rest, second => .step move nested (rest.append second)

theorem run_append (first second : Script P) :
    (first.append second).run w = (first.run w).bind second.run := by
  induction first generalizing w with
  | done => rfl
  | step move nested rest _ ihRest =>
      simp only [append, run, Option.bind_assoc]
      congr 1
      funext w₁
      exact ihRest

end Script

/--
Where the move leaves the handle alone, a deleter that resets the object whose
destructor called it disposes the handle a second time: whatever it did before
without that object, and whatever it does then, `get` still returned the handle.
-/
theorem destroy_disposes_twice {this : Obj P.signature} {hnd : P.Handle}
    {before nested rest : Script P} (havoids : before.avoids (fun obj => obj == this) = true)
    (howned : P.isOwned (w.getHandle this) = true)
    (hmoved : P.movedHandle this.kind (w.getHandle this) = w.getHandle this)
    (hrun : UniqueRc.destroy (deleterCall (before.append
      (.step (.perform (.reset this hnd)) nested rest)).run) this w = some w') :
    ∃ newer older, w'.env.history = .dispose (w.getHandle this) ::
      (newer ++ .dispose (w.getHandle this) :: (older ++ w.env.history)) := by
  rw [UniqueRc.destroy_of_copied (deleterCall (Script.run _)) howned hmoved] at hrun
  obtain ⟨w₁, hcalled, rfl⟩ := Option.map_eq_some_iff.mp hrun
  obtain ⟨w₂, hran, rfl⟩ := Option.map_eq_some_iff.mp hcalled
  rw [Script.run_append] at hran
  obtain ⟨w₃, hbefore, hran⟩ := Option.bind_eq_some_iff.mp hran
  obtain ⟨w₄, hmove, hrest⟩ := Option.bind_eq_some_iff.mp hran
  obtain ⟨w₅, w₆, htake, hexec, rfl⟩ := Move.step_perform_eq_some_iff.mp hmove
  -- the object still stores its handle when it is reset
  have hkept := (untouched_of_run havoids (beq_self_eq_true this) hbefore).getHandle
  have hstored : w₅.getHandle this = w.getHandle this := by
    rw [(objects_elim_take htake).2, hkept]
    rfl
  obtain ⟨-, hreset⟩ := Op.exec_eq_some_iff.mp hexec
  have hfreed : w₆.env.history <:+ w₂.env.history := Script.history_suffix hrest
  rcases UniqueRcHolderImpl.reset_cases _ hreset with ⟨hfree, -⟩ | ⟨-, -, hagain⟩
  · rw [hstored] at hfree
    exact absurd (howned.symm.trans hfree) Bool.noConfusion
  · rw [hstored] at hagain
    obtain ⟨w₇, hnested, rfl⟩ := Option.map_eq_some_iff.mp hagain
    obtain ⟨newer, hnewer⟩ := hfreed
    obtain ⟨older, holder⟩ : w.env.history <:+ w₇.env.history := by
      have hfirst := Script.history_suffix hbefore
      have hlast := Script.history_suffix hnested
      simp only [World.enter, World.env_setEnv, World.env_setHandle,
        history_elim_take htake] at hfirst hlast
      exact hfirst.trans hlast
    refine ⟨newer, older, ?_⟩
    simp [World.leave, ← hnewer, ← holder]

def oneOwner : ClientWorld intSharing :=
  (intWorld.construct ⟨(), (0 : Nat)⟩ ⟨(7 : Int), .value ()⟩).setEnv
    ⟨[], [], [.acquire (7 : Int)], []⟩

theorem destroy_disposes_twice_oneOwner :
    ∃ w', UniqueRc.destroy (deleterCall (Script.append
        (.step (.acquire (5 : Int)) .done .done)
        (.step (.perform (.reset ⟨(), (0 : Nat)⟩ (5 : Int))) .done .done)).run)
        ⟨(), (0 : Nat)⟩ oneOwner = some w' ∧
      ∃ newer older, w'.env.history = .dispose (oneOwner.getHandle ⟨(), (0 : Nat)⟩) ::
        (newer ++ .dispose (oneOwner.getHandle ⟨(), (0 : Nat)⟩) ::
          (older ++ oneOwner.env.history)) := by
  obtain ⟨w', hrun⟩ := Option.isSome_iff_exists.mp
    (show (UniqueRc.destroy (deleterCall (Script.append
      (.step (.acquire (5 : Int)) .done .done)
      (.step (.perform (.reset ⟨(), (0 : Nat)⟩ (5 : Int))) .done .done)).run)
      ⟨(), (0 : Nat)⟩ oneOwner).isSome from rfl)
  exact ⟨w', hrun, destroy_disposes_twice rfl rfl rfl hrun⟩

end Programs

end Raii
