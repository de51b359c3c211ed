import Raii.Client

/-!
# Custody of handles

Every owned handle is in one place: with the client, in one live object, or
with a deleter that is about to free it.  `Custody` states this together with
the accounts of the ledger.  The first half of the file has one lemma for each
way a handle changes hands; the second half follows the code of every operation
through these lemmas, with `World.inLocal` for a handle in a local variable.
-/

namespace Raii

open Foundation

inductive Place (P : Sharing) where
  | client
  | object (obj : Obj P.signature)
  | pending

def holds {P : Sharing} (w : ClientWorld P) : Place P → P.Handle → Prop
  | .client, hnd => hnd ∈ w.env.client
  | .object obj, hnd =>
      w.live obj = true ∧ w.getHandle obj = hnd ∧ P.isOwned hnd = true
  | .pending, hnd => hnd ∈ w.env.pending

structure Custody {P : Sharing} (w : ClientWorld P) : Prop where
  books : Books (holds w) w.env.history
  client_nodup : w.env.client.Nodup
  pending_nodup : w.env.pending.Nodup

namespace World

variable {P : Sharing}

/-- A local variable of the library holds `hnd`, if that is a handle to answer for. -/
def inLocal (hnd : P.Handle) (w : ClientWorld P) : ClientWorld P :=
  if P.isOwned hnd then
    w.setEnv { w.env with pending := hnd :: w.env.pending }
  else w

theorem inLocal_of_not_owned {hnd : P.Handle} {w : ClientWorld P}
    (h : P.isOwned hnd = false) : w.inLocal hnd = w := by
  simp [inLocal, h]

theorem inLocal_of_owned {hnd : P.Handle} {w : ClientWorld P}
    (h : P.isOwned hnd = true) :
    w.inLocal hnd =
      w.setEnv { w.env with pending := hnd :: w.env.pending } := by
  simp [inLocal, h]

section InLocal

variable (hnd : P.Handle) (w : ClientWorld P)

@[simp] theorem live_inLocal : (w.inLocal hnd).live = w.live := by
  unfold inLocal
  split <;> rfl

@[simp] theorem getHandle_inLocal :
    (w.inLocal hnd).getHandle = w.getHandle := by
  unfold inLocal
  split <;> rfl

@[simp] theorem client_inLocal :
    (w.inLocal hnd).env.client = w.env.client := by
  unfold inLocal
  split <;> rfl

@[simp] theorem history_inLocal :
    (w.inLocal hnd).env.history = w.env.history := by
  unfold inLocal
  split <;> rfl

theorem mem_pending_inLocal {s : P.Handle} :
    s ∈ (w.inLocal hnd).env.pending ↔
      (P.isOwned hnd = true ∧ s = hnd) ∨ s ∈ w.env.pending := by
  unfold inLocal
  split <;> simp_all

theorem nodup_pending_inLocal :
    (w.inLocal hnd).env.pending.Nodup ↔
      w.env.pending.Nodup ∧ (P.isOwned hnd = true → hnd ∉ w.env.pending) := by
  cases howned : P.isOwned hnd with
  | false => simp [inLocal_of_not_owned howned]
  | true => simp [inLocal_of_owned howned, and_comm]

end InLocal

end World

namespace Custody

variable {P : Sharing} {w w' : ClientWorld P} {hnd : P.Handle}
  {obj : Obj P.signature}

theorem congr (h : Custody w) (hlive : w'.live = w.live)
    (hget : w'.getHandle = w.getHandle)
    (hclient : w'.env.client = w.env.client)
    (hpending : w'.env.pending = w.env.pending)
    (hhistory : w'.env.history = w.env.history) : Custody w' := by
  have hholds : holds w' = holds w := by
    funext p s
    cases p <;> simp only [holds, hlive, hget, hclient, hpending]
  exact ⟨by rw [hholds, hhistory]; exact h.books, by rw [hclient]; exact h.client_nodup,
    by rw [hpending]; exact h.pending_nodup⟩

theorem not_holds_of_inLocal (h : Custody (w.inLocal hnd))
    (howned : P.isOwned hnd = true) {p : Place P} (hp : p ≠ .pending) :
    ¬ holds w p hnd := by
  intro hholds
  have hlocal : holds (w.inLocal hnd) .pending hnd :=
    (World.mem_pending_inLocal hnd w).mpr (.inl ⟨howned, rfl⟩)
  have hsame : holds (w.inLocal hnd) p hnd := by
    cases p with
    | client => simpa [holds] using hholds
    | object obj => simpa [holds] using hholds
    | pending => exact absurd rfl hp
  exact hp (h.books.exclusive _ _ _ hsame hlocal)

theorem redistribute_object (h : Custody w) (obj : Obj P.signature)
    (hhistory : w'.env.history = w.env.history)
    (hclient : w'.env.client = w.env.client)
    (hother : ∀ other, other ≠ obj →
      w'.live other = w.live other ∧ w'.getHandle other = w.getHandle other)
    (hboth : ∀ s, holds w' (.object obj) s ∨ s ∈ w'.env.pending ↔
      holds w (.object obj) s ∨ s ∈ w.env.pending)
    (hdisjoint : ∀ s, holds w' (.object obj) s → s ∉ w'.env.pending)
    (hnodup : w'.env.pending.Nodup) : Custody w' := by
  refine ⟨?_, by rw [hclient]; exact h.client_nodup, hnodup⟩
  rw [hhistory]
  refine h.books.redistribute (.object obj) .pending ?_ hboth ?_
  · intro place s hplace hpending
    cases place with
    | client => simp only [holds, hclient]
    | object other =>
        obtain ⟨hlive, hget⟩ := hother other fun heq => hplace (by rw [heq])
        simp only [holds, hlive, hget]
    | pending => exact absurd rfl hpending
  · intro s hobj hpending
    exact absurd hpending (hdisjoint s hobj)

theorem notMem_pending (h : Custody w) (obj : Obj P.signature)
    (hlive : w.live obj = true) (howned : P.isOwned (w.getHandle obj) = true) :
    w.getHandle obj ∉ w.env.pending := by
  intro hmem
  have heq := h.books.exclusive (.object obj) .pending _ ⟨hlive, rfl, howned⟩ hmem
  simp at heq

theorem exchange (h : Custody (w.inLocal hnd)) (obj : Obj P.signature)
    (hlive : w.live obj = true) :
    Custody ((w.setHandle obj hnd).inLocal (w.getHandle obj)) := by
  have hfree : P.isOwned hnd = true → w.getHandle obj ≠ hnd := by
    intro howned heq
    exact h.not_holds_of_inLocal howned (p := .object obj) (by simp)
      ⟨hlive, heq, howned⟩
  obtain ⟨hnodup, hnew⟩ := (World.nodup_pending_inLocal hnd w).mp h.pending_nodup
  refine h.redistribute_object obj (by simp) (by simp) ?_ ?_ ?_ ?_
  · intro other hne
    simp [hne]
  · intro s
    simp only [World.mem_pending_inLocal, holds, World.live_inLocal,
      World.getHandle_inLocal, World.live_setHandle, World.getHandle_setHandle,
      World.env_setHandle, Function.update_self, hlive]
    grind
  · intro s hobj hpending
    obtain ⟨-, hget, howned⟩ := hobj
    simp only [World.getHandle_inLocal, World.getHandle_setHandle,
      Function.update_self] at hget
    subst hget
    rcases (World.mem_pending_inLocal _ _).mp hpending with ⟨-, heq⟩ | hmem
    · exact hfree howned heq.symm
    · exact hnew howned hmem
  · refine (World.nodup_pending_inLocal _ _).mpr ⟨hnodup, fun howned hmem => ?_⟩
    refine h.notMem_pending obj (by simpa using hlive) (by simpa using howned) ?_
    rw [World.getHandle_inLocal, World.mem_pending_inLocal]
    exact .inr hmem

theorem release (h : Custody w) (hlive : w.live obj = true) :
    Custody ((w.setHandle obj P.invalid).inLocal (w.getHandle obj)) := by
  refine exchange ?_ obj hlive
  rwa [World.inLocal_of_not_owned P.isOwned_invalid]

theorem construct (h : Custody (w.inLocal hnd)) (obj : Obj P.signature)
    (hlive : w.live obj = false) (del : DeleterMember P.signature) : Custody (w.construct obj ⟨hnd, del⟩) := by
  obtain ⟨hnodup, hnew⟩ := (World.nodup_pending_inLocal hnd w).mp h.pending_nodup
  refine h.redistribute_object obj (by simp) (by simp) ?_ ?_ ?_ hnodup
  · intro other hne
    simp [hne]
  · intro s
    simp only [World.mem_pending_inLocal, holds, World.live_inLocal,
      World.live_construct, World.getHandle_construct, World.env_construct,
      Function.update_self, hlive]
    grind
  · rintro s ⟨-, hget, howned⟩ hmem
    simp only [World.getHandle_construct, Function.update_self] at hget
    exact hnew (hget ▸ howned) (hget ▸ hmem)

theorem endLifetime (h : Custody w) (obj : Obj P.signature)
    (howned : P.isOwned (w.getHandle obj) = false) :
    Custody (w.endLifetime obj) := by
  have hempty : ∀ s, ¬ holds w (.object obj) s := by
    rintro s ⟨-, rfl, hs⟩
    simp [howned] at hs
  have hdead : ∀ s, ¬ holds (w.endLifetime obj) (.object obj) s := by
    rintro s ⟨hs, -⟩
    simp at hs
  refine h.redistribute_object obj rfl rfl ?_ ?_ ?_ h.pending_nodup
  · intro other hne
    simp [hne]
  · intro s
    simp only [hempty, hdead, false_or]
    rfl
  · intro s hs
    exact absurd hs (hdead s)

theorem redistribute_client (h : Custody w)
    (hhistory : w'.env.history = w.env.history)
    (hlive : w'.live = w.live) (hget : w'.getHandle = w.getHandle)
    (hboth : ∀ s, s ∈ w'.env.client ∨ s ∈ w'.env.pending ↔
      s ∈ w.env.client ∨ s ∈ w.env.pending)
    (hdisjoint : ∀ s, s ∈ w'.env.client → s ∉ w'.env.pending)
    (hclient : w'.env.client.Nodup) (hpending : w'.env.pending.Nodup) :
    Custody w' := by
  refine ⟨?_, hclient, hpending⟩
  rw [hhistory]
  refine h.books.redistribute .client .pending ?_ hboth ?_
  · intro place s hplace hne
    cases place with
    | client => exact absurd rfl hplace
    | object other => simp only [holds, hlive, hget]
    | pending => exact absurd rfl hne
  · intro s hs hmem
    exact absurd hmem (hdisjoint s hs)

theorem client_disjoint_pending (h : Custody w) (hclient : hnd ∈ w.env.client) :
    hnd ∉ w.env.pending := by
  intro hmem
  have heq := h.books.exclusive .client .pending hnd hclient hmem
  simp at heq

theorem take (h : Custody w) (htake : w.take hnd = some w') :
    Custody (w'.inLocal hnd) := by
  cases howned : P.isOwned hnd with
  | false =>
      simp only [World.take, howned, Bool.false_eq_true, if_false,
        Option.some.injEq] at htake
      subst htake
      rwa [World.inLocal_of_not_owned howned]
  | true =>
      simp only [World.take, howned, if_true, Option.ite_none_right_eq_some,
        Option.some.injEq] at htake
      obtain ⟨hmem, rfl⟩ := htake
      have hout := h.client_disjoint_pending hmem
      have hrest : ∀ s, s ∈ w.env.client.erase hnd ↔ s ≠ hnd ∧ s ∈ w.env.client :=
        fun s => h.client_nodup.mem_erase_iff
      rw [World.inLocal_of_owned howned]
      refine h.redistribute_client rfl rfl rfl ?_ ?_ ?_ ?_
      · intro s
        simp only [World.env_setEnv, hrest, List.mem_cons]
        grind
      · intro s hs
        simp only [World.env_setEnv, hrest] at hs
        simp only [World.env_setEnv, List.mem_cons, not_or]
        exact ⟨hs.1, h.client_disjoint_pending hs.2⟩
      · exact h.client_nodup.erase hnd
      · exact List.nodup_cons.mpr ⟨hout, h.pending_nodup⟩

theorem give (h : Custody (w.inLocal hnd)) : Custody (w.give hnd) := by
  cases howned : P.isOwned hnd with
  | false =>
      rw [World.inLocal_of_not_owned howned] at h
      simpa [World.give, howned] using h
  | true =>
      have hout : hnd ∉ w.env.client :=
        h.not_holds_of_inLocal howned (p := .client) (by simp)
      obtain ⟨hnodup, hnew⟩ := (World.nodup_pending_inLocal hnd w).mp h.pending_nodup
      simp only [World.give, howned, if_true]
      refine h.redistribute_client (by simp) (by simp) (by simp) ?_ ?_ ?_ hnodup
      · intro s
        simp only [World.mem_pending_inLocal, World.client_inLocal,
          World.env_setEnv, List.mem_cons, howned]
        grind
      · intro s hs
        simp only [World.env_setEnv, List.mem_cons] at hs
        rcases hs with rfl | hs
        · exact hnew howned
        · intro hmem
          exact h.client_disjoint_pending (by simpa using hs)
            ((World.mem_pending_inLocal _ _).mpr (.inr hmem))
      · refine List.nodup_cons.mpr ⟨hout, ?_⟩
        simpa using h.client_nodup

theorem acquire (h : Custody w)
    (hfresh : outstanding hnd w.env.history = false) :
    Custody (w.acquire hnd) := by
  have hnone : ∀ p, ¬ holds w p hnd :=
    fun p => h.books.not_held_of_not_outstanding hfresh
  refine ⟨h.books.acquire (p := .client) hnone ?_, ?_, h.pending_nodup⟩
  · intro place s
    cases place with
    | client => simp [holds, World.acquire, or_comm]
    | object obj => simp [holds, World.acquire]
    | pending => simp [holds, World.acquire]
  · exact List.nodup_cons.mpr ⟨hnone .client, h.client_nodup⟩

theorem leave {rest : List P.Handle} (h : Custody w)
    (hpending : w.env.pending = hnd :: rest) : Custody (w.leave hnd) := by
  have herase : w.env.pending.erase hnd = rest := by simp [hpending]
  have hnodup := h.pending_nodup
  rw [hpending, List.nodup_cons] at hnodup
  refine ⟨h.books.dispose (p := .pending) (by simp [holds, hpending]) ?_,
    h.client_nodup, ?_⟩
  · intro place s
    have hexclusive : holds w place s → s = hnd → place = .pending := by
      rintro hs rfl
      exact h.books.exclusive _ _ _ hs (by simp [holds, hpending])
    cases place with
    | client =>
        simp only [holds, World.leave, World.env_setEnv]
        exact ⟨fun hs => ⟨hs, fun heq => by simpa using hexclusive hs heq⟩, And.left⟩
    | object obj =>
        refine ⟨fun hs => ⟨hs, fun heq => ?_⟩, And.left⟩
        simpa using hexclusive hs heq
    | pending =>
        simp only [holds, World.leave, World.env_setEnv, hpending, List.mem_cons]
        grind
  · simp only [World.leave, World.env_setEnv, herase]
    exact hnodup.2

end Custody

/-! ## Custody through the operations -/

def Entry.Unstored {P : Sharing} (entry : Entry P) : Prop :=
  ∀ obj, entry.stored obj ≠ some entry.handle

/--
What a deleter call leaves behind: the handles at work are those from before,
and every call made meanwhile started with its handle stored nowhere.
-/
structure Continues {P : Sharing} (before after : Ledger P) : Prop where
  pending : after.pending = before.pending
  calls : ∃ new, after.calls = new ++ before.calls ∧
    ∀ entry ∈ new, entry.Unstored

def Settles {P : Sharing} (call : DeleterCall P.signature (Ledger P)) : Prop :=
  ∀ this del hnd w w', P.isOwned hnd = true → Custody (World.inLocal hnd w) →
    call this del hnd w = some w' → Custody w' ∧ Continues w.env w'.env

namespace Continues

variable {P : Sharing} {first second third : Ledger P}

theorem refl (ledger : Ledger P) : Continues ledger ledger :=
  ⟨rfl, [], rfl, by simp⟩

theorem trans (h : Continues first second) (h' : Continues second third) :
    Continues first third := by
  obtain ⟨new, hnew, hunstored⟩ := h.calls
  obtain ⟨newer, hnewer, hunstored'⟩ := h'.calls
  refine ⟨h'.pending.trans h.pending, newer ++ new, ?_, ?_⟩
  · rw [hnewer, hnew, List.append_assoc]
  · intro entry hentry
    rcases List.mem_append.mp hentry with hentry | hentry
    · exact hunstored' entry hentry
    · exact hunstored entry hentry

theorem of_client (hpending : second.pending = first.pending)
    (hcalls : second.calls = first.calls) : Continues first second :=
  ⟨hpending, [], by simpa using hcalls, by simp⟩

theorem take {op : Op P.signature} {w w' : ClientWorld P}
    (htake : (Move.given op).elim (some w) w.take = some w') :
    Continues w.env w'.env := by
  cases hgiven : Move.given op with
  | none =>
      simp only [hgiven, Option.elim_none, Option.some.injEq] at htake
      exact htake ▸ .refl _
  | some hnd =>
      simp only [hgiven, Option.elim_some, World.take] at htake
      split at htake
      · obtain ⟨-, hw⟩ := Option.ite_none_right_eq_some.mp htake
        exact Option.some.inj hw ▸ .of_client rfl rfl
      · exact Option.some.inj htake ▸ .refl _

theorem give (hnd : Option P.Handle) (w : ClientWorld P) :
    Continues w.env (hnd.elim w w.give).env := by
  cases hnd with
  | none => exact .refl _
  | some hnd =>
      simp only [Option.elim_some, World.give]
      split
      · exact .of_client rfl rfl
      · exact .refl _

end Continues

namespace Custody

variable {P : Sharing} {call : DeleterCall P.signature (Ledger P)}
  {w w' : ClientWorld P} {hnd : P.Handle} {obj : Obj P.signature}
  {kind : P.Kind} {this other : P.Name} {left : P.Deleter}

theorem reset (hcall : Settles call) (h : Custody (w.inLocal hnd))
    (hlive : w.live obj = true)
    (hrun : UniqueRcHolderImpl.reset call obj hnd w = some w') :
    Custody w' ∧ Continues w.env w'.env := by
  have hexchange := h.exchange obj hlive
  rcases UniqueRcHolderImpl.reset_cases call hrun with
    ⟨howned, rfl⟩ | ⟨howned, -, hcalled⟩
  · rw [World.inLocal_of_not_owned howned] at hexchange
    exact ⟨hexchange, .refl _⟩
  · exact hcall obj _ _ (w.setHandle obj hnd) w' howned hexchange hcalled

theorem resetInvalid (hcall : Settles call) (h : Custody w)
    (hlive : w.live obj = true)
    (hrun : UniqueRc.resetInvalid call obj w = some w') :
    Custody w' ∧ Continues w.env w'.env := by
  have hinvalid : Custody (w.inLocal P.invalid) := by
    rwa [World.inLocal_of_not_owned P.isOwned_invalid]
  exact reset hcall hinvalid hlive hrun

theorem assignDeleter (h : Custody w) (target source : Obj P.signature)
    (convert : P.Deleter → P.Deleter) (left : P.Deleter) :
    Custody (w.assignDeleter target source convert left) :=
  h.congr (by simp) (by simp) (by simp) (by simp) (by simp)

theorem moveAssign (hcall : Settles call) (h : Custody w)
    (hthis : w.live ⟨kind, this⟩ = true) (hother : w.live ⟨kind, other⟩ = true)
    (hrun : UniqueRc.moveAssign call kind this other left w = some w') :
    Custody w' ∧ Continues w.env w'.env := by
  obtain ⟨w₁, hreset, rfl⟩ :=
    (UniqueRcHolderImpl.moveAssign_eq_some_iff call).mp hrun
  obtain ⟨hcustody, hcontinues⟩ := reset hcall (h.release hother) hthis hreset
  exact ⟨hcustody.assignDeleter _ _ _ _, by simpa using hcontinues⟩

theorem convertAssign {target source : Obj P.signature}
    {convertDel : P.Deleter → P.Deleter} (hcall : Settles call) (h : Custody w)
    (htarget : w.live target = true) (hsource : w.live source = true)
    (hrun : UniqueRc.convertAssign call target source id convertDel left w =
      some w') :
    Custody w' ∧ Continues w.env w'.env := by
  obtain ⟨w₁, hreset, rfl⟩ := (UniqueRc.convertAssign_eq_some_iff call).mp hrun
  obtain ⟨hcustody, hcontinues⟩ := reset hcall (h.release hsource) htarget hreset
  exact ⟨hcustody.assignDeleter _ _ _ _, by simpa using hcontinues⟩

theorem moveConstruct (h : Custody w) (hthis : w.live ⟨kind, this⟩ = false)
    (hother : w.live ⟨kind, other⟩ = true) :
    Custody (UniqueRc.moveConstruct kind this other left w) := by
  have hne : (⟨kind, this⟩ : Obj P.signature) ≠ ⟨kind, other⟩ := by
    intro heq
    rw [heq, hother] at hthis
    cases hthis
  have hbuilt := (h.release hother).construct ⟨kind, this⟩ hthis
    (.value left)
  refine hbuilt.congr ?_ ?_ ?_ ?_ ?_ <;>
    simp [UniqueRc.moveConstruct, UniqueRcHolderImpl.getHandle_moveConstruct,
      Function.update_comm hne]

theorem convertConstruct {target source : Obj P.signature}
    {convertDel : P.Deleter → P.Deleter} (h : Custody w)
    (htarget : w.live target = false) (hsource : w.live source = true) :
    Custody (UniqueRc.convertConstruct target source id convertDel left w) := by
  have hbuilt := (h.release hsource).construct target htarget
    (.value left)
  refine hbuilt.congr ?_ ?_ ?_ ?_ ?_ <;>
    simp [UniqueRc.getHandle_convertConstruct]

theorem swap (h : Custody w) (hthis : w.live ⟨kind, this⟩ = true)
    (hother : w.live ⟨kind, other⟩ = true) :
    Custody (UniqueRc.swap kind this other w) := by
  by_cases heq : this = other
  · subst heq
    refine h.congr ?_ ?_ ?_ ?_ ?_ <;>
      simp [UniqueRc.swap, UniqueRcHolderImpl.getHandle_swap]
  · -- out of `this`, into `other`, and what that held into `this`
    have hne : (⟨kind, other⟩ : Obj P.signature) ≠ ⟨kind, this⟩ := by
      simpa using Ne.symm heq
    have hswapped := ((h.release hthis).exchange ⟨kind, other⟩
      hother).exchange ⟨kind, this⟩ hthis
    have hrest : P.isOwned (((w.setHandle ⟨kind, this⟩ P.invalid).setHandle
        ⟨kind, other⟩ (w.getHandle ⟨kind, this⟩)).getHandle ⟨kind, this⟩) =
        false := by
      simp [hne.symm]
    rw [World.inLocal_of_not_owned hrest] at hswapped
    refine hswapped.congr ?_ ?_ ?_ ?_ ?_ <;>
      simp [UniqueRc.swap, UniqueRcHolderImpl.getHandle_swap, hne,
        Function.update_comm hne]

@[simp] theorem inLocal_invalid (w : ClientWorld P) :
    w.inLocal P.invalid = w :=
  World.inLocal_of_not_owned P.isOwned_invalid

theorem exec {op : Op P.signature} (hcall : Settles call)
    (h : Custody (w.inLocal ((Move.given op).getD P.invalid)))
    (hop : ∀ this, op ≠ .destroy this) (hrun : op.exec call w = some w') :
    Custody (w'.inLocal ((Move.returned w op).getD P.invalid)) ∧
      Continues w.env w'.env := by
  obtain ⟨hlive, hrun⟩ := Op.exec_eq_some_iff.mp hrun
  cases op with
  | construct target =>
      obtain ⟨del, -, hbuilt⟩ := Option.bind_eq_some_iff.mp hrun
      obtain rfl := Option.some.inj hbuilt
      simp only [Op.inLifetime, Bool.not_eq_true'] at hlive
      have hbuilt : Custody (UniqueRc.construct target del w) :=
        h.construct target hlive (.value del)
      exact ⟨by simpa [Move.returned] using hbuilt, .refl _⟩
  | constructHandle target hnd =>
      obtain ⟨del, -, hbuilt⟩ := Option.bind_eq_some_iff.mp hrun
      obtain rfl := Option.some.inj hbuilt
      simp only [Op.inLifetime, Bool.not_eq_true'] at hlive
      have hbuilt : Custody (UniqueRc.constructHandle target hnd del w) :=
        h.construct target hlive (.value del)
      exact ⟨by simpa [Move.returned] using hbuilt, .refl _⟩
  | constructDeleter target hnd del =>
      obtain ⟨-, hbuilt⟩ := Option.ite_none_right_eq_some.mp hrun
      obtain rfl := Option.some.inj hbuilt
      simp only [Op.inLifetime, Bool.not_eq_true'] at hlive
      have hbuilt : Custody (UniqueRc.constructDeleter target hnd del w) :=
        h.construct target hlive del
      exact ⟨by simpa [Move.returned] using hbuilt, .refl _⟩
  | moveConstruct kind this other left =>
      obtain rfl := Option.some.inj hrun
      simp only [Op.inLifetime, Bool.and_eq_true, Bool.not_eq_true'] at hlive
      simp only [Move.given, Option.getD_none, inLocal_invalid] at h
      refine ⟨by simpa [Move.returned] using h.moveConstruct hlive.1 hlive.2, ?_⟩
      exact .of_client (by simp [UniqueRc.moveConstruct])
        (by simp [UniqueRc.moveConstruct])
  | convertConstruct target source left =>
      obtain ⟨-, _, hconvert, convertDel, -, rfl⟩ :=
        Op.run_convertConstruct_eq_some_iff.mp hrun
      obtain rfl := Option.some.inj hconvert
      simp only [Op.inLifetime, Bool.and_eq_true, Bool.not_eq_true'] at hlive
      simp only [Move.given, Option.getD_none, inLocal_invalid] at h
      refine ⟨by simpa [Move.returned] using h.convertConstruct hlive.1 hlive.2, ?_⟩
      exact .of_client (by simp) (by simp)
  | moveAssign kind this other left =>
      simp only [Op.inLifetime, Bool.and_eq_true] at hlive
      simp only [Move.given, Option.getD_none, inLocal_invalid] at h
      simpa [Move.returned] using h.moveAssign hcall hlive.1 hlive.2 hrun
  | convertAssign target source left =>
      obtain ⟨-, _, hconvert, convertDel, -, hassign⟩ :=
        Op.run_convertAssign_eq_some_iff.mp hrun
      obtain rfl := Option.some.inj hconvert
      simp only [Op.inLifetime, Bool.and_eq_true] at hlive
      simp only [Move.given, Option.getD_none, inLocal_invalid] at h
      simpa [Move.returned] using h.convertAssign hcall hlive.1 hlive.2 hassign
  | swap kind this other =>
      obtain rfl := Option.some.inj hrun
      simp only [Op.inLifetime, Bool.and_eq_true] at hlive
      simp only [Move.given, Option.getD_none, inLocal_invalid] at h
      refine ⟨by simpa [Move.returned] using h.swap hlive.1 hlive.2, ?_⟩
      exact .of_client (by simp [UniqueRc.swap]) (by simp [UniqueRc.swap])
  | reset target hnd =>
      simpa [Move.returned] using reset hcall h hlive hrun
  | resetInvalid target =>
      simp only [Move.given, Option.getD_none, inLocal_invalid] at h
      simpa [Move.returned] using h.resetInvalid hcall hlive hrun
  | release target =>
      obtain rfl := Option.some.inj hrun
      simp only [Move.given, Option.getD_none, inLocal_invalid] at h
      exact ⟨h.release hlive, .refl _⟩
  | destroy target => exact absurd rfl (hop target)

theorem settles_deleterCall {body : ClientWorld P → Option (ClientWorld P)}
    (hbody : ∀ w w', Custody w → body w = some w' →
      Custody w' ∧ Continues w.env w'.env) :
    Settles (deleterCall body) := by
  intro target del hnd w w' howned h hrun
  obtain ⟨w₁, hran, rfl⟩ := Option.map_eq_some_iff.mp hrun
  have hentered : Custody (w.enter target del hnd) := by
    rw [World.inLocal_of_owned howned] at h
    exact h.congr rfl rfl rfl rfl rfl
  obtain ⟨hcustody, hcontinues⟩ := hbody _ _ hentered hran
  refine ⟨hcustody.leave hcontinues.pending, ?_, ?_⟩
  · simp [World.leave, hcontinues.pending, World.enter]
  · obtain ⟨new, hnew, hunstored⟩ := hcontinues.calls
    refine ⟨new ++ [⟨target, del, hnd, w.stored⟩], ?_, ?_⟩
    · simp [World.leave, hnew, World.enter]
    · intro entry hentry
      rcases List.mem_append.mp hentry with hentry | hentry
      · exact hunstored entry hentry
      · -- this is the call itself: its handle is in a local variable
        obtain rfl := List.mem_singleton.mp hentry
        intro obj hstored
        simp only [World.stored, Option.ite_none_right_eq_some,
          Option.some.injEq] at hstored
        exact h.not_holds_of_inLocal howned (p := .object obj) (by simp)
          ⟨hstored.1, hstored.2, howned⟩

theorem settles_quietDeleter : Settles (quietDeleter (P := P)) := by
  refine settles_deleterCall fun w w' h hrun => ?_
  obtain rfl := Option.some.inj hrun
  exact ⟨h, .refl _⟩

theorem take_given {op : Op P.signature} (h : Custody w)
    (htake : (Move.given op).elim (some w) w.take = some w') :
    Custody (w'.inLocal ((Move.given op).getD P.invalid)) := by
  cases hgiven : Move.given op with
  | none =>
      simp only [hgiven, Option.elim_none, Option.some.injEq] at htake
      simpa using htake ▸ h
  | some hnd =>
      simp only [hgiven, Option.elim_some] at htake
      exact h.take htake

theorem give_returned {op : Op P.signature} {w₁ : ClientWorld P}
    (h : Custody (w.inLocal ((Move.returned w₁ op).getD P.invalid))) :
    Custody ((Move.returned w₁ op).elim w w.give) := by
  cases hreturned : Move.returned w₁ op with
  | none => simpa [hreturned] using h
  | some hnd =>
      simp only [hreturned, Option.getD_some] at h
      exact h.give

theorem destroy (h : Custody w) (hlive : w.live obj = true)
    (hrun : UniqueRc.destroy quietDeleter obj w = some w') :
    Custody w' ∧ w'.env.pending = w.env.pending := by
  cases howned : P.isOwned (w.getHandle obj) with
  | false =>
      rw [UniqueRc.destroy_of_not_owned quietDeleter howned, Option.some.injEq] at hrun
      exact hrun ▸ ⟨h.endLifetime obj howned, rfl⟩
  | true =>
      rw [UniqueRc.destroy_of_owned quietDeleter howned] at hrun
      obtain ⟨w₁, hcalled, rfl⟩ := Option.map_eq_some_iff.mp hrun
      obtain rfl := Option.some.inj hcalled
      -- the deleter reads neither objects nor lifetimes, so the handle may
      -- as well be taken out of the object before the call
      have hreleased := h.release hlive
      rw [World.inLocal_of_owned howned] at hreleased
      have hended := (hreleased.leave rfl).endLifetime obj
        (by simp [World.leave])
      refine ⟨hended.congr ?_ ?_ ?_ ?_ ?_, ?_⟩ <;>
        simp [World.leave, World.enter]

theorem step {move : Move P} (hcall : Settles call) (h : Custody w)
    (hmove : ∀ this, move ≠ .perform (.destroy this))
    (hrun : move.step call w = some w') :
    Custody w' ∧ Continues w.env w'.env := by
  cases move with
  | acquire hnd =>
      obtain ⟨⟨-, hfresh⟩, rfl⟩ := Move.step_acquire_eq_some_iff.mp hrun
      exact ⟨h.acquire hfresh, .of_client rfl rfl⟩
  | perform op =>
      obtain ⟨w₁, w₂, htake, hexec, rfl⟩ := Move.step_perform_eq_some_iff.mp hrun
      have hop : ∀ this, op ≠ .destroy this := fun this heq => hmove this (by rw [heq])
      obtain ⟨hcustody, hcontinues⟩ := exec hcall (h.take_given htake) hop hexec
      exact ⟨hcustody.give_returned, (Continues.take htake).trans
        (hcontinues.trans (.give _ _))⟩

end Custody

end Raii
