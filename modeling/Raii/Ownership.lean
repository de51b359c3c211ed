import Raii.Custody

/-!
# Single ownership

Where each acquisition of a run is to be found, and that it is in one place
only.  `Accounted` says so in terms of the accounts that settle the history of
the run; it is `Custody` seen from outside the library, between two operations.
-/

namespace Raii

open Foundation

inductive Location (P : Sharing) where
  | client
  | object (obj : Obj P.signature)
  | disposed

def Newest {P : Sharing} (newer : List (Acquisition P.Handle))
    (account : Acquisition P.Handle) : Prop :=
  ∀ other ∈ newer, other.resource ≠ account.resource

/--
Where an acquisition is.  A handle in the hands of the client or of an object
stands for the newest acquisition of its value: the value of a disposed handle
may be acquired again.
-/
def Located {P : Sharing} (w : ClientWorld P)
    (newer : List (Acquisition P.Handle)) (account : Acquisition P.Handle) :
    Location P → Prop
  | .client => Newest newer account ∧ account.resource ∈ w.env.client
  | .object obj =>
      Newest newer account ∧ w.live obj = true ∧
        w.getHandle obj = account.resource ∧
        P.isOwned account.resource = true
  | .disposed => account.disposals = 1

/--
Every acquisition is in exactly one place and disposed at most once, whatever
the client or an object holds was acquired, and no deleter is at work.
-/
structure Accounted {P : Sharing} (w : ClientWorld P) : Prop where
  located : ∃ accounts, settle w.env.history = some accounts ∧
    (∀ newer account older, accounts = newer ++ account :: older →
      account.disposals ≤ 1 ∧ ∃! location, Located w newer account location) ∧
    ∀ place hnd, holds w place hnd → ∃ account ∈ accounts, account.resource = hnd
  client_nodup : w.env.client.Nodup
  idle : w.env.pending = []

section Accounts

variable {P : Sharing} {w : ClientWorld P}

theorem exists_location_iff {newer : List (Acquisition P.Handle)}
    {account : Acquisition P.Handle} (hidle : w.env.pending = []) :
    (∃ location, location ≠ .disposed ∧ Located w newer account location) ↔
      (∃ place, holds w place account.resource) ∧ Newest newer account := by
  constructor
  · rintro ⟨location, hne, hlocated⟩
    cases location with
    | client => exact ⟨⟨.client, hlocated.2⟩, hlocated.1⟩
    | object obj => exact ⟨⟨.object obj, hlocated.2⟩, hlocated.1⟩
    | disposed => exact absurd rfl hne
  · rintro ⟨⟨place, hholds⟩, hnewest⟩
    cases place with
    | client => exact ⟨.client, by simp, hnewest, hholds⟩
    | object obj => exact ⟨.object obj, by simp, hnewest, hholds⟩
    | pending =>
        simp only [holds, hidle] at hholds
        exact absurd hholds List.not_mem_nil

theorem Located.unique (h : Custody w) {newer : List (Acquisition P.Handle)}
    {account : Acquisition P.Handle} {l l' : Location P}
    (hl : l ≠ .disposed) (hl' : l' ≠ .disposed)
    (hlocated : Located w newer account l)
    (hlocated' : Located w newer account l') : l = l' := by
  have hexclusive := fun p q => h.books.exclusive p q account.resource
  cases l with
  | disposed => exact absurd rfl hl
  | client =>
      cases l' with
      | disposed => exact absurd rfl hl'
      | client => rfl
      | object obj => simpa using hexclusive .client (.object obj) hlocated.2 hlocated'.2
  | object obj =>
      cases l' with
      | disposed => exact absurd rfl hl'
      | client => simpa using hexclusive (.object obj) .client hlocated.2 hlocated'.2
      | object obj' =>
          simpa using hexclusive (.object obj) (.object obj') hlocated.2 hlocated'.2

theorem Custody.accounted (h : Custody w) (hidle : w.env.pending = []) :
    Accounted w := by
  obtain ⟨accounts, hsettle, hbalanced⟩ := h.books.balanced
  refine ⟨⟨accounts, hsettle, ?_, ?_⟩, h.client_nodup, hidle⟩
  · rintro newer account older rfl
    by_cases hheld : (∃ place, holds w place account.resource) ∧ Newest newer account
    · have hopen := (hbalanced.disposals_of_newest hheld.2).1 hheld.1
      obtain ⟨location, hne, hlocated⟩ := (exists_location_iff hidle).mpr hheld
      refine ⟨by omega, location, hlocated, fun other hother => ?_⟩
      refine Located.unique h ?_ hne hother hlocated
      rintro rfl
      rw [Located, hopen] at hother
      omega
    · have hclosed : account.disposals = 1 := by
        by_cases hnewest : Newest newer account
        · exact (hbalanced.disposals_of_newest hnewest).2 fun hin => hheld ⟨hin, hnewest⟩
        · simp only [Newest, not_forall, not_not] at hnewest
          obtain ⟨other, hmem, heq⟩ := hnewest
          exact hbalanced.disposals_of_superseded hmem heq
      refine ⟨by omega, .disposed, hclosed, fun other hother => ?_⟩
      by_contra hne
      exact hheld ((exists_location_iff hidle).mp ⟨other, hne, hother⟩)
  · intro place hnd hholds
    obtain ⟨account, hmem, hresource, -⟩ := hbalanced.exists_account ⟨place, hholds⟩
    exact ⟨account, hmem, hresource⟩

theorem exists_newest {accounts : List (Acquisition P.Handle)} {hnd : P.Handle}
    (h : ∃ account ∈ accounts, account.resource = hnd) :
    ∃ newer account older, accounts = newer ++ account :: older ∧
      account.resource = hnd ∧ Newest newer account := by
  cases hfind : accounts.find? (·.resource = hnd) with
  | none =>
      obtain ⟨account, hmem, hresource⟩ := h
      simpa [hresource] using List.find?_eq_none.mp hfind account hmem
  | some newest =>
      obtain ⟨hresource, newer, older, rfl, hnewer⟩ :=
        List.find?_eq_some_iff_append.mp hfind
      simp only [decide_eq_true_eq] at hresource
      refine ⟨newer, newest, older, rfl, hresource, ?_⟩
      simpa [Newest, hresource] using hnewer

theorem Accounted.custody (h : Accounted w) : Custody w := by
  obtain ⟨accounts, hsettle, hlocated, hcovered⟩ := h.located
  have hidle := h.idle
  refine ⟨⟨?_, accounts, hsettle, Balanced.of_split ?_ ?_⟩, h.client_nodup,
    by simp [hidle]⟩
  · intro p q hnd hp hq
    obtain ⟨newer, account, older, heq, rfl, hnewest⟩ :=
      exists_newest (hcovered p hnd hp)
    obtain ⟨-, location, -, hunique⟩ := hlocated newer account older heq
    have hat : ∀ place, holds w place account.resource →
        place = .client ∧ location = .client ∨
          ∃ obj, place = .object obj ∧ location = .object obj := by
      intro place hholds
      cases place with
      | client => exact .inl ⟨rfl, (hunique .client ⟨hnewest, hholds⟩).symm⟩
      | object obj =>
          exact .inr ⟨obj, rfl, (hunique (.object obj) ⟨hnewest, hholds⟩).symm⟩
      | pending =>
          simp only [holds, hidle] at hholds
          exact absurd hholds List.not_mem_nil
    rcases hat p hp with ⟨rfl, hl⟩ | ⟨obj, rfl, hl⟩ <;>
      rcases hat q hq with ⟨rfl, hl'⟩ | ⟨obj', rfl, hl'⟩
    · rfl
    · simp [hl] at hl'
    · simp [hl] at hl'
    · simpa [hl] using hl'
  · rintro hnd ⟨place, hholds⟩
    exact hcovered place hnd hholds
  · intro newer account older heq
    obtain ⟨hle, location, hat, hunique⟩ := hlocated newer account older heq
    constructor
    · intro hheld
      obtain ⟨held, hne, hatHeld⟩ := (exists_location_iff hidle).mpr hheld
      have hnot : account.disposals ≠ 1 := by
        intro hdisposed
        exact hne ((hunique held hatHeld).trans (hunique .disposed hdisposed).symm)
      omega
    · intro hnot
      by_cases hdisposed : location = .disposed
      · subst hdisposed
        exact hat
      · exact absurd ((exists_location_iff hidle).mp ⟨location, hdisposed, hat⟩) hnot

end Accounts

/-! ## Runs of a client -/

section Runs

variable {P : Sharing} {w w' : ClientWorld P}

structure World.Initial (w : ClientWorld P) : Prop where
  live : ∀ obj, w.live obj = false
  client : w.env.client = []
  pending : w.env.pending = []
  history : w.env.history = []

theorem World.Initial.accounted (h : w.Initial) : Accounted w := by
  have hnone : ∀ place hnd, ¬ holds w place hnd := by
    intro place hnd
    cases place <;> simp [holds, h.live, h.client, h.pending]
  refine Custody.accounted ⟨⟨?_, [], by rw [h.history]; rfl, ?_⟩, ?_, ?_⟩ h.pending
  · intro p q hnd hp
    exact absurd hp (hnone p hnd)
  · rintro hnd ⟨place, hholds⟩
    exact hnone place hnd hholds
  · simp [h.client]
  · simp [h.pending]

theorem Accounted.step {move : Move P} (h : Accounted w)
    (hrun : move.step quietDeleter w = some w') : Accounted w' := by
  have hcustody := h.custody
  by_cases hmove : ∃ this, move = .perform (.destroy this)
  · obtain ⟨this, rfl⟩ := hmove
    obtain ⟨w₂, hexec, hw⟩ := Option.bind_eq_some_iff.mp hrun
    obtain rfl := Option.some.inj hw
    obtain ⟨hlive, hdestroy⟩ := Op.exec_eq_some_iff.mp hexec
    obtain ⟨hafter, hpending⟩ := hcustody.destroy hlive hdestroy
    exact hafter.accounted (hpending.trans h.idle)
  · obtain ⟨hafter, hcontinues⟩ := hcustody.step Custody.settles_quietDeleter
      (fun this heq => hmove ⟨this, heq⟩) hrun
    exact hafter.accounted (hcontinues.pending.trans h.idle)

theorem Accounted.run {moves : List (Move P)} (h : Accounted w)
    (hrun : Foundation.run (Move.step quietDeleter) moves w = some w') :
    Accounted w' :=
  run_preserves (fun _ _ _ h hstep => h.step hstep) h hrun

/--
Single ownership.  Whatever the client does, in whatever order, every handle
it acquired is afterwards with it, in exactly one live object, or disposed, and
disposed once.
-/
theorem single_ownership {moves : List (Move P)} (hstart : w.Initial)
    (hrun : run (Move.step quietDeleter) moves w = some w') : Accounted w' :=
  hstart.accounted.run hrun

/-- The value 7 is acquired, disposed by a move assignment, and acquired again. -/
def recycling : List (Move intSharing) :=
  [.acquire (7 : Int), .acquire (9 : Int),
    .perform (.constructHandle ⟨(), (0 : Nat)⟩ (7 : Int)),
    .perform (.constructHandle ⟨(), (1 : Nat)⟩ (9 : Int)),
    .perform (.moveAssign () (0 : Nat) (1 : Nat) ()),
    .acquire (7 : Int),
    .perform (.reset ⟨(), (1 : Nat)⟩ (7 : Int)),
    .perform (.release ⟨(), (0 : Nat)⟩),
    .perform (.destroy ⟨(), (1 : Nat)⟩)]

theorem single_ownership_recycling :
    ∃ w', run (Move.step quietDeleter) recycling intWorld = some w' ∧
      Accounted w' := by
  obtain ⟨w', hrun⟩ := Option.isSome_iff_exists.mp
    (show (run (Move.step quietDeleter) recycling intWorld).isSome from rfl)
  exact ⟨w', hrun, single_ownership ⟨fun _ => rfl, rfl, rfl, rfl⟩ hrun⟩

end Runs

end Raii
