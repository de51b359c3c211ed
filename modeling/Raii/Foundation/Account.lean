import Mathlib.Data.List.Basic
import Mathlib.Logic.Basic

/-!
# Accounts of acquired and disposed resources

A history of acquisitions and disposals is settled by crediting every disposal
to the newest acquisition of the same resource, so that a resource value that
is acquired again after its disposal starts a new account.  `Books` relates the
accounts to who holds which resource: nobody shares one, and the resources held
are those of the accounts that have no disposal.
-/

namespace Foundation

variable {R P : Type}

inductive Event (R : Type) where
  | acquire (resource : R)
  | dispose (resource : R)

structure Acquisition (R : Type) where
  resource : R
  disposals : Nat

section Settle

variable [DecidableEq R]

/-- Credit one disposal to the newest acquisition of `r`. -/
def credit (r : R) : List (Acquisition R) → Option (List (Acquisition R))
  | [] => none
  | account :: older =>
      if account.resource = r then
        some (⟨account.resource, account.disposals + 1⟩ :: older)
      else (credit r older).map (account :: ·)

/-- Histories and accounts are listed newest first. -/
def settle : List (Event R) → Option (List (Acquisition R))
  | [] => some []
  | .acquire r :: past => (settle past).map (⟨r, 0⟩ :: ·)
  | .dispose r :: past => (settle past).bind (credit r)

def outstanding (r : R) (history : List (Event R)) : Bool :=
  match settle history with
  | none => false
  | some accounts =>
      accounts.any fun account => account.resource = r ∧ account.disposals = 0

end Settle

/--
Read from the newest account on: the newest account of a resource has no
disposal if the resource is held and one if it is not, and every older account
of it has exactly one.
-/
def Balanced (held : R → Prop) : List (Acquisition R) → Prop
  | [] => ∀ r, ¬ held r
  | account :: older =>
      (held account.resource → account.disposals = 0) ∧
      (¬ held account.resource → account.disposals = 1) ∧
      Balanced (fun r => held r ∧ r ≠ account.resource) older

namespace Balanced

variable {held held' : R → Prop} {accounts newer older : List (Acquisition R)}
  {account : Acquisition R} {r : R}

theorem congr (h : Balanced held accounts) (hiff : ∀ r, held' r ↔ held r) :
    Balanced held' accounts := by
  obtain rfl : held' = held := funext fun r => propext (hiff r)
  exact h

theorem acquire (h : Balanced held accounts) (hr : ¬ held r) :
    Balanced (fun s => held s ∨ s = r) (⟨r, 0⟩ :: accounts) := by
  refine ⟨fun _ => rfl, fun hnot => absurd (.inr rfl) hnot, h.congr fun s => ?_⟩
  constructor
  · rintro ⟨hs | hs, hne⟩
    · exact hs
    · exact absurd hs hne
  · intro hs
    refine ⟨.inl hs, ?_⟩
    rintro rfl
    exact hr hs

theorem dispose [DecidableEq R] (h : Balanced held accounts) (hr : held r) :
    ∃ accounts', credit r accounts = some accounts' ∧
      Balanced (fun s => held s ∧ s ≠ r) accounts' := by
  induction accounts generalizing held with
  | nil => exact absurd hr (h r)
  | cons account older ih =>
      obtain ⟨hheld, hnot, holder⟩ := h
      by_cases heq : account.resource = r
      · subst heq
        refine ⟨_, if_pos rfl, fun hin => absurd rfl hin.2, fun _ => ?_, ?_⟩
        · simp [hheld hr]
        · exact holder.congr fun s => by simp only [and_assoc, and_self]
      · obtain ⟨older', hcredit, hbalanced⟩ := ih holder ⟨hr, Ne.symm heq⟩
        refine ⟨account :: older', by simp [credit, heq, hcredit],
          fun hin => hheld hin.1, fun hin => hnot fun h => hin ⟨h, heq⟩, ?_⟩
        exact hbalanced.congr fun s => and_right_comm

theorem exists_account (h : Balanced held accounts) (hr : held r) :
    ∃ account ∈ accounts, account.resource = r ∧ account.disposals = 0 := by
  induction accounts generalizing held with
  | nil => exact absurd hr (h r)
  | cons account older ih =>
      by_cases heq : account.resource = r
      · exact ⟨account, List.mem_cons_self, heq, h.1 (heq ▸ hr)⟩
      · obtain ⟨found, hmem, hfound⟩ := ih h.2.2 ⟨hr, Ne.symm heq⟩
        exact ⟨found, List.mem_cons_of_mem _ hmem, hfound⟩

theorem drop_newer (h : Balanced held (newer ++ older)) :
    Balanced (fun r => held r ∧ ∀ account ∈ newer, account.resource ≠ r)
      older := by
  induction newer generalizing held with
  | nil => exact h.congr fun r => by simp
  | cons account newer ih =>
      refine (ih h.2.2).congr fun r => ?_
      simp only [List.forall_mem_cons, and_assoc, ne_comm]

theorem disposals_of_newest (h : Balanced held (newer ++ account :: older))
    (hnew : ∀ other ∈ newer, other.resource ≠ account.resource) :
    (held account.resource → account.disposals = 0) ∧
      (¬ held account.resource → account.disposals = 1) := by
  obtain ⟨hheld, hnot, -⟩ := h.drop_newer
  exact ⟨fun hin => hheld ⟨hin, hnew⟩, fun hin => hnot fun h => hin h.1⟩

theorem disposals_of_superseded (h : Balanced held (newer ++ account :: older))
    {other : Acquisition R} (hother : other ∈ newer)
    (heq : other.resource = account.resource) : account.disposals = 1 :=
  h.drop_newer.2.1 fun hin => hin.2 other hother heq

theorem of_split (hheld : ∀ r, held r → ∃ account ∈ accounts, account.resource = r)
    (hsplit : ∀ newer account older, accounts = newer ++ account :: older →
      (held account.resource ∧ (∀ other ∈ newer,
          other.resource ≠ account.resource) → account.disposals = 0) ∧
      (¬ (held account.resource ∧ ∀ other ∈ newer,
          other.resource ≠ account.resource) → account.disposals = 1)) :
    Balanced held accounts := by
  induction accounts generalizing held with
  | nil =>
      intro r hr
      obtain ⟨account, hmem, -⟩ := hheld r hr
      exact absurd hmem List.not_mem_nil
  | cons account older ih =>
      obtain ⟨hopen, hclosed⟩ := hsplit [] account older rfl
      refine ⟨fun hin => hopen ⟨hin, by simp⟩,
        fun hnot => hclosed fun hin => hnot hin.1, ih ?_ ?_⟩
      · rintro r ⟨hr, hne⟩
        obtain ⟨found, hmem, rfl⟩ := hheld r hr
        rcases List.mem_cons.mp hmem with rfl | hmem
        · exact absurd rfl hne
        · exact ⟨found, hmem, rfl⟩
      · intro newer found rest heq
        obtain ⟨hopen', hclosed'⟩ := hsplit (account :: newer) found rest
          (by rw [heq, List.cons_append])
        simp only [List.forall_mem_cons] at hopen' hclosed'
        constructor
        · rintro ⟨⟨hin, hne⟩, hnewest⟩
          exact hopen' ⟨hin, Ne.symm hne, hnewest⟩
        · intro hnot
          refine hclosed' fun ⟨hin, hne, hnewest⟩ => hnot ⟨⟨hin, Ne.symm hne⟩, hnewest⟩

end Balanced

/-- `held p r` says that the place `p` holds the resource `r`. -/
structure Books [DecidableEq R] (held : P → R → Prop)
    (history : List (Event R)) : Prop where
  exclusive : ∀ p q r, held p r → held q r → p = q
  balanced : ∃ accounts, settle history = some accounts ∧
    Balanced (fun r => ∃ p, held p r) accounts

namespace Books

variable [DecidableEq R] {held held' : P → R → Prop}
  {history : List (Event R)} {p : P} {r : R}

theorem not_held_of_not_outstanding (h : Books held history)
    (hr : outstanding r history = false) : ¬ held p r := by
  intro hheld
  obtain ⟨accounts, hsettle, hbalanced⟩ := h.balanced
  obtain ⟨account, hmem, hresource, hnone⟩ := hbalanced.exists_account ⟨p, hheld⟩
  have hany : outstanding r history = true := by
    simp only [outstanding, hsettle, List.any_eq_true]
    exact ⟨account, hmem, by simp [hresource, hnone]⟩
  simp [hr] at hany

theorem acquire (h : Books held history) (hr : ∀ q, ¬ held q r)
    (hheld : ∀ q s, held' q s ↔ held q s ∨ (q = p ∧ s = r)) :
    Books held' (.acquire r :: history) := by
  obtain ⟨accounts, hsettle, hbalanced⟩ := h.balanced
  refine ⟨?_, ⟨r, 0⟩ :: accounts, by simp [settle, hsettle], ?_⟩
  · intro q q' s hq hq'
    rcases (hheld q s).mp hq with hq | ⟨rfl, rfl⟩ <;>
      rcases (hheld q' s).mp hq' with hq' | ⟨rfl, hs⟩
    · exact h.exclusive q q' s hq hq'
    · exact absurd (hs ▸ hq) (hr q)
    · exact absurd hq' (hr q')
    · rfl
  · refine (hbalanced.acquire fun ⟨q, hq⟩ => hr q hq).congr fun s => ?_
    constructor
    · rintro ⟨q, hq⟩
      rcases (hheld q s).mp hq with hq | ⟨-, hs⟩
      · exact .inl ⟨q, hq⟩
      · exact .inr hs
    · rintro (⟨q, hq⟩ | rfl)
      · exact ⟨q, (hheld q s).mpr (.inl hq)⟩
      · exact ⟨p, (hheld p s).mpr (.inr ⟨rfl, rfl⟩)⟩

theorem dispose (h : Books held history) (hr : held p r)
    (hheld : ∀ q s, held' q s ↔ held q s ∧ s ≠ r) :
    Books held' (.dispose r :: history) := by
  obtain ⟨accounts, hsettle, hbalanced⟩ := h.balanced
  obtain ⟨accounts', hcredit, hbalanced'⟩ := hbalanced.dispose ⟨p, hr⟩
  refine ⟨?_, accounts', by simp [settle, hsettle, hcredit], ?_⟩
  · intro q q' s hq hq'
    exact h.exclusive q q' s ((hheld q s).mp hq).1 ((hheld q' s).mp hq').1
  · exact hbalanced'.congr fun s => by simp only [hheld, exists_and_right]

theorem redistribute (h : Books held history) (p q : P)
    (hother : ∀ o s, o ≠ p → o ≠ q → (held' o s ↔ held o s))
    (hboth : ∀ s, held' p s ∨ held' q s ↔ held p s ∨ held q s)
    (hdisjoint : ∀ s, held' p s → held' q s → p = q) :
    Books held' history := by
  -- whoever holds `s` afterwards held it before, up to an exchange of `p` and `q`
  have hbefore : ∀ o s, held' o s →
      held o s ∨ ((o = p ∨ o = q) ∧ (held p s ∨ held q s)) := by
    intro o s ho
    by_cases hp : o = p
    · subst hp
      exact .inr ⟨.inl rfl, (hboth s).mp (.inl ho)⟩
    · by_cases hq : o = q
      · subst hq
        exact .inr ⟨.inr rfl, (hboth s).mp (.inr ho)⟩
      · exact .inl ((hother o s hp hq).mp ho)
  obtain ⟨accounts, hsettle, hbalanced⟩ := h.balanced
  refine ⟨?_, accounts, hsettle, hbalanced.congr fun s => ?_⟩
  · intro o o' s ho ho'
    by_cases hin : held p s ∨ held q s
    · have hpair : ∀ x, held' x s → x = p ∨ x = q := by
        intro x hx
        by_contra hout
        obtain ⟨hp, hq⟩ := not_or.mp hout
        have hheld := (hother x s hp hq).mp hx
        rcases hin with hin | hin
        · exact hp (h.exclusive x p s hheld hin)
        · exact hq (h.exclusive x q s hheld hin)
      rcases hpair o ho with rfl | rfl <;> rcases hpair o' ho' with rfl | rfl
      · rfl
      · exact hdisjoint s ho ho'
      · exact (hdisjoint s ho' ho).symm
      · rfl
    · rcases hbefore o s ho with ho | ⟨-, h⟩
      · rcases hbefore o' s ho' with ho' | ⟨-, h⟩
        · exact h.exclusive o o' s ho ho'
        · exact absurd h hin
      · exact absurd h hin
  · constructor
    · rintro ⟨o, ho⟩
      rcases hbefore o s ho with ho | ⟨-, hin | hin⟩
      · exact ⟨o, ho⟩
      · exact ⟨p, hin⟩
      · exact ⟨q, hin⟩
    · rintro ⟨o, ho⟩
      by_cases hp : o = p
      · subst hp
        rcases (hboth s).mpr (.inl ho) with h | h
        · exact ⟨_, h⟩
        · exact ⟨q, h⟩
      · by_cases hq : o = q
        · subst hq
          rcases (hboth s).mpr (.inr ho) with h | h
          · exact ⟨p, h⟩
          · exact ⟨_, h⟩
        · exact ⟨o, (hother o s hp hq).mpr ho⟩

end Books

end Foundation
