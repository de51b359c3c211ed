import Mathlib.Logic.Equiv.Basic

/-!
# Exclusive owners of resources

A map from owners to what they own, such that nobody shares a resource and the
resources there are are those that are owned.  Each way to pass resources on
has one lemma: it says which resources are gone and that the rest is as before.
-/

namespace Foundation

variable {O R : Type}

/-- Owners share no resource, and `there` are the resources they own. -/
structure Exclusive (owner : O → Option R) (there : R → Prop) : Prop where
  unique : ∀ {x y r}, owner x = some r → owner y = some r → x = y
  covers : ∀ r, there r ↔ ∃ x, owner x = some r

namespace Exclusive

variable {owner owner' : O → Option R} {there there' : R → Prop}

theorem congr (h : Exclusive owner there) (howner : owner' = owner)
    (hthere : ∀ r, there' r ↔ there r) : Exclusive owner' there' := by
  subst howner
  exact ⟨h.unique, fun r => (hthere r).trans (h.covers r)⟩

theorem existsUnique (h : Exclusive owner there) {r : R} :
    there r ↔ ∃! x, owner x = some r := by
  rw [h.covers]
  constructor
  · rintro ⟨x, hx⟩
    exact ⟨x, hx, fun y hy => h.unique hy hx⟩
  · rintro ⟨x, hx, -⟩
    exact ⟨x, hx⟩

theorem none_left (h : Exclusive owner there) (hnone : ∀ x, owner x = none) (r : R) :
    ¬ there r := by
  rw [h.covers]
  rintro ⟨x, hx⟩
  rw [hnone x] at hx
  cases hx

variable [DecidableEq O]

theorem handOver (h : Exclusive owner there) (x y : O) :
    Exclusive (Function.update (Function.update owner y none) x (owner y))
      (fun r => there r ∧ some r ≠ if x = y then none else owner x) := by
  have howns : ∀ z r, Function.update (Function.update owner y none) x (owner y) z = some r ↔
      (z = x ∧ owner y = some r) ∨ (z ≠ x ∧ z ≠ y ∧ owner z = some r) := by
    intro z r
    by_cases hx : z = x
    · subst hx
      simp
    · by_cases hy : z = y
      · subst hy
        simp [hx]
      · simp [hx, hy]
  constructor
  · intro z z' r hz hz'
    rcases (howns z r).mp hz with ⟨rfl, hy⟩ | ⟨-, hzy, hown⟩ <;>
      rcases (howns z' r).mp hz' with ⟨rfl, hy'⟩ | ⟨-, hzy', hown'⟩
    · rfl
    · exact absurd (h.unique hown' hy) hzy'
    · exact absurd (h.unique hown hy') hzy
    · exact h.unique hown hown'
  · intro r
    rw [h.covers]
    constructor
    · rintro ⟨⟨z, hz⟩, hkept⟩
      by_cases hy : z = y
      · subst hy
        exact ⟨x, (howns x r).mpr (.inl ⟨rfl, hz⟩)⟩
      · refine ⟨z, (howns z r).mpr (.inr ⟨?_, hy, hz⟩)⟩
        rintro rfl
        rw [if_neg hy, hz] at hkept
        exact hkept rfl
    · rintro ⟨z, hz⟩
      rcases (howns z r).mp hz with ⟨rfl, hy⟩ | ⟨hzx, -, hown⟩
      · refine ⟨⟨y, hy⟩, fun heq => ?_⟩
        split at heq
        · cases heq
        · exact absurd (h.unique heq.symm hy) ‹_›
      · refine ⟨⟨z, hown⟩, fun heq => ?_⟩
        split at heq
        · cases heq
        · exact hzx (h.unique hown heq.symm)

theorem clear (h : Exclusive owner there) (x : O) :
    Exclusive (Function.update owner x none) (fun r => there r ∧ some r ≠ owner x) := by
  have howns : ∀ z r, Function.update owner x none z = some r ↔ z ≠ x ∧ owner z = some r := by
    intro z r
    by_cases hx : z = x
    · subst hx
      simp
    · simp [hx]
  constructor
  · intro z z' r hz hz'
    exact h.unique ((howns z r).mp hz).2 ((howns z' r).mp hz').2
  · intro r
    rw [h.covers]
    constructor
    · rintro ⟨⟨z, hz⟩, hkept⟩
      refine ⟨z, (howns z r).mpr ⟨?_, hz⟩⟩
      rintro rfl
      exact hkept hz.symm
    · rintro ⟨z, hz⟩
      obtain ⟨hne, hz⟩ := (howns z r).mp hz
      exact ⟨⟨z, hz⟩, fun heq => hne (h.unique hz heq.symm)⟩

theorem install (h : Exclusive owner there) (x : O) {new : Option R}
    (hx : owner x = none) (hfresh : ∀ r, new = some r → ¬ there r) :
    Exclusive (Function.update owner x new) (fun r => there r ∨ some r = new) := by
  have howns : ∀ z r, Function.update owner x new z = some r ↔
      (z = x ∧ new = some r) ∨ owner z = some r := by
    intro z r
    by_cases hz : z = x
    · subst hz
      simp [hx]
    · simp [hz]
  have hnew : ∀ z r, owner z = some r → new ≠ some r :=
    fun z r hz heq => hfresh r heq ((h.covers r).mpr ⟨z, hz⟩)
  constructor
  · intro z z' r hz hz'
    rcases (howns z r).mp hz with ⟨rfl, hgiven⟩ | hown <;>
      rcases (howns z' r).mp hz' with ⟨rfl, hgiven'⟩ | hown'
    · rfl
    · exact absurd hgiven (hnew z' r hown')
    · exact absurd hgiven' (hnew z r hown)
    · exact h.unique hown hown'
  · intro r
    rw [h.covers]
    constructor
    · rintro (⟨z, hz⟩ | hr)
      · exact ⟨z, (howns z r).mpr (.inr hz)⟩
      · exact ⟨x, (howns x r).mpr (.inl ⟨rfl, hr.symm⟩)⟩
    · rintro ⟨z, hz⟩
      rcases (howns z r).mp hz with ⟨-, hz⟩ | hz
      · exact .inr hz.symm
      · exact .inl ⟨z, hz⟩

theorem exchange (h : Exclusive owner there) (x y : O) :
    Exclusive (Function.update (Function.update owner x (owner y)) y (owner x)) there := by
  have hswap : Function.update (Function.update owner x (owner y)) y (owner x) =
      owner ∘ Equiv.swap x y := by
    funext z
    by_cases hy : z = y
    · subst hy
      simp
    · by_cases hx : z = x
      · subst hx
        simp [hy]
      · simp [hx, hy, Equiv.swap_apply_of_ne_of_ne hx hy]
  rw [hswap]
  constructor
  · intro z z' r hz hz'
    exact (Equiv.swap x y).injective (h.unique hz hz')
  · intro r
    rw [h.covers]
    constructor
    · rintro ⟨z, hz⟩
      exact ⟨Equiv.swap x y z, by simpa using hz⟩
    · rintro ⟨z, hz⟩
      exact ⟨Equiv.swap x y z, hz⟩

end Exclusive

end Foundation
