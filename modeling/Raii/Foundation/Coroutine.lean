import Mathlib.Data.List.Basic

/-!
# Bodies of coroutines that yield values

A body is known by what it does from one suspension to the next, as a function
of its own state and of nothing else.  The values it yields then do not depend
on who resumes it or on what happens in between, so a run of it can be cut
anywhere.
-/

namespace Foundation

variable {σ T : Type}

inductive Resumption (σ T : Type) where
  | yielded (value : T) (state : σ)
  | returned
  | threw

/-- Resumed at `s` as often as there are values in the list, the body is then at `s'`. -/
inductive Produces (body : σ → Resumption σ T) : σ → List T → σ → Prop where
  | nil {s : σ} : Produces body s [] s
  | cons {s s₁ s' : σ} {value : T} {values : List T}
      (hyield : body s = .yielded value s₁) (hrest : Produces body s₁ values s') :
      Produces body s (value :: values) s'

def Completes (body : σ → Resumption σ T) (s : σ) (values : List T) : Prop :=
  ∃ s', Produces body s values s' ∧ body s' = .returned

/--
Resumed at `s` until it has yielded as many values or returns, the body yields
these values, and is suspended again unless it has returned.
-/
def reads (body : σ → Resumption σ T) : Nat → σ → Option (List T × Option σ)
  | 0, s => some ([], some s)
  | count + 1, s =>
      match body s with
      | .yielded value s₁ => (reads body count s₁).map fun r => (value :: r.1, r.2)
      | .returned => some ([], none)
      | .threw => none

variable {body : σ → Resumption σ T} {s s₁ s' : σ} {value : T} {values rest : List T}

namespace Produces

theorem trans (h : Produces body s values s₁) (h' : Produces body s₁ rest s') :
    Produces body s (values ++ rest) s' := by
  induction h with
  | nil => exact h'
  | cons hyield _ ih => exact .cons hyield (ih h')

theorem snoc (h : Produces body s values s₁) (hyield : body s₁ = .yielded value s') :
    Produces body s (values ++ [value]) s' :=
  h.trans (.cons hyield .nil)

end Produces

theorem Completes.nil_iff : Completes body s [] ↔ body s = .returned := by
  constructor
  · rintro ⟨s', hproduces, hreturned⟩
    cases hproduces
    exact hreturned
  · exact fun h => ⟨s, .nil, h⟩

theorem Completes.cons_iff : Completes body s (value :: values) ↔
    ∃ s₁, body s = .yielded value s₁ ∧ Completes body s₁ values := by
  constructor
  · rintro ⟨s', hproduces, hreturned⟩
    cases hproduces with
    | cons hyield hrest => exact ⟨_, hyield, s', hrest, hreturned⟩
  · rintro ⟨s₁, hyield, s', hrest, hreturned⟩
    exact ⟨s', .cons hyield hrest, hreturned⟩

section Reads

variable {count more : Nat} {after : Option σ}

theorem reads_some_iff : reads body count s = some (values, some s') ↔
    Produces body s values s' ∧ values.length = count := by
  induction count generalizing s values with
  | zero =>
      simp only [reads, Option.some.injEq, Prod.mk.injEq, List.length_eq_zero_iff]
      constructor
      · rintro ⟨rfl, rfl⟩
        exact ⟨.nil, rfl⟩
      · rintro ⟨hproduces, rfl⟩
        cases hproduces
        exact ⟨rfl, rfl⟩
  | succ count ih =>
      constructor
      · intro hreads
        rw [reads] at hreads
        split at hreads
        · obtain ⟨⟨rest, after⟩, hrest, heq⟩ := Option.map_eq_some_iff.mp hreads
          obtain ⟨rfl, rfl⟩ := Prod.mk.inj heq
          obtain ⟨hproduces, hlength⟩ := ih.mp hrest
          exact ⟨.cons ‹_› hproduces, congrArg (· + 1) hlength⟩
        · cases hreads
        · cases hreads
      · rintro ⟨hproduces, hlength⟩
        cases hproduces with
        | nil => cases hlength
        | cons hyield hrest =>
            simp [reads, hyield, ih.mpr ⟨hrest, Nat.succ.inj hlength⟩]

theorem reads_none_iff : reads body count s = some (values, none) ↔
    Completes body s values ∧ values.length < count := by
  induction count generalizing s values with
  | zero => simp [reads]
  | succ count ih =>
      constructor
      · intro hreads
        rw [reads] at hreads
        split at hreads
        · obtain ⟨⟨rest, after⟩, hrest, heq⟩ := Option.map_eq_some_iff.mp hreads
          obtain ⟨rfl, rfl⟩ := Prod.mk.inj heq
          obtain ⟨hcompletes, hlength⟩ := ih.mp hrest
          exact ⟨Completes.cons_iff.mpr ⟨_, ‹_›, hcompletes⟩, Nat.succ_lt_succ hlength⟩
        · obtain ⟨rfl, -⟩ := Prod.mk.inj (Option.some.inj hreads)
          exact ⟨Completes.nil_iff.mpr ‹_›, Nat.succ_pos count⟩
        · cases hreads
      · rintro ⟨hcompletes, hlength⟩
        cases values with
        | nil => rw [reads, Completes.nil_iff.mp hcompletes]
        | cons value rest =>
            obtain ⟨s₁, hyield, hrest⟩ := Completes.cons_iff.mp hcompletes
            simp [reads, hyield, ih.mpr ⟨hrest, Nat.lt_of_succ_lt_succ hlength⟩]

theorem reads_iff : (∃ after, reads body count s = some (values, after)) ↔
    ∃ s', Produces body s values s' ∧
      (values.length = count ∨ values.length < count ∧ body s' = .returned) := by
  constructor
  · rintro ⟨after, hreads⟩
    cases after with
    | none =>
        obtain ⟨⟨s', hproduces, hreturned⟩, hlength⟩ := reads_none_iff.mp hreads
        exact ⟨s', hproduces, .inr ⟨hlength, hreturned⟩⟩
    | some s' =>
        obtain ⟨hproduces, hlength⟩ := reads_some_iff.mp hreads
        exact ⟨s', hproduces, .inl hlength⟩
  · rintro ⟨s', hproduces, hlength | ⟨hlength, hreturned⟩⟩
    · exact ⟨some s', reads_some_iff.mpr ⟨hproduces, hlength⟩⟩
    · exact ⟨none, reads_none_iff.mpr ⟨⟨s', hproduces, hreturned⟩, hlength⟩⟩

theorem reads_add : reads body (count + more) s = (reads body count s).bind fun r =>
    match r.2 with
    | none => some (r.1, none)
    | some s' => (reads body more s').map fun later => (r.1 ++ later.1, later.2) := by
  induction count generalizing s with
  | zero => simp [reads]
  | succ count ih =>
      rw [Nat.succ_add, reads, reads]
      split
      · rw [ih, Option.map_bind, Option.bind_map]
        congr 1
        funext r
        obtain ⟨rest, after⟩ := r
        cases after with
        | none => rfl
        | some s' =>
            simp only [Function.comp_apply, Option.map_map]
            rfl
      · rfl
      · rfl

end Reads

end Foundation
