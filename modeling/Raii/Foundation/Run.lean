import Mathlib.Data.Option.Basic

/-!
# Finite runs of partial step functions

A step function answers `none` where a step is not allowed.  A run performs a
list of steps and fails with the first step that does.
-/

namespace Foundation

variable {σ τ ι : Type} {step : ι → σ → Option σ}

def run (step : ι → σ → Option σ) : List ι → σ → Option σ
  | [], s => some s
  | op :: ops, s => (step op s).bind (run step ops)

@[simp] theorem run_nil (s : σ) : run step [] s = some s := rfl

theorem run_cons_eq_some_iff {op : ι} {ops : List ι} {s s' : σ} :
    run step (op :: ops) s = some s' ↔
      ∃ s₁, step op s = some s₁ ∧ run step ops s₁ = some s' :=
  Option.bind_eq_some_iff

/-- `C` holds of every step of the run, in the state the step starts from. -/
def Along (step : ι → σ → Option σ) (C : ι → σ → Prop) : List ι → σ → Prop
  | [], _ => True
  | op :: ops, s => C op s ∧ ∀ s', step op s = some s' → Along step C ops s'

theorem run_preserves_along {I : σ → Prop} {C : ι → σ → Prop}
    (hstep : ∀ op s s', I s → C op s → step op s = some s' → I s')
    {ops : List ι} {s s' : σ} (hs : I s) (halong : Along step C ops s)
    (hrun : run step ops s = some s') : I s' := by
  induction ops generalizing s with
  | nil =>
      simp only [run_nil, Option.some.injEq] at hrun
      exact hrun ▸ hs
  | cons op ops ih =>
      obtain ⟨s₁, hfirst, hrest⟩ := run_cons_eq_some_iff.mp hrun
      exact ih (hstep op s s₁ hs halong.1 hfirst) (halong.2 s₁ hfirst) hrest

theorem along_of_forall_mem {C : ι → σ → Prop} {ops : List ι} {s : σ}
    (hops : ∀ op ∈ ops, ∀ s, C op s) : Along step C ops s := by
  induction ops generalizing s with
  | nil => trivial
  | cons op ops ih =>
      have hrest := fun op hop => hops op (List.mem_cons_of_mem _ hop)
      exact ⟨hops op List.mem_cons_self s, fun s' _ => ih hrest⟩

theorem run_preserves {I : σ → Prop}
    (hstep : ∀ op s s', I s → step op s = some s' → I s')
    {ops : List ι} {s s' : σ} (hs : I s) (hrun : run step ops s = some s') :
    I s' := by
  have halong : Along step (fun _ _ => True) ops s :=
    along_of_forall_mem fun _ _ _ => trivial
  exact run_preserves_along (fun op s s' hs _ => hstep op s s' hs) hs halong hrun

theorem run_mono {step' : ι → σ → Option σ}
    (hstep : ∀ op s s', step op s = some s' → step' op s = some s') {ops : List ι}
    {s s' : σ} (hrun : run step ops s = some s') : run step' ops s = some s' := by
  induction ops generalizing s with
  | nil => exact hrun
  | cons op ops ih =>
      obtain ⟨s₁, hfirst, hrest⟩ := run_cons_eq_some_iff.mp hrun
      exact run_cons_eq_some_iff.mpr ⟨s₁, hstep op s s₁ hfirst, ih hrest⟩

/--
If a step from a state in `I` stays in `I` exactly when it meets `C`, a run
stays in `I` throughout exactly when all its steps meet `C`.
-/
theorem along_iff_invariant {I : σ → Prop} {C : ι → σ → Prop}
    (hstep : ∀ op s s', I s → step op s = some s' → (I s' ↔ C op s))
    {ops : List ι} {s s' : σ} (hs : I s) (hrun : run step ops s = some s') :
    Along step C ops s ↔ ∀ before after s₁, before ++ after = ops →
      run step before s = some s₁ → I s₁ := by
  induction ops generalizing s with
  | nil =>
      refine ⟨fun _ before after s₁ heq hbefore => ?_, fun _ => trivial⟩
      obtain ⟨rfl, rfl⟩ := List.append_eq_nil_iff.mp heq
      exact Option.some.inj hbefore ▸ hs
  | cons op ops ih =>
      obtain ⟨s₁, hfirst, hrest⟩ := run_cons_eq_some_iff.mp hrun
      constructor
      · rintro ⟨hop, halong⟩ before after s₂ heq hbefore
        cases before with
        | nil => exact Option.some.inj hbefore ▸ hs
        | cons op' before =>
            obtain ⟨rfl, rfl⟩ := List.cons.inj heq
            obtain ⟨s₃, hfirst', hbefore⟩ := run_cons_eq_some_iff.mp hbefore
            obtain rfl := Option.some.inj (hfirst.symm.trans hfirst')
            have hs₁ := (hstep op' s s₁ hs hfirst).mpr hop
            exact (ih hs₁ hrest).mp (halong s₁ hfirst) before after s₂ rfl hbefore
      · intro hall
        have hs₁ : I s₁ := hall [op] ops s₁ rfl (run_cons_eq_some_iff.mpr
          ⟨s₁, hfirst, rfl⟩)
        refine ⟨(hstep op s s₁ hs hfirst).mp hs₁, fun s₂ hfirst' => ?_⟩
        obtain rfl := Option.some.inj (hfirst.symm.trans hfirst')
        refine (ih hs₁ hrest).mpr fun before after s₃ heq hbefore => ?_
        exact hall (op :: before) after s₃ (by rw [← heq, List.cons_append])
          (run_cons_eq_some_iff.mpr ⟨s₁, hfirst, hbefore⟩)

/--
Where the steps are allowed that meet `D`, by an invariant that those with `C`
keep, a run is allowed exactly if all its steps meet `D`.
-/
theorem run_isSome_iff_along {I : σ → Prop} {C D : ι → σ → Prop}
    (hkeep : ∀ op s s', I s → C op s → step op s = some s' → I s')
    (hstep : ∀ op s, I s → C op s → ((step op s).isSome = true ↔ D op s))
    {ops : List ι} {s : σ} (hs : I s) (halong : Along step C ops s) :
    (∃ s', run step ops s = some s') ↔ Along step D ops s := by
  induction ops generalizing s with
  | nil => exact ⟨fun _ => trivial, fun _ => ⟨s, rfl⟩⟩
  | cons op ops ih =>
      have hiff := hstep op s hs halong.1
      constructor
      · rintro ⟨s', hrun⟩
        obtain ⟨s₁, hfirst, hrest⟩ := run_cons_eq_some_iff.mp hrun
        refine ⟨hiff.mp (by rw [hfirst, Option.isSome_some]), fun s₂ hfirst' => ?_⟩
        obtain rfl := Option.some.inj (hfirst.symm.trans hfirst')
        exact (ih (hkeep op s s₁ hs halong.1 hfirst) (halong.2 s₁ hfirst)).mp ⟨s', hrest⟩
      · rintro ⟨hop, hdefined⟩
        obtain ⟨s₁, hfirst⟩ := Option.isSome_iff_exists.mp (hiff.mpr hop)
        have hs₁ := hkeep op s s₁ hs halong.1 hfirst
        obtain ⟨s', hrest⟩ := (ih hs₁ (halong.2 s₁ hfirst)).mpr (hdefined s₁ hfirst)
        exact ⟨s', run_cons_eq_some_iff.mpr ⟨s₁, hfirst, hrest⟩⟩

/-- The states of a run, up to the first step that fails. -/
def trace (step : ι → σ → Option σ) : List ι → σ → List σ
  | [], s => [s]
  | op :: ops, s => s :: (step op s).elim [] (trace step ops)

theorem trace_abstract {step' : ι → τ → Option τ} {abstraction : σ → τ}
    (hstep : ∀ op s, step' op (abstraction s) = (step op s).map abstraction)
    (ops : List ι) (s : σ) :
    trace step' ops (abstraction s) = (trace step ops s).map abstraction := by
  induction ops generalizing s with
  | nil => rfl
  | cons op ops ih =>
      rw [trace, trace, List.map_cons, hstep op s]
      cases step op s with
      | none => rfl
      | some s' => exact congrArg _ (ih s')

theorem run_abstract_along {step' : ι → τ → Option τ} {abstraction : σ → τ} {I : σ → Prop}
    {C : ι → σ → Prop} (hkeep : ∀ op s s', I s → C op s → step op s = some s' → I s')
    (hstep : ∀ op s, I s → C op s → (step op s).map abstraction = step' op (abstraction s))
    {ops : List ι} {s : σ} (hs : I s) (halong : Along step C ops s) :
    (run step ops s).map abstraction = run step' ops (abstraction s) := by
  induction ops generalizing s with
  | nil => rfl
  | cons op ops ih =>
      rw [run, run, ← hstep op s hs halong.1]
      cases hfirst : step op s with
      | none => rfl
      | some s₁ => exact ih (hkeep op s s₁ hs halong.1 hfirst) (halong.2 s₁ hfirst)

end Foundation
