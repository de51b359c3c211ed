import Raii.Foundation.Comparison

/-!
# Rewritten comparison operators

Where a type declares `==` and a three-way comparison, the other comparison
operators are rewritten to these two.  A declared overload is also a candidate
for the operands in reverse order.
-/

namespace Foundation

variable {α κ : Type}

inductive Relational where
  | lt
  | le
  | gt
  | ge

namespace Relational

/-- `result @ 0`, for the result of `x <=> y`. -/
def holds : Relational → Ordering → Bool
  | .lt, result => result.isLT
  | .le, result => result.isLE
  | .gt, result => result.isGT
  | .ge, result => result.isGE

/-- `0 @ result`, for the result of `y <=> x`. -/
def holdsReversed : Relational → Ordering → Bool
  | .lt, result => result.isGT
  | .le, result => result.isGE
  | .gt, result => result.isLT
  | .ge, result => result.isLE

theorem holdsReversed_eq (op : Relational) (result : Ordering) :
    op.holdsReversed result = op.holds result.swap := by
  cases op with
  | lt => exact Ordering.isLT_swap.symm
  | le => exact Ordering.isLE_swap.symm
  | gt => exact Ordering.isGT_swap.symm
  | ge => exact Ordering.isGE_swap.symm

end Relational

/-- The declared overloads; `none` where no overload is viable. -/
structure Overloads (α : Type) where
  eq : α → α → Option Bool
  cmp : α → α → Option Ordering

namespace Overloads

variable (o : Overloads α) {members : α → Prop}

def equal (x y : α) : Option Bool := (o.eq x y).or (o.eq y x)

def notEqual (x y : α) : Option Bool := (o.equal x y).map not

def threeWay (x y : α) : Option Ordering :=
  (o.cmp x y).or ((o.cmp y x).map Ordering.swap)

def relational (op : Relational) (x y : α) : Option Bool :=
  ((o.cmp x y).map op.holds).or ((o.cmp y x).map op.holdsReversed)

theorem relational_eq (op : Relational) (x y : α) :
    o.relational op x y = (o.threeWay x y).map op.holds := by
  have hreversed : op.holdsReversed = op.holds ∘ Ordering.swap :=
    funext op.holdsReversed_eq
  rw [relational, threeWay, Option.map_or, Option.map_map, hreversed]

structure GivenBy (members : α → Prop) (eq : α → α → Bool)
    (cmp : α → α → Ordering) : Prop where
  equal : ∀ x y, members x → members y → o.equal x y = some (eq x y)
  notEqual : ∀ x y, members x → members y → o.notEqual x y = some (!eq x y)
  threeWay : ∀ x y, members x → members y → o.threeWay x y = some (cmp x y)
  relational : ∀ op x y, members x → members y →
    o.relational op x y = some (op.holds (cmp x y))

def Ordered (members : α → Prop) : Prop :=
  ∃ eq cmp, o.GivenBy members eq cmp ∧ Coherent members eq cmp

structure Agrees [LinearOrder κ] (key : α → κ) : Prop where
  equal : ∀ x y answer, o.equal x y = some answer → answer = decide (key x = key y)
  notEqual : ∀ x y answer, o.notEqual x y = some answer →
    answer = decide (key x ≠ key y)
  threeWay : ∀ x y answer, o.threeWay x y = some answer →
    answer = compare (key x) (key y)
  relational : ∀ op x y answer, o.relational op x y = some answer →
    answer = op.holds (compare (key x) (key y))

variable {o} [LinearOrder κ] {key : α → κ}

theorem of_or_eq_some {ι : Type} {p : ι → Prop} {first second : Option ι} {answer : ι}
    (hfirst : ∀ answer, first = some answer → p answer)
    (hsecond : ∀ answer, second = some answer → p answer)
    (h : first.or second = some answer) : p answer := by
  cases Option.or_eq_some_iff.mp h with
  | inl hone => exact hfirst answer hone
  | inr htwo => exact hsecond answer htwo.2

theorem Agrees.of_declared
    (heq : ∀ x y answer, o.eq x y = some answer → answer = decide (key x = key y))
    (hcmp : ∀ x y answer, o.cmp x y = some answer →
      answer = compare (key x) (key y)) : o.Agrees key := by
  have hequal : ∀ x y answer, o.equal x y = some answer →
      answer = decide (key x = key y) := by
    intro x y answer
    apply of_or_eq_some (heq x y)
    intro answer hreversed
    rw [heq y x answer hreversed]
    exact decide_eq_decide.mpr eq_comm
  have hthree : ∀ x y answer, o.threeWay x y = some answer →
      answer = compare (key x) (key y) := by
    intro x y answer
    apply of_or_eq_some (hcmp x y)
    intro answer hreversed
    obtain ⟨result, hresult, rfl⟩ := Option.map_eq_some_iff.mp hreversed
    rw [hcmp y x result hresult]
    exact Std.OrientedOrd.eq_swap.symm
  refine ⟨hequal, ?_, hthree, ?_⟩
  · intro x y answer h
    obtain ⟨result, hresult, rfl⟩ := Option.map_eq_some_iff.mp h
    rw [hequal x y result hresult, decide_not]
  · intro op x y answer h
    rw [relational_eq] at h
    obtain ⟨result, hresult, rfl⟩ := Option.map_eq_some_iff.mp h
    rw [hthree x y result hresult]

theorem Agrees.ordered_iff (h : o.Agrees key) :
    o.Ordered members ↔ ∀ x y, members x → members y →
      (o.equal x y).isSome ∧ (o.threeWay x y).isSome := by
  constructor
  · rintro ⟨eq, cmp, hgiven, -⟩ x y hx hy
    rw [hgiven.equal x y hx hy, hgiven.threeWay x y hx hy]
    exact ⟨rfl, rfl⟩
  · intro hdefined
    have hequal : ∀ x y, members x → members y →
        o.equal x y = some (decide (key x = key y)) := by
      intro x y hx hy
      obtain ⟨answer, hanswer⟩ := Option.isSome_iff_exists.mp (hdefined x y hx hy).1
      rw [hanswer, h.equal x y answer hanswer]
    have hthree : ∀ x y, members x → members y →
        o.threeWay x y = some (compare (key x) (key y)) := by
      intro x y hx hy
      obtain ⟨answer, hanswer⟩ := Option.isSome_iff_exists.mp (hdefined x y hx hy).2
      rw [hanswer, h.threeWay x y answer hanswer]
    refine ⟨fun x y => decide (key x = key y), fun x y => compare (key x) (key y),
      ⟨hequal, ?_, hthree, ?_⟩, ?_⟩
    · intro x y hx hy
      rw [Overloads.notEqual, hequal x y hx hy, Option.map_some]
    · intro op x y hx hy
      rw [relational_eq, hthree x y hx hy, Option.map_some]
    · exact .of_key key (fun x y _ _ => decide_eq_true_iff) fun _ _ _ _ => rfl

end Overloads

end Foundation
