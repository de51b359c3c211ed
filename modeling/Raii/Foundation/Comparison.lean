import Mathlib.Order.Compare

/-!
# Coherent comparisons

An equality test and a three-way comparison that are defined separately, as
overload sets are, need not fit together.  They do if both go through one key
with values in a linear order.
-/

namespace Foundation

variable {α κ : Type} {members : α → Prop} {eq : α → α → Bool}
  {cmp : α → α → Ordering}

/--
On the members, `eq` is an equivalence relation, `cmp` a total preorder (total
by `swap`), and `cmp` answers `.eq` where `eq` holds.
-/
structure Coherent (members : α → Prop) (eq : α → α → Bool)
    (cmp : α → α → Ordering) : Prop where
  refl : ∀ x, members x → eq x x = true
  symm : ∀ x y, members x → members y → eq x y = true → eq y x = true
  trans : ∀ x y z, members x → members y → members z →
    eq x y = true → eq y z = true → eq x z = true
  swap : ∀ x y, members x → members y → cmp y x = (cmp x y).swap
  le_trans : ∀ x y z, members x → members y → members z →
    cmp x y ≠ .gt → cmp y z ≠ .gt → cmp x z ≠ .gt
  eq_iff : ∀ x y, members x → members y → (eq x y = true ↔ cmp x y = .eq)

namespace Coherent

theorem of_key [LinearOrder κ] (key : α → κ)
    (heq : ∀ x y, members x → members y → (eq x y = true ↔ key x = key y))
    (hcmp : ∀ x y, members x → members y → cmp x y = compare (key x) (key y)) :
    Coherent members eq cmp where
  refl x hx := (heq x x hx hx).mpr rfl
  symm x y hx hy h := (heq y x hy hx).mpr ((heq x y hx hy).mp h).symm
  trans x y z hx hy hz hxy hyz :=
    (heq x z hx hz).mpr (((heq x y hx hy).mp hxy).trans ((heq y z hy hz).mp hyz))
  swap x y hx hy := by
    rw [hcmp y x hy hx, hcmp x y hx hy]
    exact Std.OrientedOrd.eq_swap
  le_trans x y z hx hy hz hxy hyz := by
    rw [hcmp x y hx hy, compare_le_iff_le] at hxy
    rw [hcmp y z hy hz, compare_le_iff_le] at hyz
    rw [hcmp x z hx hz, compare_le_iff_le]
    exact hxy.trans hyz
  eq_iff x y hx hy := by
    rw [heq x y hx hy, hcmp x y hx hy, compare_eq_iff_eq]

end Coherent

end Foundation
