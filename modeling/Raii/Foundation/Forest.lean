import Mathlib.Data.List.Nodup
import Mathlib.Order.WellFoundedSet
import Mathlib.Logic.Relation

/-!
# Ownership forests

Owners own nodes, and nodes have owners for members.  In a forest a node has at
most one owner and is not below itself.  Tearing an owner down visits the nodes
below it in postorder; taking a subtree out first leaves it out of the visit.
-/

namespace Foundation

open Relation

/-- The members of every node, in the order in which they are torn down. -/
structure Layout (Owner Node : Type) where
  members : Node → List Owner
  nodup : ∀ n, (members n).Nodup
  home : ∀ {o : Owner} {a b : Node}, o ∈ members a → o ∈ members b → a = b

namespace Layout

variable {Owner Node : Type} (L : Layout Owner Node) (owns : Owner → Option Node)

def Child (a b : Node) : Prop := ∃ o ∈ L.members a, owns o = some b

def Reaches (o : Owner) (n : Node) : Prop :=
  ∃ top, owns o = some top ∧ ReflTransGen (L.Child owns) top n

structure IsForest : Prop where
  unique : ∀ {o o' : Owner} {n : Node}, owns o = some n → owns o' = some n → o = o'
  acyclic : ∀ n, ¬ TransGen (L.Child owns) n n

/-- The nodes that are torn down with the owners of a list, in that order. -/
inductive Postorder : List Owner → List Node → Prop
  | nil : Postorder [] []
  | null {o : Owner} {os : List Owner} {l : List Node} (hnull : owns o = none)
      (rest : Postorder os l) : Postorder (o :: os) l
  | node {o : Owner} {os : List Owner} {n : Node} {below l : List Node}
      (hnode : owns o = some n) (inner : Postorder (L.members n) below)
      (rest : Postorder os l) : Postorder (o :: os) (below ++ n :: l)

variable {L owns}

theorem reaches_iff {o : Owner} {n m : Node} (h : owns o = some n) :
    L.Reaches owns o m ↔ m = n ∨ ∃ o' ∈ L.members n, L.Reaches owns o' m := by
  constructor
  · rintro ⟨top, htop, hpath⟩
    obtain rfl := Option.some.inj (h.symm.trans htop)
    cases ReflTransGen.cases_head hpath with
    | inl heq => exact .inl heq.symm
    | inr hstep =>
        obtain ⟨c, ⟨o', hmem, howns⟩, hrest⟩ := hstep
        exact .inr ⟨o', hmem, c, howns, hrest⟩
  · intro hm
    cases hm with
    | inl heq => exact ⟨n, h, heq ▸ .refl⟩
    | inr hmember =>
        obtain ⟨o', hmem, c, howns, hrest⟩ := hmember
        exact ⟨n, h, .head ⟨o', hmem, howns⟩ hrest⟩

theorem Reaches.child {o : Owner} {a b : Node} (h : L.Reaches owns o a)
    (hchild : L.Child owns a b) : L.Reaches owns o b := by
  obtain ⟨top, htop, hpath⟩ := h
  exact ⟨top, htop, hpath.tail hchild⟩

theorem Reaches.trans {o : Owner} {a b : Node} (h : L.Reaches owns o a)
    (hpath : ReflTransGen (L.Child owns) a b) : L.Reaches owns o b := by
  obtain ⟨top, htop, hbefore⟩ := h
  exact ⟨top, htop, hbefore.trans hpath⟩

theorem Reaches.owner {o : Owner} {n : Node} (h : L.Reaches owns o n) :
    owns o = some n ∨ ∃ a, L.Reaches owns o a ∧ L.Child owns a n := by
  obtain ⟨top, htop, hpath⟩ := h
  cases ReflTransGen.cases_tail hpath with
  | inl heq => exact .inl (heq ▸ htop)
  | inr hstep =>
      obtain ⟨a, hbefore, hchild⟩ := hstep
      exact .inr ⟨a, ⟨top, htop, hbefore⟩, hchild⟩

theorem Reaches.owned {o : Owner} {n : Node} (h : L.Reaches owns o n) :
    ∃ o', owns o' = some n := by
  cases h.owner with
  | inl htop => exact ⟨o, htop⟩
  | inr hparent =>
      obtain ⟨_, _, o', _, ho'⟩ := hparent
      exact ⟨o', ho'⟩

theorem Reaches.mono {owns' : Owner → Option Node}
    (hle : ∀ {o n}, owns' o = some n → owns o = some n) {o : Owner} {n : Node}
    (h : L.Reaches owns' o n) : L.Reaches owns o n := by
  obtain ⟨top, htop, hpath⟩ := h
  refine ⟨top, hle htop, ReflTransGen.mono ?_ _ _ hpath⟩
  exact fun _ _ ⟨o, hmem, howns⟩ => ⟨o, hmem, hle howns⟩

theorem reaches_congr {owns' : Owner → Option Node} {o o' : Owner}
    (htop : owns' o' = owns o)
    (hmembers : ∀ n, L.Reaches owns o n → ∀ m ∈ L.members n, owns' m = owns m)
    {n : Node} : L.Reaches owns' o' n ↔ L.Reaches owns o n := by
  constructor
  · rintro ⟨top, howns, hpath⟩
    rw [htop] at howns
    induction hpath with
    | refl => exact ⟨top, howns, .refl⟩
    | tail _ hchild ih =>
        obtain ⟨m, hmem, hm⟩ := hchild
        rw [hmembers _ ih m hmem] at hm
        exact ih.child ⟨m, hmem, hm⟩
  · rintro ⟨top, howns, hpath⟩
    have hsame : L.Reaches owns' o' top := ⟨top, htop.trans howns, .refl⟩
    induction hpath with
    | refl => exact hsame
    | tail hbefore hchild ih =>
        obtain ⟨m, hmem, hm⟩ := hchild
        rw [← hmembers _ ⟨top, howns, hbefore⟩ m hmem] at hm
        exact ih.child ⟨m, hmem, hm⟩

namespace IsForest

variable (hforest : L.IsForest owns)

include hforest

theorem parent_unique {a b n : Node} (ha : L.Child owns a n) (hb : L.Child owns b n) :
    a = b := by
  obtain ⟨o, hmem, howns⟩ := ha
  obtain ⟨o', hmem', howns'⟩ := hb
  obtain rfl := hforest.unique howns howns'
  exact L.home hmem hmem'

theorem above_total {a b n : Node} (ha : ReflTransGen (L.Child owns) a n)
    (hb : ReflTransGen (L.Child owns) b n) :
    ReflTransGen (L.Child owns) a b ∨ ReflTransGen (L.Child owns) b a := by
  have hunique : Relator.RightUnique (Function.swap (L.Child owns)) :=
    fun _ _ _ => hforest.parent_unique
  have htotal := ReflTransGen.total_of_right_unique hunique
    (reflTransGen_swap.mpr ha) (reflTransGen_swap.mpr hb)
  exact htotal.symm.imp reflTransGen_swap.mp reflTransGen_swap.mp

theorem not_above_parent {a c : Node} (hchild : L.Child owns a c) :
    ¬ ReflTransGen (L.Child owns) c a :=
  fun h => hforest.acyclic a (.head' hchild h)

theorem not_reaches_home {o : Owner} {a : Node} (hmem : o ∈ L.members a) :
    ¬ L.Reaches owns o a := by
  rintro ⟨top, htop, hpath⟩
  exact hforest.not_above_parent ⟨o, hmem, htop⟩ hpath

theorem member_unique {o o' : Owner} {a n : Node} (hmem : o ∈ L.members a)
    (hmem' : o' ∈ L.members a) (h : L.Reaches owns o n) (h' : L.Reaches owns o' n) :
    o = o' := by
  obtain ⟨c, hc, hpath⟩ := h
  obtain ⟨d, hd, hpath'⟩ := h'
  have hcases : ∀ {x y : Node}, L.Child owns a x → L.Child owns a y →
      ReflTransGen (L.Child owns) x y → x = y := by
    intro x y hx hy hxy
    cases ReflTransGen.cases_tail hxy with
    | inl heq => exact heq.symm
    | inr hstep =>
        obtain ⟨p, hbefore, hlast⟩ := hstep
        obtain rfl := hforest.parent_unique hlast hy
        exact absurd hbefore (hforest.not_above_parent hx)
  have hsame : c = d := by
    cases hforest.above_total hpath hpath' with
    | inl hcd => exact hcases ⟨o, hmem, hc⟩ ⟨o', hmem', hd⟩ hcd
    | inr hdc => exact (hcases ⟨o', hmem', hd⟩ ⟨o, hmem, hc⟩ hdc).symm
  exact hforest.unique hc (hsame ▸ hd)

end IsForest

theorem not_reaches_of_null {o : Owner} {n : Node} (h : owns o = none) :
    ¬ L.Reaches owns o n := by
  rintro ⟨top, htop, -⟩
  simp [h] at htop

namespace Postorder

theorem mem_iff {os : List Owner} {l : List Node} (h : L.Postorder owns os l) {n : Node} :
    n ∈ l ↔ ∃ o ∈ os, L.Reaches owns o n := by
  induction h with
  | nil => simp
  | null hnull _ ih => simp [ih, not_reaches_of_null hnull]
  | node hnode _ _ ihInner ihRest =>
      rw [List.mem_append, List.mem_cons, ihInner, ihRest, List.exists_mem_cons_iff,
        reaches_iff hnode, or_left_comm, or_assoc]

theorem mem_iff_reaches {o : Owner} {l : List Node} (h : L.Postorder owns [o] l)
    {n : Node} : n ∈ l ↔ L.Reaches owns o n := by
  simp [h.mem_iff]

theorem nodup (hforest : L.IsForest owns) {os : List Owner} {l : List Node}
    (h : L.Postorder owns os l)
    (hdisjoint : os.Pairwise fun o o' => ∀ n, L.Reaches owns o n → ¬ L.Reaches owns o' n) :
    l.Nodup := by
  induction h with
  | nil => exact List.nodup_nil
  | null _ _ ih => exact ih (List.pairwise_cons.mp hdisjoint).2
  | @node o os n below l hnode inner rest ihInner ihRest =>
      obtain ⟨hhead, htail⟩ := List.pairwise_cons.mp hdisjoint
      have hmembers : (L.members n).Pairwise fun o o' =>
          ∀ m, L.Reaches owns o m → ¬ L.Reaches owns o' m := by
        refine (L.nodup n).imp_of_mem fun hmem hmem' hne m hm hm' => hne ?_
        exact hforest.member_unique hmem hmem' hm hm'
      have hbelow : n ∉ below := by
        rw [inner.mem_iff]
        rintro ⟨o', hmem, hreach⟩
        exact hforest.not_reaches_home hmem hreach
      have happart : ∀ m ∈ below ++ [n], m ∉ l := by
        intro m hm hml
        obtain ⟨o', hmem', hreach'⟩ := rest.mem_iff.mp hml
        refine hhead o' hmem' m ((reaches_iff hnode).mpr ?_) hreach'
        rw [List.mem_append, List.mem_singleton, inner.mem_iff] at hm
        exact hm.symm
      have hleft : (below ++ [n]).Nodup := by
        rw [← List.concat_eq_append, List.nodup_concat]
        exact ⟨hbelow, ihInner hmembers⟩
      rw [List.append_cons, List.nodup_append']
      exact ⟨hleft, ihRest htail, happart⟩

end Postorder

theorem IsForest.exists_postorder (hforest : L.IsForest owns) {nodes : Finset Node}
    (hnodes : ∀ {o : Owner} {n : Node}, owns o = some n → n ∈ nodes) (os : List Owner) :
    ∃ l, L.Postorder owns os l := by
  have hlist : ∀ os : List Owner, (∀ o ∈ os, ∀ n, owns o = some n →
      ∃ below, L.Postorder owns (L.members n) below) → ∃ l, L.Postorder owns os l := by
    intro os hinner
    induction os with
    | nil => exact ⟨[], .nil⟩
    | cons o os ih =>
        obtain ⟨l, rest⟩ := ih fun o' hmem => hinner o' (List.mem_cons_of_mem o hmem)
        cases hnode : owns o with
        | none => exact ⟨l, .null hnode rest⟩
        | some n =>
            obtain ⟨below, inner⟩ := hinner o List.mem_cons_self n hnode
            exact ⟨below ++ n :: l, .node hnode inner rest⟩
  have horder : IsStrictOrder Node (Function.swap (TransGen (L.Child owns))) :=
    { irrefl := hforest.acyclic
      trans := fun _ _ _ hab hbc => hbc.trans hab }
  have hinner : ∀ n ∈ nodes, ∃ below, L.Postorder owns (L.members n) below := by
    intro n hn
    have hfounded := nodes.finite_toSet.wellFoundedOn
      (r := Function.swap (TransGen (L.Child owns)))
    apply hfounded.induction (P := fun n => ∃ below, L.Postorder owns (L.members n) below) hn
    intro m _ ih
    exact hlist _ fun o hmem c hc => ih c (hnodes hc) (.single ⟨o, hmem, hc⟩)
  exact hlist os fun _ _ n hn => hinner n (hnodes hn)

/-! ## Taking a subtree out -/

/--
Once `m` is set to null, the nodes below an owner `o` are those that were below
it and not below `m`, provided `o` is not itself below `m`.
-/
theorem reaches_cut_of_apart [DecidableEq Owner] (hforest : L.IsForest owns) {o m : Owner}
    (hapart : ∀ a, o ∈ L.members a → ¬ L.Reaches owns m a) {n : Node} :
    L.Reaches (Function.update owns m none) o n ↔
      L.Reaches owns o n ∧ ¬ L.Reaches owns m n := by
  have hkept : ∀ {o : Owner} {n : Node}, Function.update owns m none o = some n ↔
      o ≠ m ∧ owns o = some n := by
    intro o n
    by_cases heq : o = m <;> simp [heq]
  constructor
  · rintro hcut
    refine ⟨hcut.mono fun h => (hkept.mp h).2, ?_⟩
    rintro ⟨c, hc, hpath⟩
    -- The node of `m` is no longer owned, so neither are its descendants from `o`.
    induction hpath with
    | refl =>
        cases hcut.owner with
        | inl htop =>
            obtain ⟨hne, howns⟩ := hkept.mp htop
            exact hne (hforest.unique howns hc)
        | inr hparent =>
            obtain ⟨_, _, o', _, ho⟩ := hparent
            obtain ⟨hne, howns⟩ := hkept.mp ho
            exact hne (hforest.unique howns hc)
    | tail hbefore hchild ih =>
        obtain ⟨o', hmem, howns⟩ := hchild
        cases hcut.owner with
        | inl htop =>
            obtain rfl := hforest.unique (hkept.mp htop).2 howns
            exact hapart _ hmem ⟨c, hc, hbefore⟩
        | inr hparent =>
            obtain ⟨p, hp, o'', hmem', ho'⟩ := hparent
            obtain rfl := hforest.unique (hkept.mp ho').2 howns
            exact ih (L.home hmem' hmem ▸ hp)
  · rintro ⟨⟨top, htop, hpath⟩, hnot⟩
    induction hpath with
    | refl =>
        have hne : o ≠ m := fun heq => hnot ⟨top, heq ▸ htop, .refl⟩
        exact ⟨top, hkept.mpr ⟨hne, htop⟩, .refl⟩
    | tail hbefore hchild ih =>
        have habove := ih fun h => hnot (h.child hchild)
        obtain ⟨o', hmem, howns⟩ := hchild
        have hne : o' ≠ m := fun heq => hnot ⟨_, heq ▸ howns, .refl⟩
        exact habove.child ⟨o', hmem, hkept.mpr ⟨hne, howns⟩⟩

theorem reaches_cut_of_below [DecidableEq Owner] (hforest : L.IsForest owns) {o m : Owner}
    {a : Node} (hmem : o ∈ L.members a) (habove : L.Reaches owns m a) {n : Node} :
    L.Reaches (Function.update owns m none) o n ↔ L.Reaches owns o n := by
  have hnever : ∀ b, L.Reaches owns m b → m ∉ L.members b := by
    intro b hreach hmember
    exact hforest.not_reaches_home hmember hreach
  refine reaches_congr (Function.update_of_ne ?_ _ _) fun b hb p hp =>
    Function.update_of_ne ?_ _ _
  · rintro rfl
    exact hnever a habove hmem
  · rintro rfl
    obtain ⟨c, hc, hpath⟩ := hb
    exact hnever b ((habove.child ⟨o, hmem, hc⟩).trans hpath) hp

theorem reaches_cut [DecidableEq Owner] (hforest : L.IsForest owns) {r : Owner}
    (hroot : ∀ n, r ∉ L.members n) (m : Owner) {n : Node} :
    L.Reaches (Function.update owns m none) r n ↔
      L.Reaches owns r n ∧ ¬ L.Reaches owns m n :=
  reaches_cut_of_apart hforest fun a hmem => absurd hmem (hroot a)

theorem IsForest.of_source (hforest : L.IsForest owns) {owns' : Owner → Option Node}
    (source : Owner → Owner)
    (hsource : ∀ {o n}, owns' o = some n → owns (source o) = some n)
    (hinjective : ∀ {o o' n}, owns' o = some n → owns' o' = some n →
      source o = source o' → o = o')
    (hmembers : ∀ {o a n}, o ∈ L.members a → owns' o = some n → owns o = some n) :
    L.IsForest owns' where
  unique h h' := hinjective h h' (hforest.unique (hsource h) (hsource h'))
  acyclic n h := hforest.acyclic n (TransGen.mono
    (fun _ _ ⟨o, hmem, howns⟩ => ⟨o, hmem, hmembers hmem howns⟩) _ _ h)

/--
The owners of some nodes hand them over to `target`.  No cycle is closed if no
owner that receives a node is below one that has given its node away.
-/
theorem IsForest.rewire (hforest : L.IsForest owns) {owns' : Owner → Option Node}
    (target : Owner → Owner)
    (howns : ∀ {o n}, owns' o = some n → ∃ p, owns p = some n ∧ o = target p)
    (hapart : ∀ {p p' a}, target p ≠ p → target p' ≠ p' → target p ∈ L.members a →
      ¬ L.Reaches owns p' a) : L.IsForest owns' where
  unique := by
    intro o o' n h h'
    obtain ⟨p, hp, rfl⟩ := howns h
    obtain ⟨p', hp', rfl⟩ := howns h'
    rw [hforest.unique hp hp']
  acyclic := by
    intro n hcycle
    let Moved (x : Node) : Prop := ∃ p, target p ≠ p ∧ L.Reaches owns p x
    have hedge : ∀ {x y}, L.Child owns' x y → L.Child owns x y ∨
        Moved y ∧ ¬ Moved x := by
      rintro x y ⟨o, hmem, ho⟩
      obtain ⟨p, hp, rfl⟩ := howns ho
      by_cases hfixed : target p = p
      · exact .inl ⟨p, hfixed ▸ hmem, hp⟩
      · exact .inr ⟨⟨p, hfixed, y, hp, .refl⟩, fun ⟨_, hmoved, hreach⟩ =>
          hapart hfixed hmoved hmem hreach⟩
    have hbelow : ∀ {x y}, Moved x → L.Child owns x y → Moved y :=
      fun ⟨p, hne, hreach⟩ hchild => ⟨p, hne, hreach.child hchild⟩
    -- A path that enters a moved part stays in it, and has only old edges there.
    have hwithin : ∀ {x y}, Moved x → TransGen (L.Child owns') x y →
        Moved y ∧ TransGen (L.Child owns) x y := by
      intro x y hx hpath
      induction hpath with
      | single hchild =>
          have hold := (hedge hchild).resolve_right fun h => h.2 hx
          exact ⟨hbelow hx hold, .single hold⟩
      | tail _ hchild ih =>
          have hold := (hedge hchild).resolve_right fun h => h.2 ih.1
          exact ⟨hbelow ih.1 hold, ih.2.tail hold⟩
    have henter : ∀ {x y}, TransGen (L.Child owns') x y →
        TransGen (L.Child owns) x y ∨ Moved y := by
      intro x y hpath
      induction hpath with
      | single hchild => exact (hedge hchild).imp .single And.left
      | tail _ hchild ih =>
          cases hedge hchild with
          | inl hold => exact ih.imp (fun h => h.tail hold) fun h => hbelow h hold
          | inr hmoved => exact .inr hmoved.1
    cases henter hcycle with
    | inl hold => exact hforest.acyclic n hold
    | inr hmoved => exact hforest.acyclic n (hwithin hmoved hcycle).2

theorem IsForest.attach (hforest : L.IsForest owns) {owns' : Owner → Option Node}
    {o : Owner} {n : Node}
    (howns : ∀ {o' x}, owns' o' = some x → owns o' = some x ∨ o' = o ∧ x = n)
    (hfree : ∀ o', owns o' ≠ some n) (hleaf : ∀ o' ∈ L.members n, owns' o' = none) :
    L.IsForest owns' where
  unique := by
    intro p p' x h h'
    rcases howns h with hp | ⟨rfl, rfl⟩ <;> rcases howns h' with hp' | ⟨rfl, hx⟩
    · exact hforest.unique hp hp'
    · exact absurd (hx ▸ hp) (hfree p)
    · exact absurd hp' (hfree p')
    · rfl
  acyclic := by
    intro m hcycle
    have hnone : ∀ {y}, ¬ L.Child owns' n y := by
      rintro y ⟨o', hmem, ho'⟩
      simp [hleaf o' hmem] at ho'
    have hedge : ∀ {x y}, L.Child owns' x y → L.Child owns x y ∨ y = n := by
      rintro x y ⟨o', hmem, ho'⟩
      exact (howns ho').imp (fun hold => ⟨o', hmem, hold⟩) And.right
    have hpath : ∀ {x y}, TransGen (L.Child owns') x y →
        TransGen (L.Child owns) x y ∨ y = n := by
      intro x y hpath
      induction hpath with
      | single hchild => exact (hedge hchild).imp .single id
      | tail _ hchild ih =>
          cases ih with
          | inl hold => exact (hedge hchild).imp hold.tail id
          | inr heq => exact absurd (heq ▸ hchild) hnone
    cases hpath hcycle with
    | inl hold => exact hforest.acyclic m hold
    | inr heq =>
        obtain ⟨c, hchild, -⟩ := TransGen.head'_iff.mp hcycle
        exact hnone (heq ▸ hchild)

theorem IsForest.exists_root (hforest : L.IsForest owns) {nodes : Finset Node}
    (howned : ∀ n ∈ nodes, ∃ o, owns o = some n)
    (hhome : ∀ {o n a}, owns o = some n → o ∈ L.members a → a ∈ nodes) {n : Node}
    (hn : n ∈ nodes) : ∃ o, (∀ a, o ∉ L.members a) ∧ L.Reaches owns o n := by
  have horder : IsStrictOrder Node (TransGen (L.Child owns)) :=
    { irrefl := hforest.acyclic
      trans := fun _ _ _ => TransGen.trans }
  have hfounded := nodes.finite_toSet.wellFoundedOn (r := TransGen (L.Child owns))
  apply hfounded.induction
    (P := fun n => ∃ o, (∀ a, o ∉ L.members a) ∧ L.Reaches owns o n) hn
  intro m hm ih
  obtain ⟨o, ho⟩ := howned m hm
  by_cases hmember : ∃ a, o ∈ L.members a
  · obtain ⟨a, ha⟩ := hmember
    obtain ⟨root, hroot, hreach⟩ := ih a (hhome ho ha) (.single ⟨o, ha, ho⟩)
    exact ⟨root, hroot, hreach.child ⟨o, ha, ho⟩⟩
  · exact ⟨o, fun a ha => hmember ⟨a, ha⟩, m, ho, .refl⟩

end Layout

end Foundation
