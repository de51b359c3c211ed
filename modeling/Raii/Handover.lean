import Raii.Teardown

/-!
# Handing nodes over

What an operation does to a heap without leaks, seen from the nodes: some are
disposed, the others keep an owner, which may be another one than before.  No
node is lost unless an owner receives the node that it is below of.
-/

namespace Raii

open Foundation

variable {H : HeapShape}

namespace World

structure NoLeak (w : HeapWorld H) : Prop where
  forest : w.Forest
  owned : ∀ n ∈ w.env.nodes, ∃ o, w.owns o = some n

def Apart (w : HeapWorld H) (o source : Owner H) : Prop :=
  ∀ n, o ∈ H.members n → ¬ w.Reaches source n

end World

section

variable {w w' : HeapWorld H}

theorem live_of_owns {o : Owner H} {n : H.Node} (h : w.owns o = some n) :
    w.live ⟨(), o⟩ = true := by
  by_contra hdead
  rw [owns_of_dead (by simpa using hdead)] at h
  simp at h

theorem World.Forest.home_allocated (hw : w.Forest) {o : Owner H} {n a : H.Node}
    (howns : w.owns o = some n) (ho : o ∈ H.members a) : a ∈ w.env.nodes := by
  obtain ⟨k, -, rfl⟩ := HeapShape.mem_members.mp ho
  exact ((hw.members a k).mp (live_of_owns howns)).1

theorem World.Forest.root_of_notMem (hw : w.Forest) {o : Owner H} {n : H.Node}
    (howns : w.owns o = some n) (ho : ∀ a, o ∉ H.members a) : ∃ r, o = .root r := by
  cases o with
  | root r => exact ⟨r, rfl⟩
  | member a k =>
      have hk := ((hw.members a k).mp (live_of_owns howns)).2
      exact absurd (HeapShape.mem_members.mpr ⟨k, hk, rfl⟩) (ho a)

theorem World.NoLeak.rooted (hw : w.NoLeak) {n : H.Node} (hn : n ∈ w.env.nodes) :
    ∃ r, w.Reaches (.root r) n := by
  obtain ⟨o, hroot, hreach⟩ := hw.forest.forest.exists_root hw.owned
    hw.forest.home_allocated hn
  obtain ⟨top, htop, -⟩ := id hreach
  obtain ⟨r, rfl⟩ := hw.forest.root_of_notMem htop hroot
  exact ⟨r, hreach⟩

theorem World.Forest.members_of_gone (hw : w.Forest) {gone : H.Node → Prop}
    (hnodes : ∀ n, n ∈ w'.env.nodes ↔ n ∈ w.env.nodes ∧ ¬ gone n)
    (hlive : ∀ n k, w'.live ⟨(), .member n k⟩ = true ↔
      w.live ⟨(), .member n k⟩ = true ∧ ¬ gone n) (n : H.Node) (k : Nat) :
    w'.live ⟨(), .member n k⟩ = true ↔ n ∈ w'.env.nodes ∧ k < H.arity n := by
  rw [hlive, hw.members, hnodes, and_right_comm]

end

/--
The nodes in `gone` have been disposed, each once.  Those that are left belong
to the `target` of the owner they belonged to.
-/
structure HandedOver (w w' : HeapWorld H) (target : Owner H → Owner H)
    (gone : H.Node → Prop) : Prop where
  disposed : ∃ l, l.Nodup ∧ (∀ n, n ∈ l ↔ gone n) ∧
    w'.env.disposed = w.env.disposed ++ l
  nodes : ∀ n, n ∈ w'.env.nodes ↔ n ∈ w.env.nodes ∧ ¬ gone n
  live : ∀ n k, w'.live ⟨(), .member n k⟩ = true ↔
    w.live ⟨(), .member n k⟩ = true ∧ ¬ gone n
  owns : ∀ o n, w'.owns o = some n ↔
    ∃ p, w.owns p = some n ∧ ¬ gone n ∧ o = target p

namespace HandedOver

variable {w w' : HeapWorld H} {target : Owner H → Owner H} {gone : H.Node → Prop}

theorem noLeak (h : HandedOver w w' target gone) (hw : w.NoLeak)
    (hapart : ∀ {p p'}, target p ≠ p → target p' ≠ p' → w.Apart (target p) p') :
    w'.NoLeak where
  forest :=
    { forest := by
        apply hw.forest.forest.rewire target
        · intro o n ho
          obtain ⟨p, hp, -, rfl⟩ := (h.owns o n).mp ho
          exact ⟨p, hp, rfl⟩
        · intro p p' a hp hp' hmem
          exact hapart hp hp' a hmem
      allocated := by
        intro o n ho
        obtain ⟨p, hp, hkept, -⟩ := (h.owns o n).mp ho
        exact (h.nodes n).mpr ⟨hw.forest.allocated hp, hkept⟩
      members := hw.forest.members_of_gone h.nodes h.live }
  owned := by
    intro n hn
    obtain ⟨hn, hkept⟩ := (h.nodes n).mp hn
    obtain ⟨p, hp⟩ := hw.owned n hn
    exact ⟨target p, (h.owns _ n).mpr ⟨p, hp, hkept, rfl⟩⟩

/-! ### A member receives what its node is below of -/

section Circle

variable {o source : Owner H} {home n : H.Node} (h : HandedOver w w' target gone)
  (hw : w.NoLeak) (hsource : target source = o)
  (hfixed : ∀ p, p ≠ source → p ≠ o → target p = p)
  (hgone : ∀ n, gone n → w.Reaches o n) (hmem : o ∈ H.members home)
  (hhome : w.Reaches source home)

include h hfixed hgone

theorem kept_of_not_below {p : Owner H} (hreach : w.Reaches p n)
    (hsource : ¬ w.Reaches source n) (ho : ¬ w.Reaches o n) : w'.Reaches p n := by
  have howner : ∀ {q x}, w.owns q = some x → ¬ w.Reaches source x → ¬ w.Reaches o x →
      w'.owns q = some x := by
    intro q x hq hsource ho
    refine (h.owns q x).mpr ⟨q, hq, fun hx => ho (hgone x hx), (hfixed q ?_ ?_).symm⟩
    · rintro rfl
      exact hsource ⟨x, hq, .refl⟩
    · rintro rfl
      exact ho ⟨x, hq, .refl⟩
  obtain ⟨top, htop, hpath⟩ := hreach
  induction hpath with
  | refl => exact ⟨top, howner htop hsource ho, .refl⟩
  | tail _ hchild ih =>
      have habove := ih (fun hreach => hsource (hreach.child hchild))
        fun hreach => ho (hreach.child hchild)
      obtain ⟨q, hmem, hq⟩ := hchild
      exact habove.child ⟨q, hmem, howner hq hsource ho⟩

include hw hmem hhome

theorem reachable_of_not_below (hn : n ∈ w.env.nodes)
    (hnot : ¬ w.Reaches source n) : ∃ r, w'.Reaches (.root r) n := by
  have hbelow : ∀ {x}, w.Reaches o x → w.Reaches source x := by
    rintro x ⟨c, hc, hpath⟩
    exact (hhome.child ⟨o, hmem, hc⟩).trans hpath
  obtain ⟨r, hreach⟩ := hw.rooted hn
  exact ⟨r, h.kept_of_not_below hfixed hgone hreach hnot fun ho => hnot (hbelow ho)⟩

theorem reachable_of_exchange (hexchange : target o = source)
    (hnone : ∀ x, ¬ gone x) (hn : w.Reaches o n) : ∃ r, w'.Reaches (.root r) n := by
  have hnever : ∀ {x}, w.Reaches o x → source ∉ H.members x := by
    intro x hx hmember
    obtain ⟨c, hc, hpath⟩ := hx
    exact hw.forest.forest.not_reaches_home hmember ((hhome.child ⟨o, hmem, hc⟩).trans hpath)
  have hgiven : w'.Reaches source n := by
    obtain ⟨top, htop, hpath⟩ := hn
    have htop' : w'.owns source = some top :=
      (h.owns source top).mpr ⟨o, htop, hnone top, hexchange.symm⟩
    refine ⟨top, htop', ?_⟩
    have hstep : ∀ {x y}, w.Reaches o x → H.layout.Child w.owns x y →
        H.layout.Child w'.owns x y := by
      rintro x y hx ⟨q, hmember, hq⟩
      have hqs : q ≠ source := by
        rintro rfl
        exact hnever hx hmember
      have hqo : q ≠ o := by
        rintro rfl
        exact hw.forest.forest.not_reaches_home hmember hx
      exact ⟨q, hmember, (h.owns q y).mpr ⟨q, hq, hnone y, (hfixed q hqs hqo).symm⟩⟩
    have hfrom : w.Reaches o top := ⟨top, htop, .refl⟩
    induction hpath with
    | refl => exact .refl
    | tail hbefore hchild ih => exact ih.tail (hstep (hfrom.trans hbefore) hchild)
  obtain ⟨top, htop, hpath⟩ := id hgiven
  by_cases hroot : ∃ a, source ∈ H.members a
  · obtain ⟨a, ha⟩ := hroot
    obtain ⟨c, hc, -⟩ := id hhome
    obtain ⟨r, hr⟩ := h.reachable_of_not_below hw hfixed hgone hmem hhome
      (hw.forest.home_allocated hc ha) (hw.forest.forest.not_reaches_home ha)
    exact ⟨r, (hr.child ⟨source, ha, htop⟩).trans hpath⟩
  · obtain ⟨c, hc, -⟩ := id hhome
    obtain ⟨r, rfl⟩ := hw.forest.root_of_notMem hc fun a ha => hroot ⟨a, ha⟩
    exact ⟨r, hgiven⟩

include hsource

theorem unreachable (hn : w.Reaches source n) (hnot : ¬ w.Reaches o n) :
    n ∈ w'.env.nodes ∧ ∀ r, ¬ w'.Reaches (.root r) n := by
  have howner : ∀ {p x}, w.Reaches source x → ¬ w.Reaches o x → w'.owns p = some x →
      ∃ a, w.Reaches source a ∧ ¬ w.Reaches o a ∧ p ∈ H.members a := by
    intro p x hx hnx hp
    obtain ⟨q, hq, -, rfl⟩ := (h.owns p x).mp hp
    by_cases hqs : q = source
    · subst hqs
      exact ⟨home, hhome, hw.forest.forest.not_reaches_home hmem, hsource ▸ hmem⟩
    · have hqo : q ≠ o := by
        rintro rfl
        exact hnx ⟨x, hq, .refl⟩
      rw [hfixed q hqs hqo]
      cases hx.owner with
      | inl htop => exact absurd (hw.forest.forest.unique hq htop) hqs
      | inr hparent =>
          obtain ⟨a, ha, q', hmem', hq'⟩ := hparent
          obtain rfl := hw.forest.forest.unique hq hq'
          exact ⟨a, ha, fun hoa => hnx (hoa.child ⟨q, hmem', hq⟩), hmem'⟩
  constructor
  · obtain ⟨p, hp⟩ := hn.owned
    exact (h.nodes n).mpr ⟨hw.forest.allocated hp, fun hg => hnot (hgone n hg)⟩
  · rintro r ⟨top, htop, hpath⟩
    induction hpath with
    | refl =>
        obtain ⟨a, -, -, hroot⟩ := howner hn hnot htop
        exact HeapShape.root_notMem_members r hroot
    | tail _ hchild ih =>
        obtain ⟨p, hmem', hp⟩ := hchild
        obtain ⟨a, ha, hna, hmember⟩ := howner hn hnot hp
        obtain rfl := H.layout.home hmem' hmember
        exact ih ha hna

end Circle

end HandedOver

/--
The node `n` has been created and given to the owner `o`.  What `o` owned
before has been disposed, and the other owners keep what they own.
-/
structure Adopted (w w' : HeapWorld H) (o : Owner H) (n : H.Node) : Prop where
  fresh : n ∉ w.env.nodes
  disposed : ∃ l, l.Nodup ∧ (∀ x, x ∈ l ↔ w.Reaches o x) ∧
    w'.env.disposed = w.env.disposed ++ l
  nodes : ∀ x, x ∈ w'.env.nodes ↔ x = n ∨ x ∈ w.env.nodes ∧ ¬ w.Reaches o x
  members : ∀ x k, w'.live ⟨(), .member x k⟩ = true ↔ x ∈ w'.env.nodes ∧ k < H.arity x
  owns : ∀ p x, w'.owns p = some x ↔
    w.owns p = some x ∧ ¬ w.Reaches o x ∨ p = o ∧ x = n

theorem Adopted.noLeak {w w' : HeapWorld H} {o : Owner H} {n : H.Node}
    (h : Adopted w w' o n) (hw : w.NoLeak) (ho : o ∉ H.members n) : w'.NoLeak where
  forest :=
    { forest := by
        apply hw.forest.forest.attach (o := o) (n := n)
        · intro p x hp
          exact ((h.owns p x).mp hp).imp And.left id
        · intro p hp
          exact h.fresh (hw.forest.allocated hp)
        · intro p hmem
          cases hp : w'.owns p with
          | none => rfl
          | some x =>
              rcases (h.owns p x).mp hp with hold | ⟨rfl, -⟩
              · exact absurd (hw.forest.home_allocated hold.1 hmem) h.fresh
              · exact absurd hmem ho
      allocated := by
        intro p x hp
        refine (h.nodes x).mpr ?_
        rcases (h.owns p x).mp hp with hold | ⟨-, rfl⟩
        · exact .inr ⟨hw.forest.allocated hold.1, hold.2⟩
        · exact .inl rfl
      members := h.members }
  owned := by
    intro x hx
    rcases (h.nodes x).mp hx with rfl | ⟨hx, hkept⟩
    · exact ⟨o, (h.owns o x).mpr (.inr ⟨rfl, rfl⟩)⟩
    · obtain ⟨p, hp⟩ := hw.owned x hx
      exact ⟨p, (h.owns p x).mpr (.inl ⟨hp, hkept⟩)⟩

end Raii
