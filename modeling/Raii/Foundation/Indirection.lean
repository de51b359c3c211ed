import Raii.Foundation.Boxes

/-!
# Boxes of addresses

A box may hold a value itself, or the address of a value in a memory.  As long
as no address is held twice, the two cannot be told apart.
-/

namespace Foundation

variable {O N U A B σ : Type}

abbrev Store (A B σ : Type) := (A → Option B) × σ

def overwrite [DecidableEq A] (mem : A → Option B) :
    Option A → Option B → A → Option B
  | none, _ => mem
  | some a, b => Function.update mem a b

def view (mem : A → Option B) (content : O → Option (Option A)) : O → Option (Option B) :=
  fun x => (content x).map fun held => held.bind mem

/-- The resources of `L` in a memory; who acquires one also says where. -/
def Resources.indirect [DecidableEq A] (L : Resources O N U B σ) :
    Resources O (A × N) U A (Store A B σ) where
  acquire x new m :=
    if (m.1 new.1).isSome then none
    else (L.acquire x new.2 m.2).map fun p => (new.1, Function.update m.1 new.1 (some p.1), p.2)
  access x u a m := do
    let b ← m.1 a
    let (b, s) ← L.access x u b m.2
    some (a, Function.update m.1 a (some b), s)
  retire x a m := do
    let b ← m.1 a
    let s ← L.retire x b m.2
    some (Function.update m.1 a none, s)

namespace Boxes

def flatten (s : Boxes O A (Store A B σ)) : Boxes O B σ :=
  ⟨view s.state.1 s.content, s.state.2⟩

/--
No value has two owners, and the values in memory are those owned and those
that have been lost.
-/
structure Kept (lost : A → Prop) (s : Boxes O A (Store A B σ)) : Prop where
  exclusive : Exclusive (owns s.content) fun a => (s.state.1 a).isSome = true ∧ ¬ lost a
  there : ∀ a, lost a → (s.state.1 a).isSome = true

end Boxes

section View

variable {mem mem' : A → Option B} {content : O → Option (Option A)} {x : O}

theorem view_update [DecidableEq O] (v : Option (Option A)) :
    view mem (Function.update content x v) =
      Function.update (view mem content) x (v.map fun held => held.bind mem) := by
  funext y
  by_cases heq : y = x
  · subst heq
    simp [view]
  · simp [view, heq]

theorem view_congr (h : ∀ x a, Boxes.owns content x = some a → mem' a = mem a) :
    view mem' content = view mem content := by
  funext x
  have hx := h x
  cases hcontent : content x with
  | none => simp [view, hcontent]
  | some held =>
      cases held with
      | none => simp [view, hcontent]
      | some a => simp [view, hcontent, hx a (by simp [Boxes.owns, hcontent])]

theorem owns_view (x : O) :
    Boxes.owns (view mem content) x = (Boxes.owns content x).bind mem := by
  cases hcontent : content x <;> simp [Boxes.owns, view, hcontent]

theorem isSome_view (x : O) : (view mem content x).isSome = (content x).isSome := by
  simp [view]

theorem isNone_view (x : O) : (view mem content x).isNone = (content x).isNone := by
  simp [view]

variable [DecidableEq A]

theorem overwrite_of_ne {held : Option A} {b : Option B} {a : A} (h : some a ≠ held) :
    overwrite mem held b a = mem a := by
  cases held with
  | none => rfl
  | some a' => exact Function.update_of_ne (fun heq => h (congrArg some heq)) _ _

theorem isSome_overwrite {held : Option A} {b : Option B} {a : A} :
    (overwrite mem held b a).isSome = true ↔
      (some a ≠ held ∧ (mem a).isSome = true) ∨ (some a = held ∧ b.isSome = true) := by
  by_cases h : some a = held
  · subst h
    simp [overwrite]
  · simp [overwrite_of_ne h, h]

theorem bind_overwrite {held : Option A} {b : Option B} (h : b.isSome = held.isSome) :
    held.bind (overwrite mem held b) = b := by
  cases held with
  | none =>
      rw [Option.isSome_none, Option.isSome_eq_false_iff, Option.isNone_iff_eq_none] at h
      exact h.symm
  | some a => simp [overwrite]

end View

/-! ## The two cannot be told apart -/

namespace Passing

variable {mem : A → Option B} {content : O → Option (Option A)} {p : Passing O N}

theorem admits_view : p.admits (view mem content) = p.admits content := by
  cases p <;> simp only [admits, isSome_view, isNone_view]

variable [DecidableEq O]

theorem old_view : p.old (view mem content) = (p.old content).bind mem := by
  cases p with
  | put x _ => exact owns_view x
  | destroy x => exact owns_view x
  | take x y =>
      simp only [old]
      split
      · rfl
      · exact owns_view x
  | _ => rfl

theorem after_view (held : Option A) :
    view mem (p.after held content) = p.after (held.bind mem) (view mem content) := by
  cases p <;> simp only [after, view_update] <;> rfl

end Passing

section Indirect

variable [DecidableEq A] {L : Resources O N U B σ} {x : O} {m : Store A B σ}

theorem settle_indirect {old : Option A} (hold : ∀ a, old = some a → (m.1 a).isSome = true) :
    L.indirect.settle x old m =
      (L.settle x (old.bind m.1) m.2).map fun s => (overwrite m.1 old none, s) := by
  cases old with
  | none => rfl
  | some a =>
      obtain ⟨b, hb⟩ := Option.isSome_iff_exists.mp (hold a rfl)
      simp only [Resources.settle, Resources.indirect, Option.bind_eq_bind, Option.bind_some,
        hb]
      cases L.retire x b m.2 <;> rfl

theorem supply_indirect {new : Option (A × N)}
    (hfree : ∀ n, new = some n → m.1 n.1 = none) :
    L.indirect.supply x new m =
      (L.supply x (new.map Prod.snd) m.2).map fun p =>
        (new.map Prod.fst, overwrite m.1 (new.map Prod.fst) p.1, p.2) := by
  cases new with
  | none => rfl
  | some n =>
      simp only [Resources.supply, Resources.indirect, Option.map_some, hfree n rfl,
        Option.isSome_none, Bool.false_eq_true, if_false, Option.map_map]
      rfl

theorem free_of_supply_indirect {new : Option (A × N)} {p : Option A × Store A B σ}
    (h : L.indirect.supply x new m = some p) {n : A × N} (hn : new = some n) :
    m.1 n.1 = none := by
  subst hn
  obtain ⟨q, hq, -⟩ := Option.map_eq_some_iff.mp h
  by_contra hused
  simp only [Resources.indirect] at hq
  rw [if_pos (Option.ne_none_iff_isSome.mp hused)] at hq
  cases hq

theorem fst_of_supply_indirect {new : Option (A × N)} {p : Option A × Store A B σ}
    (h : L.indirect.supply x new m = some p) : p.1 = new.map Prod.fst := by
  rw [supply_indirect fun n hn => free_of_supply_indirect h hn] at h
  obtain ⟨q, -, rfl⟩ := Option.map_eq_some_iff.mp h
  rfl

theorem fst_of_access_indirect {u : U} {a : A} {p : A × Store A B σ}
    (h : L.indirect.access x u a m = some p) : p.1 = a := by
  simp only [Resources.indirect, Option.bind_eq_bind, Option.bind_eq_some_iff] at h
  obtain ⟨b, -, q, -, heq⟩ := h
  exact congrArg Prod.fst (Option.some.inj heq).symm

theorem isSome_of_supply {new : Option N} {t : σ} {p : Option B × σ}
    (h : L.supply x new t = some p) : p.1.isSome = new.isSome := by
  cases new with
  | none => rw [Resources.eq_none_of_supply h]; rfl
  | some n =>
      obtain ⟨q, -, rfl⟩ := Option.map_eq_some_iff.mp h
      rfl

end Indirect

namespace Boxes.Kept

variable {lost : A → Prop} {s s' : Boxes O A (Store A B σ)} {p : Passing O (A × N)} {x : O}
  {b : Option B} {t : σ}

theorem there_of_owns (hs : s.Kept lost) {a : A} (h : owns s.content x = some a) :
    (s.state.1 a).isSome = true ∧ ¬ lost a :=
  (hs.exclusive.covers a).mpr ⟨x, h⟩

variable [DecidableEq A] [DecidableEq O]

theorem after (hs : s.Kept lost) (hadmits : p.admits s.content = true)
    (hfree : ∀ n, p.new = some n → s.state.1 n.1 = none) (hb : b.isSome = p.new.isSome) :
    Kept (fun a => lost a ∨ some a = p.lost s.content)
        ⟨p.after (p.new.map Prod.fst) s.content,
          overwrite (overwrite s.state.1 (p.new.map Prod.fst) b) (p.old s.content) none, t⟩ ∧
      view (overwrite (overwrite s.state.1 (p.new.map Prod.fst) b) (p.old s.content) none)
          (p.after (p.new.map Prod.fst) s.content) =
        p.after b (view s.state.1 s.content) := by
  have hplace : ∀ a, some a = p.new.map Prod.fst → s.state.1 a = none ∧ b.isSome = true := by
    intro a ha
    obtain ⟨n, hn, rfl⟩ := Option.map_eq_some_iff.mp ha.symm
    exact ⟨hfree n hn, by rw [hb, hn]; rfl⟩
  have hold : ∀ a, some a = p.old s.content → (s.state.1 a).isSome = true ∧ ¬ lost a :=
    fun a ha => hs.there_of_owns (Passing.owns_of_old ha.symm)
  have hlost : ∀ a, some a = p.lost s.content → (s.state.1 a).isSome = true ∧ ¬ lost a :=
    fun a ha => hs.there_of_owns (Passing.owns_of_lost ha.symm)
  have hapart : ∀ a, some a = p.new.map Prod.fst → (s.state.1 a).isSome ≠ true := by
    intro a ha
    simp [(hplace a ha).1]
  have hexclusive := Passing.exclusive_after hadmits hs.exclusive (b := p.new.map Prod.fst)
    (fun h => by rw [h]; rfl) fun a ha hthere => hapart a ha.symm hthere.1
  refine ⟨⟨hexclusive.congr rfl fun a => ?_, fun a => ?_⟩, ?_⟩
  · rw [isSome_overwrite, isSome_overwrite]
    simp only [Option.isSome_none, Bool.false_eq_true, and_false, or_false, not_or]
    by_cases hnew : some a = p.new.map Prod.fst
    · have hused := hapart a hnew
      refine iff_of_true ⟨⟨fun h => hused (hold a h).1, .inr ⟨hnew, (hplace a hnew).2⟩⟩,
        fun h => hused (hs.there a h), fun h => hused (hlost a h).1⟩ (.inr hnew)
    · simp only [hnew, ne_eq, not_false_eq_true, true_and, false_and, or_false]
      constructor
      · rintro ⟨⟨hkept, hthere⟩, hne, hne'⟩
        exact ⟨⟨hthere, hne⟩, hkept, hne'⟩
      · rintro ⟨⟨hthere, hne⟩, hkept, hne'⟩
        exact ⟨⟨hkept, hthere⟩, hne, hne'⟩
  · intro ha
    have hthere : (s.state.1 a).isSome = true ∧ some a ≠ p.old s.content := by
      cases ha with
      | inl ha => exact ⟨hs.there a ha, fun h => (hold a h).2 ha⟩
      | inr ha => exact ⟨(hlost a ha).1, by simp [Passing.old_of_lost ha.symm]⟩
    rw [isSome_overwrite, isSome_overwrite]
    exact .inl ⟨hthere.2, .inl ⟨fun h => hapart a h hthere.1, hthere.1⟩⟩
  · calc view (overwrite (overwrite s.state.1 (p.new.map Prod.fst) b) (p.old s.content) none)
          (p.after (p.new.map Prod.fst) s.content)
        = view (overwrite s.state.1 (p.new.map Prod.fst) b)
            (p.after (p.new.map Prod.fst) s.content) := by
          refine view_congr fun x a ha => overwrite_of_ne fun h => ?_
          rcases (hexclusive.covers a).mpr ⟨x, ha⟩ with ⟨-, hne, -⟩ | hnew
          · exact hne h
          · exact hapart a hnew (hold a h).1
      _ = p.after b (view (overwrite s.state.1 (p.new.map Prod.fst) b) s.content) := by
          rw [Passing.after_view, bind_overwrite (by rw [hb, Option.isSome_map])]
      _ = p.after b (view s.state.1 s.content) := by
          rw [view_congr fun x a ha => overwrite_of_ne fun h =>
            hapart a h (hs.there_of_owns ha).1]

theorem settle {L : Resources O N U B σ} (hs : s.Kept lost)
    (hfree : ∀ n, p.new = some n → s.state.1 n.1 = none) :
    L.indirect.settle x (p.old s.content) (overwrite s.state.1 (p.new.map Prod.fst) b, t) =
      (L.settle x ((p.old s.content).bind s.state.1) t).map fun t =>
        (overwrite (overwrite s.state.1 (p.new.map Prod.fst) b) (p.old s.content) none, t) := by
  cases hold : p.old s.content with
  | none => rfl
  | some a =>
      have hthere := (hs.there_of_owns (Passing.owns_of_old hold)).1
      have hne : some a ≠ p.new.map Prod.fst := by
        intro h
        obtain ⟨n, hn, rfl⟩ := Option.map_eq_some_iff.mp h.symm
        simp [hfree n hn] at hthere
      have hread : overwrite s.state.1 (p.new.map Prod.fst) b a = s.state.1 a :=
        overwrite_of_ne hne
      rw [settle_indirect fun a' ha' => by
        obtain rfl := Option.some.inj ha'
        exact (congrArg Option.isSome hread).trans hthere]
      simp only [Option.bind_some, hread]

end Boxes.Kept

section Exec

variable [DecidableEq A] [DecidableEq O] {L : Resources O N U B σ} {lost : A → Prop}
  {s s' : Boxes O A (Store A B σ)} {x : O} {u : U}

theorem Passing.exec_indirect {p : Passing O (A × N)} (hs : s.Kept lost)
    (hfree : ∀ n, p.new = some n → s.state.1 n.1 = none) :
    (p.exec L.indirect s).map Boxes.flatten = (p.map Prod.snd).exec L s.flatten := by
  rw [exec, exec, supply_indirect hfree, Boxes.flatten, admits_map, admits_view, old_map,
    old_view, box_map, new_map]
  by_cases hadmits : p.admits s.content = true
  · rw [if_pos hadmits, if_pos hadmits]
    cases hb : L.supply p.box (p.new.map Prod.snd) s.state.2 with
    | none => rfl
    | some q =>
        have hsome : q.1.isSome = p.new.isSome := by
          rw [isSome_of_supply hb, Option.isSome_map]
        simp only [Option.map_some, Option.bind_eq_bind, Option.bind_some, hs.settle hfree]
        cases L.settle p.box ((p.old s.content).bind s.state.1) q.2 with
        | none => rfl
        | some t =>
            have hview := (hs.after hadmits hfree hsome (t := t)).2
            simp only [Option.map_some, Option.bind_some, Boxes.flatten, hview, after_map]
  · rw [if_neg hadmits, if_neg hadmits]
    rfl

theorem Passing.exec_kept {p : Passing O (A × N)} (hs : s.Kept lost)
    (hexec : p.exec L.indirect s = some s') :
    s'.Kept fun a => lost a ∨ some a = p.lost s.content := by
  obtain ⟨hadmits, b, t, t', hsupply, hsettle, rfl⟩ := exec_eq_some_iff.mp hexec
  have hfree := fun n => free_of_supply_indirect hsupply (n := n)
  rw [supply_indirect hfree] at hsupply
  obtain ⟨q, hq, heq⟩ := Option.map_eq_some_iff.mp hsupply
  have hsome : q.1.isSome = p.new.isSome := by
    rw [isSome_of_supply hq, Option.isSome_map]
  obtain ⟨rfl, rfl⟩ := Prod.mk.inj heq
  rw [hs.settle hfree] at hsettle
  obtain ⟨u, -, rfl⟩ := Option.map_eq_some_iff.mp hsettle
  exact (hs.after hadmits hfree hsome).1

theorem Boxes.Kept.view_access {a : A} {b : B} (hs : s.Kept lost)
    (howns : owns s.content x = some a) :
    view (Function.update s.state.1 a (some b)) (Function.update s.content x (some (some a))) =
      Function.update (view s.state.1 s.content) x (some (some b)) := by
  rw [view_update, Option.map_some, Option.bind_some, Function.update_self]
  funext y
  by_cases hy : y = x
  · rw [hy, Function.update_self, Function.update_self]
  · rw [Function.update_of_ne hy, Function.update_of_ne hy]
    cases hcontent : s.content y with
    | none => simp [view, hcontent]
    | some held =>
        cases held with
        | none => simp [view, hcontent]
        | some a' =>
            have hne : a' ≠ a := by
              rintro rfl
              exact hy (hs.exclusive.unique (by simp [owns, hcontent]) howns)
            simp [view, hcontent, hne]

def BoxOp.Fresh (op : BoxOp O (A × N) U) (s : Boxes O A (Store A B σ)) : Prop :=
  ∀ n, op.new = some n → s.state.1 n.1 = none

theorem BoxOp.exec_indirect {op : BoxOp O (A × N) U} (hs : s.Kept lost)
    (hfree : op.Fresh s) :
    (op.exec L.indirect s).map Boxes.flatten = (op.map Prod.snd).exec L s.flatten := by
  cases op with
  | pass p => exact Passing.exec_indirect hs hfree
  | access x u =>
      simp only [map, exec, Boxes.flatten, owns_view]
      cases howns : Boxes.owns s.content x with
      | none => rfl
      | some a =>
          obtain ⟨b, hb⟩ := Option.isSome_iff_exists.mp (hs.there_of_owns howns).1
          simp only [Resources.indirect, Option.bind_eq_bind, Option.bind_some, hb]
          cases L.access x u b s.state.2 with
          | none => rfl
          | some q => simp [Boxes.flatten, hs.view_access howns]

theorem BoxOp.exec_kept {op : BoxOp O (A × N) U} (hs : s.Kept lost)
    (hexec : op.exec L.indirect s = some s') :
    s'.Kept fun a => lost a ∨ some a = op.lost s.content := by
  cases op with
  | pass p => exact Passing.exec_kept hs hexec
  | access x u =>
      simp only [exec, Resources.indirect, Option.bind_eq_bind, Option.bind_eq_some_iff,
        Option.some.injEq, Prod.exists] at hexec
      obtain ⟨a, howns, a', mem, t, ⟨b, hb, b', t', -, heq⟩, rfl⟩ := hexec
      cases heq
      have hthere : ∀ r, (Function.update s.state.1 a (some b') r).isSome = true ↔
          (s.state.1 r).isSome = true := by
        intro r
        by_cases hr : r = a
        · subst hr
          simp [hb]
        · rw [Function.update_of_ne hr]
      constructor
      · refine hs.exclusive.congr ?_ fun r => ?_
        · rw [owns_update, Option.join_some, ← howns, Function.update_eq_self]
        · simp [hthere, BoxOp.lost]
      · rintro r (hr | hr)
        · exact (hthere r).mpr (hs.there r hr)
        · cases hr

theorem BoxOp.accounted_iff {op : BoxOp O (A × N) U} (hs : s.Kept fun _ => False)
    (hexec : op.exec L.indirect s = some s') :
    (s'.Kept fun _ => False) ↔ op.lost s.content = none := by
  have hkept := exec_kept hs hexec
  simp only [false_or] at hkept
  constructor
  · intro hs'
    by_contra hlost
    obtain ⟨a, ha⟩ := Option.ne_none_iff_exists'.mp hlost
    obtain ⟨x, hx⟩ := (hs'.exclusive.covers a).mp ⟨hkept.there a ha.symm, not_false⟩
    exact (hkept.there_of_owns hx).2 ha.symm
  · intro hlost
    simpa [hlost] using hkept

end Exec

end Foundation
