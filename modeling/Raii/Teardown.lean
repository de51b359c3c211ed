import Raii.Heap

/-!
# Ownership forests are torn down exactly

Destroying or resetting an owner outside the heap disposes the nodes below it.
Moving a member of one of these nodes into the owner disposes the nodes that
are not below that member, its own node among them.
-/

namespace Raii

open Foundation

variable {H : HeapShape}

namespace World

def Reaches (w : HeapWorld H) (o : Owner H) (n : H.Node) : Prop :=
  H.layout.Reaches w.owns o n

end World

/--
The nodes in `gone` have been disposed, each once, and their members destroyed.
Apart from `r`, no other owner and no other node has changed.
-/
structure TornDown (w w' : HeapWorld H) (r : H.Root) (gone : H.Node → Prop) : Prop where
  disposed : ∃ l, l.Nodup ∧ (∀ n, n ∈ l ↔ gone n) ∧
    w'.env.disposed = w.env.disposed ++ l
  nodes : ∀ n, n ∈ w'.env.nodes ↔ n ∈ w.env.nodes ∧ ¬ gone n
  members : ∀ n k, gone n → w'.live ⟨(), .member n k⟩ = false
  others : ∀ o, o ≠ .root r → (∀ n k, gone n → o ≠ .member n k) →
    w'.live ⟨(), o⟩ = w.live ⟨(), o⟩ ∧ w'.getHandle ⟨(), o⟩ = w.getHandle ⟨(), o⟩

section

variable {w w' : HeapWorld H} {r : H.Root}

theorem owns_of_live {o : Owner H} (h : w.live ⟨(), o⟩ = true) :
    w.owns o = w.getHandle ⟨(), o⟩ :=
  if_pos h

theorem owns_of_dead {o : Owner H} (h : w.live ⟨(), o⟩ = false) : w.owns o = none := by
  simp [World.owns, h]

theorem World.Forest.live_member (hw : w.Forest) {n : H.Node} {o : Owner H}
    (hn : n ∈ w.env.nodes) (ho : o ∈ H.members n) : w.live ⟨(), o⟩ = true := by
  obtain ⟨k, hk, rfl⟩ := HeapShape.mem_members.mp ho
  exact (hw.members n k).mpr ⟨hn, hk⟩

theorem World.Forest.restrict (hw : w.Forest) {owned : Owner H → Option H.Node}
    (hle : ∀ {o n}, owned o = some n → w.owns o = some n) : H.layout.IsForest owned :=
  hw.forest.of_source id hle (fun _ _ heq => heq) fun _ h => hle h

theorem nodup_touched {n : H.Node} {below : List H.Node} (h : (below ++ [n]).Nodup) :
    (World.touched (H.members n) below).Nodup := by
  have hnodes : (n :: below).Nodup := (List.perm_append_singleton n below).nodup_iff.mp h
  have hflat : ((n :: below).flatMap H.members).Nodup := by
    rw [List.nodup_flatMap]
    refine ⟨fun a _ => H.layout.nodup a, hnodes.imp fun hne o ho ho' => hne ?_⟩
    exact H.layout.home ho ho'
  exact hflat

/--
With `owned` a part of the forest, deleting the node of `o` disposes what is
below `o` in that part.  The call needs no more fuel than there are nodes.
-/
theorem World.Forest.delete_below (hw : w.Forest) {owned : Owner H → Option H.Node}
    (hle : ∀ {o n}, owned o = some n → w.owns o = some n) {o : Owner H} {n : H.Node}
    (hnode : owned o = some n) :
    ∃ l, l.Nodup ∧ (∀ x, x ∈ l ↔ H.layout.Reaches owned o x) ∧
      ∀ w₂ : HeapWorld H, (∀ o, w₂.live ⟨(), o⟩ = w.live ⟨(), o⟩) → w₂.env = w.env →
        (∀ a, H.layout.Reaches owned o a →
          ∀ o' ∈ H.members a, w₂.getHandle ⟨(), o'⟩ = owned o') →
        ∀ fuel, w.env.nodes.card ≤ fuel → ∀ this,
          defaultDelete fuel this () (some n) w₂ = some (w₂.teardown [] l) := by
  have hforest := hw.restrict hle
  have howned : ∀ {o n}, owned o = some n → n ∈ w.env.nodes := fun h => hw.allocated (hle h)
  obtain ⟨below, hinner⟩ := hforest.exists_postorder howned (H.members n)
  have hpost : H.layout.Postorder owned [o] (below ++ [n]) := .node hnode hinner .nil
  have hnodup := hpost.nodup hforest (List.pairwise_singleton _ _)
  have hallocated : ∀ a ∈ below ++ [n], a ∈ w.env.nodes := by
    intro a ha
    obtain ⟨_, hparent⟩ := (hpost.mem_iff_reaches.mp ha).owned
    exact howned hparent
  refine ⟨below ++ [n], hnodup, fun x => hpost.mem_iff_reaches, ?_⟩
  intro w₂ hlive henv hhandle fuel hfuel this
  have hhome : ∀ o' ∈ World.touched (H.members n) below,
      ∃ a ∈ below ++ [n], o' ∈ H.members a := by
    intro o' ho'
    cases World.mem_touched.mp ho' with
    | inl hmem => exact ⟨n, by simp, hmem⟩
    | inr hmem =>
        obtain ⟨a, ha, hmem⟩ := hmem
        exact ⟨a, by simp [ha], hmem⟩
  have hready : w₂.Ready (H.members n) below := by
    constructor
    · intro o' ho'
      obtain ⟨a, ha, hmem⟩ := hhome o' ho'
      rw [hlive, hw.live_member (hallocated a ha) hmem]
    · intro a ha
      rw [henv]
      exact hallocated a (by simp [ha])
    · exact (List.nodup_append.mp hnodup).1
    · exact nodup_touched hnodup
  have hsame : ∀ o' ∈ World.touched (H.members n) below,
      w₂.getHandle ⟨(), o'⟩ = owned o' := by
    intro o' ho'
    obtain ⟨a, ha, hmem⟩ := hhome o' ho'
    exact hhandle a (hpost.mem_iff_reaches.mp ha) o' hmem
  have hlength : below.length + 1 ≤ w.env.nodes.card := by
    have hsubset : (below ++ [n]).toFinset ⊆ w.env.nodes :=
      fun a ha => hallocated a (List.mem_toFinset.mp ha)
    have hcard := Finset.card_le_card hsubset
    rw [List.toFinset_card_of_nodup hnodup, List.length_append] at hcard
    exact hcard
  cases fuel with
  | zero => omega
  | succ fuel =>
      have hrun := World.run_destroy hinner hready hsame (show below.length ≤ fuel by omega)
      have hn : n ∈ w₂.env.nodes := by
        rw [henv]
        exact hallocated n (by simp)
      exact World.defaultDelete_of_run this hn hrun

theorem World.Forest.delete (hw : w.Forest) {owned : Owner H → Option H.Node}
    (hle : ∀ {o n}, owned o = some n → w.owns o = some n) {n : H.Node}
    (hr : owned (.root r) = some n) :
    ∃ l, l.Nodup ∧ (∀ x, x ∈ l ↔ H.layout.Reaches owned (.root r) x) ∧
      ∀ w₂ : HeapWorld H, (∀ o, w₂.live ⟨(), o⟩ = w.live ⟨(), o⟩) → w₂.env = w.env →
        (∀ a ∈ w.env.nodes, ∀ o ∈ H.members a, w₂.getHandle ⟨(), o⟩ = owned o) →
        ∀ fuel, w.env.nodes.card ≤ fuel → ∀ this,
          defaultDelete fuel this () (some n) w₂ = some (w₂.teardown [] l) := by
  obtain ⟨l, hnodup, hmem, hdelete⟩ := hw.delete_below hle hr
  refine ⟨l, hnodup, hmem, fun w₂ hlive henv hhandle => hdelete w₂ hlive henv ?_⟩
  intro a ha o ho
  obtain ⟨_, howned⟩ := ha.owned
  exact hhandle a (hw.allocated (hle howned)) o ho

/-! ## What a teardown leaves -/

theorem tornDown_of_teardown (hw : w.Forest) {w₂ : HeapWorld H} {os : List (Owner H)}
    {l : List H.Node} {gone : H.Node → Prop} (hos : ∀ o ∈ os, o = .root r)
    (hnodup : l.Nodup) (hgone : ∀ n, n ∈ l ↔ gone n)
    (hlive : ∀ o, w₂.live ⟨(), o⟩ = w.live ⟨(), o⟩) (henv : w₂.env = w.env)
    (hhandle : ∀ o, o ≠ .root r → (∀ n k, gone n → o ≠ .member n k) →
      w₂.getHandle ⟨(), o⟩ = w.getHandle ⟨(), o⟩) :
    TornDown w (w₂.teardown os l) r gone where
  disposed := ⟨l, hnodup, hgone, by simp [henv]⟩
  nodes n := by simp [henv, hgone]
  members n k hn := by
    rw [World.live_teardown, hlive]
    cases hk : w.live ⟨(), .member n k⟩ with
    | false => rfl
    | true =>
        have hmem : Owner.member n k ∈ H.members n :=
          HeapShape.mem_members.mpr ⟨k, ((hw.members n k).mp hk).2, rfl⟩
        have htouched : Owner.member n k ∈ World.touched os l :=
          World.mem_touched.mpr (.inr ⟨n, (hgone n).mpr hn, hmem⟩)
        simp only [htouched, not_true_eq_false, decide_false, Bool.and_false]
  others o hne hother := by
    have hnot : o ∉ World.touched os l := by
      rw [World.mem_touched]
      rintro (hmem | ⟨n, hn, hmem⟩)
      · exact hne (hos o hmem)
      · obtain ⟨k, -, heq⟩ := HeapShape.mem_members.mp hmem
        exact hother n k ((hgone n).mp hn) heq
    rw [World.live_teardown, World.getHandle_teardown, if_neg hnot, hlive,
      hhandle o hne hother]
    simp only [hnot, not_false_eq_true, decide_true, Bool.and_true, and_self]

theorem TornDown.owns_of_ne {gone : H.Node → Prop} (h : TornDown w w' r gone)
    {o : Owner H} {n : H.Node} (hne : o ≠ .root r) (ho : w'.owns o = some n) :
    w.owns o = some n ∧ ∀ a k, gone a → o ≠ .member a k := by
  have hother : ∀ a k, gone a → o ≠ .member a k := by
    rintro a k ha rfl
    rw [owns_of_dead (h.members a k ha)] at ho
    simp at ho
  refine ⟨?_, hother⟩
  obtain ⟨hlive, hhandle⟩ := h.others o hne hother
  rw [World.owns, hlive, hhandle] at ho
  exact ho

theorem World.Forest.owner_of_gone (hw : w.Forest) {owned : Owner H → Option H.Node}
    (hle : ∀ {o n}, owned o = some n → w.owns o = some n) {o : Owner H} {n : H.Node}
    (hgone : H.layout.Reaches owned (.root r) n) (ho : w.owns o = some n) :
    o = .root r ∨ ∃ a k, H.layout.Reaches owned (.root r) a ∧ o = .member a k := by
  cases hgone.owner with
  | inl htop => exact .inl (hw.forest.unique ho (hle htop))
  | inr hparent =>
      obtain ⟨a, ha, o', hmem, ho'⟩ := hparent
      obtain rfl := hw.forest.unique ho (hle ho')
      obtain ⟨k, -, rfl⟩ := HeapShape.mem_members.mp hmem
      exact .inr ⟨a, k, ha, rfl⟩

theorem TornDown.forest (hw : w.Forest) {owned : Owner H → Option H.Node}
    (hle : ∀ {o n}, owned o = some n → w.owns o = some n)
    (h : TornDown w w' r (H.layout.Reaches owned (.root r))) {m : Owner H}
    (hm : w'.owns m = none)
    (hr : ∀ n, w'.owns (.root r) = some n →
      w.owns m = some n ∧ ¬ H.layout.Reaches owned (.root r) n) :
    w'.Forest where
  forest := by
    apply hw.forest.of_source fun o => if o = .root r then m else o
    · intro o n ho
      by_cases heq : o = .root r
      · simpa [heq] using (hr n (heq ▸ ho)).1
      · simpa [heq] using (h.owns_of_ne heq ho).1
    · intro o o' n ho ho' hsource
      by_cases heq : o = .root r <;> by_cases heq' : o' = .root r
      · rw [heq, heq']
      · rw [if_pos heq, if_neg heq'] at hsource
        simp [← hsource, hm] at ho'
      · rw [if_neg heq, if_pos heq'] at hsource
        simp [hsource, hm] at ho
      · rwa [if_neg heq, if_neg heq'] at hsource
    · intro o a n hmem ho
      obtain ⟨k, -, rfl⟩ := HeapShape.mem_members.mp hmem
      exact (h.owns_of_ne (by simp) ho).1
  allocated := by
    intro o n ho
    rw [h.nodes]
    by_cases heq : o = .root r
    · obtain ⟨hmoved, hkept⟩ := hr n (heq ▸ ho)
      exact ⟨hw.allocated hmoved, hkept⟩
    · obtain ⟨hkept, hother⟩ := h.owns_of_ne heq ho
      refine ⟨hw.allocated hkept, fun hgone => ?_⟩
      cases hw.owner_of_gone hle hgone hkept with
      | inl hroot => exact heq hroot
      | inr hmember =>
          obtain ⟨a, k, ha, hmember⟩ := hmember
          exact hother a k ha hmember
  members n k := by
    rw [h.nodes]
    by_cases hgone : H.layout.Reaches owned (.root r) n
    · simp [h.members n k hgone, hgone]
    · have hkept := h.others (.member n k) (by simp) (by
        rintro a k' ha heq
        exact hgone ((Owner.member.inj heq).1 ▸ ha))
      simp [hkept.1, hw.members n k, hgone]

/-! ## Destruction, `reset()` and `= nullptr` -/

theorem not_reaches_of_null {o : Owner H} (h : w.owns o = none) (n : H.Node) :
    ¬ w.Reaches o n :=
  Layout.not_reaches_of_null h

theorem destroy_root (hw : w.Forest) (hr : w.live ⟨(), .root r⟩ = true) :
    ∃ l, l.Nodup ∧ (∀ n, n ∈ l ↔ w.Reaches (.root r) n) ∧
      ∀ fuel, w.env.nodes.card ≤ fuel →
        (PtrOp.destroy ⟨(), Owner.root r⟩).exec (defaultDelete fuel) w =
          some (w.teardown [.root r] l) := by
  have howns := owns_of_live hr
  cases hnode : w.getHandle ⟨(), .root r⟩ with
  | none =>
      rw [hnode] at howns
      refine ⟨[], List.nodup_nil, fun n => ?_, fun fuel _ => ?_⟩
      · simp [not_reaches_of_null howns]
      · exact World.exec_destroy_of_null _ hr hnode
  | some n =>
      rw [hnode] at howns
      obtain ⟨l, hnodup, hmem, hdelete⟩ := hw.delete (fun h => h) howns
      refine ⟨l, hnodup, hmem, fun fuel hfuel => ?_⟩
      apply World.exec_destroy_of_node hr hnode
      apply hdelete w (fun _ => rfl) rfl _ fuel hfuel
      intro a ha o ho
      exact (owns_of_live (hw.live_member ha ho)).symm

theorem reset_owner (hw : w.Forest) {o : Owner H}
    {owned : Owner H → Option H.Node}
    (hle : ∀ {o n}, owned o = some n → w.owns o = some n)
    (htop : owned o = w.getHandle ⟨(), o⟩)
    (w₁ : HeapWorld H) (hlive : ∀ o', w₁.live ⟨(), o'⟩ = w.live ⟨(), o'⟩)
    (henv : w₁.env = w.env)
    (hhandle : ∀ a, H.layout.Reaches owned o a → ∀ o' ∈ H.members a,
      w₁.getHandle ⟨(), o'⟩ = owned o')
    (hsame : w₁.getHandle ⟨(), o⟩ = w.getHandle ⟨(), o⟩)
    (hnd : Option H.Node) :
    ∃ l, l.Nodup ∧ (∀ n, n ∈ l ↔ H.layout.Reaches owned o n) ∧
      ∀ fuel, w.env.nodes.card ≤ fuel →
        UniqueRcHolderImpl.reset (defaultDelete fuel) ⟨(), o⟩ hnd w₁ =
          some ((w₁.setHandle ⟨(), o⟩ hnd).teardown [] l) := by
  cases hnode : w.getHandle ⟨(), o⟩ with
  | none =>
      rw [hnode] at htop hsame
      refine ⟨[], List.nodup_nil, fun n => ?_, fun fuel _ => ?_⟩
      · simp [Layout.not_reaches_of_null htop]
      · rw [World.teardown_nil]
        apply UniqueRcHolderImpl.reset_of_not_owned
        rw [hsame]
        exact World.isOwned_none
  | some n =>
      rw [hnode] at htop hsame
      obtain ⟨l, hnodup, hmem, hdelete⟩ := hw.delete_below hle htop
      refine ⟨l, hnodup, hmem, fun fuel hfuel => ?_⟩
      rw [UniqueRcHolderImpl.reset_of_owned _ (by rw [hsame]; exact World.isOwned_some n)
        (fun hcheck => absurd hcheck Bool.false_ne_true), hsame]
      refine hdelete (w₁.setHandle _ hnd) hlive henv (fun a ha o' ho' => ?_) fuel hfuel _
      have hne : o' ≠ o := by
        rintro rfl
        exact (hw.restrict hle).not_reaches_home ho' ha
      rw [World.getHandle_setHandle, Function.update_of_ne (by simpa using hne)]
      exact hhandle a ha o' ho'

theorem reset_root (hw : w.Forest) (hr : w.live ⟨(), .root r⟩ = true)
    {owned : Owner H → Option H.Node}
    (hle : ∀ {o n}, owned o = some n → w.owns o = some n)
    (hroot : owned (.root r) = w.owns (.root r))
    (w₁ : HeapWorld H) (hlive : ∀ o, w₁.live ⟨(), o⟩ = w.live ⟨(), o⟩)
    (henv : w₁.env = w.env)
    (hhandle : ∀ a ∈ w.env.nodes, ∀ o ∈ H.members a, w₁.getHandle ⟨(), o⟩ = owned o)
    (hsame : w₁.getHandle ⟨(), .root r⟩ = w.getHandle ⟨(), .root r⟩)
    (hnd : Option H.Node) :
    ∃ l, l.Nodup ∧ (∀ n, n ∈ l ↔ H.layout.Reaches owned (.root r) n) ∧
      ∀ fuel, w.env.nodes.card ≤ fuel →
        UniqueRcHolderImpl.reset (defaultDelete fuel) ⟨(), Owner.root r⟩ hnd w₁ =
          some ((w₁.setHandle ⟨(), Owner.root r⟩ hnd).teardown [] l) := by
  refine reset_owner hw hle (hroot.trans (owns_of_live hr)) w₁ hlive henv ?_ hsame hnd
  intro a ha o ho
  obtain ⟨_, howned⟩ := ha.owned
  exact hhandle a (hw.allocated (hle howned)) o ho

theorem destroy_tornDown (hw : w.Forest) (hr : w.live ⟨(), .root r⟩ = true) :
    ∃ w', (∀ fuel, w.env.nodes.card ≤ fuel →
        (PtrOp.destroy ⟨(), Owner.root r⟩).exec (defaultDelete fuel) w = some w') ∧
      TornDown w w' r (w.Reaches (.root r)) ∧
      w'.live ⟨(), .root r⟩ = false ∧ w'.Forest := by
  obtain ⟨l, hnodup, hmem, hrun⟩ := destroy_root hw hr
  have htorn : TornDown w (w.teardown [.root r] l) r (w.Reaches (.root r)) :=
    tornDown_of_teardown hw (by simp) hnodup hmem (fun _ => rfl) rfl fun _ _ _ => rfl
  have hdead : (w.teardown [.root r] l).live ⟨(), .root r⟩ = false := by simp
  refine ⟨_, hrun, htorn, hdead, ?_⟩
  have hnull := owns_of_dead hdead
  exact htorn.forest hw (fun h => h) hnull fun n hn => by simp [hnull] at hn

theorem reset_tornDown (hw : w.Forest) (hr : w.live ⟨(), .root r⟩ = true)
    {op : PtrOp H.pointers}
    (hop : op = .resetNullptr ⟨(), Owner.root r⟩ ∨ op = .assignNullptr ⟨(), Owner.root r⟩) :
    ∃ w', (∀ fuel, w.env.nodes.card ≤ fuel → op.exec (defaultDelete fuel) w = some w') ∧
      TornDown w w' r (w.Reaches (.root r)) ∧ w'.live ⟨(), .root r⟩ = true ∧
      w'.getHandle ⟨(), .root r⟩ = none ∧ w'.Forest := by
  obtain ⟨l, hnodup, hmem, hrun⟩ := reset_root hw hr (fun h => h) rfl w (fun _ => rfl) rfl
    (fun a ha o ho => (owns_of_live (hw.live_member ha ho)).symm) rfl none
  have htorn : TornDown w ((w.setHandle ⟨(), Owner.root r⟩ none).teardown [] l) r
      (w.Reaches (.root r)) := by
    refine tornDown_of_teardown hw (by simp) hnodup hmem (fun _ => rfl) rfl fun o hne _ => ?_
    rw [World.getHandle_setHandle, Function.update_of_ne (by simpa using hne)]
  have hexec : ∀ call, op.exec call w =
      UniqueRcHolderImpl.reset call ⟨(), Owner.root r⟩ none w := by
    intro call
    rcases hop with rfl | rfl <;> exact if_pos hr
  have hlive : ((w.setHandle ⟨(), Owner.root r⟩ none).teardown [] l).live
      ⟨(), .root r⟩ = true := by simpa using hr
  have hnone : ((w.setHandle ⟨(), Owner.root r⟩ none).teardown [] l).getHandle
      ⟨(), .root r⟩ = none := by simp
  have hnull := (owns_of_live hlive).trans hnone
  refine ⟨_, fun fuel hfuel => (hexec _).trans (hrun fuel hfuel), htorn, hlive, hnone, ?_⟩
  exact htorn.forest hw (fun h => h) hnull fun n hn => by simp [hnull] at hn

/-! ## `r = std::move(m)` -/

/-- The source may be gone by then, but a stateless deleter has nothing to read. -/
theorem assignDeleter_eq (this other : Obj H.pointers.signature) (left : Unit) :
    w.assignDeleter this other id left = w := by
  apply World.heap_ext <;> simp

theorem owns_of_cut {m o : Owner H} {x : H.Node}
    (h : Function.update w.owns m none o = some x) : w.owns o = some x := by
  by_cases heq : o = m
  · simp [heq] at h
  · simpa [heq] using h

theorem getHandle_cut (m : Owner H) {o : Owner H} (h : w.live ⟨(), o⟩ = true) :
    (w.setHandle ⟨(), m⟩ none).getHandle ⟨(), o⟩ = Function.update w.owns m none o := by
  rw [World.getHandle_setHandle]
  by_cases heq : o = m
  · subst heq
    simp
  · rw [Function.update_of_ne (by simpa using heq), Function.update_of_ne heq]
    exact (owns_of_live h).symm

theorem moveAssign_tornDown (hw : w.Forest) (hr : w.live ⟨(), .root r⟩ = true)
    {n : H.Node} {k : Nat} (left : Unit) (hn : w.Reaches (.root r) n) (hk : k < H.arity n) :
    ∃ w', (∀ fuel, w.env.nodes.card ≤ fuel →
        (PtrOp.moveAssign () (Owner.root r) (Owner.member n k) left).exec
          (defaultDelete fuel) w = some w') ∧
      TornDown w w' r (fun x => w.Reaches (.root r) x ∧ ¬ w.Reaches (.member n k) x) ∧
      w'.live ⟨(), .root r⟩ = true ∧
      w'.getHandle ⟨(), .root r⟩ = w.getHandle ⟨(), .member n k⟩ ∧
      (∀ x, w'.Reaches (.root r) x ↔ w.Reaches (.member n k) x) ∧ w'.Forest := by
  have hmem : Owner.member n k ∈ H.members n := HeapShape.mem_members.mpr ⟨k, hk, rfl⟩
  obtain ⟨_, hn'⟩ := hn.owned
  have hm := hw.live_member (hw.allocated hn') hmem
  have hle : ∀ {o x}, Function.update w.owns (.member n k) none o = some x →
      w.owns o = some x := owns_of_cut
  have hroot : Function.update w.owns (.member n k) none (.root r) = w.owns (.root r) := by
    simp
  have hhandle : ∀ a ∈ w.env.nodes, ∀ o ∈ H.members a,
      (w.setHandle ⟨(), Owner.member n k⟩ none).getHandle ⟨(), o⟩ =
        Function.update w.owns (.member n k) none o := fun a ha o ho =>
    getHandle_cut (.member n k) (hw.live_member ha ho)
  obtain ⟨l, hnodup, hgone, hrun⟩ := reset_root hw hr hle hroot
    (w.setHandle ⟨(), Owner.member n k⟩ none) (fun _ => rfl) rfl hhandle (by simp)
    (w.getHandle ⟨(), Owner.member n k⟩)
  have hcut : ∀ x, H.layout.Reaches (Function.update w.owns (.member n k) none)
      (.root r) x ↔ w.Reaches (.root r) x ∧ ¬ w.Reaches (.member n k) x := fun x =>
    Layout.reaches_cut hw.forest (fun _ => HeapShape.root_notMem_members r) (.member n k)
  have hhome : H.layout.Reaches (Function.update w.owns (.member n k) none) (.root r) n :=
    (hcut n).mpr ⟨hn, hw.forest.not_reaches_home hmem⟩
  have htorn : TornDown w (((w.setHandle ⟨(), Owner.member n k⟩ none).setHandle
      ⟨(), Owner.root r⟩ (w.getHandle ⟨(), Owner.member n k⟩)).teardown [] l) r
      (H.layout.Reaches (Function.update w.owns (.member n k) none) (.root r)) := by
    refine tornDown_of_teardown hw (by simp) hnodup hgone (fun _ => rfl) rfl ?_
    intro o hne hother
    rw [World.getHandle_setHandle, Function.update_of_ne (by simpa using hne),
      World.getHandle_setHandle, Function.update_of_ne (by simpa using hother n k hhome)]
  have hlive : (((w.setHandle ⟨(), Owner.member n k⟩ none).setHandle
      ⟨(), Owner.root r⟩ (w.getHandle ⟨(), Owner.member n k⟩)).teardown [] l).live
      ⟨(), .root r⟩ = true := by simpa using hr
  have hmoved : (((w.setHandle ⟨(), Owner.member n k⟩ none).setHandle
      ⟨(), Owner.root r⟩ (w.getHandle ⟨(), Owner.member n k⟩)).teardown [] l).getHandle
      ⟨(), .root r⟩ = w.getHandle ⟨(), .member n k⟩ := by simp
  have howns := (owns_of_live hlive).trans (hmoved.trans (owns_of_live hm).symm)
  refine ⟨_, fun fuel hfuel => ?_, funext (fun x => propext (hcut x)) ▸ htorn, hlive,
    hmoved, fun x => ?_, ?_⟩
  · have hlives : (w.live ⟨(), .root r⟩ && w.live ⟨(), .member n k⟩) = true := by
      rw [hr, hm]
      rfl
    have hexec : (PtrOp.moveAssign () (Owner.root r) (Owner.member n k) left).exec
        (defaultDelete fuel) w = UniqueRcHolderImpl.moveAssign (defaultDelete fuel) ()
          (Owner.root r) (Owner.member n k) left w := if_pos hlives
    rw [hexec]
    exact (UniqueRcHolderImpl.moveAssign_eq_some_iff _).mpr
      ⟨_, hrun fuel hfuel, (assignDeleter_eq _ _ left).symm⟩
  · refine Layout.reaches_congr howns fun a ha o ho => ?_
    obtain ⟨k', -, rfl⟩ := HeapShape.mem_members.mp ho
    have hkept := htorn.others (.member a k') (by simp) (by
      rintro b j hb heq
      obtain rfl := (Owner.member.inj heq).1
      exact ((hcut a).mp hb).2 ha)
    rw [World.owns, World.owns, hkept.1, hkept.2]
  · apply htorn.forest hw hle (owns_of_dead (htorn.members n k hhome))
    intro x hx
    rw [howns] at hx
    exact ⟨hx, fun hgone => ((hcut x).mp hgone).2 ⟨x, hx, .refl⟩⟩

/--
A forest is torn down exactly.  Fuel for as many nested deletions as there are
nodes is always enough, so each of the operations returns.
-/
theorem forest_tornDown (hw : w.Forest) (hr : w.live ⟨(), .root r⟩ = true) :
    (∃ w', (∀ fuel, w.env.nodes.card ≤ fuel →
        (PtrOp.destroy ⟨(), Owner.root r⟩).exec (defaultDelete fuel) w = some w') ∧
      TornDown w w' r (w.Reaches (.root r)) ∧
      w'.live ⟨(), .root r⟩ = false ∧ w'.Forest) ∧
    (∀ op : PtrOp H.pointers,
      op = .resetNullptr ⟨(), Owner.root r⟩ ∨ op = .assignNullptr ⟨(), Owner.root r⟩ →
      ∃ w', (∀ fuel, w.env.nodes.card ≤ fuel →
          op.exec (defaultDelete fuel) w = some w') ∧
        TornDown w w' r (w.Reaches (.root r)) ∧ w'.live ⟨(), .root r⟩ = true ∧
        w'.getHandle ⟨(), .root r⟩ = none ∧ w'.Forest) ∧
    (∀ n k left, w.Reaches (.root r) n → k < H.arity n →
      ∃ w', (∀ fuel, w.env.nodes.card ≤ fuel →
          (PtrOp.moveAssign () (Owner.root r) (Owner.member n k) left).exec
            (defaultDelete fuel) w = some w') ∧
        TornDown w w' r (fun x => w.Reaches (.root r) x ∧ ¬ w.Reaches (.member n k) x) ∧
        w'.live ⟨(), .root r⟩ = true ∧
        w'.getHandle ⟨(), .root r⟩ = w.getHandle ⟨(), .member n k⟩ ∧
        (∀ x, w'.Reaches (.root r) x ↔ w.Reaches (.member n k) x) ∧ w'.Forest) :=
  ⟨destroy_tornDown hw hr, fun _ => reset_tornDown hw hr,
    fun _ _ left => moveAssign_tornDown hw hr left⟩

end

/-! ## A linked list -/

abbrev listShape : HeapShape where
  Node := Nat
  Root := Unit
  arity _ := 1

/-- `head` owns node 0, which owns node 1, which owns node 2. -/
def listWorld : HeapWorld listShape where
  live
    | ⟨_, .root _⟩ => true
    | ⟨_, .member n k⟩ => decide (n < 3) && k == 0
  objects
    | ⟨_, .root _⟩ => ⟨some (0 : Nat), .value ()⟩
    | ⟨_, .member n _⟩ => ⟨if n < 2 then some (n + 1) else none, .value ()⟩
  cells := Empty.elim
  env := ⟨Finset.range 3, []⟩

theorem owns_root_listWorld (m : Nat) : listWorld.owns (.root ()) = some m ↔ m = 0 := by
  rw [show listWorld.owns (.root ()) = some 0 from rfl, Option.some.injEq, eq_comm]

theorem owns_member_listWorld {n k m : Nat} :
    listWorld.owns (.member n k) = some m ↔ k = 0 ∧ n < 2 ∧ m = n + 1 := by
  simp only [World.owns, World.getHandle, listWorld]
  by_cases hn : n < 2
  · have hlive : n < 3 := by omega
    by_cases hk : k = 0
    · simp only [hn, hlive, hk, decide_true, beq_self_eq_true, Bool.and_self, if_true,
        Option.some.injEq, true_and]
      exact eq_comm
    · simp [hk]
  · simp [hn]

theorem child_listWorld {a b : Nat} (h : listShape.layout.Child listWorld.owns a b) :
    a < b := by
  obtain ⟨o, hmem, howns⟩ := h
  obtain ⟨k, -, rfl⟩ := HeapShape.mem_members.mp hmem
  have hnext := owns_member_listWorld.mp howns
  omega

theorem forest_listWorld : listWorld.Forest where
  forest :=
    { unique := by
        intro o o' n ho ho'
        cases o with
        | root =>
            cases o' with
            | root => rfl
            | member b j =>
                have htop := (owns_root_listWorld n).mp ho
                have hnext := owns_member_listWorld.mp ho'
                omega
        | member a k =>
            have hnext := owns_member_listWorld.mp ho
            cases o' with
            | root =>
                have htop := (owns_root_listWorld n).mp ho'
                omega
            | member b j =>
                have hnext' := owns_member_listWorld.mp ho'
                have hnode : a + 1 = b + 1 := hnext.2.2.symm.trans hnext'.2.2
                rw [Nat.succ.inj hnode, hnext.1, hnext'.1]
      acyclic := by
        intro n hcycle
        have hless : ∀ b, Relation.TransGen (listShape.layout.Child listWorld.owns) n b →
            n < b := by
          intro b hpath
          induction hpath with
          | single hchild => exact child_listWorld hchild
          | tail _ hchild ih => exact ih.trans (child_listWorld hchild)
        exact absurd (hless n hcycle) (Nat.lt_irrefl n) }
  allocated := by
    intro o n ho
    rw [show listWorld.env.nodes = Finset.range 3 from rfl, Finset.mem_range]
    cases o with
    | root =>
        have htop := (owns_root_listWorld n).mp ho
        omega
    | member a k =>
        have hnext := owns_member_listWorld.mp ho
        omega
  members n k := by
    simp [listWorld]

theorem forest_tornDown_next :
    ∃ w', (PtrOp.moveAssign (P := listShape.pointers) () (.root ()) (.member (0 : Nat) 0)
        ()).exec (defaultDelete 3) listWorld = some w' ∧
      w'.getHandle ⟨(), Owner.root ()⟩ = some (1 : Nat) ∧ w'.Forest := by
  have hreach : listWorld.Reaches (.root ()) (0 : Nat) := ⟨(0 : Nat), rfl, .refl⟩
  obtain ⟨w', hrun, -, -, hhead, -, hforest⟩ :=
    (forest_tornDown forest_listWorld (rfl : listWorld.live ⟨(), .root ()⟩ = true)).2.2
      0 0 () hreach (by decide)
  exact ⟨w', hrun 3 (by decide), hhead, hforest⟩

end Raii
