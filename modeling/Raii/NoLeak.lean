import Raii.Frame
import Raii.HeapProgram

/-!
# No leak and no double deletion

A program that never gives an owner a node the owner is below of keeps every
node it has created in reach until it is disposed, and disposes it once.  A
move or an exchange that does so is exactly what loses nodes.
-/

namespace Raii

open Foundation

variable {H : HeapShape}

/-! ## More fuel -/

theorem PtrOp.exec_mono {P : PtrSignature} {Env : Type}
    {call call' : DeleterCall P.signature Env}
    (hcall : ∀ this del hnd w w', call this del hnd w = some w' →
      call' this del hnd w = some w') {op : PtrOp P} {w w' : World P.signature Env}
    (hexec : op.exec call w = some w') : op.exec call' w = some w' := by
  obtain ⟨haccepted, hbase⟩ := Option.ite_none_right_eq_some.mp hexec
  exact Option.ite_none_right_eq_some.mpr
    ⟨haccepted, Op.exec_mono (fun this del hnd w w' _ => hcall this del hnd w w') hbase⟩

theorem defaultDelete_mono {fuel fuel' : Nat} (hle : fuel ≤ fuel')
    {this : Obj H.pointers.signature} {del : Unit} {hnd : Option H.Node}
    {w w' : HeapWorld H} (hcalled : defaultDelete fuel this del hnd w = some w') :
    defaultDelete fuel' this del hnd w = some w' := by
  induction fuel generalizing fuel' this del hnd w w' with
  | zero => simp [defaultDelete] at hcalled
  | succ fuel ih =>
      obtain ⟨fuel', rfl⟩ := Nat.exists_eq_succ_of_ne_zero (show fuel' ≠ 0 by omega)
      cases hnd with
      | none => exact hcalled
      | some n =>
          obtain ⟨hn, hmap⟩ := Option.ite_none_right_eq_some.mp hcalled
          obtain ⟨w₁, hrun, rfl⟩ := Option.map_eq_some_iff.mp hmap
          have hrun' := run_mono (fun o s s' => PtrOp.exec_mono fun this del hnd w w' =>
            ih (show fuel ≤ fuel' by omega)) hrun
          rw [defaultDelete, if_pos hn, hrun', Option.map_some]

theorem HeapOp.exec_mono {fuel fuel' : Nat} (hle : fuel ≤ fuel') {op : HeapOp H}
    {w w' : HeapWorld H} (hexec : op.exec fuel w = some w') :
    op.exec fuel' w = some w' := by
  have hptr : ∀ {op : PtrOp H.pointers} {w w' : HeapWorld H},
      op.exec (defaultDelete fuel) w = some w' → op.exec (defaultDelete fuel') w = some w' :=
    PtrOp.exec_mono fun _ _ _ _ _ => defaultDelete_mono hle
  have hnew : ∀ {n : H.Node} {op : PtrOp H.pointers},
      (newNode n w).bind (op.exec (defaultDelete fuel)) = some w' →
      (newNode n w).bind (op.exec (defaultDelete fuel')) = some w' := by
    intro n op hbind
    obtain ⟨w₁, hfirst, hrest⟩ := Option.bind_eq_some_iff.mp hbind
    exact Option.bind_eq_some_iff.mpr ⟨w₁, hfirst, hptr hrest⟩
  cases op with
  | construct this => exact hptr hexec
  | makeUnique this n => exact hnew hexec
  | moveConstruct this other => exact hptr hexec
  | moveAssign this other => exact hptr hexec
  | swap this rhs => exact hptr hexec
  | resetNew this n =>
      obtain ⟨hlive, hbind⟩ := Option.ite_none_right_eq_some.mp hexec
      exact Option.ite_none_right_eq_some.mpr ⟨hlive, hnew hbind⟩
  | resetNullptr this => exact hptr hexec
  | assignNullptr this => exact hptr hexec
  | destroy this => exact hptr hexec

/-! ## One step -/

structure Turnover (w w' : HeapWorld H) (new : List H.Node) : Prop where
  fresh : ∀ n ∈ new, n ∉ w.env.nodes
  nodup : new.Nodup
  gone : ∃ l, l.Nodup ∧ (∀ n ∈ l, n ∈ w.env.nodes) ∧
    w'.env.disposed = w.env.disposed ++ l ∧
    ∀ n, n ∈ w'.env.nodes ↔ n ∈ new ∨ n ∈ w.env.nodes ∧ n ∉ l

namespace Turnover

variable {w w' : HeapWorld H} {new : List H.Node}

theorem count (h : Turnover w w' new) (n : H.Node) :
    new.count n + (w.env.disposed.count n + if n ∈ w.env.nodes then 1 else 0) =
      w'.env.disposed.count n + if n ∈ w'.env.nodes then 1 else 0 := by
  obtain ⟨l, hnodup, hold, hdisposed, hnodes⟩ := h.gone
  rw [hdisposed, List.count_append, List.Nodup.count h.nodup, List.Nodup.count hnodup]
  have hfresh := h.fresh n
  have hn := hold n
  simp only [hnodes]
  by_cases hnew : n ∈ new <;> by_cases hl : n ∈ l <;> by_cases hw : n ∈ w.env.nodes <;>
    simp_all
  all_goals omega

theorem card (h : Turnover w w' new) :
    w'.env.nodes.card ≤ w.env.nodes.card + new.length := by
  obtain ⟨l, -, -, -, hnodes⟩ := h.gone
  have hsubset : w'.env.nodes ⊆ w.env.nodes ∪ new.toFinset := by
    intro n hn
    rw [Finset.mem_union, List.mem_toFinset]
    exact ((hnodes n).mp hn).symm.imp And.left id
  calc w'.env.nodes.card ≤ (w.env.nodes ∪ new.toFinset).card := Finset.card_le_card hsubset
    _ ≤ w.env.nodes.card + new.toFinset.card := Finset.card_union_le _ _
    _ ≤ w.env.nodes.card + new.length := by
      have := List.toFinset_card_le new
      omega

end Turnover

theorem HandedOver.turnover {w w' : HeapWorld H} {target : Owner H → Owner H}
    {gone : H.Node → Prop} (h : HandedOver w w' target gone)
    (hgone : ∀ n, gone n → n ∈ w.env.nodes) : Turnover w w' [] := by
  obtain ⟨l, hnodup, hl, hdisposed⟩ := h.disposed
  refine ⟨by simp, List.nodup_nil, l, hnodup, fun n hn => hgone n ((hl n).mp hn),
    hdisposed, fun n => ?_⟩
  rw [h.nodes, hl]
  simp

theorem Adopted.turnover {w w' : HeapWorld H} {o : Owner H} {n : H.Node}
    (h : Adopted w w' o n) (hw : w.Forest) : Turnover w w' [n] := by
  obtain ⟨l, hnodup, hl, hdisposed⟩ := h.disposed
  refine ⟨by simpa using h.fresh, List.nodup_singleton n, l, hnodup, fun x hx => ?_,
    hdisposed, fun x => ?_⟩
  · obtain ⟨_, howned⟩ := ((hl x).mp hx).owned
    exact hw.allocated howned
  · rw [h.nodes, hl, List.mem_singleton]

namespace HeapOp

variable {w w' : HeapWorld H} {op : HeapOp H} {this other : Owner H} {fuel : Nat}

structure Effect (op : HeapOp H) (w w' : HeapWorld H) : Prop where
  turnover : Turnover w w' op.created
  noLeak : op.Apart w → w'.NoLeak

theorem ready_of_exec (hw : w.Forest) (hexec : op.exec fuel w = some w') : op.Ready w := by
  have hptr : ∀ {op : PtrOp H.pointers} {w w' : HeapWorld H},
      op.exec (defaultDelete fuel) w = some w' → op.base.inLifetime w = true := by
    intro op w w' hexec
    obtain ⟨-, hbase⟩ := Option.ite_none_right_eq_some.mp hexec
    exact (Op.exec_eq_some_iff.mp hbase).1
  have hnew : ∀ {n : H.Node} {op : PtrOp H.pointers},
      (newNode n w).bind (op.exec (defaultDelete fuel)) = some w' →
      n ∉ w.env.nodes ∧ op.base.inLifetime (w.withNode n) = true := by
    intro n op hbind
    obtain ⟨w₁, hfirst, hrest⟩ := Option.bind_eq_some_iff.mp hbind
    obtain ⟨hn, rfl⟩ := (World.newNode_eq_some_iff hw).mp hfirst
    exact ⟨hn, hptr hrest⟩
  cases op with
  | construct this => simpa [Ready, PtrOp.base, Op.inLifetime] using hptr hexec
  | makeUnique this n =>
      obtain ⟨hn, hlive⟩ := hnew hexec
      exact ⟨by simpa [PtrOp.base, Op.inLifetime, World.withNode] using hlive, hn⟩
  | moveConstruct this other => simpa [Ready, PtrOp.base, Op.inLifetime] using hptr hexec
  | moveAssign this other => simpa [Ready, PtrOp.base, Op.inLifetime] using hptr hexec
  | swap this rhs => simpa [Ready, PtrOp.base, Op.inLifetime] using hptr hexec
  | resetNew this n =>
      obtain ⟨hlive, hbind⟩ := Option.ite_none_right_eq_some.mp hexec
      exact ⟨hlive, (hnew hbind).1⟩
  | resetNullptr this => exact hptr hexec
  | assignNullptr this => exact hptr hexec
  | destroy this => exact hptr hexec

theorem exists_effect (hw : w.NoLeak) (hready : op.Ready w) :
    ∃ w', (∀ fuel, w.env.nodes.card < fuel → op.exec fuel w = some w') ∧
      op.Effect w w' := by
  have hforest := hw.forest
  have hallocated : ∀ o n, w.Reaches o n → n ∈ w.env.nodes := by
    intro o n hreach
    obtain ⟨_, howned⟩ := hreach.owned
    exact hforest.allocated howned
  -- an operation that moves no node to another owner
  have hstay : ∀ {w'} {gone : H.Node → Prop}, op.created = [] → HandedOver w w' id gone →
      (∀ n, gone n → n ∈ w.env.nodes) → op.Effect w w' := by
    intro w' gone hcreated h hgone
    exact ⟨hcreated ▸ h.turnover hgone, fun _ => h.noLeak hw fun hne => absurd rfl hne⟩
  cases op with
  | construct this =>
      obtain ⟨w', hrun, h⟩ := construct_handedOver hready
      exact ⟨w', fun fuel _ => hrun fuel, hstay rfl h fun _ => False.elim⟩
  | makeUnique this n =>
      obtain ⟨w', hrun, h⟩ := makeUnique_adopted hforest hready.1 hready.2
      exact ⟨w', fun fuel _ => hrun fuel, h.turnover hforest, fun _ =>
        h.noLeak hw (HeapShape.root_notMem_members this)⟩
  | moveConstruct this other =>
      obtain ⟨w', hrun, h⟩ := moveConstruct_handedOver hready.1 hready.2
      refine ⟨w', fun fuel _ => hrun fuel, h.turnover fun _ => False.elim, fun _ =>
        h.noLeak hw fun {p p'} hp _ n hmem => ?_⟩
      by_cases heq : p = other
      · rw [if_pos heq] at hmem
        exact absurd hmem (HeapShape.root_notMem_members this)
      · exact absurd (if_neg heq) hp
  | moveAssign this other =>
      obtain ⟨w', hrun, h⟩ := moveAssign_handedOver hforest hready.1 hready.2
      refine ⟨w', fun fuel hfuel => hrun fuel hfuel.le, h.turnover fun n hn => ?_,
        fun hapart => h.noLeak hw fun {p p'} hp hp' => ?_⟩
      · obtain ⟨_, howned⟩ := hn.owned
        exact hforest.allocated (owns_of_cut howned)
      · have hmoved : ∀ p, (if p = other then this else p) ≠ p → p = other := by
          intro p hne
          by_contra heq
          exact hne (if_neg heq)
        obtain rfl := hmoved p hp
        obtain rfl := hmoved p' hp'
        rw [if_pos rfl]
        exact hapart
  | swap this rhs =>
      obtain ⟨w', hrun, h⟩ := swap_handedOver hready.1 hready.2
      refine ⟨w', fun fuel _ => hrun fuel, h.turnover fun _ => False.elim,
        fun hapart => h.noLeak hw fun {p p'} hp hp' => ?_⟩
      have hself : ∀ o, w.Apart o o := fun o n hmem => hforest.forest.not_reaches_home hmem
      have hmoved : ∀ p, Equiv.swap this rhs p ≠ p → p = this ∨ p = rhs := by
        intro p hne
        by_contra hother
        obtain ⟨hthis, hrhs⟩ := not_or.mp hother
        exact hne (Equiv.swap_apply_of_ne_of_ne hthis hrhs)
      rcases hmoved p hp with rfl | rfl <;> rcases hmoved p' hp' with rfl | rfl
      · rw [Equiv.swap_apply_left]
        exact hapart.2
      · rw [Equiv.swap_apply_left]
        exact hself _
      · rw [Equiv.swap_apply_right]
        exact hself _
      · rw [Equiv.swap_apply_right]
        exact hapart.1
  | resetNew this n =>
      obtain ⟨w', hrun, h⟩ := resetNew_adopted hforest hready.1 hready.2
      refine ⟨w', hrun, h.turnover hforest, fun _ => h.noLeak hw fun hmem => ?_⟩
      have hdead := hforest.member_dead hready.2 hmem
      exact Bool.false_ne_true (hdead.symm.trans hready.1)
  | resetNullptr this =>
      obtain ⟨w', hrun, h⟩ := reset_handedOver hforest hready (.inl rfl)
      exact ⟨w', fun fuel hfuel => hrun fuel hfuel.le, hstay rfl h (hallocated this)⟩
  | assignNullptr this =>
      obtain ⟨w', hrun, h⟩ := reset_handedOver hforest hready (.inr rfl)
      exact ⟨w', fun fuel hfuel => hrun fuel hfuel.le, hstay rfl h (hallocated this)⟩
  | destroy this =>
      obtain ⟨w', hrun, h⟩ := destroy_handedOver hforest hready
      exact ⟨w', fun fuel hfuel => hrun fuel hfuel.le, hstay rfl h (hallocated _)⟩

theorem effect_of_exec (hw : w.NoLeak) (hexec : op.exec fuel w = some w') :
    op.Effect w w' := by
  obtain ⟨w₁, hrun, heffect⟩ := exists_effect hw (ready_of_exec hw.forest hexec)
  have hmore := exec_mono (le_max_left fuel (w.env.nodes.card + 1)) hexec
  have hsame := hrun _ (Nat.lt_of_succ_le (le_max_right fuel (w.env.nodes.card + 1)))
  obtain rfl := Option.some.inj (hmore.symm.trans hsame)
  exact heffect

theorem moveAssign_lost_iff (hw : w.NoLeak) {home : H.Node} (hmem : this ∈ H.members home)
    (hhome : w.Reaches other home)
    (hexec : (HeapOp.moveAssign this other).exec fuel w = some w') {n : H.Node} :
    (n ∈ w'.env.nodes ∧ ∀ r, ¬ w'.Reaches (.root r) n) ↔
      w.Reaches other n ∧ ¬ w.Reaches this n := by
  have hforest := hw.forest
  obtain ⟨hthis, hother⟩ := ready_of_exec hforest hexec
  have hmore := exec_mono (le_max_left fuel w.env.nodes.card) hexec
  obtain ⟨w₁, hrun, h⟩ := moveAssign_handedOver hforest hthis hother
  obtain rfl := Option.some.inj (hmore.symm.trans (hrun _ (le_max_right fuel _)))
  have hfixed : ∀ p, p ≠ other → p ≠ this → (if p = other then this else p) = p :=
    fun p hne _ => if_neg hne
  have hgone : ∀ n, H.layout.Reaches (Function.update w.owns other none) this n ↔
      w.Reaches this n := fun n => Layout.reaches_cut_of_below hforest.forest hmem hhome
  constructor
  · rintro ⟨hn, hlost⟩
    refine ⟨?_, fun hthis => ((h.nodes n).mp hn).2 ((hgone n).mpr hthis)⟩
    by_contra hnot
    obtain ⟨r, hreach⟩ := h.reachable_of_not_below hw hfixed (fun n => (hgone n).mp) hmem
      hhome ((h.nodes n).mp hn).1 hnot
    exact hlost r hreach
  · rintro ⟨hother, hthis⟩
    exact h.unreachable hw (if_pos rfl) hfixed (fun n => (hgone n).mp) hmem hhome hother
      hthis

theorem swap_lost_iff (hw : w.NoLeak) {home : H.Node} (hmem : this ∈ H.members home)
    (hhome : w.Reaches other home) (hop : op = .swap this other ∨ op = .swap other this)
    (hexec : op.exec fuel w = some w') {n : H.Node} :
    (n ∈ w'.env.nodes ∧ ∀ r, ¬ w'.Reaches (.root r) n) ↔
      w.Reaches other n ∧ ¬ w.Reaches this n := by
  have hready := ready_of_exec hw.forest hexec
  have hswap : ∃ w₁, op.exec fuel w = some w₁ ∧
      HandedOver w w₁ (Equiv.swap this other) fun _ => False := by
    rcases hop with rfl | rfl
    · obtain ⟨w₁, hrun, h⟩ := swap_handedOver hready.1 hready.2
      exact ⟨w₁, hrun _, h⟩
    · obtain ⟨w₁, hrun, h⟩ := swap_handedOver hready.1 hready.2
      exact ⟨w₁, hrun _, Equiv.swap_comm this other ▸ h⟩
  obtain ⟨w₁, hrun, h⟩ := hswap
  obtain rfl := Option.some.inj (hexec.symm.trans hrun)
  have hfixed : ∀ p, p ≠ other → p ≠ this → Equiv.swap this other p = p :=
    fun p hother hthis => Equiv.swap_apply_of_ne_of_ne hthis hother
  have hgone : ∀ n : H.Node, False → w.Reaches this n := fun _ => False.elim
  constructor
  · rintro ⟨hn, hlost⟩
    constructor
    · by_contra hnot
      obtain ⟨r, hreach⟩ := h.reachable_of_not_below hw hfixed hgone hmem hhome
        ((h.nodes n).mp hn).1 hnot
      exact hlost r hreach
    · intro hthis
      obtain ⟨r, hreach⟩ := h.reachable_of_exchange hw hfixed hgone hmem hhome
        (Equiv.swap_apply_left this other) (fun _ => id) hthis
      exact hlost r hreach
  · rintro ⟨hother, hthis⟩
    exact h.unreachable hw (Equiv.swap_apply_right this other) hfixed hgone hmem hhome
      hother hthis

/-- The nodes that a program loses by handing `this` what it is below of. -/
theorem lost_iff (hw : w.NoLeak) {home : H.Node} (hmem : this ∈ H.members home)
    (hhome : w.Reaches other home)
    (hop : op = .moveAssign this other ∨ op = .swap this other ∨ op = .swap other this)
    (hexec : op.exec fuel w = some w') {n : H.Node} :
    (n ∈ w'.env.nodes ∧ ∀ r, ¬ w'.Reaches (.root r) n) ↔
      w.Reaches other n ∧ ¬ w.Reaches this n := by
  rcases hop with rfl | hop
  · exact moveAssign_lost_iff hw hmem hhome hexec
  · exact swap_lost_iff hw hmem hhome hop hexec

theorem noLeak_iff_apart (hw : w.NoLeak) (hexec : op.exec fuel w = some w') :
    w'.NoLeak ↔ op.Apart w := by
  refine ⟨fun hafter => ?_, (effect_of_exec hw hexec).noLeak⟩
  have hapart : ∀ this other, (op = .moveAssign this other ∨ op = .swap this other ∨
      op = .swap other this) → w.Apart this other := by
    intro this other hop home hmem hhome
    have hreaches := And.intro hhome (hw.forest.forest.not_reaches_home hmem)
    have hlost : home ∈ w'.env.nodes ∧ ∀ r, ¬ w'.Reaches (.root r) home := by
      rcases hop with rfl | hop
      · exact (moveAssign_lost_iff hw hmem hhome hexec).mpr hreaches
      · exact (swap_lost_iff hw hmem hhome hop hexec).mpr hreaches
    obtain ⟨r, hreach⟩ := hafter.rooted hlost.1
    exact hlost.2 r hreach
  cases op with
  | moveAssign this other => exact hapart this other (.inl rfl)
  | swap this rhs => exact ⟨hapart this rhs (.inr (.inl rfl)), hapart rhs this (.inr (.inr rfl))⟩
  | construct => trivial
  | makeUnique => trivial
  | moveConstruct => trivial
  | resetNew => trivial
  | resetNullptr => trivial
  | assignNullptr => trivial
  | destroy => trivial

end HeapOp

/-! ## Runs -/

section Runs

variable {w w' : HeapWorld H} {ops : List (HeapOp H)} {fuel : Nat}

structure World.Untouched (w : HeapWorld H) : Prop where
  live : ∀ o, w.live ⟨(), o⟩ = false
  nodes : w.env.nodes = ∅
  disposed : w.env.disposed = []

theorem World.Untouched.noLeak (h : w.Untouched) : w.NoLeak := by
  have hnone : w.owns = fun _ => none := funext fun o => owns_of_dead (h.live o)
  have hchild : ∀ a b, ¬ H.layout.Child w.owns a b := by
    rintro a b ⟨o, -, ho⟩
    simp [hnone] at ho
  refine ⟨⟨⟨?_, ?_⟩, ?_, ?_⟩, ?_⟩
  · intro o o' n ho
    simp [hnone] at ho
  · intro n hcycle
    obtain ⟨c, hfirst, -⟩ := Relation.TransGen.head'_iff.mp hcycle
    exact hchild n c hfirst
  · intro o n ho
    simp [hnone] at ho
  · intro n k
    simp [h.live, h.nodes]
  · simp [h.nodes]

theorem World.NoLeak.run (hw : w.NoLeak) (hrun : run (HeapOp.exec fuel) ops w = some w')
    (hapart : Along (HeapOp.exec fuel) (fun op w => op.Apart w) ops w) : w'.NoLeak :=
  run_preserves_along (fun _ _ _ hw hop hexec => (HeapOp.effect_of_exec hw hexec).noLeak hop)
    hw hapart hrun

theorem count_run (hw : w.NoLeak) (hrun : run (HeapOp.exec fuel) ops w = some w')
    (hapart : Along (HeapOp.exec fuel) (fun op w => op.Apart w) ops w) (n : H.Node) :
    (ops.flatMap HeapOp.created).count n +
        (w.env.disposed.count n + if n ∈ w.env.nodes then 1 else 0) =
      w'.env.disposed.count n + if n ∈ w'.env.nodes then 1 else 0 := by
  induction ops generalizing w with
  | nil =>
      obtain rfl := Option.some.inj hrun
      simp
  | cons op ops ih =>
      obtain ⟨w₁, hexec, hrest⟩ := run_cons_eq_some_iff.mp hrun
      have heffect := HeapOp.effect_of_exec hw hexec
      have hfirst := heffect.turnover.count n
      have hlater := ih (heffect.noLeak hapart.1) hrest (hapart.2 w₁ hexec)
      rw [List.flatMap_cons, List.count_append]
      omega

/-- A run is free of leaks throughout exactly if no step closes a circle. -/
theorem noLeak_throughout_iff (hstart : w.Untouched)
    (hrun : run (HeapOp.exec fuel) ops w = some w') :
    Along (HeapOp.exec fuel) (fun op w => op.Apart w) ops w ↔
      ∀ before after w₁, before ++ after = ops →
        run (HeapOp.exec fuel) before w = some w₁ → w₁.NoLeak :=
  along_iff_invariant (fun _ _ _ hw hexec => HeapOp.noLeak_iff_apart hw hexec)
    hstart.noLeak hrun

/--
In every program that gives no owner a node it is below of, each node has one
owner, can be reached from a variable, and has been disposed as often as it was
created before.  When the variables own nothing, nothing is left.
-/
theorem heap_accounted (hstart : w.Untouched)
    (hrun : run (HeapOp.exec fuel) ops w = some w')
    (hapart : Along (HeapOp.exec fuel) (fun op w => op.Apart w) ops w) :
    (∀ n ∈ w'.env.nodes, (∃! o, w'.owns o = some n) ∧ ∃ r, w'.Reaches (.root r) n) ∧
    (∀ n, (ops.flatMap HeapOp.created).count n =
      w'.env.disposed.count n + if n ∈ w'.env.nodes then 1 else 0) ∧
    ((∀ r, w'.owns (.root r) = none) →
      w'.env.nodes = ∅ ∧ w'.env.disposed.Perm (ops.flatMap HeapOp.created)) := by
  have hnoLeak := hstart.noLeak.run hrun hapart
  have hcount : ∀ n, (ops.flatMap HeapOp.created).count n =
      w'.env.disposed.count n + if n ∈ w'.env.nodes then 1 else 0 := by
    intro n
    have hcount := count_run hstart.noLeak hrun hapart n
    rwa [hstart.disposed, hstart.nodes, List.count_nil, if_neg (Finset.notMem_empty n)]
      at hcount
  refine ⟨fun n hn => ⟨?_, hnoLeak.rooted hn⟩, hcount, fun hnull => ?_⟩
  · obtain ⟨o, ho⟩ := hnoLeak.owned n hn
    exact ⟨o, ho, fun o' ho' => hnoLeak.forest.forest.unique ho' ho⟩
  · have hempty : w'.env.nodes = ∅ := by
      rw [Finset.eq_empty_iff_forall_notMem]
      intro n hn
      obtain ⟨r, hreach⟩ := hnoLeak.rooted hn
      exact not_reaches_of_null (hnull r) n hreach
    refine ⟨hempty, List.perm_iff_count.mpr fun n => ?_⟩
    rw [hcount n, hempty, if_neg (Finset.notMem_empty n), Nat.add_zero]

/--
A program whose operands exist is never stuck: no deletion meets memory that is
not allocated, and destructors nest no deeper than the program is long.
-/
theorem heap_returns (hstart : w.Untouched) (hfuel : ops.length ≤ fuel)
    (hlegal : Along (HeapOp.exec fuel) (fun op w => op.Ready w ∧ op.Apart w) ops w) :
    ∃ w', run (HeapOp.exec fuel) ops w = some w' := by
  have hmain : ∀ {ops : List (HeapOp H)} {w : HeapWorld H}, w.NoLeak →
      w.env.nodes.card + ops.length ≤ fuel →
      Along (HeapOp.exec fuel) (fun op w => op.Ready w ∧ op.Apart w) ops w →
      ∃ w', run (HeapOp.exec fuel) ops w = some w' := by
    intro ops
    induction ops with
    | nil => exact fun {w} _ _ _ => ⟨w, rfl⟩
    | cons op ops ih =>
        intro w hw hfuel hlegal
        rw [List.length_cons] at hfuel
        obtain ⟨w₁, hexec, heffect⟩ := HeapOp.exists_effect hw hlegal.1.1
        have hfirst := hexec fuel (by omega)
        have hcreated : op.created.length ≤ 1 := by cases op <;> simp [HeapOp.created]
        have hcard := heffect.turnover.card
        obtain ⟨w', hrest⟩ := ih (heffect.noLeak hlegal.1.2) (by omega)
          (hlegal.2 w₁ hfirst)
        exact ⟨w', run_cons_eq_some_iff.mpr ⟨w₁, hfirst, hrest⟩⟩
  exact hmain hstart.noLeak (by simpa [hstart.nodes] using hfuel) hlegal

/-! ## A list and a circle -/

theorem untouched_emptyHeap : (emptyHeap H).Untouched := ⟨fun _ => rfl, rfl, rfl⟩

def listProgram : List (HeapOp listShape) :=
  [.makeUnique () (0 : Nat), .resetNew (.member (0 : Nat) 0) (1 : Nat),
    .resetNew (.member (1 : Nat) 0) (2 : Nat),
    .moveAssign (.root ()) (.member (0 : Nat) 0), .destroy ()]

theorem apart_listProgram (w : HeapWorld listShape) :
    Along (HeapOp.exec 5) (fun op w => op.Apart w) listProgram w := by
  refine along_of_forall_mem fun op hop w => ?_
  simp only [listProgram, List.mem_cons, List.not_mem_nil, or_false] at hop
  rcases hop with rfl | rfl | rfl | rfl | rfl
  · trivial
  · trivial
  · trivial
  · exact fun n hmem => absurd hmem (@HeapShape.root_notMem_members listShape n ())
  · trivial

theorem heap_accounted_listProgram :
    ∃ w', run (HeapOp.exec 5) listProgram (emptyHeap listShape) = some w' ∧
      w'.env.nodes = ∅ ∧ w'.env.disposed.Perm [(0 : Nat), (1 : Nat), (2 : Nat)] := by
  obtain ⟨w', hrun⟩ := Option.isSome_iff_exists.mp
    (show (run (HeapOp.exec 5) listProgram (emptyHeap listShape)).isSome from rfl)
  obtain ⟨-, -, hnothing⟩ := heap_accounted untouched_emptyHeap hrun (apart_listProgram _)
  have hdead : (run (HeapOp.exec 5) listProgram (emptyHeap listShape)).map
      (fun w => w.live ⟨(), Owner.root ()⟩) = some false := rfl
  rw [hrun, Option.map_some, Option.some.injEq] at hdead
  exact ⟨w', hrun, hnothing fun _ => owns_of_dead hdead⟩

theorem heap_returns_listProgram :
    ∃ w', run (HeapOp.exec 2) [.makeUnique () (0 : Nat), .destroy ()]
      (emptyHeap listShape) = some w' := by
  apply heap_returns untouched_emptyHeap (Nat.le_refl 2)
  refine ⟨⟨⟨rfl, Finset.notMem_empty _⟩, trivial⟩, fun w hexec => ⟨⟨?_, trivial⟩, fun _ _ => trivial⟩⟩
  have hlive : ((HeapOp.makeUnique () (0 : Nat)).exec 2 (emptyHeap listShape)).map
      (fun w => w.live ⟨(), Owner.root ()⟩) = some true := rfl
  rwa [hexec, Option.map_some, Option.some.injEq] at hlive

def circleProgram : List (HeapOp listShape) :=
  [.makeUnique () (0 : Nat), .moveAssign (.member (0 : Nat) 0) (.root ())]

theorem noLeak_throughout_iff_circleProgram :
    ¬ ∀ before after w₁, before ++ after = circleProgram →
      run (HeapOp.exec 2) before (emptyHeap listShape) = some w₁ → w₁.NoLeak := by
  obtain ⟨w', hrun⟩ := Option.isSome_iff_exists.mp
    (show (run (HeapOp.exec 2) circleProgram (emptyHeap listShape)).isSome from rfl)
  rw [← noLeak_throughout_iff untouched_emptyHeap hrun]
  rintro ⟨-, hrest⟩
  have hapart := (hrest _ rfl).1
  exact hapart (0 : Nat) (HeapShape.mem_members.mpr ⟨0, Nat.one_pos, rfl⟩)
    ⟨(0 : Nat), rfl, .refl⟩

theorem lost_iff_circleProgram :
    ∃ w', run (HeapOp.exec 2) circleProgram (emptyHeap listShape) = some w' ∧
      (0 : Nat) ∈ w'.env.nodes ∧ ∀ r, ¬ w'.Reaches (.root r) (0 : Nat) := by
  obtain ⟨w', hrun⟩ := Option.isSome_iff_exists.mp
    (show (run (HeapOp.exec 2) circleProgram (emptyHeap listShape)).isSome from rfl)
  obtain ⟨w₁, hfirst, hrest⟩ := run_cons_eq_some_iff.mp hrun
  obtain ⟨w₂, hmove, hlast⟩ := run_cons_eq_some_iff.mp hrest
  obtain rfl := Option.some.inj hlast
  have hnode : ((HeapOp.makeUnique () (0 : Nat)).exec 2 (emptyHeap listShape)).map
      (fun w => (w.owns (.root ()), w.owns (.member (0 : Nat) 0))) =
        some (some (0 : Nat), none) := rfl
  rw [hfirst, Option.map_some, Option.some.injEq, Prod.mk.injEq] at hnode
  have hw := (HeapOp.effect_of_exec untouched_emptyHeap.noLeak hfirst).noLeak trivial
  refine ⟨w₂, hrun, (HeapOp.lost_iff hw (HeapShape.mem_members.mpr ⟨0, Nat.one_pos, rfl⟩)
    ⟨(0 : Nat), hnode.1, .refl⟩ (.inl rfl) hmove).mpr ⟨⟨(0 : Nat), hnode.1, .refl⟩, ?_⟩⟩
  exact not_reaches_of_null hnode.2 _

end Runs

end Raii
