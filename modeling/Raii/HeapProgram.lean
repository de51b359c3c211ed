import Mathlib.Logic.Equiv.Basic
import Raii.Handover

/-!
# Programs over a heap of nodes

Nodes come from `make_unique` and from `reset(new Node)`; they are moved and
exchanged between owners anywhere in the heap, and disposed when an owner is
reset or destroyed.  Raw pointers are not kept.
-/

namespace Raii

open Foundation

variable {H : HeapShape}

/-- `new Node{}`: the members are default constructed, in the order of declaration. -/
def newNode (n : H.Node) (w : HeapWorld H) : Option (HeapWorld H) :=
  if n ∈ w.env.nodes then none
  else
    (run (fun o => (PtrOp.construct ⟨(), o⟩).exec (defaultDelete 0))
      (H.members n).reverse w).map fun w =>
        w.setEnv ⟨insert n w.env.nodes, w.env.disposed⟩

/-- An operation; `n` is the address that `new` returns. -/
inductive HeapOp (H : HeapShape) where
  | construct (this : H.Root)
  | makeUnique (this : H.Root) (n : H.Node)
  | moveConstruct (this : H.Root) (other : Owner H)
  | moveAssign (this other : Owner H)
  | swap (this rhs : Owner H)
  | resetNew (this : Owner H) (n : H.Node)
  | resetNullptr (this : Owner H)
  | assignNullptr (this : Owner H)
  | destroy (this : H.Root)

namespace HeapOp

def exec (fuel : Nat) : HeapOp H → HeapWorld H → Option (HeapWorld H)
  | .construct this, w =>
      (PtrOp.construct ⟨(), Owner.root this⟩).exec (defaultDelete fuel) w
  | .makeUnique this n, w => do
      let w ← newNode n w
      (PtrOp.constructPointer ⟨(), Owner.root this⟩ (some n)).exec (defaultDelete fuel) w
  | .moveConstruct this other, w =>
      (PtrOp.moveConstruct () (Owner.root this) other ()).exec (defaultDelete fuel) w
  | .moveAssign this other, w =>
      (PtrOp.moveAssign () this other ()).exec (defaultDelete fuel) w
  | .swap this rhs, w => (PtrOp.swap () this rhs).exec (defaultDelete fuel) w
  | .resetNew this n, w =>
      -- the owner exists before the new node does
      if w.live ⟨(), this⟩ then do
        let w ← newNode n w
        (PtrOp.reset ⟨(), this⟩ (some n)).exec (defaultDelete fuel) w
      else none
  | .resetNullptr this, w => (PtrOp.resetNullptr ⟨(), this⟩).exec (defaultDelete fuel) w
  | .assignNullptr this, w => (PtrOp.assignNullptr ⟨(), this⟩).exec (defaultDelete fuel) w
  | .destroy this, w => (PtrOp.destroy ⟨(), Owner.root this⟩).exec (defaultDelete fuel) w

def created : HeapOp H → List H.Node
  | .makeUnique _ n => [n]
  | .resetNew _ n => [n]
  | _ => []

def Ready (w : HeapWorld H) : HeapOp H → Prop
  | .construct this => w.live ⟨(), .root this⟩ = false
  | .makeUnique this n => w.live ⟨(), .root this⟩ = false ∧ n ∉ w.env.nodes
  | .moveConstruct this other =>
      w.live ⟨(), .root this⟩ = false ∧ w.live ⟨(), other⟩ = true
  | .moveAssign this other => w.live ⟨(), this⟩ = true ∧ w.live ⟨(), other⟩ = true
  | .swap this rhs => w.live ⟨(), this⟩ = true ∧ w.live ⟨(), rhs⟩ = true
  | .resetNew this n => w.live ⟨(), this⟩ = true ∧ n ∉ w.env.nodes
  | .resetNullptr this => w.live ⟨(), this⟩ = true
  | .assignNullptr this => w.live ⟨(), this⟩ = true
  | .destroy this => w.live ⟨(), .root this⟩ = true

def Apart (w : HeapWorld H) : HeapOp H → Prop
  | .moveAssign this other => w.Apart this other
  | .swap this rhs => w.Apart this rhs ∧ w.Apart rhs this
  | _ => True

end HeapOp

def emptyHeap (H : HeapShape) : HeapWorld H where
  live _ := false
  objects _ := ⟨none, .value ()⟩
  cells := Empty.elim
  env := ⟨∅, []⟩

/-! ## A new node -/

namespace World

def build (os : List (Owner H)) (w : HeapWorld H) : HeapWorld H where
  live obj := os.contains obj.name || w.live obj
  objects obj := if os.contains obj.name then ⟨none, .value ()⟩ else w.objects obj
  cells := w.cells
  env := w.env

section Build

variable (os : List (Owner H)) (w : HeapWorld H)

@[simp] theorem live_build (o : Owner H) :
    (w.build os).live ⟨(), o⟩ = (os.contains o || w.live ⟨(), o⟩) := rfl

@[simp] theorem getHandle_build (o : Owner H) :
    (w.build os).getHandle ⟨(), o⟩ =
      if os.contains o then none else w.getHandle ⟨(), o⟩ := by
  simp only [getHandle, build]
  split <;> rfl

@[simp] theorem env_build : (w.build os).env = w.env := rfl

end Build

theorem run_construct {os : List (Owner H)} {w : HeapWorld H} (hnodup : os.Nodup)
    (hdead : ∀ o ∈ os, w.live ⟨(), o⟩ = false) :
    run (fun o => (PtrOp.construct ⟨(), o⟩).exec (defaultDelete 0)) os w =
      some (w.build os) := by
  induction os generalizing w with
  | nil =>
      rw [run_nil, Option.some.injEq]
      apply heap_ext <;> simp
  | cons o os ih =>
      obtain ⟨hnot, hnodup⟩ := List.nodup_cons.mp hnodup
      have hexec : (PtrOp.construct ⟨(), o⟩).exec (defaultDelete 0) w =
          some (w.construct ⟨(), o⟩ ⟨none, .value ()⟩) := by
        have hlive := hdead o List.mem_cons_self
        simp only [PtrOp.exec, PtrOp.accepted, PtrOp.base, if_true]
        exact if_pos (by simp [Op.inLifetime, hlive])
      have hrest : ∀ o' ∈ os,
          (w.construct ⟨(), o⟩ ⟨none, .value ()⟩).live ⟨(), o'⟩ = false := by
        intro o' ho'
        have hne : o' ≠ o := fun heq => hnot (heq ▸ ho')
        rw [live_construct, Function.update_of_ne (by simpa using hne)]
        exact hdead o' (List.mem_cons_of_mem _ ho')
      rw [run, hexec, Option.bind_some, ih hnodup hrest, Option.some.injEq]
      apply heap_ext
      · intro o'
        by_cases heq : o' = o <;> simp [heq]
      · intro o'
        by_cases heq : o' = o <;> simp [heq]
      · rfl

def withNode (n : H.Node) (w : HeapWorld H) : HeapWorld H :=
  (w.build (H.members n)).setEnv ⟨insert n w.env.nodes, w.env.disposed⟩

variable {w w' : HeapWorld H} {n : H.Node}

theorem Forest.member_dead (hw : w.Forest) (hn : n ∉ w.env.nodes) {o : Owner H}
    (ho : o ∈ H.members n) : w.live ⟨(), o⟩ = false := by
  obtain ⟨k, -, rfl⟩ := HeapShape.mem_members.mp ho
  by_contra hlive
  exact hn ((hw.members n k).mp (by simpa using hlive)).1

theorem newNode_eq_some_iff (hw : w.Forest) :
    newNode n w = some w' ↔ n ∉ w.env.nodes ∧ w' = w.withNode n := by
  by_cases hn : n ∈ w.env.nodes
  · simp [newNode, hn]
  · have hnodup : (H.members n).reverse.Nodup := List.nodup_reverse.mpr (H.layout.nodup n)
    have hbuild : w.build (H.members n).reverse = w.build (H.members n) := by
      apply heap_ext <;> simp
    rw [newNode, if_neg hn, run_construct hnodup fun o ho =>
      hw.member_dead hn (List.mem_reverse.mp ho), hbuild, Option.map_some,
      Option.some.injEq]
    exact ⟨fun h => ⟨hn, h.symm⟩, fun h => h.2.symm⟩

theorem owns_withNode (hw : w.Forest) (hn : n ∉ w.env.nodes) :
    (w.withNode n).owns = w.owns := by
  funext o
  by_cases ho : o ∈ H.members n
  · rw [owns_of_dead (hw.member_dead hn ho)]
    simp [owns, withNode, ho]
  · simp [owns, withNode, ho]

theorem forest_withNode (hw : w.Forest) (hn : n ∉ w.env.nodes) :
    (w.withNode n).Forest where
  forest := owns_withNode hw hn ▸ hw.forest
  allocated := by
    intro o x ho
    rw [owns_withNode hw hn] at ho
    exact Finset.mem_insert_of_mem (hw.allocated ho)
  members x k := by
    have hmember : Owner.member x k ∈ H.members n ↔ x = n ∧ k < H.arity n := by
      rw [HeapShape.mem_members]
      constructor
      · rintro ⟨k', hk', heq⟩
        obtain ⟨rfl, rfl⟩ := Owner.member.inj heq
        exact ⟨rfl, hk'⟩
      · rintro ⟨rfl, hk⟩
        exact ⟨k, hk, rfl⟩
    simp only [withNode, live_setEnv, live_build, env_setEnv, Finset.mem_insert]
    by_cases hx : x = n
    · subst hx
      have hlive := hw.members x k
      simp only [hn, false_and, iff_false] at hlive
      simp [hmember, hlive]
    · simp [hmember, hx, hw.members]

end World

/-! ## What is left after a teardown -/

section Teardown

variable {w : HeapWorld H} {owned : Owner H → Option H.Node} {this : Owner H}
  {os : List (Owner H)} {l : List H.Node}

theorem World.owns_teardown (os : List (Owner H)) (l : List H.Node) (w : HeapWorld H)
    (o : Owner H) :
    (w.teardown os l).owns o = if o ∈ World.touched os l then none else w.owns o := by
  by_cases ho : o ∈ World.touched os l <;>
    simp only [World.owns, World.live_teardown, World.getHandle_teardown, ho,
      not_true_eq_false, not_false_eq_true, decide_true, decide_false, Bool.and_true,
      Bool.and_false, Bool.false_eq_true, if_true, if_false]

theorem not_reaches_of_cut (hw : w.Forest) {other o : Owner H} {n : H.Node}
    (hn : w.owns other = some n) :
    ¬ H.layout.Reaches (Function.update w.owns other none) o n := by
  intro hreach
  obtain ⟨p, hp⟩ := hreach.owned
  obtain rfl := hw.forest.unique (owns_of_cut hp) hn
  simp at hp

theorem owns_torn (hw : w.Forest)
    (hle : ∀ {o n}, owned o = some n → w.owns o = some n)
    (hos : ∀ o ∈ os, o = this) (hl : ∀ n, n ∈ l ↔ H.layout.Reaches owned this n)
    {w₂ : HeapWorld H} (hw₂ : ∀ o, o ≠ this → w₂.owns o = owned o) {o : Owner H}
    (hne : o ≠ this) {n : H.Node} :
    (w₂.teardown os l).owns o = some n ↔
      owned o = some n ∧ ¬ H.layout.Reaches owned this n := by
  rw [World.owns_teardown, hw₂ o hne]
  by_cases ho : o ∈ World.touched os l
  · rw [if_pos ho]
    have hgone : owned o = some n → H.layout.Reaches owned this n := by
      intro howns
      rcases World.mem_touched.mp ho with hmem | ⟨a, ha, hmem⟩
      · exact absurd (hos o hmem) hne
      · exact ((hl a).mp ha).child ⟨o, hmem, howns⟩
    simpa using hgone
  · rw [if_neg ho]
    refine ⟨fun howns => ⟨howns, fun hreach => ?_⟩, And.left⟩
    cases hreach.owner with
    | inl htop => exact hne ((hw.restrict hle).unique howns htop)
    | inr hparent =>
        obtain ⟨a, ha, o', hmem, ho'⟩ := hparent
        obtain rfl := (hw.restrict hle).unique howns ho'
        exact ho (World.mem_touched.mpr (.inr ⟨a, (hl a).mpr ha, hmem⟩))

theorem owns_torn_self (hw : w.Forest)
    (hle : ∀ {o n}, owned o = some n → w.owns o = some n)
    (hl : ∀ n, n ∈ l ↔ H.layout.Reaches owned this n) (w₂ : HeapWorld H) :
    (w₂.teardown [] l).owns this = w₂.owns this := by
  rw [World.owns_teardown, if_neg]
  intro ho
  rcases World.mem_touched.mp ho with hmem | ⟨a, ha, hmem⟩
  · exact absurd hmem List.not_mem_nil
  · exact (hw.restrict hle).not_reaches_home hmem ((hl a).mp ha)

theorem live_torn (hw : w.Forest) (hos : ∀ n k, Owner.member n k ∉ os)
    (w₂ : HeapWorld H) (hlive : ∀ o, w₂.live ⟨(), o⟩ = w.live ⟨(), o⟩) (n : H.Node)
    (k : Nat) :
    (w₂.teardown os l).live ⟨(), .member n k⟩ = true ↔
      w.live ⟨(), .member n k⟩ = true ∧ n ∉ l := by
  rw [World.live_teardown, hlive, Bool.and_eq_true, decide_eq_true_eq]
  refine and_congr_right fun hk => not_congr ?_
  rw [World.mem_touched, or_iff_right (hos n k)]
  constructor
  · rintro ⟨a, ha, hmem⟩
    obtain ⟨k', -, heq⟩ := HeapShape.mem_members.mp hmem
    exact (Owner.member.inj heq).1 ▸ ha
  · intro hn
    exact ⟨n, hn, HeapShape.mem_members.mpr ⟨k, ((hw.members n k).mp hk).2, rfl⟩⟩

theorem handedOver_of_teardown (hw : w.Forest) (hos : ∀ n k, Owner.member n k ∉ os)
    (hnodup : l.Nodup) {gone : H.Node → Prop} (hl : ∀ n, n ∈ l ↔ gone n)
    (w₂ : HeapWorld H) (hlive : ∀ o, w₂.live ⟨(), o⟩ = w.live ⟨(), o⟩)
    (henv : w₂.env = w.env) {target : Owner H → Owner H}
    (howns : ∀ o n, (w₂.teardown os l).owns o = some n ↔
      ∃ p, w.owns p = some n ∧ ¬ gone n ∧ o = target p) :
    HandedOver w (w₂.teardown os l) target gone where
  disposed := ⟨l, hnodup, hl, by simp [henv]⟩
  nodes n := by simp [henv, hl]
  live n k := by rw [live_torn hw hos w₂ hlive, hl]
  owns := howns

end Teardown

/-! ## What the operations do -/

namespace HeapOp

variable {w w' : HeapWorld H} {this other : Owner H} {r : H.Root} {n : H.Node}

theorem moveAssign_handedOver (hw : w.Forest) (hthis : w.live ⟨(), this⟩ = true)
    (hother : w.live ⟨(), other⟩ = true) :
    ∃ w', (∀ fuel, w.env.nodes.card ≤ fuel →
        (moveAssign this other).exec fuel w = some w') ∧
      HandedOver w w' (fun p => if p = other then this else p)
        (H.layout.Reaches (Function.update w.owns other none) this) := by
  have hexec : ∀ fuel, (moveAssign this other).exec fuel w =
      UniqueRcHolderImpl.moveAssign (defaultDelete fuel) () this other () w := by
    intro fuel
    exact if_pos (by simp [PtrOp.base, Op.inLifetime, hthis, hother])
  have hle : ∀ {o n}, Function.update w.owns other none o = some n → w.owns o = some n :=
    owns_of_cut
  have hreset : ∃ l, l.Nodup ∧
      (∀ x, x ∈ l ↔ H.layout.Reaches (Function.update w.owns other none) this x) ∧
      ∀ fuel, w.env.nodes.card ≤ fuel →
        UniqueRcHolderImpl.reset (defaultDelete fuel) ⟨(), this⟩ (w.getHandle ⟨(), other⟩)
            (w.setHandle ⟨(), other⟩ none) =
          some (((w.setHandle ⟨(), other⟩ none).setHandle ⟨(), this⟩
            (w.getHandle ⟨(), other⟩)).teardown [] l) := by
    by_cases heq : this = other
    · subst heq
      refine ⟨[], List.nodup_nil, fun x => ?_, fun fuel _ => ?_⟩
      · simp [Layout.not_reaches_of_null (Function.update_self this none w.owns)]
      · rw [World.teardown_nil]
        apply UniqueRcHolderImpl.reset_of_not_owned
        rw [World.getHandle_setHandle, Function.update_self]
        exact World.isOwned_none
    · have hne : (⟨(), this⟩ : Obj H.pointers.signature) ≠ ⟨(), other⟩ := by simpa using heq
      refine reset_owner hw hle ?_ (w.setHandle ⟨(), other⟩ none) (fun _ => rfl) rfl ?_ ?_ _
      · rw [Function.update_of_ne heq, owns_of_live hthis]
      · intro a ha o ho
        obtain ⟨_, howned⟩ := ha.owned
        exact getHandle_cut other (hw.live_member (hw.allocated (hle howned)) ho)
      · rw [World.getHandle_setHandle, Function.update_of_ne hne]
  obtain ⟨l, hnodup, hl, hrun⟩ := hreset
  have hrest : ∀ o, o ≠ this → World.owns ((w.setHandle ⟨(), other⟩ none).setHandle
      ⟨(), this⟩ (w.getHandle ⟨(), other⟩)) o = Function.update w.owns other none o := by
    intro o hne
    have hne' : (⟨(), o⟩ : Obj H.pointers.signature) ≠ ⟨(), this⟩ := by simpa using hne
    simp only [World.owns, World.live_setHandle, World.getHandle_setHandle,
      Function.update_of_ne hne']
    by_cases hoo : o = other
    · subst hoo
      simp
    · rw [Function.update_of_ne (by simpa using hoo), Function.update_of_ne hoo]
      rfl
  refine ⟨_, fun fuel hfuel => ?_, handedOver_of_teardown hw (fun _ _ => List.not_mem_nil)
    hnodup hl ((w.setHandle ⟨(), other⟩ none).setHandle ⟨(), this⟩
      (w.getHandle ⟨(), other⟩)) (fun _ => rfl) rfl fun o n => ?_⟩
  · rw [hexec]
    exact (UniqueRcHolderImpl.moveAssign_eq_some_iff _).mpr
      ⟨_, hrun fuel hfuel, (assignDeleter_eq _ _ ()).symm⟩
  · by_cases ho : o = this
    · subst ho
      rw [owns_torn_self hw hle hl, owns_of_live (by simpa using hthis),
        World.getHandle_setHandle, Function.update_self, ← owns_of_live hother]
      constructor
      · intro hn
        exact ⟨other, hn, not_reaches_of_cut hw hn, by simp⟩
      · rintro ⟨p, hp, hkept, heq⟩
        by_cases hpo : p = other
        · exact hpo ▸ hp
        · rw [if_neg hpo] at heq
          subst heq
          refine absurd ⟨n, ?_, .refl⟩ hkept
          rwa [Function.update_of_ne hpo]
    · rw [owns_torn hw hle (by simp) hl hrest ho]
      constructor
      · rintro ⟨howned, hkept⟩
        have hoo : o ≠ other := by
          rintro rfl
          simp at howned
        exact ⟨o, hle howned, hkept, by rw [if_neg hoo]⟩
      · rintro ⟨p, hp, hkept, heq⟩
        by_cases hpo : p = other
        · exact absurd (by simpa [hpo] using heq) ho
        · rw [if_neg hpo] at heq
          subst heq
          exact ⟨by rwa [Function.update_of_ne hpo], hkept⟩

theorem reset_handedOver (hw : w.Forest) (hthis : w.live ⟨(), this⟩ = true)
    {op : HeapOp H} (hop : op = .resetNullptr this ∨ op = .assignNullptr this) :
    ∃ w', (∀ fuel, w.env.nodes.card ≤ fuel → op.exec fuel w = some w') ∧
      HandedOver w w' id (w.Reaches this) := by
  have hexec : ∀ fuel, op.exec fuel w =
      UniqueRcHolderImpl.reset (defaultDelete fuel) ⟨(), this⟩ none w := by
    intro fuel
    rcases hop with rfl | rfl <;> exact if_pos hthis
  obtain ⟨l, hnodup, hl, hrun⟩ := reset_owner hw (fun h => h) (owns_of_live hthis) w
    (fun _ => rfl) rfl (fun a ha o ho => by
      obtain ⟨_, howned⟩ := ha.owned
      exact (owns_of_live (hw.live_member (hw.allocated howned) ho)).symm) rfl none
  refine ⟨_, fun fuel hfuel => (hexec fuel).trans (hrun fuel hfuel),
    handedOver_of_teardown hw (fun _ _ => List.not_mem_nil) hnodup hl
      (w.setHandle ⟨(), this⟩ none) (fun _ => rfl) rfl fun o n => ?_⟩
  by_cases ho : o = this
  · subst ho
    rw [owns_torn_self hw (fun h => h) hl, owns_of_live (by simpa using hthis),
      World.getHandle_setHandle, Function.update_self]
    simp only [reduceCtorEq, false_iff]
    rintro ⟨p, hp, hkept, heq⟩
    obtain rfl : o = p := heq
    exact hkept ⟨n, hp, .refl⟩
  · rw [owns_torn hw (fun h => h) (by simp) hl (fun o' hne => ?_) ho]
    · simp only [id, exists_eq_right_right']
    · have hne' : (⟨(), o'⟩ : Obj H.pointers.signature) ≠ ⟨(), this⟩ := by simpa using hne
      simp only [World.owns, World.live_setHandle, World.getHandle_setHandle,
        Function.update_of_ne hne']

theorem destroy_handedOver (hw : w.Forest) (hr : w.live ⟨(), .root r⟩ = true) :
    ∃ w', (∀ fuel, w.env.nodes.card ≤ fuel → (destroy r).exec fuel w = some w') ∧
      HandedOver w w' id (w.Reaches (.root r)) := by
  obtain ⟨l, hnodup, hl, hrun⟩ := destroy_root hw hr
  refine ⟨_, hrun, handedOver_of_teardown hw (by simp) hnodup hl w (fun _ => rfl) rfl
    fun o n => ?_⟩
  by_cases ho : o = .root r
  · subst ho
    rw [World.owns_teardown, if_pos (by simp)]
    simp only [reduceCtorEq, false_iff]
    rintro ⟨p, hp, hkept, heq⟩
    obtain rfl : .root r = p := heq
    exact hkept ⟨n, hp, .refl⟩
  · rw [owns_torn hw (fun h => h) (by simp) hl (fun _ _ => rfl) ho]
    simp only [id, exists_eq_right_right']
    exact Iff.rfl

theorem owns_congr (w : HeapWorld H) {o : Owner H} (hlive : w'.live ⟨(), o⟩ = w.live ⟨(), o⟩)
    (hhandle : w'.getHandle ⟨(), o⟩ = w.getHandle ⟨(), o⟩) : w'.owns o = w.owns o := by
  simp only [World.owns, hlive, hhandle]

theorem handedOver_of_owns {target : Owner H → Owner H}
    (henv : w'.env = w.env)
    (hlive : ∀ n k, w'.live ⟨(), .member n k⟩ = w.live ⟨(), .member n k⟩)
    (howns : ∀ o n, w'.owns o = some n ↔ ∃ p, w.owns p = some n ∧ o = target p) :
    HandedOver w w' target fun _ => False where
  disposed := ⟨[], List.nodup_nil, by simp, by simp [henv]⟩
  nodes n := by simp [henv]
  live n k := by simp [hlive]
  owns o n := by simp [howns]

theorem construct_handedOver (hr : w.live ⟨(), .root r⟩ = false) :
    ∃ w', (∀ fuel, (construct r).exec fuel w = some w') ∧
      HandedOver w w' id fun _ => False := by
  refine ⟨w.construct ⟨(), .root r⟩ ⟨none, .value ()⟩, fun fuel => ?_,
    handedOver_of_owns rfl (fun n k => by simp) fun o n => ?_⟩
  · simp only [exec, PtrOp.exec, PtrOp.accepted, PtrOp.base, if_true]
    exact if_pos (by simp [Op.inLifetime, hr])
  · simp only [id, exists_eq_right']
    by_cases ho : o = .root r
    · subst ho
      rw [owns_of_dead hr, owns_of_live (by simp)]
      simp
    · rw [owns_congr w (by simp [ho]) (by simp [ho])]

theorem moveConstruct_handedOver (hr : w.live ⟨(), .root r⟩ = false)
    (hother : w.live ⟨(), other⟩ = true) :
    ∃ w', (∀ fuel, (moveConstruct r other).exec fuel w = some w') ∧
      HandedOver w w' (fun p => if p = other then .root r else p) fun _ => False := by
  have hne : other ≠ .root r := by
    rintro rfl
    exact Bool.false_ne_true (hr.symm.trans hother)
  refine ⟨UniqueRcHolderImpl.moveConstruct () (Owner.root r) other () w, fun fuel => ?_,
    handedOver_of_owns (by simp) (fun n k => by simp) fun o n => ?_⟩
  · exact if_pos (by simp [PtrOp.base, Op.inLifetime, hr, hother])
  · have howns : World.owns (UniqueRcHolderImpl.moveConstruct () (Owner.root r) other () w) o =
        if o = .root r then w.owns other else if o = other then none else w.owns o := by
      by_cases ho : o = .root r
      · subst ho
        rw [if_pos rfl, owns_of_live hother, owns_of_live (by simp),
          UniqueRcHolderImpl.getHandle_moveConstruct,
          Function.update_of_ne (by simpa using hne.symm), Function.update_self]
      · rw [if_neg ho]
        by_cases hoo : o = other
        · subst hoo
          have hlive : (UniqueRcHolderImpl.moveConstruct () (Owner.root r) o () w).live
              ⟨(), o⟩ = true := by
            rw [UniqueRcHolderImpl.live_moveConstruct,
              Function.update_of_ne (by simpa using hne), hother]
          rw [if_pos rfl, owns_of_live hlive, UniqueRcHolderImpl.getHandle_moveConstruct,
            Function.update_self]
          rfl
        · rw [if_neg hoo, owns_congr w (by simp [ho]) (by
            simp [UniqueRcHolderImpl.getHandle_moveConstruct, ho, hoo])]
    rw [howns]
    by_cases ho : o = .root r
    · subst ho
      rw [if_pos rfl]
      constructor
      · intro hn
        exact ⟨other, hn, by simp⟩
      · rintro ⟨p, hp, heq⟩
        by_cases hpo : p = other
        · exact hpo ▸ hp
        · rw [if_neg hpo] at heq
          rw [← heq, owns_of_dead hr] at hp
          simp at hp
    · rw [if_neg ho]
      constructor
      · intro hn
        by_cases hoo : o = other
        · simp [hoo] at hn
        · rw [if_neg hoo] at hn
          exact ⟨o, hn, by rw [if_neg hoo]⟩
      · rintro ⟨p, hp, heq⟩
        by_cases hpo : p = other
        · exact absurd (by simpa [hpo] using heq) ho
        · rw [if_neg hpo] at heq
          rw [heq, if_neg hpo]
          exact hp

theorem swap_handedOver (hthis : w.live ⟨(), this⟩ = true)
    (hother : w.live ⟨(), other⟩ = true) :
    ∃ w', (∀ fuel, (swap this other).exec fuel w = some w') ∧
      HandedOver w w' (Equiv.swap this other) fun _ => False := by
  refine ⟨UniqueRcHolderImpl.swap () this other w, fun fuel => ?_,
    handedOver_of_owns (by simp) (fun n k => by simp) fun o n => ?_⟩
  · exact if_pos (by simp [PtrOp.base, Op.inLifetime, hthis, hother])
  · have howns : World.owns (UniqueRcHolderImpl.swap () this other w) o =
        w.owns (Equiv.swap this other o) := by
      by_cases hoo : o = other
      · subst hoo
        rw [Equiv.swap_apply_right, owns_of_live hthis, owns_of_live (by simpa using hother),
          UniqueRcHolderImpl.getHandle_swap, Function.update_self]
      · by_cases ho : o = this
        · subst ho
          rw [Equiv.swap_apply_left, owns_of_live hother, owns_of_live (by simpa using hthis),
            UniqueRcHolderImpl.getHandle_swap, Function.update_of_ne (by simpa using hoo),
            Function.update_self]
        · rw [Equiv.swap_apply_of_ne_of_ne ho hoo, owns_congr w (by simp) (by
            simp [UniqueRcHolderImpl.getHandle_swap, ho, hoo])]
    rw [howns]
    constructor
    · intro hn
      exact ⟨_, hn, by simp⟩
    · rintro ⟨p, hp, rfl⟩
      simpa using hp

theorem makeUnique_adopted (hw : w.Forest) (hr : w.live ⟨(), .root r⟩ = false)
    (hn : n ∉ w.env.nodes) :
    ∃ w', (∀ fuel, (makeUnique r n).exec fuel w = some w') ∧ Adopted w w' (.root r) n := by
  have hnew := (World.newNode_eq_some_iff hw).mpr ⟨hn, rfl⟩
  have hdead : (w.withNode n).live ⟨(), .root r⟩ = false := by simp [World.withNode, hr]
  have hnull := owns_of_dead hr
  have hforest := World.forest_withNode hw hn
  refine ⟨(w.withNode n).construct ⟨(), .root r⟩ ⟨some n, .value ()⟩, fun fuel => ?_, hn,
    ⟨[], List.nodup_nil, fun x => by simp [not_reaches_of_null hnull],
      (List.append_nil _).symm⟩,
    fun x => by simp [World.withNode, not_reaches_of_null hnull], fun x k => ?_,
    fun p x => ?_⟩
  · have hexec : (makeUnique r n).exec fuel w =
        (PtrOp.constructPointer ⟨(), Owner.root r⟩ (some n)).exec (defaultDelete fuel)
          (w.withNode n) := by
      rw [exec, hnew]
      rfl
    have hready : (!(w.withNode n).live ⟨(), .root r⟩) = true := by rw [hdead, Bool.not_false]
    rw [hexec]
    exact if_pos hready
  · rw [World.env_construct, ← hforest.members]
    simp
  · by_cases hp : p = .root r
    · subst hp
      rw [hnull, owns_of_live (by simp)]
      simp [eq_comm]
    · rw [owns_congr (w.withNode n) (by simp [hp]) (by simp [hp]), World.owns_withNode hw hn]
      simp [hp, not_reaches_of_null hnull]

theorem resetNew_adopted (hw : w.Forest) (hthis : w.live ⟨(), this⟩ = true)
    (hn : n ∉ w.env.nodes) :
    ∃ w', (∀ fuel, w.env.nodes.card < fuel → (resetNew this n).exec fuel w = some w') ∧
      Adopted w w' this n := by
  have hnew := (World.newNode_eq_some_iff hw).mpr ⟨hn, rfl⟩
  have hforest := World.forest_withNode hw hn
  have howns := World.owns_withNode hw hn
  have hlive : (w.withNode n).live ⟨(), this⟩ = true := by simp [World.withNode, hthis]
  obtain ⟨l, hnodup, hl, hrun⟩ := reset_owner hforest (fun h => h) (owns_of_live hlive)
    (w.withNode n) (fun _ => rfl) rfl (fun a ha o ho => by
      obtain ⟨_, howned⟩ := ha.owned
      exact (owns_of_live (hforest.live_member (hforest.allocated howned) ho)).symm) rfl
    (some n)
  rw [howns] at hl
  have hnot : ¬ w.Reaches this n := by
    intro hreach
    obtain ⟨_, howned⟩ := hreach.owned
    exact hn (hw.allocated howned)
  have hnodes : ∀ x, x ∈ (((w.withNode n).setHandle ⟨(), this⟩ (some n)).teardown []
      l).env.nodes ↔ x ∈ (w.withNode n).env.nodes ∧ ¬ w.Reaches this x := by
    intro x
    rw [World.env_teardown, Finset.mem_sdiff, List.mem_toFinset, hl]
    rfl
  refine ⟨((w.withNode n).setHandle ⟨(), this⟩ (some n)).teardown [] l, fun fuel hfuel => ?_,
    hn, ⟨l, hnodup, hl, rfl⟩, fun x => ?_, fun x k => ?_, fun p x => ?_⟩
  · have hcard : (w.withNode n).env.nodes.card ≤ fuel := by
      rw [World.withNode, World.env_setEnv, Finset.card_insert_of_notMem hn]
      omega
    have hexec : (resetNew this n).exec fuel w =
        (PtrOp.reset ⟨(), this⟩ (some n)).exec (defaultDelete fuel) (w.withNode n) := by
      rw [exec, if_pos hthis, hnew]
      rfl
    rw [hexec, ← hrun fuel hcard]
    exact if_pos hlive
  · rw [hnodes]
    simp only [World.withNode, World.env_setEnv, Finset.mem_insert]
    by_cases hx : x = n
    · subst hx
      simp [hnot]
    · simp [hx]
  · exact hforest.members_of_gone hnodes (fun x k => by
      rw [live_torn hforest (fun _ _ => List.not_mem_nil)
        ((w.withNode n).setHandle ⟨(), this⟩ (some n)) (fun _ => rfl), hl]
      rfl) x k
  · rw [← howns] at hl ⊢
    by_cases hp : p = this
    · subst hp
      rw [owns_torn_self hforest (fun h => h) hl, owns_of_live (by simpa using hlive),
        World.getHandle_setHandle, Function.update_self]
      have hgone : ¬ ((w.withNode n).owns p = some x ∧ ¬ w.Reaches p x) := by
        rw [howns]
        rintro ⟨hx, hkept⟩
        exact hkept ⟨x, hx, .refl⟩
      rw [or_iff_right hgone, Option.some.injEq]
      exact ⟨fun h => ⟨rfl, h.symm⟩, fun h => h.2.symm⟩
    · have hrest : ∀ o, o ≠ this → World.owns ((w.withNode n).setHandle ⟨(), this⟩ (some n)) o =
          (w.withNode n).owns o :=
        fun o hne => owns_congr (w.withNode n) rfl (by simp [hne])
      rw [owns_torn hforest (fun h => h) (by simp) hl hrest hp]
      simp [hp, World.Reaches, howns]

end HeapOp

end Raii
