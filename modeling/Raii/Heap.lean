import Raii.Foundation.Forest
import Raii.Foundation.Run
import Raii.UniquePtr

/-!
# Nodes that own nodes

Resources that hold `unique_ptr` members themselves, with `default_delete`.  To
delete a node is to destroy its members, which may delete further nodes; the
recursion is cut off by a number, and answers `none` when that is used up or
when memory is deleted that is not allocated.
-/

namespace Raii

open Foundation

/-- The node objects of a program; `arity` counts the `unique_ptr` members of one. -/
structure HeapShape where
  Node : Type
  Root : Type
  arity : Node → Nat
  [decEqNode : DecidableEq Node]
  [decEqRoot : DecidableEq Root]

attribute [instance] HeapShape.decEqNode HeapShape.decEqRoot

/-- A `unique_ptr`: a variable outside the heap, or the k-th member of a node. -/
inductive Owner (H : HeapShape) where
  | root (r : H.Root)
  | member (n : H.Node) (k : Nat)
  deriving DecidableEq

/-- The nodes that are allocated, and those that have been deleted, oldest first. -/
structure Memory (H : HeapShape) where
  nodes : Finset H.Node
  disposed : List H.Node

namespace HeapShape

variable (H : HeapShape)

abbrev pointers : PtrSignature where
  Kind := Unit
  Name := Owner H
  Deleter := Unit
  Pointer _ := Option H.Node
  isArray _ := false
  defaultDeleter _ := some ()
  convertPointer _ _ := none
  convertArray _ _ := false
  convertDeleter _ _ := none
  assignDeleter _ _ := none
  nullable _ := ⟨none⟩

/-- Members are destroyed in the reverse of the order they are declared in. -/
def members (n : H.Node) : List (Owner H) :=
  ((List.range (H.arity n)).map (Owner.member n)).reverse

variable {H}

theorem mem_members {n : H.Node} {o : Owner H} :
    o ∈ H.members n ↔ ∃ k < H.arity n, o = .member n k := by
  simp [members, eq_comm]

@[simp] theorem root_notMem_members {n : H.Node} (r : H.Root) : .root r ∉ H.members n := by
  simp [mem_members]

variable (H) in
def layout : Layout (Owner H) H.Node where
  members := H.members
  nodup n := by
    rw [members, List.nodup_reverse]
    exact List.nodup_range.map fun _ _ h => (Owner.member.inj h).2
  home := by
    intro o a b ha hb
    obtain ⟨k, -, rfl⟩ := mem_members.mp ha
    obtain ⟨k', -, heq⟩ := mem_members.mp hb
    exact (Owner.member.inj heq).1

end HeapShape

abbrev HeapWorld (H : HeapShape) := World H.pointers.signature (Memory H)

namespace World

variable {H : HeapShape}

def free (n : H.Node) (w : HeapWorld H) : HeapWorld H :=
  w.setEnv ⟨w.env.nodes.erase n, w.env.disposed ++ [n]⟩

end World

def defaultDelete {H : HeapShape} : Nat → DeleterCall H.pointers.signature (Memory H)
  | 0, _, _, _, _ => none
  | _ + 1, _, _, none, w => some w
  | fuel + 1, _, _, some n, w =>
      if n ∈ w.env.nodes then
        (run (fun o => (PtrOp.destroy ⟨(), o⟩).exec (defaultDelete fuel))
          (H.members n) w).map (World.free n)
      else none

namespace World

variable {H : HeapShape}

def owns (w : HeapWorld H) (o : Owner H) : Option H.Node :=
  if w.live ⟨(), o⟩ then w.getHandle ⟨(), o⟩ else none

/--
Nodes have at most one owner and are not below themselves.  Owned nodes are
allocated, and the members that exist are those of allocated nodes.
-/
structure Forest (w : HeapWorld H) : Prop where
  forest : H.layout.IsForest w.owns
  allocated : ∀ {o n}, w.owns o = some n → n ∈ w.env.nodes
  members : ∀ n k, w.live ⟨(), .member n k⟩ = true ↔ n ∈ w.env.nodes ∧ k < H.arity n

theorem objects_eq (w : HeapWorld H) (obj : Obj H.pointers.signature) :
    w.objects obj = ⟨w.getHandle obj, .value ()⟩ := by
  rw [getHandle]
  cases w.objects obj with
  | mk hnd del =>
      cases del with
      | value => rfl
      | reference cell => exact cell.elim

theorem heap_ext {w w' : HeapWorld H} (hlive : ∀ o, w.live ⟨(), o⟩ = w'.live ⟨(), o⟩)
    (hhandle : ∀ o, w.getHandle ⟨(), o⟩ = w'.getHandle ⟨(), o⟩) (henv : w.env = w'.env) :
    w = w' := by
  have hlives : w.live = w'.live := funext fun obj => hlive obj.name
  have hobjects : w.objects = w'.objects := by
    funext obj
    rw [objects_eq, objects_eq, show w.getHandle obj = w'.getHandle obj from hhandle obj.name]
  cases w
  cases w'
  simp only [mk.injEq]
  exact ⟨hlives, hobjects, funext fun cell => cell.elim, henv⟩

/-! ## Tearing down -/

def touched (os : List (Owner H)) (l : List H.Node) : List (Owner H) :=
  os ++ l.flatMap H.members

def teardown (os : List (Owner H)) (l : List H.Node) (w : HeapWorld H) :
    HeapWorld H where
  live obj := w.live obj && obj.name ∉ touched os l
  objects obj :=
    if obj.name ∈ touched os l then ⟨none, .value ()⟩ else w.objects obj
  cells := w.cells
  env := ⟨w.env.nodes \ l.toFinset, w.env.disposed ++ l⟩

@[simp] theorem mem_touched {os : List (Owner H)} {l : List H.Node} {o : Owner H} :
    o ∈ touched os l ↔ o ∈ os ∨ ∃ n ∈ l, o ∈ H.members n := by
  simp [touched]

section Teardown

variable (os : List (Owner H)) (l : List H.Node) (w : HeapWorld H)

@[simp] theorem live_teardown (o : Owner H) :
    (w.teardown os l).live ⟨(), o⟩ = (w.live ⟨(), o⟩ && o ∉ touched os l) := rfl

@[simp] theorem getHandle_teardown (o : Owner H) :
    (w.teardown os l).getHandle ⟨(), o⟩ =
      if o ∈ touched os l then none else w.getHandle ⟨(), o⟩ := by
  simp only [getHandle, teardown]
  split <;> rfl

@[simp] theorem env_teardown :
    (w.teardown os l).env = ⟨w.env.nodes \ l.toFinset, w.env.disposed ++ l⟩ := rfl

@[simp] theorem teardown_nil : w.teardown [] [] = w := by
  apply heap_ext <;> simp

theorem teardown_teardown (os' : List (Owner H)) (l' : List H.Node) :
    (w.teardown os l).teardown os' l' = w.teardown (os ++ os') (l ++ l') := by
  have hmem : ∀ o, o ∈ touched (os ++ os') (l ++ l') ↔
      o ∈ touched os l ∨ o ∈ touched os' l' := by
    intro o
    simp only [mem_touched, List.mem_append, or_and_right, exists_or]
    exact or_or_or_comm
  apply heap_ext
  · intro o
    simp only [live_teardown, hmem, not_or, Bool.decide_and, Bool.and_assoc]
  · intro o
    simp only [getHandle_teardown, hmem]
    by_cases h : o ∈ touched os l <;> simp [h]
  · simp [sdiff_sdiff_left]

end Teardown

structure Ready (w : HeapWorld H) (os : List (Owner H)) (l : List H.Node) : Prop where
  live : ∀ o ∈ touched os l, w.live ⟨(), o⟩ = true
  allocated : ∀ n ∈ l, n ∈ w.env.nodes
  nodup : l.Nodup
  apart : (touched os l).Nodup

theorem touched_inner {o : Owner H} {os : List (Owner H)} {n : H.Node}
    {below l : List H.Node} (o' : Owner H) (ho' : o' ∈ touched (H.members n) below) :
    o' ∈ touched (o :: os) (below ++ n :: l) := by
  simp only [mem_touched] at ho' ⊢
  right
  cases ho' with
  | inl hmem => exact ⟨n, by simp, hmem⟩
  | inr hmem =>
      obtain ⟨a, ha, hmem⟩ := hmem
      exact ⟨a, by simp [ha], hmem⟩

theorem Ready.inner {w : HeapWorld H} {o : Owner H} {os : List (Owner H)} {n : H.Node}
    {below l : List H.Node} (h : w.Ready (o :: os) (below ++ n :: l)) :
    w.Ready (H.members n) below where
  live o' ho' := h.live o' (touched_inner o' ho')
  allocated a ha := h.allocated a (by simp [ha])
  nodup := (List.nodup_append.mp h.nodup).1
  apart := by
    have happart := h.apart
    simp only [touched, List.flatMap_append, List.flatMap_cons] at happart ⊢
    have hinner := (List.nodup_append.mp happart).2.1
    rw [← List.append_assoc] at hinner
    exact List.nodup_append_comm.mp (List.nodup_append.mp hinner).1

theorem touched_perm (o : Owner H) (os : List (Owner H)) (first l : List H.Node) :
    (touched [o] first ++ touched os l).Perm (touched (o :: os) (first ++ l)) := by
  simp only [touched, List.flatMap_append, List.cons_append, List.nil_append]
  refine .cons o ?_
  rw [← List.append_assoc, ← List.append_assoc]
  exact .append_right _ List.perm_append_comm

theorem Ready.fresh {w : HeapWorld H} {o : Owner H} {os : List (Owner H)}
    {first l : List H.Node} (h : w.Ready (o :: os) (first ++ l)) {o' : Owner H}
    (ho' : o' ∈ touched os l) : o' ∉ touched [o] first := by
  have hdisjoint := List.nodup_append.mp ((touched_perm o os first l).nodup_iff.mpr h.apart)
  exact fun hfirst => hdisjoint.2.2 o' hfirst o' ho' rfl

theorem Ready.rest {w : HeapWorld H} {o : Owner H} {os : List (Owner H)}
    {first l : List H.Node} (h : w.Ready (o :: os) (first ++ l)) :
    (w.teardown [o] first).Ready os l where
  live o' ho' := by
    have hlive := h.live o' ((touched_perm o os first l).mem_iff.mp
      (List.mem_append_right _ ho'))
    simpa [hlive] using h.fresh ho'
  allocated n hn := by
    have hnode := h.allocated n (List.mem_append_right _ hn)
    have hnot : n ∉ first := fun hfirst => (List.nodup_append.mp h.nodup).2.2 n hfirst n hn rfl
    simp [hnode, hnot]
  nodup := (List.nodup_append.mp h.nodup).2.1
  apart := (List.nodup_append.mp
    ((touched_perm o os first l).nodup_iff.mpr h.apart)).2.1

theorem Ready.same {w : HeapWorld H} {owned : Owner H → Option H.Node} {o : Owner H}
    {os : List (Owner H)} {first l : List H.Node} (h : w.Ready (o :: os) (first ++ l))
    (hsame : ∀ o' ∈ touched (o :: os) (first ++ l), w.getHandle ⟨(), o'⟩ = owned o') :
    ∀ o' ∈ touched os l, (w.teardown [o] first).getHandle ⟨(), o'⟩ = owned o' := by
  intro o' ho'
  rw [getHandle_teardown, if_neg (h.fresh ho')]
  exact hsame o' ((touched_perm o os first l).mem_iff.mp (List.mem_append_right _ ho'))

/-! ## The recursion through the heap -/

variable {w : HeapWorld H} {o : Owner H} {n : H.Node}

theorem isOwned_none : H.pointers.signature.isOwned () none = false := by
  simp [toBool, Nullable.null]

theorem isOwned_some (n : H.Node) : H.pointers.signature.isOwned () (some n) = true := by
  simp [toBool, Nullable.null]

theorem exec_destroy_of_null (call : DeleterCall H.pointers.signature (Memory H))
    (hlive : w.live ⟨(), o⟩ = true) (hnull : w.getHandle ⟨(), o⟩ = none) :
    (PtrOp.destroy ⟨(), o⟩).exec call w = some (w.teardown [o] []) := by
  have hdestroy : (PtrOp.destroy ⟨(), o⟩).exec call w = UniqueRc.destroy call ⟨(), o⟩ w :=
    if_pos hlive
  rw [hdestroy, UniqueRc.destroy_of_not_owned call (by rw [hnull]; exact isOwned_none)]
  congr 1
  apply heap_ext
  · intro o'
    by_cases h : o' = o <;> simp [h]
  · intro o'
    by_cases h : o' = o
    · subst h
      simp [hnull]
    · simp [h]
  · simp

theorem exec_destroy_of_node {call : DeleterCall H.pointers.signature (Memory H)}
    {l : List H.Node} (hlive : w.live ⟨(), o⟩ = true)
    (hnode : w.getHandle ⟨(), o⟩ = some n)
    (hcall : call ⟨(), o⟩ () (some n) w = some (w.teardown [] l)) :
    (PtrOp.destroy ⟨(), o⟩).exec call w = some (w.teardown [o] l) := by
  have hdestroy : (PtrOp.destroy ⟨(), o⟩).exec call w = UniqueRc.destroy call ⟨(), o⟩ w :=
    if_pos hlive
  rw [hdestroy, UniqueRc.destroy_of_copied call (by rw [hnode]; exact isOwned_some n) rfl, hnode,
    show w.getDeleter ⟨(), o⟩ = () from rfl, hcall, Option.map_some]
  congr 1
  apply heap_ext
  · intro o'
    by_cases h : o' = o <;> simp [h]
  · intro o'
    by_cases h : o' = o
    · subst h
      simp [Nullable.null]
    · simp [h]
  · simp

theorem defaultDelete_of_run {fuel : Nat} {below : List H.Node}
    (this : Obj H.pointers.signature) (hnode : n ∈ w.env.nodes)
    (hrun : run (fun o => (PtrOp.destroy ⟨(), o⟩).exec (defaultDelete fuel))
      (H.members n) w = some (w.teardown (H.members n) below)) :
    defaultDelete (fuel + 1) this () (some n) w = some (w.teardown [] (below ++ [n])) := by
  rw [defaultDelete, if_pos hnode, hrun, Option.map_some]
  congr 1
  apply heap_ext
  · intro o'
    simp [free, or_comm]
  · intro o'
    simp [free, or_comm]
  · simp [free, Finset.sdiff_insert]

/-- Destroying the owners of a list deletes the nodes below them, in postorder. -/
theorem run_destroy {owned : Owner H → Option H.Node} {os : List (Owner H)}
    {l : List H.Node} (hpost : H.layout.Postorder owned os l) {w : HeapWorld H}
    (hready : w.Ready os l)
    (hsame : ∀ o ∈ touched os l, w.getHandle ⟨(), o⟩ = owned o) {fuel : Nat}
    (hfuel : l.length ≤ fuel) :
    run (fun o => (PtrOp.destroy ⟨(), o⟩).exec (defaultDelete fuel)) os w =
      some (w.teardown os l) := by
  induction hpost generalizing w fuel with
  | nil => simp
  | @null o os l hnull rest ih =>
      have hlive := hready.live o (by simp)
      have hdestroy := exec_destroy_of_null (defaultDelete fuel) hlive
        ((hsame o (by simp)).trans hnull)
      have hready' : w.Ready (o :: os) ([] ++ l) := hready
      rw [run, hdestroy, Option.bind_some, ih hready'.rest (hready'.same hsame) hfuel,
        teardown_teardown]
      rfl
  | @node o os n below l hnode inner rest ihInner ihRest =>
      have hlive := hready.live o (by simp)
      have hlength : below.length + 1 + l.length ≤ fuel := by
        simpa [Nat.add_assoc, Nat.add_comm l.length] using hfuel
      cases fuel with
      | zero => omega
      | succ fuel =>
          have hmembers : ∀ o' ∈ touched (H.members n) below,
              w.getHandle ⟨(), o'⟩ = owned o' := by
            intro o' ho'
            exact hsame o' (touched_inner o' ho')
          have hinner := ihInner hready.inner hmembers (show below.length ≤ fuel by omega)
          have hcall := defaultDelete_of_run ⟨(), o⟩ (hready.allocated n (by simp)) hinner
          have hdestroy := exec_destroy_of_node hlive
            ((hsame o (by simp)).trans hnode) hcall
          rw [List.append_cons] at hready hsame ⊢
          rw [run, hdestroy, Option.bind_some,
            ihRest hready.rest (hready.same hsame) (by omega), teardown_teardown]
          rfl

end World

end Raii
