import Raii.Foundation.Exclusive
import Raii.Foundation.Run

/-!
# Boxes

Owners that hold one resource at most, and the ways to pass resources between
them.  What a resource is, and how one is acquired, accessed and retired, is a
parameter.
-/

namespace Foundation

/-- `content` is `none` where there is no box, and `some none` for an empty one. -/
structure Boxes (O B σ : Type) where
  content : O → Option (Option B)
  state : σ

/-- The resources `B` of the owners `O`, next to a state they act on. -/
structure Resources (O N U B σ : Type) where
  acquire : O → N → σ → Option (B × σ)
  access : O → U → B → σ → Option (B × σ)
  retire : O → B → σ → Option σ

inductive Passing (O N : Type) where
  | create (x : O) (new : Option N)
  | createFrom (x y : O)
  | put (x : O) (new : Option N)
  | take (x y : O)
  | swap (x y : O)
  | release (x : O)
  | destroy (x : O)

variable {O N U A B σ : Type}

def Boxes.owns (content : O → Option (Option B)) (x : O) : Option B := (content x).join

namespace Passing

def box : Passing O N → O
  | create x _ => x
  | createFrom x _ => x
  | put x _ => x
  | take x _ => x
  | swap x _ => x
  | release x => x
  | destroy x => x

def new : Passing O N → Option N
  | create _ new => new
  | put _ new => new
  | _ => none

def admits (content : O → Option (Option B)) : Passing O N → Bool
  | create x _ => (content x).isNone
  | createFrom x y => (content x).isNone && (content y).isSome
  | put x _ => (content x).isSome
  | take x y => (content x).isSome && (content y).isSome
  | swap x y => (content x).isSome && (content y).isSome
  | release x => (content x).isSome
  | destroy x => (content x).isSome

/-- The resource that is retired.  A box that takes from itself keeps its own. -/
def old [DecidableEq O] (content : O → Option (Option B)) : Passing O N → Option B
  | put x _ => Boxes.owns content x
  | take x y => if x = y then none else Boxes.owns content x
  | destroy x => Boxes.owns content x
  | _ => none

def lost (content : O → Option (Option B)) : Passing O N → Option B
  | release x => Boxes.owns content x
  | _ => none

theorem owns_of_lost {content : O → Option (Option B)} {p : Passing O N} {b : B}
    (h : p.lost content = some b) : Boxes.owns content p.box = some b := by
  cases p with
  | release x => exact h
  | _ => cases h

def after [DecidableEq O] (b : Option B) (content : O → Option (Option B)) :
    Passing O N → O → Option (Option B)
  | create x _ => Function.update content x (some b)
  | createFrom x y => Function.update (Function.update content y (some none)) x (content y)
  | put x _ => Function.update content x (some b)
  | take x y => Function.update (Function.update content y (some none)) x (content y)
  | swap x y => Function.update (Function.update content x (content y)) y (content x)
  | release x => Function.update content x (some none)
  | destroy x => Function.update content x none

def map {M : Type} (f : N → M) : Passing O N → Passing O M
  | create x new => create x (new.map f)
  | createFrom x y => createFrom x y
  | put x new => put x (new.map f)
  | take x y => take x y
  | swap x y => swap x y
  | release x => release x
  | destroy x => destroy x

def Moves (x y : O) : Passing O N → Prop
  | createFrom a b => x = a ∧ y = b
  | take a b => x = a ∧ y = b
  | swap a b => (x = a ∧ y = b) ∨ (x = b ∧ y = a)
  | _ => False

section Map

variable {M : Type} (f : N → M) (p : Passing O N)

@[simp] theorem box_map : (p.map f).box = p.box := by
  cases p <;> rfl

@[simp] theorem new_map : (p.map f).new = p.new.map f := by
  cases p <;> rfl

@[simp] theorem admits_map (content : O → Option (Option B)) :
    (p.map f).admits content = p.admits content := by
  cases p <;> rfl

@[simp] theorem old_map [DecidableEq O] (content : O → Option (Option B)) :
    (p.map f).old content = p.old content := by
  cases p <;> rfl

@[simp] theorem after_map [DecidableEq O] (b : Option B) (content : O → Option (Option B)) :
    (p.map f).after b content = p.after b content := by
  cases p <;> rfl

end Map

end Passing

inductive BoxOp (O N U : Type) where
  | pass (p : Passing O N)
  | access (x : O) (u : U)

namespace BoxOp

def map {M : Type} (f : N → M) : BoxOp O N U → BoxOp O M U
  | pass p => pass (p.map f)
  | access x u => access x u

def new : BoxOp O N U → Option N
  | pass p => p.new
  | access _ _ => none

def lost (content : O → Option (Option B)) : BoxOp O N U → Option B
  | pass p => p.lost content
  | access _ _ => none

end BoxOp

namespace Resources

variable (L : Resources O N U B σ)

def supply (x : O) : Option N → σ → Option (Option B × σ)
  | none, s => some (none, s)
  | some new, s => (L.acquire x new s).map (Prod.map some id)

def settle (x : O) : Option B → σ → Option σ
  | none, s => some s
  | some b, s => L.retire x b s

variable {L}

theorem eq_none_of_supply {x : O} {s : σ} {p : Option B × σ}
    (h : L.supply x none s = some p) : p.1 = none := by
  obtain rfl := Option.some.inj h
  rfl

end Resources

/-- What is replaced is retired after its successor has been acquired. -/
def Passing.exec [DecidableEq O] (L : Resources O N U B σ) (p : Passing O N)
    (s : Boxes O B σ) : Option (Boxes O B σ) :=
  if p.admits s.content then do
    let (b, state) ← L.supply p.box p.new s.state
    let state ← L.settle p.box (p.old s.content) state
    some ⟨p.after b s.content, state⟩
  else none

def BoxOp.exec [DecidableEq O] (L : Resources O N U B σ) :
    BoxOp O N U → Boxes O B σ → Option (Boxes O B σ)
  | .pass p, s => p.exec L s
  | .access x u, s => do
      let b ← Boxes.owns s.content x
      let (b, state) ← L.access x u b s.state
      some ⟨Function.update s.content x (some (some b)), state⟩

/-! ## Who holds what -/

section Owners

variable [DecidableEq O] {content : O → Option (Option B)} {x y : O}

theorem owns_update (v : Option (Option B)) :
    Boxes.owns (Function.update content x v) =
      Function.update (Boxes.owns content) x v.join := by
  funext z
  by_cases hz : z = x
  · subst hz
    simp [Boxes.owns]
  · simp [Boxes.owns, hz]

theorem Passing.owns_of_old {p : Passing O N} {b : B}
    (h : p.old content = some b) : Boxes.owns content p.box = some b := by
  cases p with
  | put x _ => exact h
  | destroy x => exact h
  | take x y =>
      rw [Passing.old] at h
      split at h
      · cases h
      · exact h
  | _ => cases h

theorem Passing.old_of_lost {p : Passing O N} {b : B}
    (h : p.lost content = some b) : p.old content = none := by
  cases p with
  | release x => rfl
  | _ => cases h

theorem Passing.exec_eq_some_iff {L : Resources O N U B σ} {p : Passing O N}
    {s s' : Boxes O B σ} :
    p.exec L s = some s' ↔ p.admits s.content = true ∧ ∃ b t t',
      L.supply p.box p.new s.state = some (b, t) ∧
      L.settle p.box (p.old s.content) t = some t' ∧ s' = ⟨p.after b s.content, t'⟩ := by
  rw [Passing.exec, Option.ite_none_right_eq_some]
  simp only [Option.bind_eq_bind, Option.bind_eq_some_iff, Prod.exists, Option.some.injEq,
    eq_comm (b := s'), exists_and_left]

theorem Passing.exec_of_supply {L : Resources O N U B σ} {p : Passing O N} {s : Boxes O B σ}
    {b : Option B} {t : σ} (hsupply : L.supply p.box p.new s.state = some (b, t)) :
    p.exec L s =
      if p.admits s.content then
        (L.settle p.box (p.old s.content) t).map fun t => ⟨p.after b s.content, t⟩
      else none := by
  simp only [Passing.exec, hsupply, Option.bind_eq_bind, Option.bind_some]
  cases L.settle p.box (p.old s.content) t <;> rfl

theorem Passing.exec_destroy {L : Resources O N U B σ} {s : Boxes O B σ} {held : Option B}
    (h : s.content x = some held) :
    (destroy x).exec L s =
      (L.settle x held s.state).map fun t => ⟨Function.update s.content x none, t⟩ := by
  have hadmits : (destroy x : Passing O N).admits s.content = true := by
    simp [admits, h]
  have hold : (destroy x : Passing O N).old s.content = held := by
    simp [old, Boxes.owns, h]
  rw [exec_of_supply (b := none) rfl, if_pos hadmits, hold]
  rfl

theorem Passing.exec_of_supply_none {L : Resources O N U B σ} {p : Passing O N}
    {s : Boxes O B σ} (hsupply : L.supply p.box p.new s.state = none) : p.exec L s = none := by
  simp [Passing.exec, hsupply]

/--
Passing resources on keeps them in one hand each: those held before or new are
held afterwards, except for the one that is retired and the one that is lost.
-/
theorem Passing.exclusive_after {p : Passing O N} {there : B → Prop} {b : Option B}
    (hadmits : p.admits content = true) (h : Exclusive (Boxes.owns content) there)
    (hnone : p.new = none → b = none) (hfresh : ∀ r, b = some r → ¬ there r) :
    Exclusive (Boxes.owns (p.after b content)) fun r =>
      (there r ∧ some r ≠ p.old content ∧ some r ≠ p.lost content) ∨ some r = b := by
  cases p with
  | create x new =>
      have hx : Boxes.owns content x = none := by
        rw [Boxes.owns, Option.isNone_iff_eq_none.mp hadmits, Option.join_none]
      refine (h.install x hx hfresh).congr (owns_update _) fun r => ?_
      simp [old, lost]
  | createFrom x y =>
      obtain ⟨hx, hy⟩ := Bool.and_eq_true_iff.mp hadmits
      have hx : Boxes.owns content x = none := by
        rw [Boxes.owns, Option.isNone_iff_eq_none.mp hx, Option.join_none]
      refine (h.handOver x y).congr ?_ fun r => ?_
      · rw [after, owns_update, owns_update]
        rfl
      · simp [old, lost, hnone rfl, hx]
  | put x new =>
      refine ((h.clear x).install x (Function.update_self ..) fun r (hr : b = some r) hthere =>
        hfresh r hr hthere.1).congr ?_ fun r => ?_
      · rw [after, owns_update, Function.update_idem]
        rfl
      · simp [old, lost, Boxes.owns]
  | take x y =>
      refine (h.handOver x y).congr ?_ fun r => ?_
      · rw [after, owns_update, owns_update]
        rfl
      · simp [old, lost, hnone rfl, Boxes.owns]
  | swap x y =>
      refine (h.exchange x y).congr ?_ fun r => ?_
      · rw [after, owns_update, owns_update]
        rfl
      · simp [old, lost, hnone rfl]
  | release x =>
      refine (h.clear x).congr (owns_update _) fun r => ?_
      simp [old, lost, hnone rfl, Boxes.owns]
  | destroy x =>
      refine (h.clear x).congr (owns_update _) fun r => ?_
      simp [old, lost, hnone rfl, Boxes.owns]

theorem update_eq_some_iff {owner : O → Option B} {v : Option B} {z : O} {r : B} :
    Function.update owner z v x = some r ↔
      (x = z ∧ v = some r) ∨ (x ≠ z ∧ owner x = some r) := by
  by_cases hx : x = z
  · subst hx
    simp
  · simp [hx]

theorem Passing.owned_after {p : Passing O N} {b : Option B} {r : B}
    (howns : Boxes.owns (p.after b content) x = some r) :
    Boxes.owns content x = some r ∨ (x = p.box ∧ b = some r) ∨
      ∃ y, p.Moves x y ∧ Boxes.owns content y = some r := by
  cases p with
  | create z new =>
      rw [after, owns_update, update_eq_some_iff] at howns
      rcases howns with ⟨hx, hr⟩ | ⟨-, hr⟩
      · exact .inr (.inl ⟨hx, hr⟩)
      · exact .inl hr
  | put z new =>
      rw [after, owns_update, update_eq_some_iff] at howns
      rcases howns with ⟨hx, hr⟩ | ⟨-, hr⟩
      · exact .inr (.inl ⟨hx, hr⟩)
      · exact .inl hr
  | createFrom z y =>
      rw [after, owns_update, owns_update, update_eq_some_iff, update_eq_some_iff] at howns
      rcases howns with ⟨rfl, hr⟩ | ⟨-, ⟨-, hr⟩ | ⟨-, hr⟩⟩
      · exact .inr (.inr ⟨y, ⟨rfl, rfl⟩, hr⟩)
      · cases hr
      · exact .inl hr
  | take z y =>
      rw [after, owns_update, owns_update, update_eq_some_iff, update_eq_some_iff] at howns
      rcases howns with ⟨rfl, hr⟩ | ⟨-, ⟨-, hr⟩ | ⟨-, hr⟩⟩
      · exact .inr (.inr ⟨y, ⟨rfl, rfl⟩, hr⟩)
      · cases hr
      · exact .inl hr
  | swap z y =>
      rw [after, owns_update, owns_update, update_eq_some_iff, update_eq_some_iff] at howns
      rcases howns with ⟨rfl, hr⟩ | ⟨-, ⟨rfl, hr⟩ | ⟨-, hr⟩⟩
      · exact .inr (.inr ⟨z, .inr ⟨rfl, rfl⟩, hr⟩)
      · exact .inr (.inr ⟨y, .inl ⟨rfl, rfl⟩, hr⟩)
      · exact .inl hr
  | release z =>
      rw [after, owns_update, update_eq_some_iff] at howns
      rcases howns with ⟨-, hr⟩ | ⟨-, hr⟩
      · cases hr
      · exact .inl hr
  | destroy z =>
      rw [after, owns_update, update_eq_some_iff] at howns
      rcases howns with ⟨-, hr⟩ | ⟨-, hr⟩
      · cases hr
      · exact .inl hr

end Owners

/-! ## What boxes may hold -/

def Boxes.Within (Q : O → B → Prop) (s : Boxes O B σ) : Prop :=
  ∀ x r, Boxes.owns s.content x = some r → Q x r

structure BoxOp.Respects (L : Resources O N U B σ) (Q : O → B → Prop)
    (op : BoxOp O N U) : Prop where
  moves : ∀ p x y r, op = .pass p → p.Moves x y → Q y r → Q x r
  acquires : ∀ p n t r t', op = .pass p → p.new = some n →
    L.acquire p.box n t = some (r, t') → Q p.box r
  accesses : ∀ x u r t r' t', op = .access x u → L.access x u r t = some (r', t') →
    Q x r → Q x r'

section Within

variable [DecidableEq O] {L L' : Resources O N U B σ} {Q : O → B → Prop}
  {op : BoxOp O N U} {s s' : Boxes O B σ}

theorem Boxes.Within.exec (hs : s.Within Q) (hop : op.Respects L Q)
    (hexec : op.exec L s = some s') : s'.Within Q := by
  cases op with
  | pass p =>
      obtain ⟨-, b, t, t', hsupply, -, rfl⟩ := Passing.exec_eq_some_iff.mp hexec
      intro x r howns
      rcases Passing.owned_after howns with hr | ⟨rfl, rfl⟩ | ⟨y, hmoves, hr⟩
      · exact hs x r hr
      · cases hnew : p.new with
        | none =>
            rw [hnew] at hsupply
            cases Resources.eq_none_of_supply hsupply
        | some n =>
            rw [hnew, Resources.supply, Option.map_eq_some_iff] at hsupply
            obtain ⟨⟨r', t₁⟩, hacquire, heq⟩ := hsupply
            cases heq
            exact hop.acquires p n _ r _ rfl hnew hacquire
      · exact hop.moves p x y r rfl hmoves (hs y r hr)
  | access x u =>
      simp only [BoxOp.exec, Option.bind_eq_bind, Option.bind_eq_some_iff, Prod.exists] at hexec
      obtain ⟨r, hr, r', t, haccess, heq⟩ := hexec
      obtain rfl := Option.some.inj heq
      intro z b howns
      rw [owns_update, Option.join_some, update_eq_some_iff] at howns
      rcases howns with ⟨rfl, hb⟩ | ⟨-, hb⟩
      · obtain rfl := Option.some.inj hb
        exact hop.accesses _ u r _ r' t rfl haccess (hs _ r hr)
      · exact hs z b hb

theorem BoxOp.exec_congr (hacquire : L.acquire = L'.acquire) (haccess : L.access = L'.access)
    (hretire : ∀ x r t, Q x r → L.retire x r t = L'.retire x r t) (hs : s.Within Q) :
    op.exec L s = op.exec L' s := by
  cases op with
  | access x u => simp only [exec, haccess]
  | pass p =>
      have hsupply : L.supply = L'.supply := by
        funext x new t
        cases new with
        | none => rfl
        | some n => rw [Resources.supply, Resources.supply, hacquire]
      have hsettle : ∀ t, L.settle p.box (p.old s.content) t =
          L'.settle p.box (p.old s.content) t := by
        intro t
        cases hold : p.old s.content with
        | none => rfl
        | some r => exact hretire p.box r t (hs p.box r (Passing.owns_of_old hold))
      simp only [exec, Passing.exec, hsupply, hsettle]

end Within

end Foundation
