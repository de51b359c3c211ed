import Raii.Disposal
import Raii.Foundation.Indirection

/-!
# What the handles stand for

Resources that lie behind handles: allocated memory, open streams.  A program
obtains one, works with it through the `unique_rc` that has the handle, and
passes it on.  As long as it does not copy handles it could hold the resources
themselves: the handles make no difference.
-/

namespace Raii

open Foundation

/--
Resources with the addresses `A`.  The deleters end the resource that the
handle stands for, and the debug check of `reset` is compiled out.
-/
structure Backing (S : Signature) (A N U B σ : Type) [DecidableEq A] where
  values : Resources (Obj S) N U B σ
  disposal : Disposal S (Store A B σ) A
  dispose_eq : disposal.dispose = values.indirect.retire
  selfResetCheck_eq : S.selfResetCheck = false

/-- A statement; `hnd` is the handle the new resource `new` has got. -/
inductive StoreOp (S : Signature) (N U : Type) where
  | rc (op : Op S)
  | constructNew (this : Obj S) (hnd : S.Handle this.kind) (new : N)
  | resetNew (this : Obj S) (hnd : S.Handle this.kind) (new : N)
  | access (this : Obj S) (u : U)

/-- Streams behind their variables.  A call of `fopen` that fails opens none. -/
def Stdio.backing (C : Stdio) :
    Backing C.streams C.Address C.Path C.Use C.Stream C.Files where
  values :=
    { acquire := fun _ => C.fopen
      access := fun _ => C.use
      retire := fun _ stream files => some (C.fclose stream files).1 }
  disposal := C.disposal
  dispose_eq := rfl
  selfResetCheck_eq := rfl

variable {S : Signature} {A N U B σ : Type} [DecidableEq A]

namespace Backing

variable (K : Backing S A N U B σ)

def allocate (this : Obj S) (hnd : S.Handle this.kind) (new : N)
    (w : World S (Store A B σ)) : Option (World S (Store A B σ)) := do
  let a ← K.disposal.resource this.kind hnd
  let (_, env) ← K.values.indirect.acquire this (a, new) w.env
  some (w.setEnv env)

def exec : StoreOp S N U → World S (Store A B σ) → Option (World S (Store A B σ))
  | .rc op, w =>
      -- handles come with their resources only
      if (K.disposal.passing op).new.isSome then none else op.exec K.disposal.call w
  | .constructNew this hnd new, w => do
      let w ← K.allocate this hnd new w
      (Op.constructHandle this hnd).exec K.disposal.call w
  | .resetNew this hnd new, w => do
      let w ← K.allocate this hnd new w
      (Op.reset this hnd).exec K.disposal.call w
  | .access this u, w => do
      let a ← K.disposal.owns w this
      let (_, env) ← K.values.indirect.access this u a w.env
      some (w.setEnv env)

def boxOp : StoreOp S N U → Option (BoxOp (Obj S) (A × N) U)
  | .rc op =>
      if (K.disposal.passing op).new.isSome || !op.typed then none
      else some (.pass (op.passing fun _ _ => none))
  | .constructNew this hnd new =>
      if (Op.constructHandle this hnd).typed then
        (K.disposal.resource this.kind hnd).map fun a => .pass (.create this (some (a, new)))
      else none
  | .resetNew this hnd new =>
      (K.disposal.resource this.kind hnd).map fun a => .pass (.put this (some (a, new)))
  | .access this u => some (.access this u)

variable {K} {w : World S (Store A B σ)} {this : Obj S} {hnd : S.Handle this.kind}

theorem settle_eq : K.disposal.resources.settle = K.values.indirect.settle := by
  have hretire : K.disposal.resources.retire = K.values.indirect.retire := K.dispose_eq
  funext this old t
  cases old with
  | none => rfl
  | some a => exact congrFun (congrFun (congrFun hretire this) a) t

theorem exec_of_supply {op : Op S} {q : Passing (Obj S) (A × N)} {b : Option A}
    {env : Store A B σ} (hq : q.map Prod.fst = K.disposal.passing op)
    (hsupply : K.values.indirect.supply q.box q.new w.env = some (b, env)) :
    ((op.exec K.disposal.call (w.setEnv env)).map K.disposal.boxes) =
      if op.typed then q.exec K.values.indirect (K.disposal.boxes w) else none := by
  obtain rfl : b = q.new.map Prod.fst := fst_of_supply_indirect hsupply
  rw [Disposal.boxes_exec K.selfResetCheck_eq, Disposal.exec_resources, ← hq, settle_eq,
    Passing.exec_of_supply hsupply]
  simp only [Passing.admits_map, Passing.box_map, Passing.old_map, Passing.after_map,
    Passing.new_map]
  rfl

theorem map_passing {op : Op S} (hnew : (K.disposal.passing op).new = none) :
    (op.passing fun _ _ => none : Passing (Obj S) (A × N)).map Prod.fst =
      K.disposal.passing op := by
  cases op with
  | constructHandle this hnd => exact congrArg _ hnew.symm
  | constructDeleter this hnd del => exact congrArg _ hnew.symm
  | reset this hnd => exact congrArg _ hnew.symm
  | _ => rfl

theorem exec_allocate {op : Op S} {new : N} {a : A} {q : Passing (Obj S) (A × N)}
    (ha : K.disposal.resource this.kind hnd = some a) (hbox : q.box = this)
    (hnew : q.new = some (a, new)) (hq : q.map Prod.fst = K.disposal.passing op) :
    ((K.allocate this hnd new w).bind (op.exec K.disposal.call)).map K.disposal.boxes =
      if op.typed then q.exec K.values.indirect (K.disposal.boxes w) else none := by
  subst hbox
  cases hacq : K.values.indirect.acquire q.box (a, new) w.env with
  | none =>
      have hsupply : K.values.indirect.supply q.box q.new w.env = none := by
        rw [hnew, Resources.supply, hacq, Option.map_none]
      rw [Passing.exec_of_supply_none hsupply, ite_self]
      simp [allocate, ha, hacq]
  | some p =>
      have hsupply : K.values.indirect.supply q.box q.new w.env = some (some p.1, p.2) := by
        rw [hnew, Resources.supply, hacq, Option.map_some]
        rfl
      rw [← exec_of_supply hq hsupply, allocate, ha]
      simp [hacq]

theorem boxes_exec (op : StoreOp S N U) :
    (K.exec op w).map K.disposal.boxes =
      (K.boxOp op).bind fun b => b.exec K.values.indirect (K.disposal.boxes w) := by
  cases op with
  | rc op =>
      cases hnew : (K.disposal.passing op).new with
      | some a => simp [exec, boxOp, hnew]
      | none =>
          have hplain : (op.passing fun _ _ => none : Passing (Obj S) (A × N)).new = none := by
            cases op <;> rfl
          have hsupply : K.values.indirect.supply
              (op.passing fun _ _ => none : Passing (Obj S) (A × N)).box
              (op.passing fun _ _ => none : Passing (Obj S) (A × N)).new w.env =
                some (none, w.env) := by
            rw [hplain]
            rfl
          rw [exec, boxOp, hnew, Option.isSome_none, if_neg Bool.false_ne_true, Bool.false_or]
          refine (exec_of_supply (map_passing hnew) hsupply).trans ?_
          cases op.typed <;> rfl
  | constructNew this hnd new =>
      cases ha : K.disposal.resource this.kind hnd with
      | none => simp [exec, boxOp, allocate, ha]
      | some a =>
          have hpass : (Passing.create this (some (a, new))).map Prod.fst =
              K.disposal.passing (.constructHandle this hnd) := congrArg (Passing.create this) ha.symm
          refine (exec_allocate ha rfl rfl hpass).trans ?_
          rw [boxOp, ha]
          cases (Op.constructHandle this hnd).typed <;> rfl
  | resetNew this hnd new =>
      cases ha : K.disposal.resource this.kind hnd with
      | none => simp [exec, boxOp, allocate, ha]
      | some a =>
          have hpass : (Passing.put this (some (a, new))).map Prod.fst =
              K.disposal.passing (.reset this hnd) := congrArg (Passing.put this) ha.symm
          refine (exec_allocate ha rfl rfl hpass).trans ?_
          rw [boxOp, ha]
          rfl
  | access this u =>
      rw [exec, boxOp, Option.bind_some, BoxOp.exec, Disposal.boxes, Disposal.owns_content]
      cases howns : K.disposal.owns w this with
      | none => rfl
      | some a =>
          cases hacc : K.values.indirect.access this u a w.env with
          | none => simp [hacc]
          | some p =>
              have hsame : p.1 = a := fst_of_access_indirect hacc
              have hcontent : K.disposal.content w this = some (some p.1) := by
                rw [← Disposal.owns_content, Boxes.owns, Option.join_eq_some_iff] at howns
                rw [howns, hsame]
              simp only [hacc, Option.bind_eq_bind, Option.bind_some, Option.map_some,
                ← hcontent, Function.update_eq_self]
              rfl

/-! ## Programs -/

variable (K)

def step (op : StoreOp S N U) (s : Boxes (Obj S) B σ) : Option (Boxes (Obj S) B σ) :=
  (K.boxOp op).bind fun b => (b.map Prod.snd).exec K.values s

def contents (w : World S (Store A B σ)) : Boxes (Obj S) B σ := (K.disposal.boxes w).flatten

def Fresh : StoreOp S N U → World S (Store A B σ) → Prop
  | .constructNew this hnd _, w =>
      ∀ a, K.disposal.resource this.kind hnd = some a → w.env.1 a = none
  | .resetNew this hnd _, w =>
      ∀ a, K.disposal.resource this.kind hnd = some a → w.env.1 a = none
  | _, _ => True

/-- Each resource has one owner at most, and those there are owned or were lost. -/
def Kept (lost : A → Prop) (w : World S (Store A B σ)) : Prop := (K.disposal.boxes w).Kept lost

def lost : StoreOp S N U → World S (Store A B σ) → Option A
  | .rc (.release this), w => K.disposal.owns w this
  | _, _ => none

variable {K} {lost : A → Prop} {w' : World S (Store A B σ)} {op : StoreOp S N U}

theorem boxOp_fresh (hfresh : K.Fresh op w) {b : BoxOp (Obj S) (A × N) U}
    (hb : K.boxOp op = some b) : b.Fresh (K.disposal.boxes w) := by
  intro n hn
  cases op with
  | rc op =>
      obtain ⟨-, heq⟩ := Option.ite_none_left_eq_some.mp hb
      obtain rfl := Option.some.inj heq
      cases op <;> cases hn
  | constructNew this hnd new =>
      obtain ⟨-, heq⟩ := Option.ite_none_right_eq_some.mp hb
      obtain ⟨a, ha, rfl⟩ := Option.map_eq_some_iff.mp heq
      obtain rfl := Option.some.inj hn
      exact hfresh a ha
  | resetNew this hnd new =>
      obtain ⟨a, ha, rfl⟩ := Option.map_eq_some_iff.mp hb
      obtain rfl := Option.some.inj hn
      exact hfresh a ha
  | access this u =>
      obtain rfl := Option.some.inj hb
      cases hn

theorem boxOp_lost {b : BoxOp (Obj S) (A × N) U} (hb : K.boxOp op = some b) :
    b.lost (K.disposal.content w) = K.lost op w := by
  cases op with
  | rc op =>
      obtain ⟨-, heq⟩ := Option.ite_none_left_eq_some.mp hb
      obtain rfl := Option.some.inj heq
      cases op with
      | release this => exact congrFun Disposal.owns_content this
      | _ => rfl
  | constructNew this hnd new =>
      obtain ⟨-, heq⟩ := Option.ite_none_right_eq_some.mp hb
      obtain ⟨a, -, rfl⟩ := Option.map_eq_some_iff.mp heq
      rfl
  | resetNew this hnd new =>
      obtain ⟨a, -, rfl⟩ := Option.map_eq_some_iff.mp hb
      rfl
  | access this u =>
      obtain rfl := Option.some.inj hb
      rfl

theorem contents_exec (hw : K.Kept lost w) (hfresh : K.Fresh op w) :
    (K.exec op w).map K.contents = K.step op (K.contents w) := by
  have hboxes := congrArg (Option.map Boxes.flatten) (boxes_exec (K := K) (w := w) op)
  rw [Option.map_map] at hboxes
  refine hboxes.trans ?_
  rw [step]
  cases hb : K.boxOp op with
  | none => rfl
  | some b => exact BoxOp.exec_indirect hw (boxOp_fresh hfresh hb)

theorem exec_kept (hw : K.Kept lost w) (hexec : K.exec op w = some w') :
    K.Kept (fun a => lost a ∨ some a = K.lost op w) w' := by
  have hboxes := boxes_exec (K := K) (w := w) op
  rw [hexec, Option.map_some] at hboxes
  obtain ⟨b, hb, hstep⟩ := Option.bind_eq_some_iff.mp hboxes.symm
  rw [← boxOp_lost hb]
  exact BoxOp.exec_kept hw hstep

theorem accounted_iff (hw : K.Kept (fun _ => False) w) (hexec : K.exec op w = some w') :
    K.Kept (fun _ => False) w' ↔ K.lost op w = none := by
  have hboxes := boxes_exec (K := K) (w := w) op
  rw [hexec, Option.map_some] at hboxes
  obtain ⟨b, hb, hstep⟩ := Option.bind_eq_some_iff.mp hboxes.symm
  rw [← boxOp_lost hb]
  exact BoxOp.accounted_iff hw hstep

/-- Prints to a stream under two owners, and closes it by opening another one. -/
def logProgram : List (StoreOp textFiles.streams Nat String) :=
  [.constructNew ⟨(), (0 : Nat)⟩ (some (5 : Nat)) 1, .access ⟨(), (0 : Nat)⟩ "first",
    .rc (.moveConstruct () (1 : Nat) (0 : Nat) ()), .access ⟨(), (1 : Nat)⟩ "second",
    .resetNew ⟨(), (1 : Nat)⟩ (some (6 : Nat)) 2, .rc (.destroy ⟨(), (1 : Nat)⟩),
    .rc (.destroy ⟨(), (0 : Nat)⟩)]

def noStreams : World textFiles.streams textFiles.Disk where
  live _ := false
  objects _ := ⟨none, .value ()⟩
  cells := Empty.elim
  env := (fun _ => none, [])

theorem kept_noStreams : textFiles.backing.Kept (fun _ => False) noStreams where
  exclusive :=
    { unique := nofun
      covers := fun _ => ⟨nofun, nofun⟩ }
  there _ := False.elim

/--
A program that lets every handle stand for one resource at a time runs as it
would if the objects held the resources themselves, and no handles were there.
-/
theorem handles_are_values (K : Backing S A N U B σ) {ops : List (StoreOp S N U)}
    {w : World S (Store A B σ)} (hw : K.Kept lost w)
    (hfresh : Along K.exec K.Fresh ops w) :
    (run K.exec ops w).map K.contents = run K.step ops (K.contents w) := by
  have hkeep : ∀ op w w', (∃ lost, K.Kept lost w) → K.Fresh op w → K.exec op w = some w' →
      ∃ lost, K.Kept lost w' := by
    rintro op w w' ⟨lost, hw⟩ - hexec
    exact ⟨_, exec_kept hw hexec⟩
  have hstep : ∀ op w, (∃ lost, K.Kept lost w) → K.Fresh op w →
      (K.exec op w).map K.contents = K.step op (K.contents w) := by
    rintro op w ⟨lost, hw⟩ hfresh
    exact contents_exec hw hfresh
  exact run_abstract_along hkeep hstep ⟨lost, hw⟩ hfresh

theorem handles_are_values_logProgram :
    (run textFiles.backing.exec logProgram noStreams).map textFiles.backing.contents =
        run textFiles.backing.step logProgram (textFiles.backing.contents noStreams) ∧
      (run textFiles.backing.exec logProgram noStreams).map (fun w => w.env.2) =
        some [(1, ["first", "second"]), (2, [])] := by
  refine ⟨handles_are_values textFiles.backing kept_noStreams ?_, rfl⟩
  -- only the two calls of `fopen` ask for anything
  refine ⟨fun _ _ => rfl, fun w₁ h₁ => ⟨trivial, fun w₂ h₂ => ⟨trivial, fun w₃ h₃ =>
    ⟨trivial, fun w₄ h₄ => ⟨fun stream hstream => ?_, fun _ _ => ⟨trivial, fun _ _ =>
      ⟨trivial, fun _ _ => trivial⟩⟩⟩⟩⟩⟩⟩
  obtain rfl := Option.some.inj h₁
  obtain rfl := Option.some.inj h₂
  obtain rfl := Option.some.inj h₃
  obtain rfl := Option.some.inj h₄
  obtain rfl := Option.some.inj hstream
  rfl

/--
Every resource there is has exactly one owner, and the other way round, in all
states of a run if and only if no statement releases a resource.
-/
theorem accounted_throughout_iff (K : Backing S A N U B σ) {ops : List (StoreOp S N U)}
    {w w' : World S (Store A B σ)} (hw : K.Kept (fun _ => False) w)
    (hrun : run K.exec ops w = some w') :
    Along K.exec (fun op w => K.lost op w = none) ops w ↔
      ∀ before after w₁, before ++ after = ops → run K.exec before w = some w₁ →
        K.Kept (fun _ => False) w₁ :=
  along_iff_invariant (fun _ _ _ hw hexec => accounted_iff hw hexec) hw hrun

def releaseProgram : List (StoreOp textFiles.streams Nat String) :=
  [.constructNew ⟨(), (0 : Nat)⟩ (some (5 : Nat)) 1, .rc (.release ⟨(), (0 : Nat)⟩)]

theorem accounted_throughout_iff_releaseProgram :
    ¬ ∀ before after w, before ++ after = releaseProgram →
      run textFiles.backing.exec before noStreams = some w →
        textFiles.backing.Kept (fun _ => False) w := by
  obtain ⟨w, hrun⟩ := Option.isSome_iff_exists.mp
    (show (run textFiles.backing.exec releaseProgram noStreams).isSome from rfl)
  rw [← accounted_throughout_iff textFiles.backing kept_noStreams hrun]
  rintro ⟨-, hrest⟩
  have hlost := (hrest _ rfl).1
  cases hlost

end Backing

end Raii
