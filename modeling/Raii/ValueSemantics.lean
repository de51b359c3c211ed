import Raii.Elements

/-!
# Pointers as values

What `make_unique` and `default_delete` are for: a program over `unique_ptr`
runs as if every variable held its object or array itself, and the memory ends
up empty with the variables.  This takes types for which no conversion of
pointers leads to a base class that cannot be deleted through.
-/

namespace Raii

open Foundation

namespace ElementTypes

variable (T : ElementTypes)

def Safe : Prop :=
  ∀ U V, T.convertible U V = true → T.unqualified U = T.unqualified V ∨
    T.virtualDestructor (T.unqualified V) = true

/-- Objects and arrays as values: they are destroyed with the variable, whatever its type. -/
def boxed : Resources (Obj T.pointers.signature) (NewExpr T) (Lvalue T) (Block T)
    (List (Observation T)) where
  acquire := T.values.acquire
  access := T.values.access
  retire _ block seen := some (seen ++ block.destroyed)

def Deletable (this : Obj T.pointers.signature) (block : Block T) : Prop :=
  block.deletable this.kind = true

end ElementTypes

variable {T : ElementTypes}

def ElementOp.step (op : ElementOp T)
    (s : Boxes (Obj T.pointers.signature) (Block T) (List (Observation T))) :
    Option (Boxes (Obj T.pointers.signature) (Block T) (List (Observation T))) := do
  let op ← op.base
  let op ← T.backing.boxOp op
  (op.map Prod.snd).exec T.boxed s

/-! ## What may be deleted -/

theorem deletable_of_block {kind : PtrKind T} {block block' : Block T}
    (helem : block'.elem = block.elem) (hform : block'.isArray = block.isArray) :
    block'.deletable kind = block.deletable kind := by
  simp only [Block.deletable, helem, hform]

theorem deletable_iff {kind : PtrKind T} {block : Block T} :
    block.deletable kind = true ↔ block.isArray = kind.isArray ∧
      (T.unqualified block.elem = T.unqualified kind.elem ∨
        (kind.isArray = false ∧
          T.isBaseOf (T.unqualified kind.elem) (T.unqualified block.elem) = true ∧
          T.virtualDestructor (T.unqualified kind.elem) = true)) := by
  simp [Block.deletable, and_assoc]

theorem elem_of_accessBlock {kind : PtrKind T} {lvalue : Lvalue T} {block : Block T}
    {p : Block T × List T.Output} (h : T.accessBlock kind lvalue block = some p) :
    p.1.elem = block.elem ∧ p.1.isArray = block.isArray := by
  have hat : ∀ index access, block.accessAt kind.elem index access = some p →
      p.1.elem = block.elem ∧ p.1.isArray = block.isArray := by
    intro index access hat
    simp only [Block.accessAt, Option.bind_eq_bind, Option.bind_eq_some_iff, Prod.exists] at hat
    obtain ⟨value, -, value', output, -, heq⟩ := hat
    rw [← Option.some.inj heq]
    exact ⟨rfl, rfl⟩
  cases lvalue with
  | deref access => exact hat 0 access (Option.ite_none_left_eq_some.mp h).2
  | subscript index access => exact hat index access (Option.ite_none_right_eq_some.mp h).2

theorem deletable_convert {source target : PtrKind T} (hsafe : T.Safe) {block : Block T}
    (hptr : T.convertible source.elem target.elem = true)
    (hdel : T.convertDeleter source target = true)
    (h : block.deletable source = true) : block.deletable target = true := by
  obtain ⟨hform, hconvert⟩ := Bool.and_eq_true_iff.mp hdel
  have hform : source.isArray = target.isArray := beq_iff_eq.mp hform
  obtain ⟨harray, htype⟩ := deletable_iff.mp h
  refine deletable_iff.mpr ⟨harray.trans hform, ?_⟩
  cases htarget : target.isArray with
  | true =>
      rw [htarget, if_pos rfl] at hconvert
      have hsame := T.unqualified_of_convertibleArray hconvert
      rcases htype with heq | ⟨hsingle, -⟩
      · exact .inl (heq.trans hsame)
      · simp [hform, htarget] at hsingle
  | false =>
      rcases hsafe _ _ hptr with hsame | hvirtual
      · rw [← hsame]
        rcases htype with heq | ⟨-, hbase⟩
        · exact .inl heq
        · exact .inr ⟨rfl, hbase⟩
      · refine .inr ⟨rfl, ?_, hvirtual⟩
        have hbase := T.isBaseOf_of_convertible hptr
        rcases htype with heq | ⟨-, hbase', -⟩
        · rwa [heq]
        · exact T.isBaseOf_trans hbase hbase'

theorem deletable_of_moves (hsafe : T.Safe) {op : Op T.pointers.signature}
    (htyped : op.typed = true) {x y : Obj T.pointers.signature} {block : Block T}
    (hmoves : (op.passing fun _ _ => none : Passing _ (NewExpr T)).Moves x y)
    (h : T.Deletable y block) : T.Deletable x block := by
  cases op with
  | moveConstruct kind this other left =>
      obtain ⟨rfl, rfl⟩ := hmoves
      exact h
  | moveAssign kind this other left =>
      obtain ⟨rfl, rfl⟩ := hmoves
      exact h
  | swap kind this other =>
      rcases hmoves with ⟨rfl, rfl⟩ | ⟨rfl, rfl⟩ <;> exact h
  | convertConstruct this other left =>
      obtain ⟨rfl, rfl⟩ := hmoves
      obtain ⟨-, convert, hconvert, convertDel, hdel⟩ :=
        Disposal.typed_convertConstruct.mp htyped
      exact deletable_convert hsafe (Option.ite_none_right_eq_some.mp hconvert).1
        (Option.ite_none_right_eq_some.mp hdel).1 h
  | convertAssign this other left =>
      obtain ⟨rfl, rfl⟩ := hmoves
      obtain ⟨-, convert, hconvert, convertDel, hdel⟩ :=
        Disposal.typed_convertAssign.mp htyped
      exact deletable_convert hsafe (Option.ite_none_right_eq_some.mp hconvert).1
        (Option.ite_none_right_eq_some.mp hdel).1 h
  | _ => cases hmoves

theorem respects_new {p : Passing (Obj T.pointers.signature) (NewExpr T)} {new : NewExpr T}
    (hmoves : ∀ x y, ¬ p.Moves x y) (hnew : p.new = some new)
    (h : new.block.deletable p.box.kind = true) :
    (BoxOp.pass p).Respects T.boxed T.Deletable where
  moves := by
    rintro q x y r heq hq
    cases heq
    exact absurd hq (hmoves x y)
  acquires := by
    rintro q n t r t' heq hn hacquire
    cases heq
    obtain rfl := Option.some.inj (hnew.symm.trans hn)
    cases hacquire
    exact h
  accesses := by
    rintro x u r t r' t' heq
    cases heq

theorem respects_pointer (hsafe : T.Safe) {op : Op T.pointers.signature}
    (htyped : op.typed = true) :
    (BoxOp.pass (op.passing fun _ _ => none)).Respects T.boxed T.Deletable where
  moves := by
    rintro q x y r heq hq
    cases heq
    exact deletable_of_moves hsafe htyped hq
  acquires := by
    rintro q n t r t' heq hn
    cases heq
    cases op <;> cases hn
  accesses := by
    rintro x u r t r' t' heq
    cases heq

theorem respects_access (this : Obj T.pointers.signature) (lvalue : Lvalue T) :
    (BoxOp.access this lvalue : BoxOp _ (NewExpr T) _).Respects T.boxed T.Deletable where
  moves := by
    rintro q x y r heq
    cases heq
  acquires := by
    rintro q n t r t' heq
    cases heq
  accesses := by
    rintro x u r t r' t' heq haccess h
    obtain ⟨p, hp, heq'⟩ := Option.map_eq_some_iff.mp haccess
    cases heq'
    obtain ⟨helem, hform⟩ := elem_of_accessBlock hp
    exact (deletable_of_block helem hform).trans h

theorem respects (hsafe : T.Safe) {op : ElementOp T} (hmatch : op.Matches)
    {op' : StoreOp T.pointers.signature (NewExpr T) (Lvalue T)}
    {b : BoxOp (Obj T.pointers.signature) (T.Address × NewExpr T) (Lvalue T)}
    (hbase : op.base = some op') (hb : T.backing.boxOp op' = some b) :
    (b.map Prod.snd).Respects T.boxed T.Deletable := by
  have hconstruct : ∀ {this ptr new}, StoreOp.constructNew this (some ptr) new = op' →
      new.block.deletable this.kind = true →
      (b.map Prod.snd).Respects T.boxed T.Deletable := by
    rintro this ptr new rfl h
    simp only [Backing.boxOp, Option.ite_none_right_eq_some, Option.map_eq_some_iff] at hb
    obtain ⟨-, a, -, rfl⟩ := hb
    exact respects_new (fun _ _ => id) rfl h
  cases op with
  | pointer op =>
      obtain ⟨-, heq⟩ := Option.ite_none_right_eq_some.mp hbase
      cases heq
      simp only [Backing.boxOp, Option.ite_none_left_eq_some, Bool.or_eq_true, not_or,
        Bool.not_eq_true', Bool.not_eq_false] at hb
      obtain ⟨⟨-, htyped⟩, heq⟩ := hb
      cases heq
      rw [BoxOp.map, Op.map_passing]
      exact respects_pointer hsafe htyped
  | makeUnique this ptr args =>
      obtain ⟨hform, heq⟩ := Option.ite_none_left_eq_some.mp hbase
      exact hconstruct (Option.some.inj heq)
        (deletable_iff.mpr ⟨(Bool.eq_false_iff.mpr hform).symm, .inl rfl⟩)
  | makeUniqueArray this ptr size =>
      obtain ⟨hform, heq⟩ := Option.ite_none_right_eq_some.mp hbase
      exact hconstruct (Option.some.inj heq) (deletable_iff.mpr ⟨hform.symm, .inl rfl⟩)
  | makeUniqueForOverwrite this ptr =>
      obtain ⟨hform, heq⟩ := Option.ite_none_left_eq_some.mp hbase
      exact hconstruct (Option.some.inj heq)
        (deletable_iff.mpr ⟨(Bool.eq_false_iff.mpr hform).symm, .inl rfl⟩)
  | makeUniqueArrayForOverwrite this ptr size =>
      obtain ⟨hform, heq⟩ := Option.ite_none_right_eq_some.mp hbase
      exact hconstruct (Option.some.inj heq) (deletable_iff.mpr ⟨hform.symm, .inl rfl⟩)
  | constructPointer this ptr new =>
      obtain ⟨-, heq⟩ := Option.ite_none_right_eq_some.mp hbase
      exact hconstruct (Option.some.inj heq) hmatch
  | reset this ptr new =>
      obtain ⟨-, heq⟩ := Option.ite_none_right_eq_some.mp hbase
      cases heq
      simp only [Backing.boxOp, Option.map_eq_some_iff] at hb
      obtain ⟨a, -, rfl⟩ := hb
      exact respects_new (fun _ _ => id) rfl hmatch
  | access this lvalue =>
      cases hbase
      cases hb
      exact respects_access this lvalue

/-! ## Programs -/

section Programs

variable {lost : T.Address → Prop} {w w' : T.World} {op : ElementOp T}

theorem contents_exec (hw : T.backing.Kept lost w)
    (hwithin : (T.backing.contents w).Within T.Deletable) (hproper : op.Proper w) :
    (op.exec w).map T.backing.contents = op.step (T.backing.contents w) := by
  rw [ElementOp.exec, ElementOp.step]
  cases hbase : op.base with
  | none => rfl
  | some op' =>
      refine (Backing.contents_exec hw (hproper.2 op' hbase)).trans ?_
      rw [Backing.step]
      cases hb : T.backing.boxOp op' with
      | none => simp [hb]
      | some b =>
          simp only [hb, Option.bind_eq_bind, Option.bind_some]
          refine BoxOp.exec_congr rfl rfl (fun x block seen h => ?_) hwithin
          exact if_pos h

theorem exec_kept (hw : T.backing.Kept lost w) (hexec : op.exec w = some w') :
    ∃ lost, T.backing.Kept lost w' := by
  obtain ⟨op', -, hexec⟩ := Option.bind_eq_some_iff.mp hexec
  exact ⟨_, Backing.exec_kept hw hexec⟩

end Programs

/-! ## The condition on the types -/

section Upcast

variable [Inhabited T.Name] {U V : T.Elem}

def single (elem : T.Elem) : Obj T.pointers.signature := ⟨⟨elem, false⟩, default⟩

variable [Inhabited T.Args]

def made (U : T.Elem) : Obj T.pointers.signature → Option (Option (Block T)) :=
  Function.update (fun _ => none) (single U)
    (some (some (NewExpr.single U default).block))

variable [Inhabited T.Address]

end Upcast

end Raii
