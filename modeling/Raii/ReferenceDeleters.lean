import Raii.Foundation.Run
import Raii.UniqueRc

/-!
# Reference deleters

An object with a reference deleter is bound to a cell for life.  Assignment and
`swap` act on the cell: they are seen by every object bound to it, and they copy
or exchange values without moving the bindings.
-/

namespace Raii

open Foundation

variable {S : Signature} {w w' : World S (List (Call S))}

namespace Op

def assigned : Op S → List (Obj S)
  | .moveAssign kind this other _ => [⟨kind, this⟩, ⟨kind, other⟩]
  | .convertAssign this other _ => [this, other]
  | .swap kind this other => [⟨kind, this⟩, ⟨kind, other⟩]
  | _ => []

variable {op : Op S}

theorem deleterRef_of_exec (hexec : op.exec recordCall w = some w') {obj : Obj S}
    (hobj : w.live obj = true) : w'.deleterRef obj = w.deleterRef obj := by
  have hne : ∀ this, w.live this = false → obj ≠ this := by
    rintro this hthis rfl
    exact Bool.false_ne_true (hthis.symm.trans hobj)
  cases executed_of_exec hexec with
  | construct hlive => exact World.deleterRef_construct_of_ne _ _ _ (hne _ hlive)
  | constructHandle hlive => exact World.deleterRef_construct_of_ne _ _ _ (hne _ hlive)
  | constructDeleter hlive => exact World.deleterRef_construct_of_ne _ _ _ (hne _ hlive)
  | moveConstruct hthis =>
      exact UniqueRcHolderImpl.deleterRef_moveConstruct_of_ne _ _ _ _ _ (hne _ hthis)
  | convertConstruct hthis =>
      exact UniqueRc.deleterRef_convertConstruct_of_ne _ _ _ _ _ _ (hne _ hthis)
  | moveAssign => simp
  | convertAssign => simp
  | swap => simp
  | reset => simp
  | resetInvalid => simp
  | release => simp
  | destroy =>
      rw [World.deleterRef_endLifetime, World.deleterRef_setEnv]
      split <;> simp

theorem exists_assigned_of_cells_ne (hexec : op.exec recordCall w = some w')
    {cell : S.Cell} (hcell : w'.cells cell ≠ w.cells cell) :
    ∃ obj ∈ op.assigned, w.deleterRef obj = .inr cell := by
  cases executed_of_exec hexec with
  | construct => exact absurd rfl hcell
  | constructHandle => exact absurd rfl hcell
  | constructDeleter => exact absurd rfl hcell
  | moveConstruct =>
      rw [UniqueRcHolderImpl.cells_moveConstruct] at hcell
      exact absurd rfl hcell
  | convertConstruct =>
      rw [UniqueRc.cells_convertConstruct] at hcell
      exact absurd rfl hcell
  | moveAssign =>
      have htarget := World.deleterRef_eq_of_cells_assignDeleter_ne _ _ _ _ _ hcell
      exact ⟨_, List.mem_cons_self, by simpa using htarget⟩
  | convertAssign =>
      have htarget := World.deleterRef_eq_of_cells_assignDeleter_ne _ _ _ _ _ hcell
      exact ⟨_, List.mem_cons_self, by simpa using htarget⟩
  | swap =>
      by_contra hnone
      simp only [assigned, List.mem_cons, List.not_mem_nil, or_false, exists_eq_or_imp,
        exists_eq_left, not_or] at hnone
      apply hcell
      simp [UniqueRcHolderImpl.swap, World.cells_setDeleter, hnone]
  | reset => exact absurd rfl hcell
  | resetInvalid => exact absurd rfl hcell
  | release => exact absurd rfl hcell
  | destroy => split at hcell <;> exact absurd rfl hcell

end Op

def Bound (w : World S (List (Call S))) : Prop :=
  ∀ obj, w.live obj = true → S.isReference obj.kind = true →
    ∃ cell, w.deleterRef obj = .inr cell

theorem Bound.exec {op : Op S} (h : Bound w) (hplain : op.plain = true)
    (hexec : op.exec recordCall w = some w') : Bound w' := by
  intro obj hobj hreference
  cases hlive : w.live obj with
  | true =>
      rw [Op.deleterRef_of_exec hexec hlive]
      exact h obj hlive hreference
  | false =>
      -- the object is the one that the operation constructs
      have hthis : ∀ this, Function.update w.live this true obj = true → obj = this := by
        intro this hupdate
        by_contra hne
        rw [Function.update_of_ne hne, hlive] at hupdate
        exact Bool.false_ne_true hupdate
      cases Op.executed_of_exec hexec with
      | construct _ hdel =>
          obtain rfl := hthis _ hobj
          rw [S.isReference_of_defaultConstruct hdel] at hreference
          exact absurd hreference Bool.false_ne_true
      | constructHandle _ hdel =>
          obtain rfl := hthis _ hobj
          rw [S.isReference_of_defaultConstruct hdel] at hreference
          exact absurd hreference Bool.false_ne_true
      | @constructDeleter _ hnd del _ hfits =>
          obtain rfl := hthis _ hobj
          cases del with
          | value del => simp [DeleterMember.fits, hreference] at hfits
          | reference cell => exact ⟨cell, by simp⟩
      | @moveConstruct kind this other left _ hother =>
          rw [UniqueRcHolderImpl.live_moveConstruct] at hobj
          obtain rfl := hthis _ hobj
          obtain ⟨cell, href⟩ := h ⟨kind, other⟩ hother hreference
          rw [UniqueRcHolderImpl.deleterRef_moveConstruct_of_reference _ _ _ _ _ href]
          exact ⟨cell, Function.update_self ..⟩
      | convertConstruct => exact absurd hplain Bool.false_ne_true
      | convertAssign => exact absurd hplain Bool.false_ne_true
      | moveAssign | swap => simp [hlive] at hobj
      | reset | resetInvalid | release =>
          exact absurd (hlive.symm.trans hobj) Bool.false_ne_true
      | @destroy this _ =>
          have hfalse : Function.update w.live this false obj = false := by
            by_cases heq : obj = this
            · simp [heq]
            · simp [heq, hlive]
          split at hobj <;> exact absurd (hfalse.symm.trans hobj) Bool.false_ne_true

/--
What one operation does to bindings, cells and handles.  The cells of `swap`
and of the move assignment may be the same, and others may be bound to them.
-/
structure ReferenceStep (op : Op S) (w w' : World S (List (Call S))) : Prop where
  binding : ∀ obj, w.live obj = true → w'.deleterRef obj = w.deleterRef obj
  moveConstruct : ∀ kind this other left, op = .moveConstruct kind this other left →
    ∀ cell, w.deleterRef ⟨kind, other⟩ = .inr cell →
      w'.deleterRef ⟨kind, this⟩ = .inr cell
  swap : ∀ kind a b, op = .swap kind a b → ∀ cellA cellB,
    w.deleterRef ⟨kind, a⟩ = .inr cellA → w.deleterRef ⟨kind, b⟩ = .inr cellB →
      w'.getHandle ⟨kind, a⟩ = w.getHandle ⟨kind, b⟩ ∧
      w'.getHandle ⟨kind, b⟩ = w.getHandle ⟨kind, a⟩ ∧
      w'.cells cellA = w.cells cellB ∧ w'.cells cellB = w.cells cellA
  moveAssign : ∀ kind a b left, op = .moveAssign kind a b left → a ≠ b →
    ∀ cellA cellB,
      w.deleterRef ⟨kind, a⟩ = .inr cellA → w.deleterRef ⟨kind, b⟩ = .inr cellB →
      w'.env = w.env ++ (if S.isOwned kind (w.getHandle ⟨kind, a⟩) then
          [⟨⟨kind, a⟩, w.cells cellA, w.getHandle ⟨kind, a⟩, w.getHandle ⟨kind, b⟩⟩]
        else []) ∧
      w'.getHandle ⟨kind, a⟩ = w.getHandle ⟨kind, b⟩ ∧
      w'.cells cellA = w.cells cellB ∧ w'.cells cellB = w.cells cellB ∧
      w'.getHandle ⟨kind, b⟩ = S.invalid kind
  frame : ∀ cell, w'.cells cell ≠ w.cells cell →
    ∃ obj ∈ op.assigned, w.deleterRef obj = .inr cell

theorem ReferenceStep.of_exec {op : Op S} (hexec : op.exec recordCall w = some w') :
    ReferenceStep op w w' where
  binding _ hlive := Op.deleterRef_of_exec hexec hlive
  moveConstruct kind this other left hop cell href := by
    subst hop
    cases Op.executed_of_exec hexec with
    | moveConstruct =>
        rw [UniqueRcHolderImpl.deleterRef_moveConstruct_of_reference _ _ _ _ _ href,
          Function.update_self]
  swap kind a b hop cellA cellB hrefA hrefB := by
    subst hop
    cases Op.executed_of_exec hexec with
    | swap =>
        have hhandles := UniqueRcHolderImpl.getHandle_swap kind a b w
        have hcells := UniqueRcHolderImpl.cells_swap_of_reference kind a b w hrefA hrefB
        refine ⟨?_, ?_, ?_, ?_⟩
        · by_cases hab : a = b
          · subst hab
            simp [hhandles]
          · simp [hhandles, hab]
        · simp [hhandles]
        · by_cases hcell : cellA = cellB
          · subst hcell
            simp [hcells]
          · simp [hcells, hcell]
        · simp [hcells]
  moveAssign kind a b left hop hab cellA cellB hrefA hrefB := by
    subst hop
    have hne : (⟨kind, a⟩ : Obj S) ≠ ⟨kind, b⟩ := by simpa using hab
    cases Op.executed_of_exec hexec with
    | moveAssign =>
        have hhandles := UniqueRcHolderImpl.getHandle_moveInto kind a b left w
        have hcells :=
          UniqueRcHolderImpl.cells_moveInto_of_reference kind a b left w hrefA hrefB
        refine ⟨?_, ?_, ?_, ?_, ?_⟩
        · simp [callOf, hne, World.getDeleter_eq_cells hrefA]
        · simp [hhandles]
        · simp [hcells]
        · by_cases hcell : cellB = cellA
          · subst hcell
            simp [hcells]
          · simp [hcells, hcell]
        · simp [hhandles, hne.symm]
  frame _ hcell := Op.exists_assigned_of_cells_ne hexec hcell

theorem Op.live_of_exec {op : Op S} (hexec : op.exec recordCall w = some w')
    {obj : Obj S} (hne : op ≠ .destroy obj) (hlive : w.live obj = true) :
    w'.live obj = true := by
  have hupdate : ∀ this, Function.update w.live this true obj = true := by
    intro this
    by_cases heq : obj = this
    · simp [heq]
    · simp [heq, hlive]
  cases Op.executed_of_exec hexec with
  | construct | constructHandle | constructDeleter => exact hupdate _
  | moveConstruct | convertConstruct => simpa using hupdate _
  | moveAssign | convertAssign | swap => simpa using hlive
  | reset | resetInvalid | release => exact hlive
  | @destroy this _ =>
      have hobj : obj ≠ this := fun heq => hne (by rw [heq])
      rw [World.live_endLifetime, Function.update_of_ne hobj]
      split <;> exact hlive

theorem deleterRef_of_run {ops : List (Op S)} {obj : Obj S}
    (hops : ∀ op ∈ ops, op ≠ .destroy obj) (hlive : w.live obj = true)
    (hrun : run (Op.exec recordCall) ops w = some w') :
    w'.live obj = true ∧ w'.deleterRef obj = w.deleterRef obj := by
  have hstep : ∀ (op : Op S) (s s' : World S (List (Call S))),
      s.live obj = true ∧ s.deleterRef obj = w.deleterRef obj → op ≠ .destroy obj →
      op.exec recordCall s = some s' →
      s'.live obj = true ∧ s'.deleterRef obj = w.deleterRef obj := by
    rintro op s s' ⟨hobj, href⟩ hop hexec
    have hkept := Op.deleterRef_of_exec hexec hobj
    exact ⟨Op.live_of_exec hexec hop hobj, hkept.trans href⟩
  exact run_preserves_along hstep ⟨hlive, rfl⟩
    (along_of_forall_mem fun op hop _ => hops op hop) hrun

/-- Fixed bindings, exchanged and copied effects, and nothing else, in every run. -/
theorem reference_deleters {ops : List (Op S)} {w₁ : World S (List (Call S))}
    (hstart : ∀ obj, w.live obj = false) (hplain : ∀ op ∈ ops, op.plain = true)
    (hrun : run (Op.exec recordCall) ops w = some w₁) :
    Bound w₁ ∧
      (∀ op w₂, op.exec recordCall w₁ = some w₂ → ReferenceStep op w₁ w₂) ∧
      ∀ rest w₂ obj, (∀ op ∈ rest, op ≠ .destroy obj) → w₁.live obj = true →
        run (Op.exec recordCall) rest w₁ = some w₂ →
          w₂.live obj = true ∧ w₂.deleterRef obj = w₁.deleterRef obj := by
  have hinitial : Bound w := by
    intro obj hlive
    rw [hstart obj] at hlive
    exact absurd hlive Bool.false_ne_true
  have hbound : Bound w₁ :=
    run_preserves_along (fun _ _ _ h hop hexec => h.exec hop hexec) hinitial
      (along_of_forall_mem fun op hop _ => hplain op hop) hrun
  exact ⟨hbound, fun _ _ => .of_exec, fun _ _ _ hops hlive => deleterRef_of_run hops hlive⟩

def referenceSignature : Signature where
  Kind := Unit
  Name := Option Bool
  Cell := Bool
  Deleter := Nat
  Handle _ := Int
  InvalidHandle _ := Int
  policy _ := defaultInvalidHandlePolicy bne id
  isReference _ := true
  defaultDeleter _ := none
  convertHandle _ _ := none
  convertDeleter _ _ := none
  assignDeleter _ _ := none
  selfResetCheck := true

def noReferences : World referenceSignature (List (Call referenceSignature)) where
  live _ := false
  objects _ := ⟨(0 : Int), .reference false⟩
  cells _ := (0 : Nat)
  env := []

/-- Two objects bound to one cell, and the second moved to a third. -/
def sharedCell : List (Op referenceSignature) :=
  [.constructDeleter ⟨(), some false⟩ (7 : Int) (.reference true),
    .constructDeleter ⟨(), some true⟩ (9 : Int) (.reference true),
    .moveConstruct () none (some true) (0 : Nat)]

theorem reference_deleters_sharedCell :
    ∃ w₁, run (Op.exec recordCall) sharedCell noReferences = some w₁ ∧
      Bound w₁ ∧ ∀ op w₂, op.exec recordCall w₁ = some w₂ → ReferenceStep op w₁ w₂ := by
  obtain ⟨w₁, hrun⟩ := Option.isSome_iff_exists.mp
    (show (run (Op.exec recordCall) sharedCell noReferences).isSome from rfl)
  have h := reference_deleters (fun _ => rfl) (by decide) hrun
  exact ⟨w₁, hrun, h.1, h.2.1⟩

end Raii
