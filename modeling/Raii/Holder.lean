import Raii.World

/-!
# `unique_rc_holder_impl`

The member functions of the holder, statement by statement.  What a deleter
does when it is called is a parameter, so that the same code can be run with
deleters that only leave a record, deleters that call back into the library,
and deleters that tear down a structure of further owners.
-/

namespace Raii

/--
The effect of `get_deleter()(hnd)`, called by the object `this` with the given
deleter value.  `none` stands for a call that never returns normally.
-/
abbrev DeleterCall (S : Signature) (Env : Type) :=
  (this : Obj S) → S.Deleter → S.Handle this.kind → World S Env →
    Option (World S Env)

namespace World

variable {S : Signature} {Env : Type}

/--
`get_deleter() = std::forward<D>(other.get_deleter())`.  For a non-reference
`D` this is a move, which leaves the value `left` in the source and does
nothing when both sides are the same object; for a reference it is a copy.
-/
def assignDeleter (this other : Obj S) (convert : S.Deleter → S.Deleter)
    (left : S.Deleter) (w : World S Env) : World S Env :=
  match (w.objects other).deleter with
  | .value del =>
      if this = other then w
      else (w.setDeleter this (convert del)).setDeleter other left
  | .reference cell => w.setDeleter this (convert (w.cells cell))

def moveDeleter (other : Obj S) (left : S.Deleter) (w : World S Env) :
    DeleterMember S × World S Env :=
  match (w.objects other).deleter with
  | .value del => (.value del, w.setDeleter other left)
  | .reference cell => (.reference cell, w)

section AssignDeleter

variable (this other : Obj S) (convert : S.Deleter → S.Deleter)
  (left : S.Deleter) (w : World S Env)

@[simp] theorem live_assignDeleter :
    (w.assignDeleter this other convert left).live = w.live := by
  unfold assignDeleter
  split
  · split <;> simp
  · simp

@[simp] theorem env_assignDeleter :
    (w.assignDeleter this other convert left).env = w.env := by
  unfold assignDeleter
  split
  · split <;> simp
  · simp

@[simp] theorem getHandle_assignDeleter :
    (w.assignDeleter this other convert left).getHandle = w.getHandle := by
  unfold assignDeleter
  split
  · split <;> simp
  · simp

@[simp] theorem deleterRef_assignDeleter :
    (w.assignDeleter this other convert left).deleterRef = w.deleterRef := by
  unfold assignDeleter
  split
  · split <;> simp
  · simp

theorem assignDeleter_setEnv (env : Env) :
    (w.setEnv env).assignDeleter this other convert left =
      (w.assignDeleter this other convert left).setEnv env := by
  simp only [assignDeleter, objects_setEnv, cells_setEnv, setDeleter_setEnv]
  split
  · split <;> rfl
  · rfl

theorem assignDeleter_of_value (h : w.deleterRef other = .inl other) :
    w.assignDeleter this other convert left =
      if this = other then w
      else (w.setDeleter this (convert (w.getDeleter other))).setDeleter other
        left := by
  simp only [assignDeleter, deleter_eq_value h]

theorem getDeleter_assignDeleter_of_value
    (hthis : w.deleterRef this = .inl this)
    (hother : w.deleterRef other = .inl other) :
    (w.assignDeleter this other convert left).getDeleter =
      if this = other then w.getDeleter
      else Function.update (Function.update w.getDeleter this
        (convert (w.getDeleter other))) other left := by
  rw [assignDeleter_of_value _ _ _ _ _ hother]
  split
  · rfl
  · rw [getDeleter_setDeleter_of_value _ _ _ (by simpa using hother),
      getDeleter_setDeleter_of_value _ _ _ hthis]

theorem cells_assignDeleter_of_value (hthis : w.deleterRef this = .inl this)
    (hother : w.deleterRef other = .inl other) :
    (w.assignDeleter this other convert left).cells = w.cells := by
  rw [assignDeleter_of_value _ _ _ _ _ hother]
  split
  · rfl
  · rw [cells_setDeleter_of_value _ _ _ (by simpa using hother),
      cells_setDeleter_of_value _ _ _ hthis]

theorem assignDeleter_of_reference {cell : S.Cell}
    (h : w.deleterRef other = .inr cell) :
    w.assignDeleter this other convert left =
      w.setDeleter this (convert (w.cells cell)) := by
  simp only [assignDeleter, deleter_eq_reference h]

theorem deleterRef_eq_of_cells_assignDeleter_ne {cell : S.Cell}
    (h : (w.assignDeleter this other convert left).cells cell ≠ w.cells cell) :
    w.deleterRef this = .inr cell := by
  by_contra hne
  apply h
  cases href : w.deleterRef other with
  | inl obj =>
      obtain rfl := eq_of_deleterRef href
      rw [assignDeleter_of_value _ _ _ _ _ href]
      split
      · rfl
      · rw [cells_setDeleter_of_value _ _ _ (by simpa using href), cells_setDeleter,
          if_neg hne]
  | inr source =>
      rw [assignDeleter_of_reference _ _ _ _ _ href, cells_setDeleter, if_neg hne]

end AssignDeleter

section MoveDeleter

variable (other : Obj S) (left : S.Deleter) (w : World S Env)

@[simp] theorem live_moveDeleter : (w.moveDeleter other left).2.live = w.live := by
  unfold moveDeleter
  split <;> simp

@[simp] theorem env_moveDeleter : (w.moveDeleter other left).2.env = w.env := by
  unfold moveDeleter
  split <;> simp

@[simp] theorem getHandle_moveDeleter :
    (w.moveDeleter other left).2.getHandle = w.getHandle := by
  unfold moveDeleter
  split <;> simp

@[simp] theorem deleterRef_moveDeleter :
    (w.moveDeleter other left).2.deleterRef = w.deleterRef := by
  unfold moveDeleter
  split <;> simp

theorem moveDeleter_of_value (h : w.deleterRef other = .inl other) :
    w.moveDeleter other left =
      (.value (w.getDeleter other), w.setDeleter other left) := by
  simp only [moveDeleter, deleter_eq_value h]

theorem moveDeleter_of_reference {cell : S.Cell}
    (h : w.deleterRef other = .inr cell) :
    w.moveDeleter other left = (.reference cell, w) := by
  simp only [moveDeleter, deleter_eq_reference h]

end MoveDeleter

end World

namespace UniqueRcHolderImpl

variable {S : Signature} {Env : Type} (call : DeleterCall S Env)

def release (this : Obj S) (w : World S Env) :
    S.Handle this.kind × World S Env :=
  let hnd := w.getHandle this
  (hnd, w.setHandle this (S.invalid this.kind))

/-- The handle is exchanged before the deleter of the old one is called. -/
def reset (this : Obj S) (hnd : S.Handle this.kind) (w : World S Env) :
    Option (World S Env) :=
  let oldH := w.getHandle this
  let w := w.setHandle this hnd
  if S.isOwned this.kind oldH then
    if S.selfResetCheck && oldH == hnd then none
    else call this (w.getDeleter this) oldH w
  else some w

def moveConstruct (kind : S.Kind) (this other : S.Name) (left : S.Deleter)
    (w : World S Env) : World S Env :=
  let hnd := w.getHandle ⟨kind, other⟩
  let (del, w) := w.moveDeleter ⟨kind, other⟩ left
  let w := w.construct ⟨kind, this⟩ ⟨hnd, del⟩
  w.setHandle ⟨kind, other⟩ (S.invalid kind)

def moveAssign (kind : S.Kind) (this other : S.Name) (left : S.Deleter)
    (w : World S Env) : Option (World S Env) := do
  let (hnd, w) := release ⟨kind, other⟩ w
  let w ← reset call ⟨kind, this⟩ hnd w
  some (w.assignDeleter ⟨kind, this⟩ ⟨kind, other⟩ id left)

def swap (kind : S.Kind) (this rhs : S.Name) (w : World S Env) : World S Env :=
  let hnd := w.getHandle ⟨kind, this⟩
  let hnd' := w.getHandle ⟨kind, rhs⟩
  let w := (w.setHandle ⟨kind, this⟩ hnd').setHandle ⟨kind, rhs⟩ hnd
  let del := w.getDeleter ⟨kind, this⟩
  let del' := w.getDeleter ⟨kind, rhs⟩
  (w.setDeleter ⟨kind, this⟩ del').setDeleter ⟨kind, rhs⟩ del

/-! ## What each member function does -/

theorem reset_of_not_owned {this : Obj S} {hnd : S.Handle this.kind}
    {w : World S Env} (h : S.isOwned this.kind (w.getHandle this) = false) :
    reset call this hnd w = some (w.setHandle this hnd) := by
  simp [reset, h]

theorem reset_of_owned {this : Obj S} {hnd : S.Handle this.kind}
    {w : World S Env} (h : S.isOwned this.kind (w.getHandle this) = true)
    (hne : S.selfResetCheck = true → w.getHandle this ≠ hnd) :
    reset call this hnd w =
      call this (w.getDeleter this) (w.getHandle this) (w.setHandle this hnd) := by
  have hcheck : (S.selfResetCheck && w.getHandle this == hnd) = false := by
    cases hflag : S.selfResetCheck with
    | false => rfl
    | true => simpa using hne hflag
  simp [reset, h, hcheck]

theorem reset_cases {this : Obj S} {hnd : S.Handle this.kind}
    {w w' : World S Env} (hrun : reset call this hnd w = some w') :
    (S.isOwned this.kind (w.getHandle this) = false ∧
      w' = w.setHandle this hnd) ∨
    (S.isOwned this.kind (w.getHandle this) = true ∧
      (S.selfResetCheck = true → w.getHandle this ≠ hnd) ∧
      call this (w.getDeleter this) (w.getHandle this)
        (w.setHandle this hnd) = some w') := by
  cases howned : S.isOwned this.kind (w.getHandle this) with
  | false =>
      rw [reset_of_not_owned call howned, Option.some.injEq] at hrun
      exact .inl ⟨rfl, hrun.symm⟩
  | true =>
      by_cases hne : S.selfResetCheck = true → w.getHandle this ≠ hnd
      · rw [reset_of_owned call howned hne] at hrun
        exact .inr ⟨rfl, hne, hrun⟩
      · obtain ⟨hflag, heq⟩ := Classical.not_imp.mp hne
        obtain rfl : w.getHandle this = hnd := not_not.mp heq
        simp [reset, howned, hflag] at hrun

theorem moveAssign_eq_some_iff {kind : S.Kind} {this other : S.Name}
    {left : S.Deleter} {w w' : World S Env} :
    moveAssign call kind this other left w = some w' ↔
      ∃ w₁, reset call ⟨kind, this⟩ (w.getHandle ⟨kind, other⟩)
          (w.setHandle ⟨kind, other⟩ (S.invalid kind)) = some w₁ ∧
        w' = w₁.assignDeleter ⟨kind, this⟩ ⟨kind, other⟩ id left := by
  constructor
  · intro hrun
    obtain ⟨w₁, hreset, hassign⟩ := Option.bind_eq_some_iff.mp hrun
    exact ⟨w₁, hreset, (Option.some.inj hassign).symm⟩
  · rintro ⟨w₁, hreset, rfl⟩
    exact Option.bind_eq_some_iff.mpr ⟨w₁, hreset, rfl⟩

/-- The writes of a move assignment, without the deleter call between them. -/
def moveInto (kind : S.Kind) (this other : S.Name) (left : S.Deleter)
    (w : World S Env) : World S Env :=
  ((w.setHandle ⟨kind, other⟩ (S.invalid kind)).setHandle ⟨kind, this⟩
    (w.getHandle ⟨kind, other⟩)).assignDeleter ⟨kind, this⟩ ⟨kind, other⟩ id left

theorem moveAssign_of_not_owned {kind : S.Kind} {this other : S.Name}
    {left : S.Deleter} {w : World S Env}
    (h : S.isOwned kind ((w.setHandle ⟨kind, other⟩ (S.invalid kind)).getHandle
      ⟨kind, this⟩) = false) :
    moveAssign call kind this other left w =
      some (moveInto kind this other left w) := by
  rw [moveAssign_eq_some_iff]
  exact ⟨_, reset_of_not_owned call h, rfl⟩

section MoveInto

variable (kind : S.Kind) (this other : S.Name) (left : S.Deleter)
  (w : World S Env)

@[simp] theorem live_moveInto : (moveInto kind this other left w).live = w.live := by
  simp [moveInto]

@[simp] theorem env_moveInto : (moveInto kind this other left w).env = w.env := by
  simp [moveInto]

@[simp] theorem deleterRef_moveInto :
    (moveInto kind this other left w).deleterRef = w.deleterRef := by
  simp [moveInto]

theorem getHandle_moveInto :
    (moveInto kind this other left w).getHandle =
      Function.update (Function.update w.getHandle ⟨kind, other⟩ (S.invalid kind))
        ⟨kind, this⟩ (w.getHandle ⟨kind, other⟩) := by
  simp [moveInto]

theorem getDeleter_moveInto_of_value
    (hthis : w.deleterRef ⟨kind, this⟩ = .inl ⟨kind, this⟩)
    (hother : w.deleterRef ⟨kind, other⟩ = .inl ⟨kind, other⟩) :
    (moveInto kind this other left w).getDeleter =
      if this = other then w.getDeleter
      else Function.update (Function.update w.getDeleter ⟨kind, this⟩
        (w.getDeleter ⟨kind, other⟩)) ⟨kind, other⟩ left := by
  rw [moveInto, World.getDeleter_assignDeleter_of_value _ _ _ _ _
    (by simpa using hthis) (by simpa using hother)]
  simp

theorem cells_moveInto_of_value
    (hthis : w.deleterRef ⟨kind, this⟩ = .inl ⟨kind, this⟩)
    (hother : w.deleterRef ⟨kind, other⟩ = .inl ⟨kind, other⟩) :
    (moveInto kind this other left w).cells = w.cells := by
  rw [moveInto, World.cells_assignDeleter_of_value _ _ _ _ _
    (by simpa using hthis) (by simpa using hother)]
  rfl

theorem cells_moveInto_of_reference {target source : S.Cell}
    (hthis : w.deleterRef ⟨kind, this⟩ = .inr target)
    (hother : w.deleterRef ⟨kind, other⟩ = .inr source) :
    (moveInto kind this other left w).cells =
      Function.update w.cells target (w.cells source) := by
  rw [moveInto, World.assignDeleter_of_reference _ _ _ _ _ (by simpa using hother)]
  funext cell
  rw [World.cells_setDeleter, World.deleterRef_setHandle, World.deleterRef_setHandle,
    hthis, Function.update_apply]
  simp only [Sum.inr.injEq, eq_comm, World.cells_setHandle, id]

theorem getDeleter_moveInto_of_reference {target source : S.Cell}
    (hthis : w.deleterRef ⟨kind, this⟩ = .inr target)
    (hother : w.deleterRef ⟨kind, other⟩ = .inr source) (obj : Obj S) :
    (moveInto kind this other left w).getDeleter obj =
      if w.deleterRef obj = .inr target then w.cells source
      else w.getDeleter obj := by
  rw [moveInto, World.assignDeleter_of_reference _ _ _ _ _ (by simpa using hother),
    World.getDeleter_setDeleter]
  simp only [World.deleterRef_setHandle, World.getDeleter_setHandle,
    World.cells_setHandle, hthis, id]

end MoveInto

section Swap

variable (kind : S.Kind) (this rhs : S.Name) (w : World S Env)

@[simp] theorem live_swap : (swap kind this rhs w).live = w.live := by
  simp [swap]

@[simp] theorem env_swap : (swap kind this rhs w).env = w.env := by
  simp [swap]

@[simp] theorem deleterRef_swap :
    (swap kind this rhs w).deleterRef = w.deleterRef := by
  simp [swap]

theorem getHandle_swap :
    (swap kind this rhs w).getHandle =
      Function.update
        (Function.update w.getHandle ⟨kind, this⟩ (w.getHandle ⟨kind, rhs⟩))
        ⟨kind, rhs⟩ (w.getHandle ⟨kind, this⟩) := by
  simp [swap]

theorem getDeleter_swap_of_value
    (hthis : w.deleterRef ⟨kind, this⟩ = .inl ⟨kind, this⟩)
    (hrhs : w.deleterRef ⟨kind, rhs⟩ = .inl ⟨kind, rhs⟩) :
    (swap kind this rhs w).getDeleter =
      Function.update
        (Function.update w.getDeleter ⟨kind, this⟩ (w.getDeleter ⟨kind, rhs⟩))
        ⟨kind, rhs⟩ (w.getDeleter ⟨kind, this⟩) := by
  rw [swap, World.getDeleter_setDeleter_of_value _ _ _ (by simpa using hrhs),
    World.getDeleter_setDeleter_of_value _ _ _ (by simpa using hthis)]
  simp only [World.getDeleter_setHandle]

theorem cells_swap_of_value
    (hthis : w.deleterRef ⟨kind, this⟩ = .inl ⟨kind, this⟩)
    (hrhs : w.deleterRef ⟨kind, rhs⟩ = .inl ⟨kind, rhs⟩) :
    (swap kind this rhs w).cells = w.cells := by
  rw [swap, World.cells_setDeleter_of_value _ _ _ (by simpa using hrhs),
    World.cells_setDeleter_of_value _ _ _ (by simpa using hthis)]
  rfl

theorem cells_swap_of_reference {target source : S.Cell}
    (hthis : w.deleterRef ⟨kind, this⟩ = .inr target)
    (hrhs : w.deleterRef ⟨kind, rhs⟩ = .inr source) :
    (swap kind this rhs w).cells =
      Function.update (Function.update w.cells target (w.cells source)) source
        (w.cells target) := by
  funext cell
  simp only [swap, World.cells_setDeleter, World.deleterRef_setDeleter,
    World.deleterRef_setHandle, World.getDeleter_setHandle, World.cells_setHandle,
    hthis, hrhs, World.getDeleter_eq_cells hthis, World.getDeleter_eq_cells hrhs,
    Function.update_apply, Sum.inr.injEq, eq_comm]

theorem getDeleter_swap_of_reference {target source : S.Cell}
    (hthis : w.deleterRef ⟨kind, this⟩ = .inr target)
    (hrhs : w.deleterRef ⟨kind, rhs⟩ = .inr source) (obj : Obj S) :
    (swap kind this rhs w).getDeleter obj =
      if w.deleterRef obj = .inr source then w.cells target
      else if w.deleterRef obj = .inr target then w.cells source
      else w.getDeleter obj := by
  simp only [swap, World.getDeleter_setDeleter, World.deleterRef_setDeleter,
    World.deleterRef_setHandle, World.getDeleter_setHandle, hthis, hrhs,
    World.getDeleter_eq_cells hthis, World.getDeleter_eq_cells hrhs]

end Swap

section MoveConstruct

variable (kind : S.Kind) (this other : S.Name) (left : S.Deleter)
  (w : World S Env)

@[simp] theorem live_moveConstruct :
    (moveConstruct kind this other left w).live =
      Function.update w.live ⟨kind, this⟩ true := by
  simp [moveConstruct]

@[simp] theorem env_moveConstruct :
    (moveConstruct kind this other left w).env = w.env := by
  simp [moveConstruct]

theorem getHandle_moveConstruct :
    (moveConstruct kind this other left w).getHandle =
      Function.update
        (Function.update w.getHandle ⟨kind, this⟩ (w.getHandle ⟨kind, other⟩))
        ⟨kind, other⟩ (S.invalid kind) := by
  simp [moveConstruct]

theorem deleterRef_moveConstruct_of_ne {obj : Obj S} (h : obj ≠ ⟨kind, this⟩) :
    (moveConstruct kind this other left w).deleterRef obj = w.deleterRef obj := by
  simp [moveConstruct, World.deleterRef_construct_of_ne _ _ _ h]

theorem moveConstruct_of_value
    (h : w.deleterRef ⟨kind, other⟩ = .inl ⟨kind, other⟩) :
    moveConstruct kind this other left w =
      ((w.setDeleter ⟨kind, other⟩ left).construct ⟨kind, this⟩
        ⟨w.getHandle ⟨kind, other⟩, .value (w.getDeleter ⟨kind, other⟩)⟩).setHandle
        ⟨kind, other⟩ (S.invalid kind) := by
  simp [moveConstruct, World.moveDeleter_of_value _ _ _ h]

theorem moveConstruct_of_reference {cell : S.Cell}
    (h : w.deleterRef ⟨kind, other⟩ = .inr cell) :
    moveConstruct kind this other left w =
      (w.construct ⟨kind, this⟩
        ⟨w.getHandle ⟨kind, other⟩, .reference cell⟩).setHandle
        ⟨kind, other⟩ (S.invalid kind) := by
  simp [moveConstruct, World.moveDeleter_of_reference _ _ _ h]

theorem getDeleter_moveConstruct_of_value
    (h : w.deleterRef ⟨kind, other⟩ = .inl ⟨kind, other⟩) :
    (moveConstruct kind this other left w).getDeleter =
      Function.update (Function.update w.getDeleter ⟨kind, other⟩ left)
        ⟨kind, this⟩ (w.getDeleter ⟨kind, other⟩) := by
  rw [moveConstruct_of_value _ _ _ _ _ h, World.getDeleter_setHandle,
    World.getDeleter_construct_value, World.getDeleter_setDeleter_of_value _ _ _ h]

theorem deleterRef_moveConstruct_of_value
    (h : w.deleterRef ⟨kind, other⟩ = .inl ⟨kind, other⟩) :
    (moveConstruct kind this other left w).deleterRef =
      Function.update w.deleterRef ⟨kind, this⟩ (.inl ⟨kind, this⟩) := by
  rw [moveConstruct_of_value _ _ _ _ _ h, World.deleterRef_setHandle,
    World.deleterRef_construct_value, World.deleterRef_setDeleter]

theorem getDeleter_moveConstruct_of_reference {cell : S.Cell}
    (h : w.deleterRef ⟨kind, other⟩ = .inr cell) :
    (moveConstruct kind this other left w).getDeleter =
      Function.update w.getDeleter ⟨kind, this⟩ (w.cells cell) := by
  rw [moveConstruct_of_reference _ _ _ _ _ h, World.getDeleter_setHandle,
    World.getDeleter_construct_reference]

theorem deleterRef_moveConstruct_of_reference {cell : S.Cell}
    (h : w.deleterRef ⟨kind, other⟩ = .inr cell) :
    (moveConstruct kind this other left w).deleterRef =
      Function.update w.deleterRef ⟨kind, this⟩ (.inr cell) := by
  rw [moveConstruct_of_reference _ _ _ _ _ h, World.deleterRef_setHandle,
    World.deleterRef_construct_reference]

theorem cells_moveConstruct :
    (moveConstruct kind this other left w).cells = w.cells := by
  cases h : w.deleterRef ⟨kind, other⟩ with
  | inl obj =>
      obtain rfl := World.eq_of_deleterRef h
      rw [moveConstruct_of_value _ _ _ _ _ h, World.cells_setHandle,
        World.cells_construct, World.cells_setDeleter_of_value _ _ _ h]
  | inr cell =>
      rw [moveConstruct_of_reference _ _ _ _ _ h, World.cells_setHandle,
        World.cells_construct]

end MoveConstruct

end UniqueRcHolderImpl

end Raii
