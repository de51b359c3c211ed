import Raii.Comparison
import Raii.Foundation.Operators
import Raii.Foundation.Run

/-!
# Comparison and hashing of the derived classes

`unique_ptr` and `unique_coroutine_handle` declare comparison operators of
their own.  Where the constraint on the element types fails, the operators that
are declared for `unique_rc` are found through the base class.
-/

namespace Raii

open Foundation
open Nullable (null)

structure DeleterKinds where
  Kind : Type
  Name : Type
  Cell : Type
  Deleter : Type
  isReference : Kind → Bool
  defaultDeleter : Kind → Option Deleter
  convertDeleter : (source target : Kind) → Option (Deleter → Deleter)
  assignDeleter : (source target : Kind) → Option (Deleter → Deleter)
  selfResetCheck : Bool
  [decEqKind : DecidableEq Kind]
  [decEqName : DecidableEq Name]
  [decEqCell : DecidableEq Cell]

attribute [instance] DeleterKinds.decEqKind DeleterKinds.decEqName
  DeleterKinds.decEqCell

/--
Instantiations `unique_ptr<T, D>` and `unique_ptr<T[], D>` over one pointer type;
`element` is the first template argument.  `equalityComparableWith` answers for
`std::equality_comparable_with`, `eqNullptr` is `==` of a pointer and `nullptr`,
and `hash` is `std::hash<Pointer>`, if that is enabled.
-/
structure UniquePtrKinds extends DeleterKinds where
  Pointer : Type
  Element : Type
  Size : Type
  element : Kind → Element
  equalityComparableWith : Element → Element → Bool
  eqNullptr : Pointer → Bool
  hash : Option (Pointer → Size)
  [nullable : Nullable Pointer]
  [linearOrder : LinearOrder Pointer]
  null_le : ∀ ptr : Pointer, null ≤ ptr

attribute [instance] UniquePtrKinds.nullable UniquePtrKinds.linearOrder

abbrev UniquePtrKinds.pointers (P : UniquePtrKinds) : PointerKinds where
  Kind := P.Kind
  Name := P.Name
  Cell := P.Cell
  Deleter := P.Deleter
  Pointer := P.Pointer
  InvalidHandle _ := NullptrT
  policy _ := fancyInvalidHandlePolicy P.eqNullptr
  isReference := P.isReference
  defaultDeleter := P.defaultDeleter
  convertDeleter := P.convertDeleter
  assignDeleter := P.assignDeleter
  selfResetCheck := P.selfResetCheck
  null_le := P.null_le

section Coroutines

variable {Address : Type}

instance [Nullable Address] : Nullable (CoroutineHandle Address) := ⟨⟨null⟩⟩

theorem CoroutineHandle.address_inj {a b : CoroutineHandle Address} :
    a.address = b.address ↔ a = b := by
  cases a
  cases b
  exact (CoroutineHandle.mk.injEq ..).symm.to_iff

instance [LinearOrder Address] : LinearOrder (CoroutineHandle Address) where
  le a b := a.address ≤ b.address
  lt a b := a.address < b.address
  compare a b := compare a.address b.address
  le_refl a := le_refl a.address
  le_trans a b c := le_trans
  lt_iff_le_not_ge a b := lt_iff_le_not_ge
  le_antisymm a b h h' := CoroutineHandle.address_inj.mp (le_antisymm h h')
  le_total a b := le_total a.address b.address
  toDecidableLE a b := inferInstanceAs (Decidable (a.address ≤ b.address))
  toDecidableLT a b := inferInstanceAs (Decidable (a.address < b.address))
  toDecidableEq := inferInstance
  compare_eq_compareOfLessAndEq a b := by
    rw [LinearOrder.compare_eq_compareOfLessAndEq]
    simp only [compareOfLessAndEq, CoroutineHandle.address_inj]

end Coroutines

/--
Instantiations of `unique_coroutine_handle`; the promise type `none` is `void`.
`hash` is `std::hash<std::coroutine_handle<Promise>>`.
-/
structure CoroutineKinds extends DeleterKinds where
  Promise : Type
  Address : Type
  Size : Type
  promise : Kind → Option Promise
  equalityComparableWith : Option Promise → Option Promise → Bool
  hash : Option Promise → CoroutineHandle Address → Size
  [decEqPromise : DecidableEq Promise]
  [nullable : Nullable Address]
  [linearOrder : LinearOrder Address]
  null_le : ∀ address : Address, null ≤ address

attribute [instance] CoroutineKinds.decEqPromise CoroutineKinds.nullable
  CoroutineKinds.linearOrder

namespace CoroutineKinds

abbrev handles (C : CoroutineKinds) : PointerKinds where
  Kind := C.Kind
  Name := C.Name
  Cell := C.Cell
  Deleter := C.Deleter
  Pointer := CoroutineHandle C.Address
  InvalidHandle _ := NullptrT
  policy _ := coroInvalidHandlePolicy
  isReference := C.isReference
  defaultDeleter := C.defaultDeleter
  convertDeleter := C.convertDeleter
  assignDeleter := C.assignDeleter
  selfResetCheck := C.selfResetCheck
  null_le hnd := C.null_le hnd.address

/--
`std::equality_comparable_with` and `std::three_way_comparable_with` of two
handle types ask for a common type.  A coroutine handle converts to
`std::coroutine_handle<>` only.
-/
def comparable (C : CoroutineKinds) (kind kind' : C.Kind) : Bool :=
  C.promise kind = C.promise kind' || C.promise kind = none ||
    C.promise kind' = none

end CoroutineKinds

/-! ## Overload resolution -/

/-- The comparison overloads for a class template; `none` where a constraint fails. -/
structure OverloadSet (P : PointerKinds) (Env : Type) where
  operatorEq : (lhs rhs : Obj P.signature) → World P.signature Env → Option Bool
  operatorEqNullptr : (lhs : Obj P.signature) → World P.signature Env → Option Bool
  operatorCmp : (lhs rhs : Obj P.signature) → World P.signature Env → Option Ordering
  operatorCmpNullptr : (lhs : Obj P.signature) → World P.signature Env →
    Option Ordering

namespace OverloadSet

variable {P : PointerKinds} {Env : Type}

/-- An overload for the class itself is preferred to one for its base. -/
def inherit (derived base : OverloadSet P Env) : OverloadSet P Env where
  operatorEq lhs rhs w := (derived.operatorEq lhs rhs w).or (base.operatorEq lhs rhs w)
  operatorEqNullptr lhs w :=
    (derived.operatorEqNullptr lhs w).or (base.operatorEqNullptr lhs w)
  operatorCmp lhs rhs w :=
    (derived.operatorCmp lhs rhs w).or (base.operatorCmp lhs rhs w)
  operatorCmpNullptr lhs w :=
    (derived.operatorCmpNullptr lhs w).or (base.operatorCmpNullptr lhs w)

/-- No overload takes `nullptr` on the left.  As an element, `nullptr` equals itself. -/
def overloads (o : OverloadSet P Env) (w : World P.signature Env) :
    Overloads (Operand P) where
  eq
    | .object lhs, .object rhs => o.operatorEq lhs rhs w
    | .object lhs, .nullptr => o.operatorEqNullptr lhs w
    | .nullptr, .object _ => none
    | .nullptr, .nullptr => some true
  cmp
    | .object lhs, .object rhs => o.operatorCmp lhs rhs w
    | .object lhs, .nullptr => o.operatorCmpNullptr lhs w
    | .nullptr, .object _ => none
    | .nullptr, .nullptr => some .eq

end OverloadSet

namespace UniqueRc

variable {P : PointerKinds} {Env : Type}

/--
The arguments answer for the concepts that constrain two handle types.  Each
handle type by itself is three-way comparable, and comparable with `nullptr`.
-/
def overloadSet (equalityComparableWith threeWayComparableWith : P.Kind → P.Kind → Bool) :
    OverloadSet P Env where
  operatorEq lhs rhs w :=
    if equalityComparableWith lhs.kind rhs.kind then some (operatorEq lhs rhs w)
    else none
  operatorEqNullptr lhs w := some (operatorEqNullptr lhs w)
  operatorCmp lhs rhs w :=
    if threeWayComparableWith lhs.kind rhs.kind then some (operatorCmp lhs rhs w)
    else none
  operatorCmpNullptr lhs w := some (operatorCmpNullptr lhs w)

def hash {Size : Type} (stdHash : Option (P.Pointer → Size))
    (res : Obj P.signature) (w : World P.signature Env) : Option Size :=
  stdHash.map fun hash => hash (get res w)

end UniqueRc

namespace UniquePtr

variable {P : UniquePtrKinds} {Env : Type}

def operatorEq (lhs rhs : Obj P.pointers.signature)
    (w : World P.pointers.signature Env) : Bool :=
  decide ((UniqueRc.get lhs w : P.Pointer) = UniqueRc.get rhs w)

def operatorEqNullptr (lhs : Obj P.pointers.signature)
    (w : World P.pointers.signature Env) : Bool :=
  !UniqueRc.operatorBool lhs w

def operatorCmp (lhs rhs : Obj P.pointers.signature)
    (w : World P.pointers.signature Env) : Ordering :=
  compare (UniqueRc.get lhs w : P.Pointer) (UniqueRc.get rhs w)

def operatorCmpNullptr (lhs : Obj P.pointers.signature)
    (w : World P.pointers.signature Env) : Ordering :=
  compare (UniqueRc.get lhs w : P.Pointer) null

variable (P) in
def overloadSet : OverloadSet P.pointers Env where
  operatorEq lhs rhs w :=
    if P.equalityComparableWith (P.element lhs.kind) (P.element rhs.kind) then
      some (operatorEq lhs rhs w)
    else none
  operatorEqNullptr lhs w := some (operatorEqNullptr lhs w)
  operatorCmp lhs rhs w := some (operatorCmp lhs rhs w)
  operatorCmpNullptr lhs w := some (operatorCmpNullptr lhs w)

/-- Pointers with a total order satisfy the concepts that constrain the handle types. -/
def operators (w : World P.pointers.signature Env) : Overloads (Operand P.pointers) :=
  ((overloadSet P).inherit
    (UniqueRc.overloadSet (fun _ _ => true) fun _ _ => true)).overloads w

def hash (res : Obj P.pointers.signature) (w : World P.pointers.signature Env) :
    Option P.Size :=
  UniqueRc.hash P.hash res w

end UniquePtr

namespace UniqueCoroutineHandle

variable {C : CoroutineKinds} {Env : Type}

def operatorEq (lhs rhs : Obj C.handles.signature)
    (w : World C.handles.signature Env) : Bool :=
  decide ((UniqueRc.get lhs w : CoroutineHandle C.Address) = UniqueRc.get rhs w)

def operatorEqNullptr (lhs : Obj C.handles.signature)
    (w : World C.handles.signature Env) : Bool :=
  !UniqueRc.operatorBool lhs w

def operatorCmp (lhs rhs : Obj C.handles.signature)
    (w : World C.handles.signature Env) : Ordering :=
  compare (UniqueRc.get lhs w : CoroutineHandle C.Address) (UniqueRc.get rhs w)

/-- The source compares with `handle{}`. -/
def operatorCmpNullptr (lhs : Obj C.handles.signature)
    (w : World C.handles.signature Env) : Ordering :=
  compare (UniqueRc.get lhs w : CoroutineHandle C.Address) ⟨null⟩

variable (C) in
def overloadSet : OverloadSet C.handles Env where
  operatorEq lhs rhs w :=
    if C.equalityComparableWith (C.promise lhs.kind) (C.promise rhs.kind) then
      some (operatorEq lhs rhs w)
    else none
  operatorEqNullptr lhs w := some (operatorEqNullptr lhs w)
  operatorCmp lhs rhs w :=
    if C.comparable lhs.kind rhs.kind then some (operatorCmp lhs rhs w) else none
  operatorCmpNullptr lhs w := some (operatorCmpNullptr lhs w)

def operators (w : World C.handles.signature Env) : Overloads (Operand C.handles) :=
  ((overloadSet C).inherit
    (UniqueRc.overloadSet C.comparable C.comparable)).overloads w

def hash (res : Obj C.handles.signature) (w : World C.handles.signature Env) :
    Option C.Size :=
  UniqueRc.hash (P := C.handles) (some (C.hash (C.promise res.kind))) res w

end UniqueCoroutineHandle

/-! ## One order behind all overloads -/

structure OverloadSet.ComparesHandles {P : PointerKinds} {Env : Type}
    (o : OverloadSet P Env) : Prop where
  eq : ∀ lhs rhs w answer, o.operatorEq lhs rhs w = some answer →
    answer = decide ((UniqueRc.get lhs w : P.Pointer) = UniqueRc.get rhs w)
  eqNullptr : ∀ lhs w answer, o.operatorEqNullptr lhs w = some answer →
    answer = decide ((UniqueRc.get lhs w : P.Pointer) = null)
  cmp : ∀ lhs rhs w answer, o.operatorCmp lhs rhs w = some answer →
    answer = compare (UniqueRc.get lhs w : P.Pointer) (UniqueRc.get rhs w)
  cmpNullptr : ∀ lhs w answer, o.operatorCmpNullptr lhs w = some answer →
    answer = compare (UniqueRc.get lhs w : P.Pointer) null

section ComparesHandles

variable {P : PointerKinds} {Env : Type} {o : OverloadSet P Env}

theorem OverloadSet.ComparesHandles.inherit {derived base : OverloadSet P Env}
    (hderived : derived.ComparesHandles) (hbase : base.ComparesHandles) :
    (derived.inherit base).ComparesHandles where
  eq lhs rhs w _ := Overloads.of_or_eq_some (hderived.eq lhs rhs w) (hbase.eq lhs rhs w)
  eqNullptr lhs w _ :=
    Overloads.of_or_eq_some (hderived.eqNullptr lhs w) (hbase.eqNullptr lhs w)
  cmp lhs rhs w _ :=
    Overloads.of_or_eq_some (hderived.cmp lhs rhs w) (hbase.cmp lhs rhs w)
  cmpNullptr lhs w _ :=
    Overloads.of_or_eq_some (hderived.cmpNullptr lhs w) (hbase.cmpNullptr lhs w)

theorem OverloadSet.ComparesHandles.agrees (h : o.ComparesHandles)
    (w : World P.signature Env) : (o.overloads w).Agrees (Operand.key w) := by
  apply Overloads.Agrees.of_declared
  · intro x y answer hanswer
    cases x with
    | nullptr =>
        cases y with
        | nullptr =>
            obtain rfl := Option.some.inj hanswer
            exact (decide_eq_true rfl).symm
        | object rhs => exact nomatch hanswer
    | object lhs =>
        cases y with
        | nullptr => exact h.eqNullptr lhs w answer hanswer
        | object rhs => exact h.eq lhs rhs w answer hanswer
  · intro x y answer hanswer
    cases x with
    | nullptr =>
        cases y with
        | nullptr =>
            obtain rfl := Option.some.inj hanswer
            exact (compare_eq_iff_eq.mpr rfl).symm
        | object rhs => exact nomatch hanswer
    | object lhs =>
        cases y with
        | nullptr => exact h.cmpNullptr lhs w answer hanswer
        | object rhs => exact h.cmp lhs rhs w answer hanswer

theorem OverloadSet.ComparesHandles.get_eq (h : o.ComparesHandles)
    {w : World P.signature Env} {x y : Obj P.signature}
    (hequal : (o.overloads w).equal (.object x) (.object y) = some true) :
    (UniqueRc.get x w : P.Pointer) = UniqueRc.get y w :=
  of_decide_eq_true ((h.agrees w).equal _ _ true hequal).symm

variable (hexact : ∀ kind, (P.policy kind).Exact)
  (hnull : ∀ kind, P.signature.invalid kind = (null : P.Pointer))

include hexact hnull

theorem not_operatorBool_eq (obj : Obj P.signature) (w : World P.signature Env) :
    (!UniqueRc.operatorBool obj w) =
      decide ((UniqueRc.get obj w : P.Pointer) = null) := by
  rw [Bool.eq_iff_iff, decide_eq_true_iff, ← hnull obj.kind]
  exact operatorEqNullptr_iff hexact obj

theorem UniqueRc.comparesHandles
    (equalityComparableWith threeWayComparableWith : P.Kind → P.Kind → Bool) :
    (UniqueRc.overloadSet equalityComparableWith threeWayComparableWith :
      OverloadSet P Env).ComparesHandles := by
  constructor
  · intro lhs rhs w answer h
    exact (Option.some.inj (Option.ite_none_right_eq_some.mp h).2).symm
  · intro lhs w answer h
    exact (Option.some.inj h).symm.trans (not_operatorBool_eq hexact hnull lhs w)
  · intro lhs rhs w answer h
    exact (Option.some.inj (Option.ite_none_right_eq_some.mp h).2).symm
  · intro lhs w answer h
    exact (Option.some.inj h).symm

end ComparesHandles

theorem OverloadSet.isSome_overloads {P : PointerKinds} {Env : Type}
    {o : OverloadSet P Env} {w : World P.signature Env}
    (heq : ∀ obj, (o.operatorEqNullptr obj w).isSome)
    (hcmp : ∀ obj, (o.operatorCmpNullptr obj w).isSome)
    {objs : Obj P.signature → Prop} :
    (∀ x y, Operand.among objs x → Operand.among objs y →
      ((o.overloads w).equal x y).isSome ∧ ((o.overloads w).threeWay x y).isSome) ↔
    ∀ lhs rhs, objs lhs → objs rhs →
      ((o.overloads w).equal (.object lhs) (.object rhs)).isSome ∧
      ((o.overloads w).threeWay (.object lhs) (.object rhs)).isSome := by
  constructor
  · intro hdefined lhs rhs hlhs hrhs
    exact hdefined (.object lhs) (.object rhs) hlhs hrhs
  · intro hobjs x y hx hy
    cases x with
    | nullptr =>
        cases y with
        | nullptr => exact ⟨rfl, rfl⟩
        | object rhs =>
            simp only [Overloads.equal, Overloads.threeWay, OverloadSet.overloads,
              Option.none_or, Option.isSome_map]
            exact ⟨heq rhs, hcmp rhs⟩
    | object lhs =>
        cases y with
        | nullptr =>
            simp only [Overloads.equal, Overloads.threeWay, OverloadSet.overloads,
              Option.map_none, Option.or_none]
            exact ⟨heq lhs, hcmp lhs⟩
        | object rhs => exact hobjs lhs rhs hx hy

structure NullptrLeast {P : PointerKinds} {Env : Type} (o : Overloads (Operand P))
    (w : World P.signature Env) : Prop where
  equal : ∀ obj, o.equal .nullptr (.object obj) = some (!UniqueRc.operatorBool obj w)
  less : ∀ obj, UniqueRc.operatorBool obj w = true →
    o.relational .lt .nullptr (.object obj) = some true

theorem OverloadSet.ComparesHandles.nullptrLeast {P : PointerKinds} {Env : Type}
    {o : OverloadSet P Env} (h : o.ComparesHandles) {w : World P.signature Env}
    (heq : ∀ obj, o.operatorEqNullptr obj w = some (!UniqueRc.operatorBool obj w))
    (hcmp : ∀ obj, (o.operatorCmpNullptr obj w).isSome) :
    NullptrLeast (o.overloads w) w where
  equal obj := by
    rw [Overloads.equal]
    exact heq obj
  less obj howned := by
    have hne : (UniqueRc.get obj w : P.Pointer) ≠ null := by
      have hnot := h.eqNullptr obj w _ (heq obj)
      rw [howned] at hnot
      exact of_decide_eq_false hnot.symm
    obtain ⟨answer, hanswer⟩ := Option.isSome_iff_exists.mp (hcmp obj)
    have hless : (null : P.Pointer) < UniqueRc.get obj w :=
      lt_of_le_of_ne (P.null_le _) hne.symm
    have hgreater : answer = .gt := by
      rw [h.cmpNullptr obj w answer hanswer]
      exact compare_gt_iff_gt.mpr hless
    show (Option.map (Relational.holdsReversed .lt) (o.operatorCmpNullptr obj w)) = some true
    rw [hanswer, hgreater]
    rfl

namespace UniquePtr

variable {P : UniquePtrKinds} {Env : Type}

theorem overloadSet_eq : (overloadSet P : OverloadSet P.pointers Env) =
    UniqueRc.overloadSet
      (fun kind kind' => P.equalityComparableWith (P.element kind) (P.element kind'))
      fun _ _ => true :=
  rfl

theorem comparesHandles (hnullptr : ∀ ptr, P.eqNullptr ptr = decide (ptr = null)) :
    ((overloadSet P).inherit
      (UniqueRc.overloadSet (fun _ _ => true) fun _ _ => true) :
      OverloadSet P.pointers Env).ComparesHandles := by
  have hexact : ∀ kind, (P.pointers.policy kind).Exact := fun _ =>
    exact_fancyInvalidHandlePolicy hnullptr
  rw [overloadSet_eq]
  exact (UniqueRc.comparesHandles hexact (fun _ => rfl) _ _).inherit
    (UniqueRc.comparesHandles hexact (fun _ => rfl) _ _)

theorem ordered (hnullptr : ∀ ptr, P.eqNullptr ptr = decide (ptr = null))
    (w : World P.pointers.signature Env) (objs : Obj P.pointers.signature → Prop) :
    (operators w).Ordered (Operand.among objs) := by
  apply ((comparesHandles hnullptr).agrees w).ordered_iff.mpr
  apply (OverloadSet.isSome_overloads (fun _ => rfl) fun _ => rfl).mpr
  intro lhs rhs _ _
  constructor
  · simp [Overloads.equal, OverloadSet.overloads, OverloadSet.inherit,
      UniqueRc.overloadSet]
  · simp [Overloads.threeWay, OverloadSet.overloads, OverloadSet.inherit,
      UniqueRc.overloadSet]

theorem hash_eq (hnullptr : ∀ ptr, P.eqNullptr ptr = decide (ptr = null))
    {w : World P.pointers.signature Env} {x y : Obj P.pointers.signature}
    (hequal : (operators w).equal (.object x) (.object y) = some true) :
    hash x w = hash y w := by
  have hget := (comparesHandles hnullptr).get_eq hequal
  rw [hash, hash, UniqueRc.hash, UniqueRc.hash, hget]

end UniquePtr

namespace UniqueCoroutineHandle

variable {C : CoroutineKinds} {Env : Type}

theorem overloadSet_eq : (overloadSet C : OverloadSet C.handles Env) =
    UniqueRc.overloadSet
      (fun kind kind' => C.equalityComparableWith (C.promise kind) (C.promise kind'))
      C.comparable :=
  rfl

theorem comparesHandles :
    ((overloadSet C).inherit (UniqueRc.overloadSet C.comparable C.comparable) :
      OverloadSet C.handles Env).ComparesHandles := by
  have hexact : ∀ kind, (C.handles.policy kind).Exact := fun _ =>
    exact_coroInvalidHandlePolicy
  rw [overloadSet_eq]
  exact (UniqueRc.comparesHandles hexact (fun _ => rfl) _ _).inherit
    (UniqueRc.comparesHandles hexact (fun _ => rfl) _ _)

theorem comparable_comm (kind kind' : C.Kind) :
    C.comparable kind kind' = C.comparable kind' kind := by
  rw [CoroutineKinds.comparable, CoroutineKinds.comparable, Bool.eq_iff_iff]
  simp only [Bool.or_eq_true, decide_eq_true_iff]
  tauto

theorem isSome_threeWay (w : World C.handles.signature Env)
    (lhs rhs : Obj C.handles.signature) :
    ((operators w).threeWay (.object lhs) (.object rhs)).isSome =
      C.comparable lhs.kind rhs.kind := by
  have hcomm := comparable_comm rhs.kind lhs.kind
  cases hcomparable : C.comparable lhs.kind rhs.kind with
  | false =>
      rw [hcomparable] at hcomm
      simp [operators, Overloads.threeWay, OverloadSet.overloads, OverloadSet.inherit,
        UniqueRc.overloadSet, overloadSet, hcomparable, hcomm]
  | true =>
      simp [operators, Overloads.threeWay, OverloadSet.overloads, OverloadSet.inherit,
        UniqueRc.overloadSet, overloadSet, hcomparable]

theorem ordered_iff (w : World C.handles.signature Env)
    (objs : Obj C.handles.signature → Prop) :
    (operators w).Ordered (Operand.among objs) ↔
      ∀ lhs rhs, objs lhs → objs rhs → C.comparable lhs.kind rhs.kind = true := by
  have hagrees : (operators w).Agrees (Operand.key w) := comparesHandles.agrees w
  rw [hagrees.ordered_iff, operators, OverloadSet.isSome_overloads (fun _ => rfl) fun _ => rfl]
  constructor
  · intro hdefined lhs rhs hlhs hrhs
    rw [← isSome_threeWay w]
    exact (hdefined lhs rhs hlhs hrhs).2
  · intro hcomparable lhs rhs hlhs hrhs
    have hviable := hcomparable lhs rhs hlhs hrhs
    refine ⟨?_, (isSome_threeWay w lhs rhs).trans hviable⟩
    simp [Overloads.equal, OverloadSet.overloads, OverloadSet.inherit,
      UniqueRc.overloadSet, hviable]

theorem hash_eq {w : World C.handles.signature Env} {x y : Obj C.handles.signature}
    (hequal : (operators w).equal (.object x) (.object y) = some true)
    (hhash : C.hash (C.promise x.kind) = C.hash (C.promise y.kind)) :
    hash x w = hash y w := by
  have hget := comparesHandles.get_eq hequal
  rw [hash, hash, UniqueRc.hash, UniqueRc.hash, hhash, hget]

end UniqueCoroutineHandle

/--
`unique_ptr` objects over one pointer type are ordered up to `==` by their
pointers.  Of coroutine handles every operator that may be written compares the
addresses, and a set of them is ordered exactly if no two have different
promise types other than `void`.  Equal objects have equal hashes, as far as
`std::hash` treats their handle types alike.
-/
theorem derived_ordered :
    (∀ (P : UniquePtrKinds) (Env : Type) (w : World P.pointers.signature Env)
      (objs : Obj P.pointers.signature → Prop),
      (∀ ptr, P.eqNullptr ptr = decide (ptr = null)) →
        (UniquePtr.operators w).Ordered (Operand.among objs) ∧
        NullptrLeast (UniquePtr.operators w) w ∧
        ∀ x y, (UniquePtr.operators w).equal (.object x) (.object y) = some true →
          UniquePtr.hash x w = UniquePtr.hash y w) ∧
    ∀ (C : CoroutineKinds) (Env : Type) (w : World C.handles.signature Env)
      (objs : Obj C.handles.signature → Prop),
        ((UniqueCoroutineHandle.operators w).Ordered (Operand.among objs) ↔
          ∀ x y, objs x → objs y → C.comparable x.kind y.kind = true) ∧
        (UniqueCoroutineHandle.operators w).Agrees (Operand.key w) ∧
        NullptrLeast (UniqueCoroutineHandle.operators w) w ∧
        ∀ x y,
          (UniqueCoroutineHandle.operators w).equal (.object x) (.object y) = some true →
          C.hash (C.promise x.kind) = C.hash (C.promise y.kind) →
          UniqueCoroutineHandle.hash x w = UniqueCoroutineHandle.hash y w := by
  constructor
  · intro P Env w objs hnullptr
    have hcompares := @UniquePtr.comparesHandles P Env hnullptr
    exact ⟨UniquePtr.ordered hnullptr w objs,
      hcompares.nullptrLeast (fun _ => rfl) fun _ => rfl,
      fun _ _ => UniquePtr.hash_eq hnullptr⟩
  · intro C Env w objs
    have hcompares := @UniqueCoroutineHandle.comparesHandles C Env
    exact ⟨UniqueCoroutineHandle.ordered_iff w objs, hcompares.agrees w,
      hcompares.nullptrLeast (fun _ => rfl) fun _ => rfl,
      fun _ _ => UniqueCoroutineHandle.hash_eq⟩

def intPointers : UniquePtrKinds where
  Kind := Bool
  Name := Nat
  Cell := Empty
  Deleter := Unit
  isReference _ := false
  defaultDeleter _ := some ()
  convertDeleter _ _ := some id
  assignDeleter _ _ := some id
  selfResetCheck := true
  Pointer := Nat
  nullable := ⟨0⟩
  Element := Bool
  Size := Nat
  element := id
  equalityComparableWith element element' := element == element'
  eqNullptr ptr := ptr == 0
  hash := some id
  null_le := Nat.zero_le

def intObjects : World intPointers.pointers.signature Unit where
  live _ := true
  objects obj := ⟨16 * (show Nat from obj.name), .value ()⟩
  cells := Empty.elim
  env := ()

def twoPromises : CoroutineKinds where
  Kind := Option Bool
  Name := Nat
  Cell := Empty
  Deleter := Unit
  isReference _ := false
  defaultDeleter _ := some ()
  convertDeleter _ _ := some id
  assignDeleter _ _ := some id
  selfResetCheck := true
  Promise := Bool
  Address := Nat
  nullable := ⟨0⟩
  Size := Nat
  promise := id
  equalityComparableWith _ _ := false
  hash _ hnd := hnd.address
  null_le := Nat.zero_le

def noCoroutines : World twoPromises.handles.signature
    (List (Call twoPromises.handles.signature)) where
  live _ := false
  objects _ := ⟨(⟨(0 : Nat)⟩ : CoroutineHandle Nat), .value ()⟩
  cells := Empty.elim
  env := []

theorem derived_ordered_int :
    (UniquePtr.operators intObjects).Ordered (Operand.among fun _ => True) ∧
      UniquePtr.hash ⟨false, (1 : Nat)⟩ intObjects =
        UniquePtr.hash ⟨true, (1 : Nat)⟩ intObjects ∧
      (UniqueCoroutineHandle.operators noCoroutines).Ordered
        (Operand.among fun obj => obj.kind = none ∨ obj.kind = some true) := by
  have hpointers := derived_ordered.1 intPointers Unit intObjects (fun _ => True)
    fun ptr => rfl
  have hcoroutines := derived_ordered.2 twoPromises _ noCoroutines
    fun obj => obj.kind = none ∨ obj.kind = some true
  refine ⟨hpointers.1, hpointers.2.2 _ _ rfl, hcoroutines.1.mpr ?_⟩
  rintro x y (hx | hx) (hy | hy) <;> rw [hx, hy] <;> rfl

def constructTwo : List (Op twoPromises.handles.signature) :=
  [.constructHandle ⟨some true, (0 : Nat)⟩ (⟨(16 : Nat)⟩ : CoroutineHandle Nat),
    .constructHandle ⟨some false, (0 : Nat)⟩ (⟨(32 : Nat)⟩ : CoroutineHandle Nat)]

theorem not_derived_ordered :
    ∃ w, run (Op.exec recordCall) constructTwo noCoroutines = some w ∧
      (UniqueCoroutineHandle.operators w).equal (.object ⟨some true, (0 : Nat)⟩)
        (.object ⟨some false, (0 : Nat)⟩) = none ∧
      (UniqueCoroutineHandle.operators w).threeWay (.object ⟨some true, (0 : Nat)⟩)
        (.object ⟨some false, (0 : Nat)⟩) = none ∧
      ¬ (UniqueCoroutineHandle.operators w).Ordered
        (Operand.among fun obj => w.live obj = true) := by
  obtain ⟨w, hrun⟩ := Option.isSome_iff_exists.mp
    (show (run (Op.exec recordCall) constructTwo noCoroutines).isSome from rfl)
  have hlive : w.live ⟨some true, (0 : Nat)⟩ = true ∧
      w.live ⟨some false, (0 : Nat)⟩ = true := by
    rw [← Option.some.inj hrun]
    exact ⟨rfl, rfl⟩
  refine ⟨w, hrun, rfl, rfl, fun h => ?_⟩
  have hcomparable := (UniqueCoroutineHandle.ordered_iff w _).mp h _ _ hlive.1 hlive.2
  exact Bool.false_ne_true hcomparable

end Raii
