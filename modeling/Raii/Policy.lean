import Mathlib.Data.Int.Basic
import Mathlib.Logic.Basic

/-!
# Invalid-handle policies

`unique_rc` never looks inside a handle.  Everything it knows about handles
comes from an invalid-handle policy: which value `invalid()` returns and for
which handles `is_owned` answers true.  This file models the policies the
library ships, each as its header defines it.
-/

namespace Raii

/--
An invalid-handle policy.  `assign` is the implicit conversion the compiler
inserts wherever `invalid()` is stored in a handle.
-/
structure InvalidHandlePolicy (Handle Invalid : Type) where
  invalid : Invalid
  isOwned : Handle → Bool
  assign : Invalid → Handle

namespace InvalidHandlePolicy

variable {Handle Invalid : Type}

/-- A handle that stores `invalid()` is not owned; nothing in the library asks for this. -/
def RefusesInvalid (policy : InvalidHandlePolicy Handle Invalid) : Prop :=
  policy.isOwned (policy.assign policy.invalid) = false

def Exact (policy : InvalidHandlePolicy Handle Invalid) : Prop :=
  ∀ hnd, policy.isOwned hnd = false ↔ hnd = policy.assign policy.invalid

theorem Exact.refusesInvalid {policy : InvalidHandlePolicy Handle Invalid}
    (h : policy.Exact) : policy.RefusesInvalid := (h _).mpr rfl

theorem Exact.isOwned_eq [DecidableEq Handle]
    {policy : InvalidHandlePolicy Handle Invalid} (h : policy.Exact) (hnd : Handle) :
    policy.isOwned hnd = (hnd != policy.assign policy.invalid) := by
  rw [Bool.eq_iff_iff, bne_iff_ne, ← Bool.not_eq_false, h hnd]

end InvalidHandlePolicy

abbrev NullptrT := Unit

class Nullable (Pointer : Type) where
  null : Pointer

open Nullable (null)

def toBool {Pointer : Type} [Nullable Pointer] [DecidableEq Pointer]
    (ptr : Pointer) : Bool :=
  ptr != null

@[simp] theorem toBool_null {Pointer : Type} [Nullable Pointer]
    [DecidableEq Pointer] : toBool (null : Pointer) = false := by
  simp [toBool]

class WindowsHandle (Handle : Type) extends Nullable Handle where
  invalidHandleValue : Handle
  invalidHandleValue_ne_null : invalidHandleValue ≠ Nullable.null

/-- Addresses of 64 bits; `INVALID_HANDLE_VALUE` is the last one. -/
abbrev HANDLE := Fin UInt64.size

instance : WindowsHandle HANDLE where
  null := ⟨0, by decide⟩
  invalidHandleValue := ⟨UInt64.size - 1, by decide⟩
  invalidHandleValue_ne_null := by decide

section Shipped

variable {Handle Invalid : Type} [DecidableEq Handle]

/-- `notEqual` is the operator that `hnd != invalid()` calls, after its conversions. -/
def defaultInvalidHandlePolicy [Inhabited Invalid] (notEqual : Handle → Invalid → Bool)
    (assign : Invalid → Handle) : InvalidHandlePolicy Handle Invalid where
  invalid := default
  isOwned hnd := notEqual hnd default
  assign := assign

def nullptrInvalidHandlePolicy [Nullable Handle] :
    InvalidHandlePolicy Handle NullptrT :=
  defaultInvalidHandlePolicy (fun hnd _ => hnd != null) fun _ => null

/-- The same for a fancy pointer, which brings its own `==` with `std::nullptr_t`. -/
def fancyInvalidHandlePolicy {Pointer : Type} [Nullable Pointer]
    (eqNullptr : Pointer → Bool) : InvalidHandlePolicy Pointer NullptrT :=
  defaultInvalidHandlePolicy (fun ptr _ => !eqNullptr ptr) fun _ => null

def invalidHandleValuePolicy [WindowsHandle Handle] :
    InvalidHandlePolicy Handle Handle where
  invalid := WindowsHandle.invalidHandleValue
  isOwned hnd := hnd != WindowsHandle.invalidHandleValue
  assign := id

theorem exact_defaultInvalidHandlePolicy [Inhabited Invalid]
    {notEqual : Handle → Invalid → Bool} {assign : Invalid → Handle}
    (h : ∀ hnd, notEqual hnd default = (hnd != assign default)) :
    (defaultInvalidHandlePolicy notEqual assign).Exact := by
  intro hnd
  simp [defaultInvalidHandlePolicy, h]

theorem exact_fancyInvalidHandlePolicy {Pointer : Type} [Nullable Pointer]
    [DecidableEq Pointer] {eqNullptr : Pointer → Bool}
    (hagree : ∀ ptr, eqNullptr ptr = decide (ptr = null)) :
    (fancyInvalidHandlePolicy eqNullptr).Exact :=
  exact_defaultInvalidHandlePolicy fun ptr => by rw [hagree]; rfl

theorem exact_invalidHandleValuePolicy [WindowsHandle Handle] :
    (invalidHandleValuePolicy : InvalidHandlePolicy Handle Handle).Exact := by
  intro hnd
  simp [invalidHandleValuePolicy]

end Shipped

structure CoroutineHandle (Address : Type) where
  address : Address
  deriving DecidableEq

def coroInvalidHandlePolicy {Address : Type} [Nullable Address]
    [DecidableEq Address] :
    InvalidHandlePolicy (CoroutineHandle Address) NullptrT where
  invalid := ()
  isOwned hnd := toBool hnd.address
  assign _ := ⟨null⟩

theorem exact_coroInvalidHandlePolicy {Address : Type} [Nullable Address]
    [DecidableEq Address] :
    (coroInvalidHandlePolicy :
      InvalidHandlePolicy (CoroutineHandle Address) NullptrT).Exact := by
  rintro ⟨address⟩
  simp [coroInvalidHandlePolicy, toBool]

/-! ## The composite handles of the GDI deleters -/

section Gdi

variable {HDC HWND GdiObjHandle : Type} [Nullable HDC] [DecidableEq HDC]

namespace GdiReleaseDc

structure Handle (HDC HWND : Type) where
  hdc : HDC
  hwnd : HWND
  deriving DecidableEq

end GdiReleaseDc

def dcWndInvalidHandlePolicy [Nullable HWND] :
    InvalidHandlePolicy (GdiReleaseDc.Handle HDC HWND)
      (GdiReleaseDc.Handle HDC HWND) where
  invalid := ⟨null, null⟩
  isOwned hnd := toBool hnd.hdc
  assign := id

namespace GdiRestoreDc

structure Handle (HDC : Type) where
  hdc : HDC
  state : Int32
  deriving DecidableEq

end GdiRestoreDc

def dcStateInvalidHandlePolicy :
    InvalidHandlePolicy (GdiRestoreDc.Handle HDC) (GdiRestoreDc.Handle HDC) where
  invalid := ⟨null, 0⟩
  isOwned hnd := toBool hnd.hdc && hnd.state != 0
  assign := id

namespace GdiSelectObject

structure Handle (HDC GdiObjHandle : Type) where
  hdc : HDC
  hobj : GdiObjHandle
  deriving DecidableEq

end GdiSelectObject

def dcGdiobjInvalidHandlePolicy [Nullable GdiObjHandle]
    [DecidableEq GdiObjHandle] :
    InvalidHandlePolicy (GdiSelectObject.Handle HDC GdiObjHandle)
      (GdiSelectObject.Handle HDC GdiObjHandle) where
  invalid := ⟨null, null⟩
  isOwned hnd := toBool hnd.hobj
  assign := id

theorem refusesInvalid_gdi [Nullable HWND] [Nullable GdiObjHandle]
    [DecidableEq GdiObjHandle] :
    (dcWndInvalidHandlePolicy :
      InvalidHandlePolicy (GdiReleaseDc.Handle HDC HWND) _).RefusesInvalid ∧
    (dcStateInvalidHandlePolicy :
      InvalidHandlePolicy (GdiRestoreDc.Handle HDC) _).RefusesInvalid ∧
    (dcGdiobjInvalidHandlePolicy :
      InvalidHandlePolicy (GdiSelectObject.Handle HDC GdiObjHandle) _).RefusesInvalid := by
  simp [InvalidHandlePolicy.RefusesInvalid, dcWndInvalidHandlePolicy,
    dcStateInvalidHandlePolicy, dcGdiobjInvalidHandlePolicy]

end Gdi

end Raii
