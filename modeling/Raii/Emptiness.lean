import Raii.Foundation.Run
import Raii.UniqueRc

/-!
# What an object stores that owns nothing

`operator bool` asks the policy, `get()` returns what is stored.  The library
itself only ever stores handles it was given and `invalid()`, so the two agree
in every state of a run exactly if no operation of the run was given a handle
that the policy neither owns nor has for its invalid one.
-/

namespace Raii

open Foundation

structure Stored (S : Signature) where
  kind : S.Kind
  handle : S.Handle kind

namespace Signature

variable (S : Signature)

def sound (kind : S.Kind) (hnd : S.Handle kind) : Bool :=
  S.isOwned kind hnd || hnd == S.invalid kind

theorem sound_eq_true_iff {kind : S.Kind} {hnd : S.Handle kind} :
    S.sound kind hnd = true ↔
      (S.isOwned kind hnd = false → hnd = S.invalid kind) := by
  cases h : S.isOwned kind hnd <;> simp [sound, h]

end Signature

variable {S : Signature} {w w' : World S (List (Call S))}

namespace Op

def stores (w : World S (List (Call S))) : Op S → Option (Stored S)
  | .constructHandle this hnd => some ⟨this.kind, hnd⟩
  | .constructDeleter this hnd _ => some ⟨this.kind, hnd⟩
  | .reset this hnd => some ⟨this.kind, hnd⟩
  | .convertConstruct this other _ =>
      (S.convertHandle other.kind this.kind).map fun convert =>
        ⟨this.kind, convert (w.getHandle other)⟩
  | .convertAssign this other _ =>
      (S.convertHandle other.kind this.kind).map fun convert =>
        ⟨this.kind, convert (w.getHandle other)⟩
  | _ => none

def storesSound (op : Op S) (w : World S (List (Call S))) : Prop :=
  ∀ new, op.stores w = some new → S.sound new.kind new.handle = true

end Op

inductive Origin (op : Op S) (w : World S (List (Call S))) (kind : S.Kind)
    (hnd : S.Handle kind) : Prop where
  | invalid (heq : hnd = S.invalid kind)
  | stored (hstores : op.stores w = some ⟨kind, hnd⟩)
  | kept (name : S.Name) (hlive : w.live ⟨kind, name⟩ = true)
      (hget : w.getHandle ⟨kind, name⟩ = hnd)

def EmptyEqual (w : World S (List (Call S))) : Prop :=
  ∀ kind name name', w.live ⟨kind, name⟩ = true → w.live ⟨kind, name'⟩ = true →
    UniqueRc.operatorBool ⟨kind, name⟩ w = false →
    UniqueRc.operatorBool ⟨kind, name'⟩ w = false →
    UniqueRc.get ⟨kind, name⟩ w = UniqueRc.get ⟨kind, name'⟩ w

/-- What the documentation of `get()` and `release()` promises. -/
def EmptyInvalid (w : World S (List (Call S))) : Prop :=
  ∀ obj, w.live obj = true → UniqueRc.operatorBool obj w = false →
    UniqueRc.get obj w = S.invalid obj.kind

theorem EmptyInvalid.equal (h : EmptyInvalid w) : EmptyEqual w := by
  intro kind name name' hlive hlive' hempty hempty'
  rw [h ⟨kind, name⟩ hlive hempty, h ⟨kind, name'⟩ hlive' hempty']

namespace Op

variable {op : Op S}

private theorem origin_update {handles : (obj : Obj S) → S.Handle obj.kind}
    {this obj : Obj S} {hnd : S.Handle this.kind}
    (hthis : Origin op w this.kind hnd)
    (hother : obj ≠ this → Origin op w obj.kind (handles obj)) :
    Origin op w obj.kind (Function.update handles this hnd obj) := by
  by_cases heq : obj = this
  · subst heq
    rwa [Function.update_self]
  · rw [Function.update_of_ne heq]
    exact hother heq

theorem origin_of_exec (hexec : op.exec recordCall w = some w') {obj : Obj S}
    (hobj : w'.live obj = true) : Origin op w obj.kind (w'.getHandle obj) := by
  have hkept : ∀ obj, w.live obj = true → Origin op w obj.kind (w.getHandle obj) :=
    fun obj hobj => .kept obj.name hobj rfl
  have hinvalid : ∀ kind, Origin op w kind (S.invalid kind) := fun kind => .invalid rfl
  cases executed_of_exec hexec with
  | construct =>
      rw [World.getHandle_construct]
      exact origin_update (hinvalid _) fun hne =>
        hkept obj (by simpa [hne] using hobj)
  | constructHandle =>
      rw [World.getHandle_construct]
      exact origin_update (.stored rfl) fun hne =>
        hkept obj (by simpa [hne] using hobj)
  | constructDeleter =>
      rw [World.getHandle_construct]
      exact origin_update (.stored rfl) fun hne =>
        hkept obj (by simpa [hne] using hobj)
  | @moveConstruct kind this other left _ hother =>
      rw [UniqueRcHolderImpl.getHandle_moveConstruct]
      refine origin_update (hinvalid kind) fun _ => origin_update ?_ fun hne => ?_
      · exact hkept ⟨kind, other⟩ hother
      · exact hkept obj (by simpa [hne] using hobj)
  | convertConstruct _ _ _ hconvert _ =>
      rw [UniqueRc.getHandle_convertConstruct]
      refine origin_update (.stored (by simp [stores, hconvert])) fun hne => ?_
      exact origin_update (hinvalid _) fun _ => hkept obj (by simpa [hne] using hobj)
  | @moveAssign kind this other left _ hother =>
      rw [World.getHandle_setEnv, UniqueRcHolderImpl.getHandle_moveInto]
      refine origin_update ?_ fun _ => origin_update (hinvalid kind) fun _ => ?_
      · exact hkept ⟨kind, other⟩ hother
      · exact hkept obj (by simpa using hobj)
  | convertAssign _ _ _ hconvert _ =>
      simp only [World.getHandle_setEnv, World.getHandle_assignDeleter,
        World.getHandle_setHandle]
      refine origin_update (.stored (by simp [stores, hconvert])) fun _ => ?_
      exact origin_update (hinvalid _) fun _ => hkept obj (by simpa using hobj)
  | @swap kind this other hthis hother =>
      rw [UniqueRcHolderImpl.getHandle_swap]
      refine origin_update ?_ fun _ => origin_update ?_ fun _ => ?_
      · exact hkept ⟨kind, this⟩ hthis
      · exact hkept ⟨kind, other⟩ hother
      · exact hkept obj (by simpa using hobj)
  | reset =>
      rw [World.getHandle_setEnv, World.getHandle_setHandle]
      exact origin_update (.stored rfl) fun _ => hkept obj hobj
  | resetInvalid =>
      rw [World.getHandle_setEnv, World.getHandle_setHandle]
      exact origin_update (hinvalid _) fun _ => hkept obj hobj
  | release =>
      rw [World.getHandle_setHandle]
      exact origin_update (hinvalid _) fun _ => hkept obj hobj
  | @destroy this _ =>
      have hne : obj ≠ this := by
        rintro rfl
        simp at hobj
      have hlive : w.live obj = true := by
        split at hobj <;> simpa [hne] using hobj
      rw [World.getHandle_endLifetime, World.getHandle_setEnv]
      split
      · rw [World.getHandle_setHandle]
        exact origin_update (hinvalid this.kind) fun _ => hkept obj hlive
      · exact hkept obj hlive

theorem exists_stored (hexec : op.exec recordCall w = some w') {new : Stored S}
    (hstores : op.stores w = some new) :
    ∃ name, w'.live ⟨new.kind, name⟩ = true ∧
      w'.getHandle ⟨new.kind, name⟩ = new.handle := by
  cases executed_of_exec hexec with
  | @constructHandle this =>
      obtain rfl := Option.some.inj hstores
      exact ⟨this.name, by simp⟩
  | @constructDeleter this =>
      obtain rfl := Option.some.inj hstores
      exact ⟨this.name, by simp⟩
  | @convertConstruct this _ _ _ _ _ _ _ hconvert _ =>
      simp only [stores, hconvert, Option.map_some, Option.some.injEq] at hstores
      obtain rfl := hstores
      exact ⟨this.name, by simp [UniqueRc.getHandle_convertConstruct]⟩
  | @convertAssign this _ _ _ _ hthis _ _ hconvert _ =>
      simp only [stores, hconvert, Option.map_some, Option.some.injEq] at hstores
      obtain rfl := hstores
      exact ⟨this.name, by simp [hthis]⟩
  | @reset this _ hlive =>
      obtain rfl := Option.some.inj hstores
      exact ⟨this.name, by simpa using hlive⟩
  | construct | moveConstruct | moveAssign | swap | resetInvalid | release | destroy =>
      simp [stores] at hstores

theorem emptyInvalid_iff_storesSound (h : EmptyInvalid w)
    (hexec : op.exec recordCall w = some w') :
    EmptyInvalid w' ↔ op.storesSound w := by
  constructor
  · intro h' new hstores
    obtain ⟨name, hlive, hget⟩ := exists_stored hexec hstores
    rw [S.sound_eq_true_iff]
    intro hempty
    have hinvalid := h' ⟨new.kind, name⟩ hlive
    rw [UniqueRc.operatorBool, UniqueRc.get, hget] at hinvalid
    exact hinvalid hempty
  · intro hsound obj hlive hempty
    cases origin_of_exec hexec hlive with
    | invalid heq => exact heq
    | stored hstores => exact S.sound_eq_true_iff.mp (hsound _ hstores) hempty
    | kept name hlive₀ hget =>
        rw [UniqueRc.get, ← hget]
        apply h ⟨obj.kind, name⟩ hlive₀
        rw [UniqueRc.operatorBool, UniqueRc.get] at hempty ⊢
        rw [hget]
        exact hempty

end Op

/--
Every object that owns nothing stores `invalid()`, in all states of a run,
exactly if every handle that the run stores is owned or the invalid one.
-/
theorem emptyInvalid_iff_along {ops : List (Op S)}
    (hstart : ∀ obj, w.live obj = false)
    (hrun : run (Op.exec recordCall) ops w = some w') :
    Along (Op.exec recordCall) Op.storesSound ops w ↔
      ∀ before after w₁, before ++ after = ops →
        run (Op.exec recordCall) before w = some w₁ →
          EmptyInvalid w₁ ∧ EmptyEqual w₁ := by
  have hinitial : EmptyInvalid w := by
    intro obj hlive
    rw [hstart obj] at hlive
    exact absurd hlive Bool.false_ne_true
  rw [along_iff_invariant
    (fun _ _ _ h hexec => Op.emptyInvalid_iff_storesSound h hexec) hinitial hrun]
  constructor
  · intro hall before after w₁ heq hbefore
    have h := hall before after w₁ heq hbefore
    exact ⟨h, h.equal⟩
  · intro hall before after w₁ heq hbefore
    exact (hall before after w₁ heq hbefore).1

/-! ## The shipped policies -/

theorem storesSound_of_exact (h : ∀ kind, (S.policy kind).Exact) (op : Op S)
    (w : World S (List (Call S))) : op.storesSound w := by
  intro new _
  rw [S.sound_eq_true_iff]
  exact (h new.kind new.handle).mp

section Gdi

open Nullable (null)

variable {HDC HWND GdiObjHandle : Type} [Nullable HDC] [DecidableEq HDC]

/-- Not so for a window without a device context, which is what `GetDC` may return. -/
theorem dcWnd_not_owned_iff [Nullable HWND] {hnd : GdiReleaseDc.Handle HDC HWND} :
    dcWndInvalidHandlePolicy.isOwned hnd = false ∧ hnd ≠ ⟨null, null⟩ ↔
      hnd.hdc = null ∧ hnd.hwnd ≠ null := by
  obtain ⟨hdc, hwnd⟩ := hnd
  simp only [dcWndInvalidHandlePolicy, toBool, bne_eq_false_iff_eq, ne_eq,
    GdiReleaseDc.Handle.mk.injEq, not_and]
  constructor
  · rintro ⟨rfl, hne⟩
    exact ⟨rfl, hne rfl⟩
  · rintro ⟨rfl, hne⟩
    exact ⟨rfl, fun _ => hne⟩

theorem dcState_not_owned_iff {hnd : GdiRestoreDc.Handle HDC} :
    dcStateInvalidHandlePolicy.isOwned hnd = false ∧ hnd ≠ ⟨null, 0⟩ ↔
      (hnd.hdc = null ∧ hnd.state ≠ 0) ∨ (hnd.hdc ≠ null ∧ hnd.state = 0) := by
  obtain ⟨hdc, state⟩ := hnd
  simp only [dcStateInvalidHandlePolicy, toBool, Bool.and_eq_false_iff,
    bne_eq_false_iff_eq, ne_eq, GdiRestoreDc.Handle.mk.injEq, not_and]
  by_cases hhdc : hdc = null <;> by_cases hstate : state = 0 <;>
    simp [hhdc, hstate]

omit [DecidableEq HDC] in
theorem dcGdiobj_not_owned_iff [Nullable GdiObjHandle] [DecidableEq GdiObjHandle]
    {hnd : GdiSelectObject.Handle HDC GdiObjHandle} :
    dcGdiobjInvalidHandlePolicy.isOwned hnd = false ∧ hnd ≠ ⟨null, null⟩ ↔
      hnd.hobj = null ∧ hnd.hdc ≠ null := by
  obtain ⟨hdc, hobj⟩ := hnd
  simp only [dcGdiobjInvalidHandlePolicy, toBool, bne_eq_false_iff_eq, ne_eq,
    GdiSelectObject.Handle.mk.injEq, not_and]
  constructor
  · rintro ⟨rfl, hne⟩
    exact ⟨rfl, fun heq => hne heq rfl⟩
  · rintro ⟨rfl, hne⟩
    exact ⟨rfl, fun heq => absurd heq hne⟩

end Gdi

def dcSignature : Signature where
  Kind := Unit
  Name := Bool
  Cell := Empty
  Deleter := Unit
  Handle _ := GdiReleaseDc.Handle HANDLE HANDLE
  InvalidHandle _ := GdiReleaseDc.Handle HANDLE HANDLE
  policy _ := dcWndInvalidHandlePolicy
  isReference _ := false
  defaultDeleter _ := some ()
  convertHandle _ _ := none
  convertDeleter _ _ := none
  assignDeleter _ _ := none
  selfResetCheck := true

def dcWorld : World dcSignature (List (Call dcSignature)) where
  live _ := false
  objects _ := ⟨dcSignature.invalid (), .value ()⟩
  cells := Empty.elim
  env := []

def dcOps (hdc hwnd : HANDLE) : List (Op dcSignature) :=
  [.constructHandle ⟨(), false⟩ (⟨hdc, hwnd⟩ : GdiReleaseDc.Handle HANDLE HANDLE),
    .construct ⟨(), true⟩]

theorem emptyInvalid_iff_along_dc :
    ∃ w', run (Op.exec recordCall) (dcOps 5 7) dcWorld = some w' ∧
      ∀ before after w₁, before ++ after = dcOps 5 7 →
        run (Op.exec recordCall) before dcWorld = some w₁ →
          EmptyInvalid w₁ ∧ EmptyEqual w₁ := by
  obtain ⟨w', hrun⟩ := Option.isSome_iff_exists.mp
    (show (run (Op.exec recordCall) (dcOps 5 7) dcWorld).isSome from rfl)
  refine ⟨w', hrun, (emptyInvalid_iff_along (fun _ => rfl) hrun).mp ⟨?_, ?_⟩⟩
  · rintro new ⟨⟩
    decide
  · rintro w₁ -
    exact ⟨by simp [Op.storesSound, Op.stores], fun _ _ => trivial⟩

theorem not_emptyInvalid :
    ∃ w', run (Op.exec recordCall) (dcOps 0 7) dcWorld = some w' ∧
      ¬ EmptyInvalid w' ∧ ¬ EmptyEqual w' := by
  refine ⟨_, rfl, fun h => ?_, fun h => ?_⟩
  · exact absurd (h ⟨(), false⟩ rfl rfl) (by decide)
  · exact absurd (h () false true rfl rfl rfl rfl) (by decide)

end Raii
