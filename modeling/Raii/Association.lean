import Mathlib.Logic.Equiv.Basic
import Raii.Foundation.Run
import Raii.UniqueRc

/-!
# The deleter that travels with a handle

Beside the world runs a ghost: the deleter that each stored owned handle was
stored with.  Construction and `reset(h)` set it, moves and swaps leave it
alone, and every deleter call turns out to be made with it.  All deleters here
are objects, not references, and no operation converts.
-/

namespace Raii

open Foundation

abbrev Association (S : Signature) := (kind : S.Kind) → S.Handle kind → S.Deleter

variable {S : Signature}

namespace Association

def assign (kind : S.Kind) (hnd : S.Handle kind) (del : S.Deleter)
    (assoc : Association S) : Association S :=
  Function.update assoc kind (Function.update (assoc kind) hnd del)

theorem assign_self {kind : S.Kind} {hnd : S.Handle kind} {del : S.Deleter}
    {assoc : Association S} : assoc.assign kind hnd del kind hnd = del := by
  simp [assign]

theorem assign_of_ne {kind : S.Kind} {hnd other : S.Handle kind}
    {del : S.Deleter} {assoc : Association S} (h : other ≠ hnd) :
    assoc.assign kind hnd del kind other = assoc kind other := by
  simp [assign, h]

theorem assign_of_kind_ne {kind kind' : S.Kind} {hnd : S.Handle kind}
    {del : S.Deleter} {assoc : Association S} (h : kind' ≠ kind) :
    assoc.assign kind hnd del kind' = assoc kind' := by
  simp [assign, h]

end Association

structure Installed (S : Signature) where
  kind : S.Kind
  handle : S.Handle kind
  deleter : S.Deleter

namespace Op

/-- `unique_rc()` and `reset()` store `invalid()` as the others store their argument. -/
def installs (w : World S (List (Call S))) : Op S → Option (Installed S)
  | .construct this =>
      (S.defaultConstruct this.kind).map fun del => ⟨this.kind, S.invalid this.kind, del⟩
  | .constructHandle this hnd =>
      (S.defaultConstruct this.kind).map fun del => ⟨this.kind, hnd, del⟩
  | .constructDeleter this hnd (.value del) => some ⟨this.kind, hnd, del⟩
  | .reset this hnd => some ⟨this.kind, hnd, w.getDeleter this⟩
  | .resetInvalid this => some ⟨this.kind, S.invalid this.kind, w.getDeleter this⟩
  | _ => none

def empties : Op S → Option S.Kind
  | .moveConstruct kind _ _ _ => some kind
  | .moveAssign kind _ _ _ => some kind
  | .release this => some this.kind
  | _ => none

def track (op : Op S) (s : World S (List (Call S)) × Association S) :
    Option (World S (List (Call S)) × Association S) :=
  (op.exec recordCall s.1).map fun w =>
    (w, (op.installs s.1).elim s.2 fun new =>
      s.2.assign new.kind new.handle new.deleter)

/--
Single ownership: an owned handle is handed over only while nobody stores it,
and an object whose handle has been taken away owns nothing.
-/
structure respects (op : Op S) (s : World S (List (Call S)) × Association S) : Prop where
  plain : op.plain = true
  fresh : ∀ new, op.installs s.1 = some new → S.isOwned new.kind new.handle = true →
    ∀ name, s.1.live ⟨new.kind, name⟩ = true →
      s.1.getHandle ⟨new.kind, name⟩ ≠ new.handle
  emptied : ∀ kind, op.empties = some kind → (S.policy kind).RefusesInvalid

end Op

structure Carried (w : World S (List (Call S))) (assoc : Association S) : Prop where
  value : ∀ obj, w.live obj = true → w.deleterRef obj = .inl obj
  single : ∀ kind name name', w.live ⟨kind, name⟩ = true →
    w.live ⟨kind, name'⟩ = true →
    w.getHandle ⟨kind, name⟩ = w.getHandle ⟨kind, name'⟩ →
    S.isOwned kind (w.getHandle ⟨kind, name⟩) = true → name = name'
  travels : ∀ kind name, w.live ⟨kind, name⟩ = true →
    S.isOwned kind (w.getHandle ⟨kind, name⟩) = true →
    w.getDeleter ⟨kind, name⟩ = assoc kind (w.getHandle ⟨kind, name⟩)

def disposalOf (this : Obj S) (get : S.Handle this.kind) (w : World S (List (Call S)))
    (assoc : Association S) : List (Call S) :=
  if S.isOwned this.kind (w.getHandle this) then
    [⟨this, assoc this.kind (w.getHandle this), w.getHandle this, get⟩]
  else []

def Op.disposals (w : World S (List (Call S))) (assoc : Association S) :
    Op S → List (Call S)
  | .moveAssign kind this other _ =>
      if this = other then []
      else disposalOf ⟨kind, this⟩ (w.getHandle ⟨kind, other⟩) w assoc
  | .reset this hnd => disposalOf this hnd w assoc
  | .resetInvalid this => disposalOf this (S.invalid this.kind) w assoc
  | .destroy this => disposalOf this (S.movedHandle this.kind (w.getHandle this)) w assoc
  | _ => []

namespace Carried

variable {w w' : World S (List (Call S))} {assoc : Association S}

theorem carry (h : Carried w assoc) (source : S.Kind → S.Name → S.Name)
    (hvalue : ∀ obj, w'.live obj = true → w'.deleterRef obj = .inl obj)
    (hsource : ∀ kind name, w'.live ⟨kind, name⟩ = true →
      S.isOwned kind (w'.getHandle ⟨kind, name⟩) = true →
      w.live ⟨kind, source kind name⟩ = true ∧
        w.getHandle ⟨kind, source kind name⟩ = w'.getHandle ⟨kind, name⟩ ∧
        w.getDeleter ⟨kind, source kind name⟩ = w'.getDeleter ⟨kind, name⟩)
    (hinjective : ∀ kind name name',
      S.isOwned kind (w'.getHandle ⟨kind, name⟩) = true →
      S.isOwned kind (w'.getHandle ⟨kind, name'⟩) = true →
      source kind name = source kind name' → name = name') :
    Carried w' assoc where
  value := hvalue
  single := by
    intro kind name name' hlive hlive' hsame howned
    have howned' := hsame ▸ howned
    obtain ⟨hlive₁, hhandle₁, -⟩ := hsource kind name hlive howned
    obtain ⟨hlive₂, hhandle₂, -⟩ := hsource kind name' hlive' howned'
    apply hinjective kind name name' howned howned'
    apply h.single kind _ _ hlive₁ hlive₂
    · rw [hhandle₁, hhandle₂, hsame]
    · rw [hhandle₁]
      exact howned
  travels := by
    intro kind name hlive howned
    obtain ⟨hlive₁, hhandle, hdeleter⟩ := hsource kind name hlive howned
    have htravels := h.travels kind _ hlive₁ (by rw [hhandle]; exact howned)
    rw [← hdeleter, htravels, hhandle]

theorem keep (h : Carried w assoc)
    (hvalue : ∀ obj, w'.live obj = true → w'.deleterRef obj = .inl obj)
    (hsame : ∀ obj, w'.live obj = true →
      S.isOwned obj.kind (w'.getHandle obj) = true →
      w.live obj = true ∧ w.getHandle obj = w'.getHandle obj ∧
        w.getDeleter obj = w'.getDeleter obj) :
    Carried w' assoc :=
  h.carry (fun _ name => name) hvalue (fun kind name => hsame ⟨kind, name⟩)
    fun _ _ _ _ _ heq => heq

theorem install (h : Carried w assoc) (kind : S.Kind) (this : S.Name)
    (hnd : S.Handle kind) (del : S.Deleter)
    (hvalue : ∀ obj, w'.live obj = true → w'.deleterRef obj = .inl obj)
    (hhandle : w'.getHandle ⟨kind, this⟩ = hnd)
    (hdeleter : w'.getDeleter ⟨kind, this⟩ = del)
    (hother : ∀ obj, obj ≠ ⟨kind, this⟩ → w'.live obj = true →
      w.live obj = true ∧ w.getHandle obj = w'.getHandle obj ∧
        w.getDeleter obj = w'.getDeleter obj)
    (hfresh : S.isOwned kind hnd = true → ∀ name,
      w.live ⟨kind, name⟩ = true → w.getHandle ⟨kind, name⟩ ≠ hnd) :
    Carried w' (assoc.assign kind hnd del) where
  value := hvalue
  single := by
    -- an owned handle of an object other than `this` is not the new one
    have hne : ∀ name, name ≠ this → w'.live ⟨kind, name⟩ = true →
        S.isOwned kind hnd = true → w'.getHandle ⟨kind, name⟩ ≠ hnd := by
      intro name hname hlive howned
      obtain ⟨hlive₁, hsame, -⟩ := hother _ (by simpa using hname) hlive
      rw [← hsame]
      exact hfresh howned name hlive₁
    intro kind' name name' hlive hlive' hsame howned
    by_cases hname : (⟨kind', name⟩ : Obj S) = ⟨kind, this⟩
    · obtain ⟨rfl, rfl⟩ := Obj.mk.injEq .. ▸ hname
      by_contra hdistinct
      rw [hhandle] at hsame howned
      exact hne name' (Ne.symm hdistinct) hlive' howned hsame.symm
    · by_cases hname' : (⟨kind', name'⟩ : Obj S) = ⟨kind, this⟩
      · obtain ⟨rfl, rfl⟩ := Obj.mk.injEq .. ▸ hname'
        rw [hsame, hhandle] at howned
        rw [hhandle] at hsame
        exact absurd hsame (hne name (by simpa using hname) hlive howned)
      · obtain ⟨hlive₁, hsame₁, -⟩ := hother _ hname hlive
        obtain ⟨hlive₂, hsame₂, -⟩ := hother _ hname' hlive'
        apply h.single kind' name name' hlive₁ hlive₂
        · rw [hsame₁, hsame₂, hsame]
        · rw [hsame₁]
          exact howned
  travels := by
    intro kind' name hlive howned
    by_cases hname : (⟨kind', name⟩ : Obj S) = ⟨kind, this⟩
    · obtain ⟨rfl, rfl⟩ := Obj.mk.injEq .. ▸ hname
      rw [hhandle, hdeleter, Association.assign_self]
    · obtain ⟨hlive₁, hsame, hdel⟩ := hother _ hname hlive
      rw [← hsame] at howned
      rw [← hdel, ← hsame, h.travels kind' name hlive₁ howned]
      by_cases hkind : kind' = kind
      · subst hkind
        rw [Association.assign_of_ne]
        intro heq
        exact hfresh (heq ▸ howned) name hlive₁ heq
      · rw [Association.assign_of_kind_ne hkind]

theorem transfer (h : Carried w assoc) (kind : S.Kind) (this other : S.Name)
    (hvalue : ∀ obj, w'.live obj = true → w'.deleterRef obj = .inl obj)
    (hlive : w.live ⟨kind, other⟩ = true)
    (hhandle : w'.getHandle ⟨kind, this⟩ = w.getHandle ⟨kind, other⟩)
    (hdeleter : w'.getDeleter ⟨kind, this⟩ = w.getDeleter ⟨kind, other⟩)
    (hempty : other ≠ this →
      S.isOwned kind (w'.getHandle ⟨kind, other⟩) = false)
    (hrest : ∀ obj, obj ≠ ⟨kind, this⟩ → obj ≠ ⟨kind, other⟩ →
      w'.live obj = true → w.live obj = true ∧
        w.getHandle obj = w'.getHandle obj ∧
        w.getDeleter obj = w'.getDeleter obj) :
    Carried w' assoc := by
  have hnot : ∀ name, name ≠ this →
      S.isOwned kind (w'.getHandle ⟨kind, name⟩) = true → name ≠ other := by
    rintro name hname howned rfl
    rw [hempty hname] at howned
    exact Bool.false_ne_true howned
  apply h.carry
    (fun kind' name => if kind' = kind ∧ name = this then other else name) hvalue
  · intro kind' name hlive' howned
    by_cases hname : kind' = kind ∧ name = this
    · obtain ⟨rfl, rfl⟩ := hname
      rw [if_pos ⟨rfl, rfl⟩]
      exact ⟨hlive, hhandle.symm, hdeleter.symm⟩
    · rw [if_neg hname]
      refine hrest _ (by simpa using hname) ?_ hlive'
      rintro ⟨⟩
      exact hnot other (fun heq => hname ⟨rfl, heq⟩) howned rfl
  · intro kind' name name' howned howned' heq
    by_cases hkind : kind' = kind
    · subst hkind
      by_cases hname : name = this <;> by_cases hname' : name' = this
      · rw [hname, hname']
      · simp only [hname, hname', and_false, and_self, if_true, if_false] at heq
        exact absurd heq.symm (hnot name' hname' howned')
      · simp only [hname, hname', and_false, and_self, if_true, if_false] at heq
        exact absurd heq (hnot name hname howned)
      · simpa [hname, hname'] using heq
    · simpa [hkind] using heq

theorem setEnv (h : Carried w assoc) (env : List (Call S)) :
    Carried (w.setEnv env) assoc :=
  ⟨h.value, h.single, h.travels⟩

theorem setInvalid (h : Carried w assoc) (this : Obj S)
    (hempty : S.isOwned this.kind (S.invalid this.kind) = false) :
    Carried (w.setHandle this (S.invalid this.kind)) assoc := by
  refine h.keep (by simpa using h.value) fun obj hlive howned => ?_
  by_cases hobj : obj = this
  · subst hobj
    simp [hempty] at howned
  · simpa [hobj] using hlive

theorem endLifetime (h : Carried w assoc) (this : Obj S) :
    Carried (w.endLifetime this) assoc := by
  have hlive : ∀ obj, (w.endLifetime this).live obj = true → w.live obj = true := by
    intro obj hobj
    by_cases heq : obj = this
    · subst heq
      simp at hobj
    · simpa [heq] using hobj
  exact h.keep (fun obj hobj => h.value obj (hlive obj hobj))
    fun obj hobj _ => ⟨hlive obj hobj, rfl, rfl⟩

theorem construct (h : Carried w assoc) (kind : S.Kind) (this : S.Name)
    (hnd : S.Handle kind) (del : S.Deleter)
    (hfresh : S.isOwned kind hnd = true → ∀ name,
      w.live ⟨kind, name⟩ = true → w.getHandle ⟨kind, name⟩ ≠ hnd) :
    Carried (w.construct ⟨kind, this⟩ ⟨hnd, .value del⟩)
      (assoc.assign kind hnd del) := by
  apply h.install kind this hnd del _ (by simp) (by simp) _ hfresh
  · intro obj hlive
    by_cases hobj : obj = ⟨kind, this⟩
    · subst hobj
      simp
    · simpa [hobj] using h.value obj (by simpa [hobj] using hlive)
  · intro obj hobj hlive
    simpa [hobj] using hlive

theorem setHandle (h : Carried w assoc) (kind : S.Kind) (this : S.Name)
    (hnd : S.Handle kind)
    (hfresh : S.isOwned kind hnd = true → ∀ name,
      w.live ⟨kind, name⟩ = true → w.getHandle ⟨kind, name⟩ ≠ hnd) :
    Carried (w.setHandle ⟨kind, this⟩ hnd)
      (assoc.assign kind hnd (w.getDeleter ⟨kind, this⟩)) := by
  apply h.install kind this hnd _ (by simpa using h.value) (by simp) (by simp) _
    hfresh
  intro obj hobj hlive
  simpa [hobj] using hlive

theorem moveConstruct (h : Carried w assoc) (kind : S.Kind)
    (this other : S.Name) (left : S.Deleter)
    (hempty : S.isOwned kind (S.invalid kind) = false)
    (hthis : w.live ⟨kind, this⟩ = false) (hother : w.live ⟨kind, other⟩ = true) :
    Carried (UniqueRc.moveConstruct kind this other left w) assoc := by
  have hne : (⟨kind, other⟩ : Obj S) ≠ ⟨kind, this⟩ := by
    intro heq
    rw [← heq, hother] at hthis
    exact Bool.false_ne_true hthis.symm
  have hvalue := h.value ⟨kind, other⟩ hother
  have hhandles := UniqueRcHolderImpl.getHandle_moveConstruct kind this other left w
  have hdeleters :=
    UniqueRcHolderImpl.getDeleter_moveConstruct_of_value kind this other left w hvalue
  apply h.transfer kind this other _ hother
  · rw [UniqueRc.moveConstruct, hhandles]
    simp [hne.symm]
  · rw [UniqueRc.moveConstruct, hdeleters]
    simp
  · intro _
    rw [UniqueRc.moveConstruct, hhandles]
    simpa using hempty
  · intro obj hobj hobj' hlive
    rw [UniqueRc.moveConstruct, hhandles, hdeleters]
    simpa [UniqueRc.moveConstruct, hobj, hobj'] using hlive
  · intro obj hlive
    rw [UniqueRc.moveConstruct,
      UniqueRcHolderImpl.deleterRef_moveConstruct_of_value _ _ _ _ _ hvalue]
    by_cases hobj : obj = ⟨kind, this⟩
    · subst hobj
      simp
    · simpa [hobj] using
        h.value obj (by simpa [UniqueRc.moveConstruct, hobj] using hlive)

theorem moveAssign (h : Carried w assoc) (kind : S.Kind) (this other : S.Name)
    (left : S.Deleter) (hempty : S.isOwned kind (S.invalid kind) = false)
    (hthis : w.live ⟨kind, this⟩ = true) (hother : w.live ⟨kind, other⟩ = true) :
    Carried (UniqueRcHolderImpl.moveInto kind this other left w) assoc := by
  have hhandles := UniqueRcHolderImpl.getHandle_moveInto kind this other left w
  have hdeleters := UniqueRcHolderImpl.getDeleter_moveInto_of_value kind this other
    left w (h.value ⟨kind, this⟩ hthis) (h.value ⟨kind, other⟩ hother)
  by_cases hsame : this = other
  · subst hsame
    refine h.keep (by simpa using h.value) fun obj hlive _ => ?_
    rw [hhandles, hdeleters, if_pos rfl]
    refine ⟨by simpa using hlive, ?_, rfl⟩
    by_cases hobj : obj = ⟨kind, this⟩
    · subst hobj
      simp
    · simp [hobj]
  · have hne : (⟨kind, this⟩ : Obj S) ≠ ⟨kind, other⟩ := by simpa using hsame
    rw [if_neg hsame] at hdeleters
    apply h.transfer kind this other (by simpa using h.value) hother
    · simp [hhandles]
    · simp [hdeleters, hne]
    · intro _
      simpa [hhandles, hne.symm] using hempty
    · intro obj hobj hobj' hlive
      rw [hhandles, hdeleters]
      simpa [hobj, hobj'] using hlive

theorem swap (h : Carried w assoc) (kind : S.Kind) (this other : S.Name)
    (hthis : w.live ⟨kind, this⟩ = true) (hother : w.live ⟨kind, other⟩ = true) :
    Carried (UniqueRc.swap kind this other w) assoc := by
  have hvalueThis := h.value ⟨kind, this⟩ hthis
  have hvalueOther := h.value ⟨kind, other⟩ hother
  apply h.carry fun kind' name =>
    if kind' = kind then Equiv.swap this other name else name
  · simpa [UniqueRc.swap] using h.value
  · intro kind' name hlive _
    have hlive₀ : w.live ⟨kind', name⟩ = true := by simpa [UniqueRc.swap] using hlive
    rw [UniqueRc.swap, UniqueRcHolderImpl.getDeleter_swap_of_value _ _ _ _ hvalueThis
      hvalueOther, UniqueRcHolderImpl.getHandle_swap]
    by_cases hkind : kind' = kind
    · subst hkind
      rw [if_pos rfl]
      by_cases hname : name = other
      · subst hname
        rw [Equiv.swap_apply_right]
        simp [hthis]
      · by_cases hname' : name = this
        · subst hname'
          rw [Equiv.swap_apply_left]
          simp [hname, hother]
        · rw [Equiv.swap_apply_of_ne_of_ne hname' hname]
          simp [hname, hname', hlive₀]
    · rw [if_neg hkind]
      simp [hkind, hlive₀]
  · intro kind' name name' _ _ heq
    by_cases hkind : kind' = kind
    · simpa [hkind] using heq
    · simpa [hkind] using heq

theorem exec {op : Op S} (hvalue : ∀ kind, S.isReference kind = false)
    (h : Carried w assoc) (hop : op.respects (w, assoc))
    (hexec : op.exec recordCall w = some w') :
    Carried w' ((op.installs w).elim assoc fun new =>
      assoc.assign new.kind new.handle new.deleter) := by
  obtain ⟨hplain, hfresh, hemptied⟩ := hop
  cases Op.executed_of_exec hexec with
  | @construct this del _ hdel =>
      simp only [Op.installs, hdel, Option.map_some, Option.elim_some]
      exact h.construct this.kind this.name (S.invalid this.kind) del
        (hfresh ⟨this.kind, S.invalid this.kind, del⟩ (by simp [Op.installs, hdel]))
  | @constructHandle this hnd del _ hdel =>
      simp only [Op.installs, hdel, Option.map_some, Option.elim_some]
      exact h.construct this.kind this.name hnd del
        (hfresh ⟨this.kind, hnd, del⟩ (by simp [Op.installs, hdel]))
  | @constructDeleter this hnd del _ hfits =>
      cases del with
      | value del =>
          exact h.construct this.kind this.name hnd del
            (hfresh ⟨this.kind, hnd, del⟩ rfl)
      | reference cell =>
          simp only [DeleterMember.fits, hvalue, Bool.false_eq_true] at hfits
  | moveConstruct hthis hother =>
      exact h.moveConstruct _ _ _ _ (hemptied _ rfl) hthis hother
  | convertConstruct => exact absurd hplain Bool.false_ne_true
  | moveAssign hthis hother =>
      exact (h.moveAssign _ _ _ _ (hemptied _ rfl) hthis hother).setEnv _
  | convertAssign => exact absurd hplain Bool.false_ne_true
  | swap hthis hother => exact h.swap _ _ _ hthis hother
  | @reset this hnd =>
      exact (h.setHandle this.kind this.name hnd
        (hfresh ⟨this.kind, hnd, w.getDeleter this⟩ rfl)).setEnv _
  | @resetInvalid this =>
      exact (h.setHandle this.kind this.name (S.invalid this.kind)
        (hfresh ⟨this.kind, S.invalid this.kind, w.getDeleter this⟩ rfl)).setEnv _
  | release => exact h.setInvalid _ (hemptied _ rfl)
  | @destroy this _ =>
      -- what the dead object stores does not matter
      split
      case isTrue =>
          refine h.keep (fun obj hlive => ?_) fun obj hlive _ => ?_
          all_goals
            have hne : obj ≠ this := by
              rintro rfl
              simp at hlive
          · simpa using h.value obj (by simpa [hne] using hlive)
          · simpa [hne] using hlive
      case isFalse => exact (h.setEnv _).endLifetime this

theorem callOf_eq (h : Carried w assoc) {this : Obj S} {get : S.Handle this.kind}
    (hlive : w.live this = true) : callOf this get w = disposalOf this get w assoc := by
  unfold callOf disposalOf
  split
  case isTrue howned => rw [h.travels this.kind this.name hlive howned]
  case isFalse => rfl

theorem calls {op : Op S} (h : Carried w assoc) (hop : op.respects (w, assoc))
    (hexec : op.exec recordCall w = some w') :
    w'.env = w.env ++ op.disposals w assoc := by
  have hnone : w'.env = w.env → w'.env = w.env ++ [] := fun henv => by simp [henv]
  cases Op.executed_of_exec hexec with
  | construct => exact hnone rfl
  | constructHandle => exact hnone rfl
  | constructDeleter => exact hnone rfl
  | moveConstruct => exact hnone (by simp)
  | convertConstruct => exact absurd hop.plain Bool.false_ne_true
  | @moveAssign kind this other left hthis hother =>
      refine congrArg (w.env ++ ·) ?_
      rw [Op.disposals]
      by_cases hsame : this = other
      · subst hsame
        -- `reset` finds what the release has left
        rw [if_pos rfl]
        have hempty : S.isOwned kind (S.invalid kind) = false := hop.emptied kind rfl
        exact callOf_of_not_owned (by simpa using hempty)
      · have hne : (⟨kind, this⟩ : Obj S) ≠ ⟨kind, other⟩ := by simpa using hsame
        rw [if_neg hsame, ← h.callOf_eq hthis]
        simp [callOf, hne]
  | convertAssign => exact absurd hop.plain Bool.false_ne_true
  | swap => exact hnone (by simp)
  | reset hlive => exact congrArg (w.env ++ ·) (h.callOf_eq hlive)
  | resetInvalid hlive => exact congrArg (w.env ++ ·) (h.callOf_eq hlive)
  | release => exact hnone rfl
  | destroy hlive => exact congrArg (w.env ++ ·) (h.callOf_eq hlive)

end Carried

section Runs

variable {w w₁ w₂ : World S (List (Call S))} {assoc assoc₁ : Association S}
  {ops : List (Op S)} {op : Op S}

theorem carried_of_run (hvalue : ∀ kind, S.isReference kind = false)
    (hstart : ∀ obj, w.live obj = false)
    (halong : Along Op.track Op.respects ops (w, assoc))
    (hrun : run Op.track ops (w, assoc) = some (w₁, assoc₁)) :
    Carried w₁ assoc₁ := by
  have hinitial : Carried w assoc := by
    constructor <;> simp [hstart]
  have hstep : ∀ (op : Op S) (s s' : World S (List (Call S)) × Association S),
      Carried s.1 s.2 → op.respects s → op.track s = some s' →
        Carried s'.1 s'.2 := by
    intro op s s' h hop htrack
    obtain ⟨w', hexec, rfl⟩ := Option.map_eq_some_iff.mp htrack
    exact h.exec hvalue hop hexec
  exact run_preserves_along hstep hinitial halong hrun

/--
Whatever came before, an operation disposes what it has to, once, with the
deleter that is associated with the handle, which is also the one that each
object which owns a handle has just then.
-/
theorem disposed_by_associated_deleter (hvalue : ∀ kind, S.isReference kind = false)
    (hstart : ∀ obj, w.live obj = false)
    (halong : Along Op.track Op.respects ops (w, assoc))
    (hrun : run Op.track ops (w, assoc) = some (w₁, assoc₁))
    (hop : op.respects (w₁, assoc₁))
    (hexec : op.exec recordCall w₁ = some w₂) :
    w₂.env = w₁.env ++ op.disposals w₁ assoc₁ ∧
      ∀ obj, w₁.live obj = true → S.isOwned obj.kind (w₁.getHandle obj) = true →
        w₁.getDeleter obj = assoc₁ obj.kind (w₁.getHandle obj) := by
  have hcarried := carried_of_run hvalue hstart halong hrun
  exact ⟨hcarried.calls hop hexec, fun obj => hcarried.travels obj.kind obj.name⟩

end Runs

def numberedSignature : Signature where
  Kind := Unit
  Name := Bool
  Cell := Empty
  Deleter := Nat
  Handle _ := Int
  InvalidHandle _ := Int
  policy _ := defaultInvalidHandlePolicy bne id
  isReference _ := false
  defaultDeleter _ := some 0
  convertHandle _ _ := none
  convertDeleter _ _ := none
  assignDeleter _ _ := none
  selfResetCheck := true

def numberedWorld : World numberedSignature (List (Call numberedSignature)) where
  live _ := false
  objects _ := ⟨(0 : Int), .value (0 : Nat)⟩
  cells := Empty.elim
  env := []

def swappedOps : List (Op numberedSignature) :=
  [.constructDeleter ⟨(), false⟩ (7 : Int) (.value (1 : Nat)),
    .constructDeleter ⟨(), true⟩ (9 : Int) (.value (2 : Nat)),
    .swap () false true]

private theorem along_swappedOps :
    Along Op.track Op.respects swappedOps (numberedWorld, fun _ _ => (0 : Nat)) := by
  refine ⟨⟨rfl, ?_, nofun⟩, ?_⟩
  · rintro new ⟨⟩ - name hlive
    exact absurd hlive Bool.false_ne_true
  · rintro s ⟨⟩
    refine ⟨⟨rfl, ?_, nofun⟩, ?_⟩
    · rintro new ⟨⟩ - name hlive
      cases name with
      | false => decide
      | true => exact absurd hlive (by decide)
    · rintro s ⟨⟩
      exact ⟨⟨rfl, by simp [Op.installs], nofun⟩, fun _ _ => trivial⟩

/--
After the swap, the first object has the handle 9 and deleter 2, which came
with it: the move assignment calls this deleter while the object stores 7.
-/
theorem disposed_by_associated_deleter_swapped :
    ∃ w₁ assoc₁ w₂, run Op.track swappedOps (numberedWorld, fun _ _ => (0 : Nat)) =
        some (w₁, assoc₁) ∧
      (Op.moveAssign () false true (5 : Nat)).exec recordCall w₁ = some w₂ ∧
      w₂.env = [⟨⟨(), false⟩, (2 : Nat), (9 : Int), (7 : Int)⟩] := by
  obtain ⟨⟨w₁, assoc₁⟩, hrun⟩ := Option.isSome_iff_exists.mp
    (show (run Op.track swappedOps (numberedWorld, fun _ _ => (0 : Nat))).isSome from rfl)
  have hstate := Option.some.inj hrun
  obtain ⟨w₂, hexec⟩ : ∃ w₂, (Op.moveAssign () false true (5 : Nat)).exec recordCall w₁ =
      some w₂ := by
    obtain ⟨rfl, -⟩ := Prod.mk.inj hstate
    exact ⟨_, rfl⟩
  have hcalls := (disposed_by_associated_deleter (fun _ => rfl) (fun _ => rfl)
    along_swappedOps hrun ⟨rfl, by simp [Op.installs], fun _ _ => rfl⟩ hexec).1
  refine ⟨w₁, assoc₁, w₂, hrun, hexec, hcalls.trans ?_⟩
  obtain ⟨rfl, rfl⟩ := Prod.mk.inj hstate
  rfl

end Raii
