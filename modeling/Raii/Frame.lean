import Raii.UniqueRc

/-!
# What an operation leaves alone

Every operation is a sequence of writes to the objects it names and of at most
one deleter call.  A relation between worlds that these writes keep is kept by
the operation, whatever the order of its writes.
-/

namespace Raii

variable {S : Signature} {Env : Type}

def Op.operands : Op S → List (Obj S)
  | .construct this => [this]
  | .constructHandle this _ => [this]
  | .constructDeleter this _ _ => [this]
  | .moveConstruct kind this other _ => [⟨kind, this⟩, ⟨kind, other⟩]
  | .convertConstruct this other _ => [this, other]
  | .moveAssign kind this other _ => [⟨kind, this⟩, ⟨kind, other⟩]
  | .convertAssign this other _ => [this, other]
  | .swap kind this other => [⟨kind, this⟩, ⟨kind, other⟩]
  | .reset this _ => [this]
  | .resetInvalid this => [this]
  | .release this => [this]
  | .destroy this => [this]

def Op.ended : Op S → List (Obj S)
  | .destroy this => [this]
  | _ => []

theorem Op.ended_subset {op : Op S} : op.ended ⊆ op.operands := by
  cases op <;> simp [ended, operands]

/-- `R` is kept by every write to an object in `named`, and by the end of one in `ended`. -/
structure Writes (R : World S Env → World S Env → Prop) (named ended : List (Obj S)) :
    Prop where
  refl : ∀ w, R w w
  trans : ∀ {w₁ w₂ w₃}, R w₁ w₂ → R w₂ w₃ → R w₁ w₃
  setHandle : ∀ obj ∈ named, ∀ hnd w, R w (w.setHandle obj hnd)
  setDeleter : ∀ obj ∈ named, ∀ del w, R w (w.setDeleter obj del)
  construct : ∀ obj ∈ named, ∀ hdt w, R w (w.construct obj hdt)
  endLifetime : ∀ obj ∈ ended, ∀ w, R w (w.endLifetime obj)

namespace Writes

variable {R : World S Env → World S Env → Prop} {named ended : List (Obj S)}
  {call : DeleterCall S Env} {w w' : World S Env} {this other : Obj S}

theorem assignDeleter (hR : Writes R named ended) (hthis : this ∈ named) (hother : other ∈ named)
    (convert : S.Deleter → S.Deleter) (left : S.Deleter) (w : World S Env) :
    R w (w.assignDeleter this other convert left) := by
  unfold World.assignDeleter
  split
  · split
    · exact hR.refl w
    · exact hR.trans (hR.setDeleter this hthis _ w) (hR.setDeleter other hother _ _)
  · exact hR.setDeleter this hthis _ w

theorem moveDeleter (hR : Writes R named ended) (hother : other ∈ named) (left : S.Deleter)
    (w : World S Env) : R w (w.moveDeleter other left).2 := by
  unfold World.moveDeleter
  split
  · exact hR.setDeleter other hother _ w
  · exact hR.refl w

theorem forwardDeleter (hR : Writes R named ended) (hother : other ∈ named) (kind : S.Kind)
    (convert : S.Deleter → S.Deleter) (left : S.Deleter) (w : World S Env) :
    R w (UniqueRc.forwardDeleter kind other convert left w).2 := by
  unfold UniqueRc.forwardDeleter
  split
  · exact hR.setDeleter other hother _ w
  · split <;> exact hR.refl w

variable (hcall : ∀ this del hnd w w', call this del hnd w = some w' → R w w')
include hcall

theorem reset (hR : Writes R named ended) (hthis : this ∈ named) {hnd : S.Handle this.kind}
    (hrun : UniqueRcHolderImpl.reset call this hnd w = some w') : R w w' := by
  rcases UniqueRcHolderImpl.reset_cases call hrun with ⟨-, rfl⟩ | ⟨-, -, hcalled⟩
  · exact hR.setHandle this hthis hnd w
  · exact hR.trans (hR.setHandle this hthis hnd w) (hcall _ _ _ _ _ hcalled)

theorem destroy (hR : Writes R named ended) (hthis : this ∈ named) (hended : this ∈ ended)
    (hrun : UniqueRc.destroy call this w = some w') : R w w' := by
  cases howned : S.isOwned this.kind (w.getHandle this) with
  | false =>
      rw [UniqueRc.destroy_of_not_owned call howned, Option.some.injEq] at hrun
      exact hrun ▸ hR.endLifetime this hended w
  | true =>
      rw [UniqueRc.destroy_of_owned call howned] at hrun
      obtain ⟨w₁, hcalled, rfl⟩ := Option.map_eq_some_iff.mp hrun
      exact hR.trans (hR.setHandle this hthis _ w) (hR.trans (hcall _ _ _ _ _ hcalled)
        (hR.trans (hR.setHandle this hthis _ w₁) (hR.endLifetime this hended _)))

theorem exec {op : Op S} (hR : Writes R op.operands op.ended)
    (hexec : op.exec call w = some w') : R w w' := by
  obtain ⟨-, hrun⟩ := Op.exec_eq_some_iff.mp hexec
  cases op with
  | construct this =>
      obtain ⟨del, -, hconstruct⟩ := Option.bind_eq_some_iff.mp hrun
      exact Option.some.inj hconstruct ▸ hR.construct this List.mem_cons_self _ w
  | constructHandle this hnd =>
      obtain ⟨del, -, hconstruct⟩ := Option.bind_eq_some_iff.mp hrun
      exact Option.some.inj hconstruct ▸ hR.construct this List.mem_cons_self _ w
  | constructDeleter this hnd del =>
      obtain ⟨-, hconstruct⟩ := Option.ite_none_right_eq_some.mp hrun
      exact Option.some.inj hconstruct ▸ hR.construct this List.mem_cons_self _ w
  | moveConstruct kind this other left =>
      obtain rfl := Option.some.inj hrun
      have hother : ⟨kind, other⟩ ∈ (Op.moveConstruct kind this other left).operands :=
        List.mem_cons_of_mem _ List.mem_cons_self
      exact hR.trans (hR.moveDeleter hother left w)
        (hR.trans (hR.construct _ List.mem_cons_self _ _) (hR.setHandle _ hother _ _))
  | convertConstruct this other left =>
      obtain ⟨-, convert, -, convertDel, -, rfl⟩ :=
        Op.run_convertConstruct_eq_some_iff.mp hrun
      have hother : other ∈ (Op.convertConstruct this other left).operands :=
        List.mem_cons_of_mem _ List.mem_cons_self
      exact hR.trans (hR.setHandle _ hother _ w)
        (hR.trans (hR.forwardDeleter hother _ _ _ _)
          (hR.construct _ List.mem_cons_self _ _))
  | moveAssign kind this other left =>
      obtain ⟨w₁, hreset, rfl⟩ := (UniqueRcHolderImpl.moveAssign_eq_some_iff call).mp hrun
      have hother : ⟨kind, other⟩ ∈ (Op.moveAssign kind this other left).operands :=
        List.mem_cons_of_mem _ List.mem_cons_self
      exact hR.trans (hR.setHandle _ hother _ w)
        (hR.trans (hR.reset hcall List.mem_cons_self hreset)
          (hR.assignDeleter List.mem_cons_self hother _ _ w₁))
  | convertAssign this other left =>
      obtain ⟨-, convert, -, convertDel, -, hassign⟩ :=
        Op.run_convertAssign_eq_some_iff.mp hrun
      obtain ⟨w₁, hreset, rfl⟩ := (UniqueRc.convertAssign_eq_some_iff call).mp hassign
      have hother : other ∈ (Op.convertAssign this other left).operands :=
        List.mem_cons_of_mem _ List.mem_cons_self
      exact hR.trans (hR.setHandle _ hother _ w)
        (hR.trans (hR.reset hcall List.mem_cons_self hreset)
          (hR.assignDeleter List.mem_cons_self hother _ _ w₁))
  | swap kind this other =>
      obtain rfl := Option.some.inj hrun
      have hthis : ⟨kind, this⟩ ∈ (Op.swap kind this other).operands := List.mem_cons_self
      have hother : ⟨kind, other⟩ ∈ (Op.swap kind this other).operands :=
        List.mem_cons_of_mem _ List.mem_cons_self
      exact hR.trans (hR.setHandle _ hthis _ w) (hR.trans (hR.setHandle _ hother _ _)
        (hR.trans (hR.setDeleter _ hthis _ _) (hR.setDeleter _ hother _ _)))
  | reset this hnd => exact hR.reset hcall List.mem_cons_self hrun
  | resetInvalid this => exact hR.reset hcall List.mem_cons_self hrun
  | release this =>
      obtain rfl := Option.some.inj hrun
      exact hR.setHandle this List.mem_cons_self _ w
  | destroy this => exact hR.destroy hcall List.mem_cons_self List.mem_cons_self hrun

end Writes

/--
An operation calls its deleter, if at all, on the objects that were alive at its
start; with a deleter that does there what the first one did, it does the same.
-/
theorem Op.exec_mono {call call' : DeleterCall S Env} {op : Op S} {w w' : World S Env}
    (hcall : ∀ this del hnd w₁ w', w₁.live = w.live → call this del hnd w₁ = some w' →
      call' this del hnd w₁ = some w')
    (hexec : op.exec call w = some w') : op.exec call' w = some w' := by
  have hreset : ∀ {this hnd w₁ w'}, w₁.live = w.live →
      UniqueRcHolderImpl.reset call this hnd w₁ = some w' →
      UniqueRcHolderImpl.reset call' this hnd w₁ = some w' := by
    intro this hnd w₁ w' hlive hrun
    rcases UniqueRcHolderImpl.reset_cases call hrun with
      ⟨howned, rfl⟩ | ⟨howned, hcheck, hcalled⟩
    · exact UniqueRcHolderImpl.reset_of_not_owned call' howned
    · rw [UniqueRcHolderImpl.reset_of_owned call' howned hcheck]
      exact hcall _ _ _ _ _ hlive hcalled
  obtain ⟨hlifetime, hrun⟩ := Op.exec_eq_some_iff.mp hexec
  refine Op.exec_eq_some_iff.mpr ⟨hlifetime, ?_⟩
  cases op with
  | construct this => exact hrun
  | constructHandle this hnd => exact hrun
  | constructDeleter this hnd del => exact hrun
  | moveConstruct kind this other left => exact hrun
  | convertConstruct this other left => exact hrun
  | moveAssign kind this other left =>
      obtain ⟨w₁, hfirst, rfl⟩ := (UniqueRcHolderImpl.moveAssign_eq_some_iff call).mp hrun
      exact (UniqueRcHolderImpl.moveAssign_eq_some_iff call').mpr
        ⟨w₁, hreset rfl hfirst, rfl⟩
  | convertAssign this other left =>
      obtain ⟨hkind, convert, hconvert, convertDel, hconvertDel, hassign⟩ :=
        run_convertAssign_eq_some_iff.mp hrun
      obtain ⟨w₁, hfirst, rfl⟩ := (UniqueRc.convertAssign_eq_some_iff call).mp hassign
      exact run_convertAssign_eq_some_iff.mpr ⟨hkind, convert, hconvert, convertDel,
        hconvertDel, (UniqueRc.convertAssign_eq_some_iff call').mpr
          ⟨w₁, hreset rfl hfirst, rfl⟩⟩
  | swap kind this other => exact hrun
  | reset this hnd => exact hreset rfl hrun
  | resetInvalid this => exact hreset rfl hrun
  | release this => exact hrun
  | destroy this =>
      cases howned : S.isOwned this.kind (w.getHandle this) with
      | false =>
          rw [run, UniqueRc.destroy_of_not_owned call howned] at hrun
          rw [run, UniqueRc.destroy_of_not_owned call' howned]
          exact hrun
      | true =>
          rw [run, UniqueRc.destroy_of_owned call howned, Option.map_eq_some_iff] at hrun
          obtain ⟨w₁, hcalled, rfl⟩ := hrun
          rw [run, UniqueRc.destroy_of_owned call' howned]
          exact Option.map_eq_some_iff.mpr ⟨w₁, hcall _ _ _ _ _ rfl hcalled, rfl⟩

/-! ## Objects and the environment -/

structure Untouched (obj : Obj S) (w w' : World S Env) : Prop where
  live : w'.live obj = w.live obj
  getHandle : w'.getHandle obj = w.getHandle obj

theorem Untouched.trans {obj : Obj S} {w₁ w₂ w₃ : World S Env}
    (h : Untouched obj w₁ w₂) (h' : Untouched obj w₂ w₃) : Untouched obj w₁ w₃ :=
  ⟨h'.live.trans h.live, h'.getHandle.trans h.getHandle⟩

theorem writes_untouched {obj : Obj S} {named ended : List (Obj S)}
    (hnamed : ∀ this ∈ named, obj ≠ this) (hended : ended ⊆ named) :
    Writes (@Untouched S Env obj) named ended where
  refl _ := ⟨rfl, rfl⟩
  trans := .trans
  setHandle this hthis hnd w :=
    ⟨rfl, by rw [World.getHandle_setHandle, Function.update_of_ne (hnamed this hthis)]⟩
  setDeleter this hthis del w := ⟨by simp, by simp⟩
  construct this hthis hdt w :=
    ⟨by rw [World.live_construct, Function.update_of_ne (hnamed this hthis)],
      by rw [World.getHandle_construct, Function.update_of_ne (hnamed this hthis)]⟩
  endLifetime this hthis w :=
    ⟨by rw [World.live_endLifetime, Function.update_of_ne (hnamed this (hended hthis))], rfl⟩

theorem writes_alive {obj : Obj S} {ended : List (Obj S)}
    (hended : ∀ this ∈ ended, obj ≠ this) (named : List (Obj S)) :
    Writes (fun w w' : World S Env => w.live obj = true → w'.live obj = true) named
      ended where
  refl _ := id
  trans h h' := h' ∘ h
  setHandle _ _ _ _ := id
  setDeleter _ _ _ _ := by simp
  construct this _ _ w hlive := by
    rw [World.live_construct]
    by_cases heq : obj = this
    · rw [heq, Function.update_self]
    · rw [Function.update_of_ne heq, hlive]
  endLifetime this hthis w hlive := by
    rw [World.live_endLifetime, Function.update_of_ne (hended this hthis), hlive]

theorem writes_env {R : Env → Env → Prop} (hrefl : ∀ env, R env env)
    (htrans : ∀ {env₁ env₂ env₃}, R env₁ env₂ → R env₂ env₃ → R env₁ env₃)
    (named ended : List (Obj S)) :
    Writes (fun w w' : World S Env => R w.env w'.env) named ended where
  refl w := hrefl w.env
  trans := htrans
  setHandle _ _ _ w := hrefl w.env
  setDeleter _ _ _ w := by simpa using hrefl w.env
  construct _ _ _ w := hrefl w.env
  endLifetime _ _ w := hrefl w.env

end Raii
