import Raii.ReferenceDeleters

/-!
# Generic and member swap

`std::swap` moves through a temporary, `unique_rc::swap` exchanges the two
elements of `hdt_` one by one.  With reference deleters the temporary refers to
the deleter of the first object and is overwritten together with it.
-/

namespace Raii

variable {S : Signature} {Env : Type}

/--
`std::swap(x, y)` as the standard defines it for any movable type; `tmp` names
its local variable.
-/
def stdSwap (call : DeleterCall S Env) (kind : S.Kind) (x y tmp : S.Name)
    (left left' left'' : S.Deleter) (w : World S Env) : Option (World S Env) := do
  let w := UniqueRc.moveConstruct kind tmp x left w
  let w ← UniqueRc.moveAssign call kind x y left' w
  let w ← UniqueRc.moveAssign call kind y tmp left'' w
  UniqueRc.destroy call ⟨kind, tmp⟩ w

/-- No object that is alive, no deleter and no deleter call tells the two apart. -/
structure World.Agree (w w' : World S Env) : Prop where
  live : w'.live = w.live
  getHandle : ∀ obj, w.live obj = true → w'.getHandle obj = w.getHandle obj
  deleterRef : ∀ obj, w.live obj = true → w'.deleterRef obj = w.deleterRef obj
  getDeleter : ∀ obj, w.live obj = true → w'.getDeleter obj = w.getDeleter obj
  cells : w'.cells = w.cells
  env : w'.env = w.env

structure Exchanged (kind : S.Kind) (x y : S.Name) (w w' : World S Env) :
    Prop where
  handle : w'.getHandle ⟨kind, x⟩ = w.getHandle ⟨kind, y⟩
  handle' : w'.getHandle ⟨kind, y⟩ = w.getHandle ⟨kind, x⟩
  deleter : w'.getDeleter ⟨kind, x⟩ = w.getDeleter ⟨kind, y⟩
  deleter' : w'.getDeleter ⟨kind, y⟩ = w.getDeleter ⟨kind, x⟩
  env : w'.env = w.env

namespace DeleterMember

theorem deleterRef_of_fits {w : World S Env} {obj : Obj S}
    (hfits : (w.objects obj).deleter.fits obj.kind = true) :
    (S.isReference obj.kind = false ∧ w.deleterRef obj = .inl obj) ∨
      (S.isReference obj.kind = true ∧ ∃ cell, w.deleterRef obj = .inr cell) := by
  unfold World.deleterRef
  cases hdel : (w.objects obj).deleter with
  | value del => exact .inl ⟨by simpa [fits, hdel] using hfits, rfl⟩
  | reference cell => exact .inr ⟨by simpa [fits, hdel] using hfits, cell, rfl⟩

end DeleterMember

section Swap

variable {kind : S.Kind} {x y tmp : S.Name} {left left' left'' : S.Deleter}
  {w : World S Env}

def stdSwapped (kind : S.Kind) (x y tmp : S.Name) (left left' left'' : S.Deleter)
    (w : World S Env) : World S Env :=
  (UniqueRcHolderImpl.moveInto kind y tmp left''
    (UniqueRcHolderImpl.moveInto kind x y left'
      (UniqueRc.moveConstruct kind tmp x left w))).endLifetime ⟨kind, tmp⟩

theorem stdSwap_eq_stdSwapped (hrefuses : (S.policy kind).RefusesInvalid)
    (hx : tmp ≠ x) (hy : tmp ≠ y) (call : DeleterCall S Env) :
    stdSwap call kind x y tmp left left' left'' w =
      some (stdSwapped kind x y tmp left left' left'' w) := by
  have hunowned : S.isOwned kind (S.invalid kind) = false := hrefuses
  have hfirst := UniqueRcHolderImpl.getHandle_moveConstruct kind tmp x left w
  have hsecond := UniqueRcHolderImpl.getHandle_moveInto kind x y left'
    (UniqueRc.moveConstruct kind tmp x left w)
  have hthird := UniqueRcHolderImpl.getHandle_moveInto kind y tmp left''
    (UniqueRcHolderImpl.moveInto kind x y left'
      (UniqueRc.moveConstruct kind tmp x left w))
  rw [UniqueRc.moveConstruct] at hsecond hthird
  -- `x` has been moved from, `y` has been released, the temporary likewise
  have hemptyX : ((UniqueRc.moveConstruct kind tmp x left w).setHandle ⟨kind, y⟩
      (S.invalid kind)).getHandle ⟨kind, x⟩ = S.invalid kind := by
    rw [World.getHandle_setHandle, UniqueRc.moveConstruct, hfirst]
    by_cases hxy : x = y
    · subst hxy
      simp
    · simp [hxy]
  have hemptyY : ((UniqueRcHolderImpl.moveInto kind x y left'
      (UniqueRc.moveConstruct kind tmp x left w)).setHandle ⟨kind, tmp⟩
      (S.invalid kind)).getHandle ⟨kind, y⟩ = S.invalid kind := by
    rw [World.getHandle_setHandle, UniqueRc.moveConstruct, hsecond, hfirst]
    by_cases hxy : x = y
    · subst hxy
      simp [hx.symm]
    · simp [hy.symm, Ne.symm hxy]
  have hemptyTmp : (UniqueRcHolderImpl.moveInto kind y tmp left''
      (UniqueRcHolderImpl.moveInto kind x y left'
        (UniqueRc.moveConstruct kind tmp x left w))).getHandle ⟨kind, tmp⟩ =
        S.invalid kind := by
    rw [UniqueRc.moveConstruct, hthird]
    simp [hy]
  simp only [stdSwap, UniqueRc.moveAssign]
  rw [UniqueRcHolderImpl.moveAssign_of_not_owned call
      (by rw [hemptyX]; exact hunowned)]
  simp only [Option.bind_eq_bind, Option.bind_some]
  rw [UniqueRcHolderImpl.moveAssign_of_not_owned call
      (by rw [hemptyY]; exact hunowned)]
  exact UniqueRc.destroy_of_not_owned call
    (by rw [hemptyTmp]; exact hunowned)

theorem getHandle_stdSwapped (hx : tmp ≠ x) (hy : tmp ≠ y) {obj : Obj S}
    (hobj : obj ≠ ⟨kind, tmp⟩) :
    (stdSwapped kind x y tmp left left' left'' w).getHandle obj =
      (UniqueRc.swap kind x y w).getHandle obj := by
  rw [stdSwapped, World.getHandle_endLifetime, UniqueRcHolderImpl.getHandle_moveInto,
    UniqueRcHolderImpl.getHandle_moveInto, UniqueRc.moveConstruct,
    UniqueRcHolderImpl.getHandle_moveConstruct, UniqueRc.swap,
    UniqueRcHolderImpl.getHandle_swap]
  by_cases hobjY : obj = ⟨kind, y⟩
  · subst hobjY
    simp [hx, hy]
  · by_cases hobjX : obj = ⟨kind, x⟩
    · subst hobjX
      have hxy : x ≠ y := by simpa using hobjY
      simp [hx.symm, hy.symm, hxy, hxy.symm]
    · simp [hobj, hobjX, hobjY]

theorem live_stdSwapped (htmp : w.live ⟨kind, tmp⟩ = false) :
    (stdSwapped kind x y tmp left left' left'' w).live = w.live := by
  simp only [stdSwapped, UniqueRc.moveConstruct, World.live_endLifetime,
    UniqueRcHolderImpl.live_moveInto, UniqueRcHolderImpl.live_moveConstruct,
    Function.update_idem, ← htmp, Function.update_eq_self]

theorem env_stdSwapped : (stdSwapped kind x y tmp left left' left'' w).env = w.env := by
  simp [stdSwapped, UniqueRc.moveConstruct]

/-! ### The deleters -/

theorem deleterRef_stdSwapped {obj : Obj S} (hobj : obj ≠ ⟨kind, tmp⟩) :
    (stdSwapped kind x y tmp left left' left'' w).deleterRef obj =
      w.deleterRef obj := by
  rw [stdSwapped, World.deleterRef_endLifetime, UniqueRcHolderImpl.deleterRef_moveInto,
    UniqueRcHolderImpl.deleterRef_moveInto, UniqueRc.moveConstruct,
    UniqueRcHolderImpl.deleterRef_moveConstruct_of_ne _ _ _ _ _ hobj]

theorem agree_of_deleters (hx : tmp ≠ x) (hy : tmp ≠ y)
    (htmp : w.live ⟨kind, tmp⟩ = false)
    (hdeleters : ∀ obj, obj ≠ ⟨kind, tmp⟩ →
      (UniqueRc.swap kind x y w).getDeleter obj =
        (stdSwapped kind x y tmp left left' left'' w).getDeleter obj)
    (hcells : (UniqueRc.swap kind x y w).cells =
      (stdSwapped kind x y tmp left left' left'' w).cells) :
    (stdSwapped kind x y tmp left left' left'' w).Agree
      (UniqueRc.swap kind x y w) := by
  have hne : ∀ obj, (stdSwapped kind x y tmp left left' left'' w).live obj = true →
      obj ≠ ⟨kind, tmp⟩ := by
    rintro obj hlive rfl
    rw [live_stdSwapped htmp, htmp] at hlive
    exact Bool.false_ne_true hlive
  refine ⟨?_, ?_, ?_, fun obj hlive => hdeleters obj (hne obj hlive), hcells, ?_⟩
  · rw [live_stdSwapped htmp, UniqueRc.swap, UniqueRcHolderImpl.live_swap]
  · intro obj hlive
    rw [getHandle_stdSwapped hx hy (hne obj hlive)]
  · intro obj hlive
    rw [deleterRef_stdSwapped (hne obj hlive), UniqueRc.swap,
      UniqueRcHolderImpl.deleterRef_swap]
  · rw [env_stdSwapped, UniqueRc.swap, UniqueRcHolderImpl.env_swap]

theorem agree_of_value (hx : tmp ≠ x) (hy : tmp ≠ y)
    (htmp : w.live ⟨kind, tmp⟩ = false)
    (hvalueX : w.deleterRef ⟨kind, x⟩ = .inl ⟨kind, x⟩)
    (hvalueY : w.deleterRef ⟨kind, y⟩ = .inl ⟨kind, y⟩) :
    (stdSwapped kind x y tmp left left' left'' w).Agree
      (UniqueRc.swap kind x y w) := by
  have hrefs := UniqueRcHolderImpl.deleterRef_moveConstruct_of_value kind tmp x left w
    hvalueX
  have hdels := UniqueRcHolderImpl.getDeleter_moveConstruct_of_value kind tmp x left w
    hvalueX
  have hrefX : (UniqueRcHolderImpl.moveConstruct kind tmp x left w).deleterRef
      ⟨kind, x⟩ = .inl ⟨kind, x⟩ := by
    simpa [hrefs, hx.symm] using hvalueX
  have hrefY : (UniqueRcHolderImpl.moveConstruct kind tmp x left w).deleterRef
      ⟨kind, y⟩ = .inl ⟨kind, y⟩ := by
    simpa [hrefs, hy.symm] using hvalueY
  have hrefTmp : (UniqueRcHolderImpl.moveConstruct kind tmp x left w).deleterRef
      ⟨kind, tmp⟩ = .inl ⟨kind, tmp⟩ := by
    simp [hrefs]
  apply agree_of_deleters hx hy htmp
  · intro obj hobj
    rw [UniqueRc.swap, UniqueRcHolderImpl.getDeleter_swap_of_value _ _ _ _ hvalueX
        hvalueY, stdSwapped, World.getDeleter_endLifetime, UniqueRc.moveConstruct,
      UniqueRcHolderImpl.getDeleter_moveInto_of_value _ _ _ _ _
        (by simpa using hrefY) (by simpa using hrefTmp),
      UniqueRcHolderImpl.getDeleter_moveInto_of_value _ _ _ _ _ hrefX hrefY, hdels]
    by_cases hxy : x = y
    · subst hxy
      by_cases hobjX : obj = ⟨kind, x⟩ <;> simp [hobj, hobjX, hx.symm]
    · by_cases hobjY : obj = ⟨kind, y⟩
      · simp [hobjY, hx, hy, hy.symm, hxy]
      · by_cases hobjX : obj = ⟨kind, x⟩ <;>
          simp [hobj, hobjX, hobjY, hx, hx.symm, hy, hy.symm, hxy, Ne.symm hxy]
  · rw [UniqueRc.swap, UniqueRcHolderImpl.cells_swap_of_value _ _ _ _ hvalueX hvalueY,
      stdSwapped, World.cells_endLifetime, UniqueRc.moveConstruct,
      UniqueRcHolderImpl.cells_moveInto_of_value _ _ _ _ _ (by simpa using hrefY)
        (by simpa using hrefTmp),
      UniqueRcHolderImpl.cells_moveInto_of_value _ _ _ _ _ hrefX hrefY,
      UniqueRcHolderImpl.cells_moveConstruct]

section Reference

variable {cellX cellY : S.Cell}

theorem deleterRef_stdSwap_steps (left : S.Deleter) (hx : tmp ≠ x) (hy : tmp ≠ y)
    (hrefX : w.deleterRef ⟨kind, x⟩ = .inr cellX)
    (hrefY : w.deleterRef ⟨kind, y⟩ = .inr cellY) :
    (UniqueRcHolderImpl.moveConstruct kind tmp x left w).deleterRef ⟨kind, x⟩ =
        .inr cellX ∧
      (UniqueRcHolderImpl.moveConstruct kind tmp x left w).deleterRef ⟨kind, y⟩ =
        .inr cellY ∧
      (UniqueRcHolderImpl.moveConstruct kind tmp x left w).deleterRef ⟨kind, tmp⟩ =
        .inr cellX := by
  rw [UniqueRcHolderImpl.deleterRef_moveConstruct_of_reference _ _ _ _ _ hrefX]
  simp [hx.symm, hy.symm, hrefX, hrefY]

theorem cells_stdSwapped_of_reference (hx : tmp ≠ x) (hy : tmp ≠ y)
    (hrefX : w.deleterRef ⟨kind, x⟩ = .inr cellX)
    (hrefY : w.deleterRef ⟨kind, y⟩ = .inr cellY) :
    (stdSwapped kind x y tmp left left' left'' w).cells =
      Function.update (Function.update w.cells cellX (w.cells cellY)) cellY
        (w.cells cellY) := by
  obtain ⟨hrefX', hrefY', hrefTmp⟩ :=
    deleterRef_stdSwap_steps left hx hy hrefX hrefY
  have hlast := UniqueRcHolderImpl.cells_moveInto_of_reference kind y tmp left''
    (UniqueRcHolderImpl.moveInto kind x y left'
      (UniqueRcHolderImpl.moveConstruct kind tmp x left w))
    (by simpa using hrefY') (by simpa using hrefTmp)
  rw [stdSwapped, World.cells_endLifetime, UniqueRc.moveConstruct, hlast,
    UniqueRcHolderImpl.cells_moveInto_of_reference _ _ _ _ _ hrefX' hrefY',
    UniqueRcHolderImpl.cells_moveConstruct, Function.update_self]

theorem getDeleter_stdSwapped_of_reference (hx : tmp ≠ x) (hy : tmp ≠ y)
    (hrefX : w.deleterRef ⟨kind, x⟩ = .inr cellX)
    (hrefY : w.deleterRef ⟨kind, y⟩ = .inr cellY) {obj : Obj S}
    (hobj : obj ≠ ⟨kind, tmp⟩) :
    (stdSwapped kind x y tmp left left' left'' w).getDeleter obj =
      if w.deleterRef obj = .inr cellY then w.cells cellY
      else if w.deleterRef obj = .inr cellX then w.cells cellY
      else w.getDeleter obj := by
  obtain ⟨hrefX', hrefY', hrefTmp⟩ :=
    deleterRef_stdSwap_steps left hx hy hrefX hrefY
  have hlast := UniqueRcHolderImpl.getDeleter_moveInto_of_reference kind y tmp left''
    (UniqueRcHolderImpl.moveInto kind x y left'
      (UniqueRcHolderImpl.moveConstruct kind tmp x left w))
    (by simpa using hrefY') (by simpa using hrefTmp) obj
  have hrefs := UniqueRcHolderImpl.deleterRef_moveConstruct_of_reference kind tmp x
    left w hrefX
  have hdels := UniqueRcHolderImpl.getDeleter_moveConstruct_of_reference kind tmp x
    left w hrefX
  rw [stdSwapped, World.getDeleter_endLifetime, UniqueRc.moveConstruct, hlast,
    UniqueRcHolderImpl.cells_moveInto_of_reference _ _ _ _ _ hrefX' hrefY',
    UniqueRcHolderImpl.getDeleter_moveInto_of_reference _ _ _ _ _ hrefX' hrefY',
    UniqueRcHolderImpl.deleterRef_moveInto, UniqueRcHolderImpl.cells_moveConstruct,
    Function.update_self, hrefs, hdels, Function.update_of_ne hobj,
    Function.update_of_ne hobj]

theorem agree_iff_of_reference (hx : tmp ≠ x) (hy : tmp ≠ y)
    (htmp : w.live ⟨kind, tmp⟩ = false)
    (hrefX : w.deleterRef ⟨kind, x⟩ = .inr cellX)
    (hrefY : w.deleterRef ⟨kind, y⟩ = .inr cellY) :
    (stdSwapped kind x y tmp left left' left'' w).Agree (UniqueRc.swap kind x y w) ↔
      w.cells cellX = w.cells cellY := by
  have hcells : (stdSwapped kind x y tmp left left' left'' w).cells = _ :=
    cells_stdSwapped_of_reference hx hy hrefX hrefY
  have hcells' := UniqueRcHolderImpl.cells_swap_of_reference kind x y w hrefX hrefY
  constructor
  · intro h
    have hsame := congrFun h.cells cellY
    rwa [UniqueRc.swap, hcells, hcells', Function.update_self, Function.update_self]
      at hsame
  · intro hvalues
    apply agree_of_deleters hx hy htmp
    · intro obj hobj
      rw [getDeleter_stdSwapped_of_reference hx hy hrefX hrefY hobj, UniqueRc.swap,
        UniqueRcHolderImpl.getDeleter_swap_of_reference _ _ _ _ hrefX hrefY, hvalues]
    · rw [hcells, UniqueRc.swap, hcells', hvalues]

end Reference

theorem getDeleter_swap_pair
    (hfitsX : (w.objects ⟨kind, x⟩).deleter.fits kind = true)
    (hfitsY : (w.objects ⟨kind, y⟩).deleter.fits kind = true) :
    (UniqueRc.swap kind x y w).getDeleter ⟨kind, x⟩ = w.getDeleter ⟨kind, y⟩ ∧
      (UniqueRc.swap kind x y w).getDeleter ⟨kind, y⟩ = w.getDeleter ⟨kind, x⟩ := by
  rcases DeleterMember.deleterRef_of_fits hfitsX with
    ⟨hvalue, hvalueX⟩ | ⟨hreference, cellX, hrefX⟩ <;>
    rcases DeleterMember.deleterRef_of_fits hfitsY with
      ⟨hvalue', hvalueY⟩ | ⟨hreference', cellY, hrefY⟩
  · rw [UniqueRc.swap,
      UniqueRcHolderImpl.getDeleter_swap_of_value _ _ _ _ hvalueX hvalueY]
    by_cases hxy : x = y
    · subst hxy
      simp
    · simp [hxy]
  · exact absurd (hvalue.symm.trans hreference') Bool.false_ne_true
  · exact absurd (hvalue'.symm.trans hreference) Bool.false_ne_true
  · rw [UniqueRc.swap,
      UniqueRcHolderImpl.getDeleter_swap_of_reference _ _ _ _ hrefX hrefY,
      UniqueRcHolderImpl.getDeleter_swap_of_reference _ _ _ _ hrefX hrefY, hrefX, hrefY,
      World.getDeleter_eq_cells hrefX, World.getDeleter_eq_cells hrefY]
    by_cases hcell : cellX = cellY
    · simp [hcell]
    · simp [hcell]

theorem exchanged_swap
    (hfitsX : (w.objects ⟨kind, x⟩).deleter.fits kind = true)
    (hfitsY : (w.objects ⟨kind, y⟩).deleter.fits kind = true) :
    Exchanged kind x y w (UniqueRc.swap kind x y w) := by
  have hhandles := UniqueRcHolderImpl.getHandle_swap kind x y w
  obtain ⟨hdeleter, hdeleter'⟩ := getDeleter_swap_pair hfitsX hfitsY
  refine ⟨?_, ?_, hdeleter, hdeleter', by simp [UniqueRc.swap]⟩
  · by_cases hxy : x = y
    · subst hxy
      simp [UniqueRc.swap, hhandles]
    · simp [UniqueRc.swap, hhandles, hxy]
  · simp [UniqueRc.swap, hhandles]

/--
If the policy refuses its own `invalid()`, the handles are always exchanged
through a temporary and no deleter is called.  The result is that of the member
function exactly if the deleter is an object or the two references lead to equal
deleters.
-/
theorem stdSwap_agree_iff (hlive : w.live ⟨kind, x⟩ = true)
    (hlive' : w.live ⟨kind, y⟩ = true) (htmp : w.live ⟨kind, tmp⟩ = false)
    (hfitsX : (w.objects ⟨kind, x⟩).deleter.fits kind = true)
    (hfitsY : (w.objects ⟨kind, y⟩).deleter.fits kind = true) :
    Exchanged kind x y w (UniqueRc.swap kind x y w) ∧
      ((S.policy kind).RefusesInvalid →
        ∃ w', (∀ call, stdSwap call kind x y tmp left left' left'' w = some w') ∧
          w'.env = w.env ∧
          w'.getHandle ⟨kind, x⟩ = w.getHandle ⟨kind, y⟩ ∧
          w'.getHandle ⟨kind, y⟩ = w.getHandle ⟨kind, x⟩ ∧
          (w'.Agree (UniqueRc.swap kind x y w) ↔
            S.isReference kind = false ∨
              w.getDeleter ⟨kind, x⟩ = w.getDeleter ⟨kind, y⟩)) := by
  have hx : tmp ≠ x := by
    rintro rfl
    rw [htmp] at hlive
    exact Bool.false_ne_true hlive
  have hy : tmp ≠ y := by
    rintro rfl
    rw [htmp] at hlive'
    exact Bool.false_ne_true hlive'
  have hswapped := exchanged_swap hfitsX hfitsY
  refine ⟨hswapped, fun hrefuses =>
    ⟨_, stdSwap_eq_stdSwapped hrefuses hx hy, env_stdSwapped, ?_, ?_, ?_⟩⟩
  · rw [getHandle_stdSwapped hx hy (by simpa using hx.symm), hswapped.handle]
  · rw [getHandle_stdSwapped hx hy (by simpa using hy.symm), hswapped.handle']
  · rcases DeleterMember.deleterRef_of_fits hfitsX with
      ⟨hvalue, hvalueX⟩ | ⟨hreference, cellX, hrefX⟩
    · rcases DeleterMember.deleterRef_of_fits hfitsY with
        ⟨-, hvalueY⟩ | ⟨hreference, -⟩
      · exact ⟨fun _ => .inl hvalue, fun _ => agree_of_value hx hy htmp hvalueX hvalueY⟩
      · exact absurd (hvalue.symm.trans hreference) Bool.false_ne_true
    · rcases DeleterMember.deleterRef_of_fits hfitsY with
        ⟨hvalue, -⟩ | ⟨-, cellY, hrefY⟩
      · exact absurd (hvalue.symm.trans hreference) Bool.false_ne_true
      · rw [agree_iff_of_reference hx hy htmp hrefX hrefY,
          World.getDeleter_eq_cells hrefX, World.getDeleter_eq_cells hrefY]
        exact ⟨.inr, fun h => h.resolve_left (by simp [hreference])⟩

end Swap

/-! ## Two owners with reference deleters -/

def referenceWorld (first second : Nat) : World referenceSignature Unit where
  live obj := Option.isSome obj.name
  objects
    | ⟨_, some false⟩ => ⟨(7 : Int), .reference false⟩
    | ⟨_, some true⟩ => ⟨(9 : Int), .reference true⟩
    | ⟨_, none⟩ => ⟨(0 : Int), .reference false⟩
  cells
    | false => first
    | true => second
  env := ()

theorem stdSwap_agree_iff_equal :
    ∃ w', stdSwap (fun _ _ _ _ => none) () (some false) (some true) none
        (0 : Nat) (0 : Nat) (0 : Nat) (referenceWorld 4 4) = some w' ∧
      w'.Agree (UniqueRc.swap () (some false) (some true) (referenceWorld 4 4)) := by
  have hlive : (referenceWorld 4 4).live ⟨(), some false⟩ = true := rfl
  have hlive' : (referenceWorld 4 4).live ⟨(), some true⟩ = true := rfl
  have htmp : (referenceWorld 4 4).live ⟨(), none⟩ = false := rfl
  obtain ⟨w', hswap, -, -, -, hagree⟩ :=
    (stdSwap_agree_iff hlive hlive' htmp rfl rfl).2 rfl
  exact ⟨w', hswap _, hagree.mpr (.inr rfl)⟩

theorem not_stdSwap_agree :
    ∃ w', stdSwap (fun _ _ _ _ => none) () (some false) (some true) none
        (0 : Nat) (0 : Nat) (0 : Nat) (referenceWorld 4 5) = some w' ∧
      w'.getHandle ⟨(), some true⟩ = (7 : Int) ∧
      w'.getDeleter ⟨(), some true⟩ = (5 : Nat) ∧
      ¬ w'.Agree (UniqueRc.swap () (some false) (some true) (referenceWorld 4 5)) := by
  refine ⟨_, rfl, rfl, rfl, fun h => ?_⟩
  have hcell : (4 : Nat) = 5 := congrFun h.cells true
  omega

end Raii
