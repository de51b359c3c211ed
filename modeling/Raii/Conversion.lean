import Raii.UniqueRc

/-!
# Converting transfers

The converting move constructor and the converting move assignment pass a
handle from one policy to another.  Neither looks at the policies: the
constraints ask for convertible handles only.  So the destination owns what it
received exactly when its own policy says so, and the source, which is left
with its `invalid()`, owns that value or not.
-/

namespace Raii

variable {S : Signature} {this other : Obj S} {left : S.Deleter}
  {w w' : World S (List (Call S))}

/--
The destination owns a resource if the source did, and the source owns nothing.
Then the next `reset()` and the destructor call a deleter in the same case.
-/
structure OwnershipPreserved (this other : Obj S)
    (w w' : World S (List (Call S))) : Prop where
  transferred : UniqueRc.operatorBool this w' = UniqueRc.operatorBool other w
  emptied : UniqueRc.operatorBool other w' = false
  disposed : ∀ op : Op S, op = .resetInvalid this ∨ op = .destroy this →
    ∀ w'', op.run recordCall w' = some w'' →
      (w''.env ≠ w'.env ↔ UniqueRc.operatorBool other w = true)

theorem getHandle_of_conversion {op : Op S}
    (hop : op = .convertConstruct this other left ∨ op = .convertAssign this other left)
    (hexec : op.exec recordCall w = some w') :
    ∃ convert, S.convertHandle other.kind this.kind = some convert ∧
      w'.getHandle this = convert (w.getHandle other) ∧
      w'.getHandle other = S.invalid other.kind := by
  have hne : this.kind ≠ other.kind → other ≠ this := by
    rintro hkind rfl
    exact hkind rfl
  rcases hop with rfl | rfl
  · cases Op.executed_of_exec hexec with
    | convertConstruct _ _ hkind hconvert _ =>
        refine ⟨_, hconvert, ?_, ?_⟩ <;>
          simp [UniqueRc.getHandle_convertConstruct, hne hkind]
  · cases Op.executed_of_exec hexec with
    | convertAssign _ _ hkind hconvert _ =>
        refine ⟨_, hconvert, ?_, ?_⟩ <;> simp [hne hkind]

theorem env_ne_iff_operatorBool {op : Op S}
    (hop : op = .resetInvalid this ∨ op = .destroy this)
    (hrun : op.run recordCall w = some w') :
    w'.env ≠ w.env ↔ UniqueRc.operatorBool this w = true := by
  have hcalls : ∃ get, w'.env = w.env ++ callOf this get w := by
    rcases hop with rfl | rfl
    · obtain ⟨-, rfl⟩ := reset_recordCall_eq_some_iff.mp hrun
      exact ⟨_, rfl⟩
    · simp only [Op.run, destroy_recordCall_eq, Option.some.injEq] at hrun
      subst hrun
      exact ⟨_, rfl⟩
  obtain ⟨get, henv⟩ := hcalls
  rw [henv, Ne, List.append_right_eq_self]
  unfold callOf
  split
  case isTrue howned => simpa [UniqueRc.operatorBool, UniqueRc.get] using howned
  case isFalse howned => simpa [UniqueRc.operatorBool, UniqueRc.get] using howned

/--
A conversion preserves ownership exactly if the source's policy refuses its own
`invalid()` and the two policies agree about the handle that is passed on: the
one about it as the source stores it, the other about what it is converted to.
-/
theorem ownershipPreserved_iff {op : Op S}
    (hop : op = .convertConstruct this other left ∨ op = .convertAssign this other left)
    (hexec : op.exec recordCall w = some w') :
    OwnershipPreserved this other w w' ↔
      (S.policy other.kind).RefusesInvalid ∧
        ∀ convert, S.convertHandle other.kind this.kind = some convert →
          S.isOwned this.kind (convert (w.getHandle other)) =
            S.isOwned other.kind (w.getHandle other) := by
  obtain ⟨convert, hconvert, hthis, hother⟩ := getHandle_of_conversion hop hexec
  constructor
  · intro h
    refine ⟨?_, fun convert' hconvert' => ?_⟩
    · have hemptied := h.emptied
      rwa [UniqueRc.operatorBool, UniqueRc.get, hother] at hemptied
    · obtain rfl := Option.some.inj (hconvert.symm.trans hconvert')
      have htransferred := h.transferred
      rwa [UniqueRc.operatorBool, UniqueRc.get, hthis] at htransferred
  · rintro ⟨hrefuses, hagree⟩
    have htransferred : UniqueRc.operatorBool this w' = UniqueRc.operatorBool other w := by
      rw [UniqueRc.operatorBool, UniqueRc.get, hthis]
      exact hagree convert hconvert
    refine ⟨htransferred, ?_, ?_⟩
    · rw [UniqueRc.operatorBool, UniqueRc.get, hother]
      exact hrefuses
    · intro op' hop' w'' hrun
      rw [env_ne_iff_operatorBool hop' hrun, htransferred]

theorem agree_iff_of_exact {source target : S.Kind}
    (hsource : (S.policy source).Exact) (htarget : (S.policy target).Exact)
    (convert : S.Handle source → S.Handle target) (hnd : S.Handle source) :
    S.isOwned target (convert hnd) = S.isOwned source hnd ↔
      (convert hnd = S.invalid target ↔ hnd = S.invalid source) := by
  rw [Signature.isOwned, Signature.isOwned, htarget.isOwned_eq, hsource.isOwned_eq,
    bne, bne, Bool.not_inj_iff, Bool.eq_iff_iff, beq_iff_eq, beq_iff_eq]
  rfl

/-! ## From `INVALID_HANDLE_VALUE` to null -/

def handleSignature : Signature where
  Kind := Bool
  Name := Unit
  Cell := Empty
  Deleter := Unit
  Handle _ := HANDLE
  InvalidHandle kind := if kind then HANDLE else NullptrT
  policy
    | true => invalidHandleValuePolicy
    | false => nullptrInvalidHandlePolicy
  isReference _ := false
  defaultDeleter _ := some ()
  convertHandle _ _ := some id
  convertDeleter _ _ := some id
  assignDeleter _ _ := some id
  selfResetCheck := true

def handleWorld (hnd : HANDLE) (alive : Bool) :
    World handleSignature (List (Call handleSignature)) where
  live obj := obj.kind || alive
  objects
    | ⟨true, _⟩ => ⟨hnd, .value ()⟩
    | ⟨false, _⟩ => ⟨handleSignature.invalid false, .value ()⟩
  cells := Empty.elim
  env := []

theorem ownershipPreserved_iff_file :
    ∃ w', (Op.convertAssign ⟨false, ()⟩ ⟨true, ()⟩ ()).exec recordCall
        (handleWorld 5 true) = some w' ∧
      OwnershipPreserved ⟨false, ()⟩ ⟨true, ()⟩ (handleWorld 5 true) w' := by
  obtain ⟨w', hexec⟩ := Option.isSome_iff_exists.mp
    (show ((Op.convertAssign ⟨false, ()⟩ ⟨true, ()⟩ ()).exec recordCall
      (handleWorld 5 true)).isSome from rfl)
  refine ⟨w', hexec, (ownershipPreserved_iff (.inr rfl) hexec).mpr ⟨?_, ?_⟩⟩
  · exact show (invalidHandleValuePolicy : InvalidHandlePolicy HANDLE HANDLE).RefusesInvalid
      from exact_invalidHandleValuePolicy.refusesInvalid
  · rintro convert ⟨⟩
    decide

/--
The empty source makes the destination's deleter dispose
`INVALID_HANDLE_VALUE`, and an owned null handle is dropped.
-/
theorem not_ownershipPreserved :
    (∃ w' w'', (Op.convertConstruct ⟨false, ()⟩ ⟨true, ()⟩ ()).exec recordCall
        (handleWorld WindowsHandle.invalidHandleValue false) = some w' ∧
      ¬ OwnershipPreserved ⟨false, ()⟩ ⟨true, ()⟩
        (handleWorld WindowsHandle.invalidHandleValue false) w' ∧
      (Op.destroy ⟨false, ()⟩).exec recordCall w' = some w'' ∧
      w''.env = [⟨⟨false, ()⟩, (), (WindowsHandle.invalidHandleValue : HANDLE),
        (WindowsHandle.invalidHandleValue : HANDLE)⟩]) ∧
    ∃ w' w'', (Op.convertAssign ⟨false, ()⟩ ⟨true, ()⟩ ()).exec recordCall
        (handleWorld Nullable.null true) = some w' ∧
      ¬ OwnershipPreserved ⟨false, ()⟩ ⟨true, ()⟩
        (handleWorld Nullable.null true) w' ∧
      (Op.destroy ⟨false, ()⟩).exec recordCall w' = some w'' ∧ w''.env = [] := by
  refine ⟨⟨_, _, rfl, fun h => ?_, rfl, rfl⟩, _, _, rfl, fun h => ?_, rfl, rfl⟩
  · exact absurd h.transferred (by decide)
  · exact absurd h.transferred (by decide)

end Raii
