import Raii.Ownership

/-!
# Deleters that call back into the library

`reset` exchanges the handle before it calls the deleter, so a deleter that
resets, releases or assigns objects, the one it was called from included, meets
every handle in one place.  The induction is on the tree of deleter calls.
-/

namespace Raii

open Foundation

variable {P : Sharing} {w w' : ClientWorld P}

namespace Move

/-- The destructor keeps the handle stored while it calls the deleter. -/
def keepsObjects : Move P → Bool
  | .perform (.destroy _) => false
  | _ => true

theorem ne_destroy_of_keepsObjects {move : Move P} (h : move.keepsObjects = true)
    (this : Obj P.signature) : move ≠ .perform (.destroy this) := by
  rintro rfl
  exact Bool.false_ne_true h

end Move

namespace Script

def keepsObjects : Script P → Bool
  | .done => true
  | .step move nested rest =>
      move.keepsObjects && nested.keepsObjects && rest.keepsObjects

theorem custody {script : Script P} (hkeeps : script.keepsObjects = true)
    (h : Custody w) (hrun : script.run w = some w') :
    Custody w' ∧ Continues w.env w'.env := by
  induction script generalizing w w' with
  | done =>
      obtain rfl := Option.some.inj hrun
      exact ⟨h, .refl _⟩
  | step move nested rest ihNested ihRest =>
      simp only [keepsObjects, Bool.and_eq_true] at hkeeps
      obtain ⟨w₁, hmove, hrest⟩ := Option.bind_eq_some_iff.mp hrun
      have hsettles : Settles (deleterCall nested.run) :=
        Custody.settles_deleterCall fun _ _ hw => ihNested hkeeps.1.2 hw
      have hfirst := h.step hsettles
        (Move.ne_destroy_of_keepsObjects hkeeps.1.1) hmove
      have hlast := ihRest hkeeps.2 hfirst.1 hrest
      exact ⟨hlast.1, hfirst.2.trans hlast.2⟩

end Script

/--
One operation with a re-entrant deleter.  `nested` is what the deleter it calls
goes on to do: `operator=(nullptr_t)` is `reset()`, and a handle passed to
`reset` is one the program has acquired or got back from `release`.
-/
theorem reentrant_single_ownership {move : Move P} {nested : Script P}
    (hmove : move.keepsObjects = true) (hnested : nested.keepsObjects = true)
    (h : Accounted w)
    (hrun : move.step (deleterCall nested.run) w = some w') :
    Accounted w' ∧ ∃ new, w'.env.calls = new ++ w.env.calls ∧
      ∀ entry ∈ new, entry.Unstored := by
  have hsettles : Settles (deleterCall nested.run) :=
    Custody.settles_deleterCall fun _ _ hw => Script.custody hnested hw
  have hafter := h.custody.step hsettles
    (Move.ne_destroy_of_keepsObjects hmove) hrun
  exact ⟨hafter.1.accounted (hafter.2.pending.trans h.idle), hafter.2.calls⟩

def twoOwners : List (Move intSharing) :=
  [.acquire (7 : Int), .acquire (9 : Int),
    .perform (.constructHandle ⟨(), (0 : Nat)⟩ (7 : Int)),
    .perform (.constructHandle ⟨(), (1 : Nat)⟩ (9 : Int))]

/--
Called on 7 while object 0 is assigned from object 1, this deleter fills the
source of that assignment again and resets its target.
-/
def nestedResets : Script intSharing :=
  .step (.acquire (5 : Int)) .done
    (.step (.perform (.reset ⟨(), (1 : Nat)⟩ (5 : Int))) .done
      (.step (.perform (.resetInvalid ⟨(), (0 : Nat)⟩))
        (.step (.perform (.release ⟨(), (1 : Nat)⟩)) .done .done) .done))

theorem reentrant_single_ownership_nestedResets :
    ∃ w w', run (Move.step quietDeleter) twoOwners intWorld = some w ∧
      (Move.perform (.moveAssign () (0 : Nat) (1 : Nat) ())).step
        (deleterCall nestedResets.run) w = some w' ∧
      Accounted w' ∧ ∃ new, w'.env.calls = new ++ w.env.calls ∧
        ∀ entry ∈ new, entry.Unstored := by
  obtain ⟨w', hrun⟩ := Option.isSome_iff_exists.mp
    (show ((run (Move.step quietDeleter) twoOwners intWorld).bind
      ((Move.perform (.moveAssign () (0 : Nat) (1 : Nat) ())).step
        (deleterCall nestedResets.run))).isSome from rfl)
  obtain ⟨w, hfirst, hassign⟩ := Option.bind_eq_some_iff.mp hrun
  have hinitial : intWorld.Initial := ⟨fun _ => rfl, rfl, rfl, rfl⟩
  exact ⟨w, w', hfirst, hassign, reentrant_single_ownership rfl rfl
    (hinitial.accounted.run hfirst) hassign⟩

end Raii
