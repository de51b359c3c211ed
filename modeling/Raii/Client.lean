import Raii.Foundation.Account
import Raii.Foundation.Run
import Raii.UniqueRc

/-!
# Clients of instantiations that share one policy

A client acquires handles, gives them to `unique_rc` objects and gets them back
from `release`.  The ledger in `World.env` records what it holds, which handles
a deleter is at work on, and the history of acquisitions and disposals.  A
deleter may itself be a client: `Script` is the tree of moves of one execution,
where every move carries the program of the deleter call it causes.
-/

namespace Raii

open Foundation

/--
Instantiations over one handle type and one policy, which does not own its own
`invalid()`; deleter types may differ.
-/
structure Sharing where
  Kind : Type
  Name : Type
  Cell : Type
  Deleter : Type
  Handle : Type
  InvalidHandle : Type
  policy : InvalidHandlePolicy Handle InvalidHandle
  isReference : Kind → Bool
  defaultDeleter : Kind → Option Deleter
  convertDeleter : (source target : Kind) → Option (Deleter → Deleter)
  assignDeleter : (source target : Kind) → Option (Deleter → Deleter)
  selfResetCheck : Bool
  movedHandle : Kind → Handle → Handle := fun _ hnd => hnd
  refusesInvalid : policy.RefusesInvalid
  [decEqKind : DecidableEq Kind]
  [decEqName : DecidableEq Name]
  [decEqCell : DecidableEq Cell]
  [decEqHandle : DecidableEq Handle]

attribute [instance] Sharing.decEqKind Sharing.decEqName Sharing.decEqCell
  Sharing.decEqHandle

namespace Sharing

abbrev signature (P : Sharing) : Signature where
  Kind := P.Kind
  Name := P.Name
  Cell := P.Cell
  Deleter := P.Deleter
  Handle _ := P.Handle
  InvalidHandle _ := P.InvalidHandle
  policy _ := P.policy
  isReference := P.isReference
  defaultDeleter := P.defaultDeleter
  convertHandle _ _ := some id
  convertDeleter := P.convertDeleter
  assignDeleter := P.assignDeleter
  selfResetCheck := P.selfResetCheck
  movedHandle := P.movedHandle

variable (P : Sharing)

def invalid : P.Handle := P.policy.assign P.policy.invalid

def isOwned (hnd : P.Handle) : Bool := P.policy.isOwned hnd

@[simp] theorem isOwned_invalid : P.isOwned P.invalid = false :=
  P.refusesInvalid

@[simp] theorem signature_isOwned (kind : P.Kind) :
    P.signature.isOwned kind = P.isOwned := rfl

@[simp] theorem signature_invalid (kind : P.Kind) :
    P.signature.invalid kind = P.invalid := rfl

end Sharing

structure Entry (P : Sharing) where
  object : Obj P.signature
  deleter : P.Deleter
  handle : P.Handle
  stored : Obj P.signature → Option P.Handle

/--
`pending` lists the handles whose deleter has been called and has not yet freed
them, the innermost call first; `history` and `calls` are newest first too.
-/
structure Ledger (P : Sharing) where
  client : List P.Handle
  pending : List P.Handle
  history : List (Event P.Handle)
  calls : List (Entry P)

abbrev ClientWorld (P : Sharing) := World P.signature (Ledger P)

namespace World

variable {P : Sharing}

def stored (w : ClientWorld P) (obj : Obj P.signature) : Option P.Handle :=
  if w.live obj then some (w.getHandle obj) else none

def acquire (hnd : P.Handle) (w : ClientWorld P) : ClientWorld P :=
  w.setEnv { w.env with
    client := hnd :: w.env.client
    history := .acquire hnd :: w.env.history }

/-- The client passes on a handle; one that is not owned is no responsibility. -/
def take (hnd : P.Handle) (w : ClientWorld P) : Option (ClientWorld P) :=
  if P.isOwned hnd then
    if hnd ∈ w.env.client then
      some (w.setEnv { w.env with client := w.env.client.erase hnd })
    else none
  else some w

def give (hnd : P.Handle) (w : ClientWorld P) : ClientWorld P :=
  if P.isOwned hnd then
    w.setEnv { w.env with client := hnd :: w.env.client }
  else w

def enter (this : Obj P.signature) (del : P.Deleter) (hnd : P.Handle)
    (w : ClientWorld P) : ClientWorld P :=
  w.setEnv { w.env with
    pending := hnd :: w.env.pending
    calls := ⟨this, del, hnd, w.stored⟩ :: w.env.calls }

def leave (hnd : P.Handle) (w : ClientWorld P) : ClientWorld P :=
  w.setEnv { w.env with
    pending := w.env.pending.erase hnd
    history := .dispose hnd :: w.env.history }

end World

def deleterCall {P : Sharing} (body : ClientWorld P → Option (ClientWorld P)) :
    DeleterCall P.signature (Ledger P) :=
  fun this del hnd w => (body (w.enter this del hnd)).map fun w => w.leave hnd

inductive Move (P : Sharing) where
  | acquire (hnd : P.Handle)
  | perform (op : Op P.signature)

namespace Move

variable {P : Sharing}

def given : Op P.signature → Option P.Handle
  | .constructHandle _ hnd => some hnd
  | .constructDeleter _ hnd _ => some hnd
  | .reset _ hnd => some hnd
  | _ => none

def returned (w : ClientWorld P) : Op P.signature → Option P.Handle
  | .release this => some (UniqueRc.release this w).1
  | _ => none

/--
A handle may be acquired if no acquisition of the same value is outstanding,
and an owned handle may be passed on if the client holds it.
-/
def step (call : DeleterCall P.signature (Ledger P)) :
    Move P → ClientWorld P → Option (ClientWorld P)
  | .acquire hnd, w =>
      if P.isOwned hnd && !outstanding hnd w.env.history then
        some (w.acquire hnd)
      else none
  | .perform op, w => do
      let w₁ ← (given op).elim (some w) w.take
      let w₂ ← op.exec call w₁
      some ((returned w₁ op).elim w₂ w₂.give)

section Step

variable {call : DeleterCall P.signature (Ledger P)} {hnd : P.Handle} {op : Op P.signature}
  {w w' : ClientWorld P}

theorem step_acquire_eq_some_iff : (acquire hnd).step call w = some w' ↔
    (P.isOwned hnd = true ∧ outstanding hnd w.env.history = false) ∧ w.acquire hnd = w' := by
  simp only [step, Option.ite_none_right_eq_some, Bool.and_eq_true, Bool.not_eq_true',
    Option.some.injEq]

theorem step_perform_eq_some_iff : (perform op).step call w = some w' ↔
    ∃ w₁ w₂, (given op).elim (some w) w.take = some w₁ ∧ op.exec call w₁ = some w₂ ∧
      (returned w₁ op).elim w₂ w₂.give = w' := by
  simp only [step, Option.bind_eq_bind, Option.bind_eq_some_iff, Option.some.injEq,
    exists_and_left]

end Step

end Move

/--
The moves of one execution of a client program.  `nested` is the execution of
the deleter program that `move` causes to run, if it causes one.
-/
inductive Script (P : Sharing) where
  | done
  | step (move : Move P) (nested rest : Script P)

def Script.run {P : Sharing} : Script P → ClientWorld P → Option (ClientWorld P)
  | .done => some
  | .step move nested rest => fun w =>
      (move.step (deleterCall nested.run) w).bind rest.run

def quietDeleter {P : Sharing} : DeleterCall P.signature (Ledger P) :=
  deleterCall some

/-! ## A small client -/

def intSharing : Sharing where
  Kind := Unit
  Name := Nat
  Cell := Empty
  Deleter := Unit
  Handle := Int
  InvalidHandle := Int
  policy := defaultInvalidHandlePolicy bne id
  isReference _ := false
  defaultDeleter _ := some ()
  convertDeleter _ _ := none
  assignDeleter _ _ := none
  selfResetCheck := true
  refusesInvalid := rfl

def intWorld : ClientWorld intSharing where
  live _ := false
  objects _ := ⟨(0 : Int), .value ()⟩
  cells := Empty.elim
  env := ⟨[], [], [], []⟩

end Raii
