import Raii.Foundation.Coroutine
import Raii.Foundation.Run
import Raii.Frame
import Raii.Policy

/-!
# Generators that own a coroutine

The `Generator` of the examples keeps the frame of its coroutine in a
`unique_coroutine_handle`, the iterators of a range-based `for` hold the bare
handle.  A step answers `none` where its behaviour is undefined, or where an
exception leaves a coroutine and `std::terminate` is called.  A handle whose
coroutine has been destroyed is of no use any more, even if a later coroutine
has its frame at the same address.
-/

namespace Raii

open Foundation

/--
A program's coroutines with return type `Generator<Value>`.  `State` is what a
frame keeps across a suspension, of whichever coroutine it is.  A body depends
on its own frame only: it shares no variables with other coroutines or with the
program, and it neither owns generators nor acts on any.
-/
structure GeneratorShape where
  Address : Type
  Name : Type
  Iter : Type
  State : Type
  Value : Type
  body : State → Resumption State Value
  [nullable : Nullable Address]
  [decEqAddress : DecidableEq Address]
  [decEqName : DecidableEq Name]
  [decEqIter : DecidableEq Iter]

attribute [instance] GeneratorShape.nullable GeneratorShape.decEqAddress
  GeneratorShape.decEqName GeneratorShape.decEqIter

structure PromiseType (G : GeneratorShape) where
  currentValue : Option G.Value

/--
A suspended coroutine.  `initial_suspend`, `yield_value` and `final_suspend` all
suspend; at the final suspension point there is nothing left to resume.
`started` is when the coroutine was called, which no two of them share.
-/
structure Frame (G : GeneratorShape) where
  started : Nat
  promise : PromiseType G
  state : Option G.State

inductive FrameEvent (G : GeneratorShape) where
  | started (address : G.Address) (state : G.State)
  | yielded (address : G.Address) (value : G.Value)
  | read (address : G.Address) (value : G.Value)
  | destroyed (address : G.Address)

/-- `Generator::Iter`: a handle, and the coroutine it was a handle of when it was copied. -/
structure Iter (G : GeneratorShape) where
  coroutine : CoroutineHandle G.Address
  started : Nat

/-- The frames in memory and the iterators of the program; `events` is newest first. -/
structure Coroutines (G : GeneratorShape) where
  frame : G.Address → Option (Frame G)
  iters : G.Iter → Option (Iter G)
  events : List (FrameEvent G)

variable {G : GeneratorShape}

namespace Coroutines

def setFrame (address : G.Address) (frame : Option (Frame G)) (m : Coroutines G) :
    Coroutines G :=
  { m with frame := Function.update m.frame address frame }

def log (event : FrameEvent G) (m : Coroutines G) : Coroutines G :=
  { m with events := event :: m.events }

/--
The call of a coroutine: a frame whose promise has no value yet, suspended
before the first statement.  Allocation returns memory that is not in use, but
may have been.
-/
def start (address : G.Address) (state : G.State) (m : Coroutines G) :
    Option (Coroutines G) :=
  if toBool address && (m.frame address).isNone then
    some ((m.setFrame address (some ⟨m.events.length, ⟨none⟩, some state⟩)).log
      (.started address state))
  else none

end Coroutines

namespace CoroutineHandle

/-- `resume()`, up to the next `co_yield` or the final suspension point. -/
def resume (hnd : CoroutineHandle G.Address) (m : Coroutines G) :
    Option (Coroutines G) := do
  let frame ← m.frame hnd.address
  let state ← frame.state
  match G.body state with
  | .yielded value state =>
      some ((m.setFrame hnd.address
        (some { frame with promise := ⟨some value⟩, state := some state })).log
          (.yielded hnd.address value))
  | .returned => some (m.setFrame hnd.address (some { frame with state := none }))
  | .threw => none

def done (hnd : CoroutineHandle G.Address) (m : Coroutines G) : Option Bool :=
  (m.frame hnd.address).map fun frame => frame.state.isNone

def promise (hnd : CoroutineHandle G.Address) (m : Coroutines G) : Option (PromiseType G) :=
  (m.frame hnd.address).map Frame.promise

def destroy (hnd : CoroutineHandle G.Address) (m : Coroutines G) : Option (Coroutines G) :=
  if (m.frame hnd.address).isSome then
    some ((m.setFrame hnd.address none).log (.destroyed hnd.address))
  else none

end CoroutineHandle

namespace GeneratorShape

abbrev signature (G : GeneratorShape) : Signature where
  Kind := Unit
  Name := G.Name
  Cell := Empty
  Deleter := Unit
  Handle _ := CoroutineHandle G.Address
  InvalidHandle _ := NullptrT
  policy _ := coroInvalidHandlePolicy
  isReference _ := false
  defaultDeleter _ := some ()
  convertHandle _ _ := none
  convertDeleter _ _ := none
  assignDeleter _ _ := none
  selfResetCheck := true

end GeneratorShape

abbrev GeneratorWorld (G : GeneratorShape) := World G.signature (Coroutines G)

def coroutineDestroy : DeleterCall G.signature (Coroutines G) :=
  fun _ _ hnd w => (hnd.destroy w.env).map w.setEnv

namespace Generator

def begin (this : G.Name) (w : GeneratorWorld G) : Option (Iter G × GeneratorWorld G) :=
  let hnd := UniqueRc.get ⟨(), this⟩ w
  let it : Iter G := ⟨hnd, (w.env.frame hnd.address).elim 0 Frame.started⟩
  if UniqueRc.operatorBool ⟨(), this⟩ w then
    (hnd.resume w.env).map fun env => (it, w.setEnv env)
  else some (it, w)

end Generator

namespace Iter

/-- The frame at the address of the handle is that of its coroutine. -/
def valid (it : Iter G) (m : Coroutines G) : Bool :=
  (m.frame it.coroutine.address).any fun frame => frame.started == it.started

def increment (it : Iter G) (w : GeneratorWorld G) : Option (GeneratorWorld G) :=
  if it.valid w.env then (it.coroutine.resume w.env).map w.setEnv else none

def deref (it : Iter G) (w : GeneratorWorld G) : Option (G.Value × GeneratorWorld G) :=
  if it.valid w.env then do
    let promise ← it.coroutine.promise w.env
    let value ← promise.currentValue
    some (value, w.setEnv (w.env.log (.read it.coroutine.address value)))
  else none

def operatorEq (it : Iter G) (w : GeneratorWorld G) : Option Bool :=
  if toBool it.coroutine.address then
    if it.valid w.env then it.coroutine.done w.env else none
  else some true

end Iter

/--
One statement of a program with generators.  `start` defines a variable by the
call of a coroutine: `get_return_object` builds it from the promise's handle.
-/
inductive GeneratorOp (G : GeneratorShape) where
  | construct (this : G.Name)
  | start (this : G.Name) (address : G.Address) (state : G.State)
  | moveConstruct (this other : G.Name)
  | moveAssign (this other : G.Name)
  | destroy (this : G.Name)
  | begin (it : G.Iter) (this : G.Name)
  | increment (it : G.Iter)
  | deref (it : G.Iter)
  | compare (it : G.Iter)

namespace GeneratorOp

def exec : GeneratorOp G → GeneratorWorld G → Option (GeneratorWorld G)
  | .construct this, w => (Op.construct ⟨(), this⟩).exec coroutineDestroy w
  | .start this address state, w => do
      let env ← w.env.start address state
      let hnd : CoroutineHandle G.Address := ⟨address⟩
      (Op.constructHandle ⟨(), this⟩ hnd).exec coroutineDestroy (w.setEnv env)
  | .moveConstruct this other, w =>
      (Op.moveConstruct () this other ()).exec coroutineDestroy w
  | .moveAssign this other, w => (Op.moveAssign () this other ()).exec coroutineDestroy w
  | .destroy this, w => (Op.destroy ⟨(), this⟩).exec coroutineDestroy w
  | .begin it this, w =>
      if w.live ⟨(), this⟩ then do
        let (begun, w) ← Generator.begin this w
        some (w.setEnv { w.env with iters := Function.update w.env.iters it (some begun) })
      else none
  | .increment it, w => do Iter.increment (← w.env.iters it) w
  | .deref it, w => do
      let (_, w) ← Iter.deref (← w.env.iters it) w
      some w
  | .compare it, w => do
      let _ ← Iter.operatorEq (← w.env.iters it) w
      some w

end GeneratorOp

/-! ## What a coroutine has yielded -/

def yieldedBy (address : G.Address) :
    List (FrameEvent G) → Option (G.State × List G.Value)
  | [] => none
  | .started other state :: past =>
      if other = address then some (state, []) else yieldedBy address past
  | .yielded other value :: past =>
      if other = address then
        (yieldedBy address past).map fun begun => (begun.1, begun.2 ++ [value])
      else yieldedBy address past
  | .read _ _ :: past => yieldedBy address past
  | .destroyed other :: past =>
      if other = address then none else yieldedBy address past

structure Frame.Matches (frame : Frame G) (begun : G.State × List G.Value) : Prop where
  current : frame.promise.currentValue = begun.2.getLast?
  suspended : ∀ state, frame.state = some state → Produces G.body begun.1 begun.2 state
  returned : frame.state = none → Completes G.body begun.1 begun.2

structure Coroutines.InOrder (m : Coroutines G) : Prop where
  frames : ∀ address frame, m.frame address = some frame →
    ∃ begun, yieldedBy address m.events = some begun ∧ frame.Matches begun
  reads : ∀ newer address value older, m.events = newer ++ .read address value :: older →
    ∃ begun, yieldedBy address older = some begun ∧ begun.2.getLast? = some value

section InOrder

variable {m m' : Coroutines G} {address : G.Address}

theorem frame_setFrame_of_ne {other : G.Address} (hne : other ≠ address)
    (frame : Option (Frame G)) : (m.setFrame address frame).frame other = m.frame other :=
  Function.update_of_ne hne _ _

@[simp] theorem frame_setFrame_self (frame : Option (Frame G)) :
    (m.setFrame address frame).frame address = frame :=
  Function.update_self _ _ _

@[simp] theorem events_setFrame (frame : Option (Frame G)) :
    (m.setFrame address frame).events = m.events := rfl

@[simp] theorem frame_log (event : FrameEvent G) : (m.log event).frame = m.frame := rfl

@[simp] theorem events_log (event : FrameEvent G) :
    (m.log event).events = event :: m.events := rfl

theorem start_eq_some_iff {state : G.State} :
    m.start address state = some m' ↔
      toBool address = true ∧ m.frame address = none ∧
        m' = (m.setFrame address (some ⟨m.events.length, ⟨none⟩, some state⟩)).log
          (.started address state) := by
  simp only [Coroutines.start, Option.ite_none_right_eq_some, Bool.and_eq_true,
    Option.isNone_iff_eq_none, Option.some.injEq, and_assoc]
  exact and_congr_right fun _ => and_congr_right fun _ => eq_comm

theorem resume_cases {hnd : CoroutineHandle G.Address} (h : hnd.resume m = some m') :
    ∃ frame state, m.frame hnd.address = some frame ∧ frame.state = some state ∧
      ((∃ value state', G.body state = .yielded value state' ∧
          m' = (m.setFrame hnd.address
            (some { frame with promise := ⟨some value⟩, state := some state' })).log
              (.yielded hnd.address value)) ∨
        (G.body state = .returned ∧
          m' = m.setFrame hnd.address (some { frame with state := none }))) := by
  obtain ⟨frame, hframe, h⟩ := Option.bind_eq_some_iff.mp h
  obtain ⟨state, hstate, h⟩ := Option.bind_eq_some_iff.mp h
  refine ⟨frame, state, hframe, hstate, ?_⟩
  cases hbody : G.body state with
  | yielded value state' =>
      rw [hbody] at h
      exact .inl ⟨value, state', rfl, (Option.some.inj h).symm⟩
  | returned =>
      rw [hbody] at h
      exact .inr ⟨rfl, (Option.some.inj h).symm⟩
  | threw =>
      rw [hbody] at h
      cases h

theorem destroy_eq_some_iff {hnd : CoroutineHandle G.Address} :
    hnd.destroy m = some m' ↔ (m.frame hnd.address).isSome = true ∧
      m' = (m.setFrame hnd.address none).log (.destroyed hnd.address) := by
  rw [CoroutineHandle.destroy, Option.ite_none_right_eq_some, Option.some.injEq]
  exact and_congr_right fun _ => eq_comm

namespace Coroutines.InOrder

theorem log (h : m.InOrder) {event : FrameEvent G}
    (hread : ∀ other value, event ≠ .read other value)
    (hother : ∀ other ≠ address,
      yieldedBy other (event :: m.events) = yieldedBy other m.events)
    {frame : Option (Frame G)}
    (hframe : ∀ f, frame = some f → ∃ begun,
      yieldedBy address (event :: m.events) = some begun ∧ f.Matches begun) :
    ((m.setFrame address frame).log event).InOrder where
  frames other f hf := by
    by_cases heq : other = address
    · subst heq
      rw [frame_log, frame_setFrame_self] at hf
      exact hframe f hf
    · rw [frame_log, frame_setFrame_of_ne heq] at hf
      rw [events_log, events_setFrame, hother other heq]
      exact h.frames other f hf
  reads newer other value older heq := by
    rw [events_log, events_setFrame] at heq
    cases newer with
    | nil => exact absurd (List.cons.inj heq).1 (hread other value)
    | cons first newer => exact h.reads newer other value older (List.cons.inj heq).2

theorem start (h : m.InOrder) {state : G.State} (hstart : m.start address state = some m') :
    m'.InOrder := by
  obtain ⟨-, -, rfl⟩ := start_eq_some_iff.mp hstart
  refine h.log (fun _ _ heq => by cases heq) (fun other hne => ?_) ?_
  · simp only [yieldedBy, if_neg (Ne.symm hne)]
  · intro f hf
    obtain rfl := Option.some.inj hf
    refine ⟨(state, []), by simp only [yieldedBy, if_true], rfl, ?_, fun hnone => ?_⟩
    · rintro s hs
      exact Option.some.inj hs ▸ .nil
    · cases hnone

theorem resume (h : m.InOrder) {hnd : CoroutineHandle G.Address}
    (hresume : hnd.resume m = some m') : m'.InOrder := by
  obtain ⟨frame, state, hframe, hstate, hcase⟩ := resume_cases hresume
  obtain ⟨begun, hbegun, hmatches⟩ := h.frames _ _ hframe
  rcases hcase with ⟨value, state', hbody, rfl⟩ | ⟨hbody, rfl⟩
  · refine h.log (fun _ _ heq => by cases heq) (fun other hne => ?_) ?_
    · simp only [yieldedBy, if_neg (Ne.symm hne)]
    · intro f hf
      obtain rfl := Option.some.inj hf
      refine ⟨(begun.1, begun.2 ++ [value]), ?_, ?_, ?_, fun hnone => ?_⟩
      · simp only [yieldedBy, if_true, hbegun, Option.map_some]
      · simp
      · rintro s hs
        exact Option.some.inj hs ▸ (hmatches.suspended state hstate).snoc hbody
      · cases hnone
  · refine ⟨fun other f hf => ?_, h.reads⟩
    by_cases heq : other = hnd.address
    · subst heq
      rw [frame_setFrame_self, Option.some.injEq] at hf
      subst hf
      refine ⟨begun, hbegun, hmatches.current, fun s hs => ?_, fun _ => ?_⟩
      · cases hs
      · exact ⟨state, hmatches.suspended state hstate, hbody⟩
    · rw [frame_setFrame_of_ne heq] at hf
      exact h.frames other f hf

theorem destroy (h : m.InOrder) {hnd : CoroutineHandle G.Address}
    (hdestroy : hnd.destroy m = some m') : m'.InOrder := by
  obtain ⟨-, rfl⟩ := destroy_eq_some_iff.mp hdestroy
  refine h.log (fun _ _ heq => by cases heq) (fun other hne => ?_) ?_
  · simp only [yieldedBy, if_neg (Ne.symm hne)]
  · rintro f hf
    cases hf

theorem read (h : m.InOrder) {hnd : CoroutineHandle G.Address} {promise : PromiseType G}
    {value : G.Value} (hpromise : hnd.promise m = some promise)
    (hvalue : promise.currentValue = some value) :
    (m.log (.read hnd.address value)).InOrder where
  frames := h.frames
  reads newer other value' older heq := by
    cases newer with
    | nil =>
        obtain ⟨hevent, rfl⟩ := List.cons.inj heq
        obtain ⟨rfl, rfl⟩ := FrameEvent.read.inj hevent
        obtain ⟨frame, hframe, rfl⟩ := Option.map_eq_some_iff.mp hpromise
        obtain ⟨begun, hbegun, hmatches⟩ := h.frames _ _ hframe
        exact ⟨begun, hbegun, hmatches.current.symm.trans hvalue⟩
    | cons first newer => exact h.reads newer other value' older (List.cons.inj heq).2

theorem congr (h : m.InOrder) (hframe : m'.frame = m.frame) (hevents : m'.events = m.events) :
    m'.InOrder :=
  ⟨fun a f hf => hevents ▸ h.frames a f (hframe ▸ hf), fun newer a v older heq =>
    h.reads newer a v older (hevents ▸ heq)⟩

end Coroutines.InOrder

end InOrder

section Runs

variable {w w' : GeneratorWorld G} {op : GeneratorOp G}

theorem begin_cases {this : G.Name} {it : Iter G}
    (hbegin : Generator.begin this w = some (it, w')) :
    it.coroutine = w.getHandle ⟨(), this⟩ ∧
      ((UniqueRc.operatorBool ⟨(), this⟩ w = false ∧ w' = w) ∨
        (UniqueRc.operatorBool ⟨(), this⟩ w = true ∧
          ∃ m, it.coroutine.resume w.env = some m ∧ w' = w.setEnv m)) := by
  unfold Generator.begin at hbegin
  cases howned : UniqueRc.operatorBool ⟨(), this⟩ w with
  | false =>
      rw [howned] at hbegin
      obtain ⟨rfl, rfl⟩ := Prod.mk.inj (Option.some.inj hbegin)
      exact ⟨rfl, .inl ⟨rfl, rfl⟩⟩
  | true =>
      rw [howned] at hbegin
      obtain ⟨m, hresume, hw⟩ := Option.map_eq_some_iff.mp hbegin
      obtain ⟨rfl, rfl⟩ := Prod.mk.inj hw
      exact ⟨rfl, .inr ⟨rfl, m, hresume, rfl⟩⟩

theorem increment_eq_some_iff {it : Iter G} : it.increment w = some w' ↔
    it.valid w.env = true ∧ ∃ m, it.coroutine.resume w.env = some m ∧ w.setEnv m = w' := by
  rw [Iter.increment, Option.ite_none_right_eq_some, Option.map_eq_some_iff]

theorem deref_eq_some_iff {it : Iter G} {value : G.Value} :
    it.deref w = some (value, w') ↔
      it.valid w.env = true ∧
        ∃ promise, it.coroutine.promise w.env = some promise ∧
          promise.currentValue = some value ∧
          w' = w.setEnv (w.env.log (.read it.coroutine.address value)) := by
  rw [Iter.deref, Option.ite_none_right_eq_some]
  refine and_congr_right fun _ => ?_
  simp only [Option.bind_eq_bind, Option.bind_eq_some_iff, Option.some.injEq, Prod.mk.injEq]
  constructor
  · rintro ⟨promise, hpromise, value', hvalue, rfl, rfl⟩
    exact ⟨promise, hpromise, hvalue, rfl⟩
  · rintro ⟨promise, hpromise, hvalue, rfl⟩
    exact ⟨promise, hpromise, value, hvalue, rfl, rfl⟩

structure FrameInvariant (I : Coroutines G → Prop) : Prop where
  start : ∀ {m m' address state}, I m → Coroutines.start address state m = some m' → I m'
  resume : ∀ {m m'} {hnd : CoroutineHandle G.Address}, I m → hnd.resume m = some m' → I m'
  destroy : ∀ {m m'} {hnd : CoroutineHandle G.Address}, I m → hnd.destroy m = some m' → I m'
  read : ∀ {m promise value} {hnd : CoroutineHandle G.Address}, I m →
    hnd.promise m = some promise → promise.currentValue = some value →
    I (m.log (.read hnd.address value))
  iters : ∀ {m : Coroutines G} iters, I m → I { m with iters := iters }

namespace FrameInvariant

variable {I : Coroutines G → Prop}

theorem owner (hI : FrameInvariant I) {S : Op G.signature} (h : I w.env)
    (hexec : S.exec coroutineDestroy w = some w') : I w'.env := by
  have hwrites : Writes (fun w w' : GeneratorWorld G => I w.env → I w'.env) S.operands S.ended :=
    writes_env (R := fun (m m' : Coroutines G) => I m → I m')
      (fun _ h => h) (fun hfirst hlast h => hlast (hfirst h)) S.operands S.ended
  refine hwrites.exec ?_ hexec h
  intro this del hnd w w' hcalled h
  obtain ⟨m, hdestroy, rfl⟩ := Option.map_eq_some_iff.mp hcalled
  exact hI.destroy h hdestroy

theorem exec (hI : FrameInvariant I) (h : I w.env) (hexec : op.exec w = some w') :
    I w'.env := by
  cases op with
  | construct this => exact hI.owner h hexec
  | start this address state =>
      obtain ⟨m, hstart, hbuilt⟩ := Option.bind_eq_some_iff.mp hexec
      have hstarted : I (w.setEnv m).env := hI.start h hstart
      exact hI.owner hstarted hbuilt
  | moveConstruct this other => exact hI.owner h hexec
  | moveAssign this other => exact hI.owner h hexec
  | destroy this => exact hI.owner h hexec
  | begin it this =>
      obtain ⟨-, hbegin⟩ := Option.ite_none_right_eq_some.mp hexec
      obtain ⟨⟨begun, w₁⟩, hbegun, hw⟩ := Option.bind_eq_some_iff.mp hbegin
      obtain rfl := Option.some.inj hw
      have hbegun : I w₁.env := by
        obtain ⟨-, ⟨-, rfl⟩ | ⟨-, m, hresume, rfl⟩⟩ := begin_cases hbegun
        · exact h
        · exact hI.resume h hresume
      exact hI.iters _ hbegun
  | increment it =>
      obtain ⟨begun, -, hincrement⟩ := Option.bind_eq_some_iff.mp hexec
      obtain ⟨-, m, hresume, rfl⟩ := increment_eq_some_iff.mp hincrement
      exact hI.resume h hresume
  | deref it =>
      obtain ⟨begun, -, hderef⟩ := Option.bind_eq_some_iff.mp hexec
      obtain ⟨⟨value, w₁⟩, hread, hw⟩ := Option.bind_eq_some_iff.mp hderef
      obtain rfl := Option.some.inj hw
      obtain ⟨-, promise, hpromise, hvalue, rfl⟩ := deref_eq_some_iff.mp hread
      exact hI.read h hpromise hvalue
  | compare it =>
      obtain ⟨begun, -, hcompare⟩ := Option.bind_eq_some_iff.mp hexec
      obtain ⟨_, -, hw⟩ := Option.bind_eq_some_iff.mp hcompare
      exact Option.some.inj hw ▸ h

theorem run {ops : List (GeneratorOp G)} (hI : FrameInvariant I) (h : I w.env)
    (hrun : run GeneratorOp.exec ops w = some w') : I w'.env :=
  run_preserves (I := fun w : GeneratorWorld G => I w.env)
    (fun _ _ _ h hexec => hI.exec h hexec) h hrun

end FrameInvariant

theorem frameInvariant_inOrder : FrameInvariant (G := G) Coroutines.InOrder where
  start h := h.start
  resume h := h.resume
  destroy h := h.destroy
  read h := h.read
  iters _ h := h.congr rfl rfl

structure World.NoCoroutines (w : GeneratorWorld G) : Prop where
  live : ∀ obj, w.live obj = false
  frame : ∀ address, w.env.frame address = none
  events : w.env.events = []

theorem World.NoCoroutines.inOrder (h : w.NoCoroutines) : w.env.InOrder where
  frames address frame hframe := by
    rw [h.frame address] at hframe
    cases hframe
  reads newer address value older heq := by
    rw [h.events] at heq
    exact absurd heq.symm (List.append_ne_nil_of_right_ne_nil _ (List.cons_ne_nil _ _))

/-- An iterator whose coroutine is gone stays invalid, whatever frame comes to its address. -/
theorem not_valid_of_run {it : Iter G} {ops : List (GeneratorOp G)}
    (hpast : it.started < w.env.events.length) (hgone : it.valid w.env = false)
    (hrun : run GeneratorOp.exec ops w = some w') : it.valid w'.env = false := by
  have hinvariant : FrameInvariant fun m : Coroutines G =>
      it.started < m.events.length ∧ it.valid m = false := by
    refine ⟨?_, ?_, ?_, ?_, fun _ h => h⟩
    · rintro m m' address state ⟨hpast, hgone⟩ hstart
      obtain ⟨-, -, rfl⟩ := start_eq_some_iff.mp hstart
      refine ⟨Nat.lt_succ_of_lt hpast, ?_⟩
      by_cases heq : it.coroutine.address = address
      · subst heq
        simpa [Iter.valid] using Nat.ne_of_gt hpast
      · simpa [Iter.valid, frame_setFrame_of_ne heq] using hgone
    · rintro m m' hnd ⟨hpast, hgone⟩ hresume
      obtain ⟨frame, state, hframe, -, hcase⟩ := resume_cases hresume
      have hkept : ∀ frame', frame'.started = frame.started →
          it.valid (m.setFrame hnd.address (some frame')) = false := by
        intro frame' hstarted
        by_cases heq : it.coroutine.address = hnd.address
        · simpa [Iter.valid, heq, hframe, hstarted] using hgone
        · simpa [Iter.valid, frame_setFrame_of_ne heq] using hgone
      rcases hcase with ⟨value, state', -, rfl⟩ | ⟨-, rfl⟩
      · exact ⟨Nat.lt_succ_of_lt hpast, hkept _ rfl⟩
      · exact ⟨hpast, hkept _ rfl⟩
    · rintro m m' hnd ⟨hpast, hgone⟩ hdestroy
      obtain ⟨-, rfl⟩ := destroy_eq_some_iff.mp hdestroy
      refine ⟨Nat.lt_succ_of_lt hpast, ?_⟩
      by_cases heq : it.coroutine.address = hnd.address
      · simp [Iter.valid, heq]
      · simpa [Iter.valid, frame_setFrame_of_ne heq] using hgone
    · rintro m promise value hnd ⟨hpast, hgone⟩ - -
      exact ⟨Nat.lt_succ_of_lt hpast, hgone⟩
  exact (hinvariant.run ⟨hpast, hgone⟩ hrun).2

/--
However the statements of a program are interleaved and whoever owns a
coroutine in between, what it has yielded is what its body yields first, and
every iterator reads the value its coroutine yielded last.
-/
theorem values_in_order {ops : List (GeneratorOp G)} (hstart : w.NoCoroutines)
    (hrun : run GeneratorOp.exec ops w = some w') : w'.env.InOrder :=
  frameInvariant_inOrder.run hstart.inOrder hrun

end Runs

end Raii
