import Raii.GeneratorOwnership

/-!
# Range-based loops over a generator

A loop resumes its coroutine in `begin()` and in `++`, so a loop that is left
by `break` leaves the coroutine at the element it was left with, and the next
loop goes on with the element after it.
-/

namespace Raii

open Foundation

variable {G : GeneratorShape}

namespace Generator

/--
The iterations of a loop that reads its element and leaves by `break` after
`limit` further ones, if there are so many.
-/
def loop (it : Iter G) :
    Nat → GeneratorWorld G → Option (List G.Value × GeneratorWorld G)
  | limit, w => do
      if ← it.operatorEq w then some ([], w)
      else
        let (value, w) ← it.deref w
        match limit with
        | 0 => some ([value], w)
        | limit + 1 => do
            let w ← it.increment w
            let (values, w) ← loop it limit w
            some (value :: values, w)

def rangeFor (this : G.Name) (limit : Nat) (w : GeneratorWorld G) :
    Option (List G.Value × GeneratorWorld G) := do
  if w.live ⟨(), this⟩ then
    let (it, w) ← begin this w
    loop it limit w
  else none

def rangeFors (this : G.Name) :
    List Nat → GeneratorWorld G → Option (List G.Value × GeneratorWorld G)
  | [], w => some ([], w)
  | limit :: limits, w => do
      let (values, w) ← rangeFor this limit w
      let (later, w) ← rangeFors this limits w
      some (values ++ later, w)

def elements : List Nat → Nat
  | [] => 0
  | limit :: limits => limit + 1 + elements limits

/-- `for (const auto value : f(args))`; the temporary lives as long as the loop. -/
def forOver (this : G.Name) (address : G.Address) (state : G.State) (limit : Nat)
    (w : GeneratorWorld G) : Option (List G.Value × GeneratorWorld G) := do
  let w ← (GeneratorOp.start this address state).exec w
  let (values, w) ← rangeFor this limit w
  let w ← (GeneratorOp.destroy this).exec w
  some (values, w)

end Generator

def Coroutines.SuspendedAt (m : Coroutines G) (address : G.Address)
    (after : Option G.State) : Prop :=
  ∃ frame, m.frame address = some frame ∧ frame.state = after

structure World.Elsewhere (address : G.Address) (w w' : GeneratorWorld G) : Prop where
  live : w'.live = w.live
  objects : w'.objects = w.objects
  frame : ∀ other ≠ address, w'.env.frame other = w.env.frame other
  destroyed : destroyedFrames w'.env.events = destroyedFrames w.env.events

namespace World.Elsewhere

variable {w w₁ w₂ : GeneratorWorld G} {address : G.Address}

theorem trans (h : w.Elsewhere address w₁) (h' : w₁.Elsewhere address w₂) :
    w.Elsewhere address w₂ :=
  ⟨h'.live.trans h.live, h'.objects.trans h.objects, fun other hne =>
    (h'.frame other hne).trans (h.frame other hne), h'.destroyed.trans h.destroyed⟩

theorem getHandle (h : w.Elsewhere address w₁) : w₁.getHandle = w.getHandle := by
  funext obj
  rw [World.getHandle, World.getHandle, h.objects]

theorem coroutineOf (h : w.Elsewhere address w₁) : w₁.coroutineOf = w.coroutineOf :=
  coroutineOf_congr h.live h.getHandle

end World.Elsewhere

/--
A loop over the coroutine at `address` reads what is expected and leaves the
coroutine there; if an exception is expected, the loop does not return.
-/
def Generator.Follows (address : G.Address) (w : GeneratorWorld G)
    (got : Option (List G.Value × GeneratorWorld G)) :
    Option (List G.Value × Option G.State) → Prop
  | none => got = none
  | some (values, after) => ∃ w', got = some (values, w') ∧ w.Elsewhere address w' ∧
      w'.env.SuspendedAt address after

namespace Generator.Follows

variable {address : G.Address} {w w₁ : GeneratorWorld G}
  {got : Option (List G.Value × GeneratorWorld G)}
  {expected : Option (List G.Value × Option G.State)}

theorem after (h : Follows address w₁ got expected) (helse : w.Elsewhere address w₁) :
    Follows address w got expected := by
  cases expected with
  | none => exact h
  | some r =>
      obtain ⟨w₂, rfl, helse', hafter⟩ := h
      exact ⟨w₂, rfl, helse.trans helse', hafter⟩

theorem cons (h : Follows address w got expected) (value : G.Value) :
    Follows address w (got.map fun r => (value :: r.1, r.2))
      (expected.map fun r => (value :: r.1, r.2)) := by
  cases expected with
  | none => exact Option.map_eq_none_iff.mpr h
  | some r =>
      obtain ⟨w₂, rfl, helse, hafter⟩ := h
      exact ⟨w₂, rfl, helse, hafter⟩

end Generator.Follows

section Loop

variable {w : GeneratorWorld G} {it : Iter G} {frame : Frame G} {state : G.State}

theorem resume_of_frame {m : Coroutines G} {hnd : CoroutineHandle G.Address}
    (hframe : m.frame hnd.address = some frame) (hstate : frame.state = some state) :
    hnd.resume m = match G.body state with
      | .yielded value state => some ((m.setFrame hnd.address
          (some { frame with promise := ⟨some value⟩, state := some state })).log
            (.yielded hnd.address value))
      | .returned => some (m.setFrame hnd.address (some { frame with state := none }))
      | .threw => none := by
  cases hbody : G.body state <;> simp [CoroutineHandle.resume, hframe, hstate, hbody]

theorem valid_of_frame (hframe : w.env.frame it.coroutine.address = some frame)
    (hstarted : frame.started = it.started) : it.valid w.env = true := by
  simp [Iter.valid, hframe, hstarted]

theorem operatorEq_of_frame (hnull : toBool it.coroutine.address = true)
    (hframe : w.env.frame it.coroutine.address = some frame)
    (hstarted : frame.started = it.started) :
    it.operatorEq w = some frame.state.isNone := by
  simp [Iter.operatorEq, hnull, valid_of_frame hframe hstarted, CoroutineHandle.done, hframe]

theorem loop_of_returned {limit : Nat} (hnull : toBool it.coroutine.address = true)
    (hframe : w.env.frame it.coroutine.address = some frame)
    (hstarted : frame.started = it.started) (hstate : frame.state = none) :
    Generator.loop it limit w = some ([], w) := by
  rw [Generator.loop, operatorEq_of_frame hnull hframe hstarted, hstate]
  rfl

theorem loop_succ {limit : Nat} {value : G.Value}
    (hnull : toBool it.coroutine.address = true)
    (hframe : w.env.frame it.coroutine.address = some frame)
    (hstarted : frame.started = it.started) (hstate : frame.state = some state)
    (hvalue : frame.promise.currentValue = some value) :
    Generator.loop it (limit + 1) w =
      ((it.coroutine.resume (w.env.log (.read it.coroutine.address value))).bind fun m =>
        Generator.loop it limit (w.setEnv m)).map fun r => (value :: r.1, r.2) := by
  have hread : it.deref w =
      some (value, w.setEnv (w.env.log (.read it.coroutine.address value))) :=
    deref_eq_some_iff.mpr ⟨valid_of_frame hframe hstarted, frame.promise,
      Option.map_eq_some_iff.mpr ⟨frame, hframe, rfl⟩, hvalue, rfl⟩
  have hvalid : it.valid (w.env.log (.read it.coroutine.address value)) = true :=
    valid_of_frame hframe hstarted
  rw [Generator.loop, operatorEq_of_frame hnull hframe hstarted, hstate]
  simp only [Option.isNone_some, Option.bind_eq_bind, Option.bind_some, Bool.false_eq_true,
    if_false, hread, Iter.increment, World.env_setEnv, hvalid, if_true]
  cases it.coroutine.resume (w.env.log (.read it.coroutine.address value)) with
  | none => rfl
  | some m =>
      simp only [Option.map_some, Option.bind_some]
      change (Generator.loop it limit (w.setEnv m)).bind _ = _
      cases Generator.loop it limit (w.setEnv m) <;> rfl

theorem resume_loop {limit : Nat} (hnull : toBool it.coroutine.address = true)
    (hframe : w.env.frame it.coroutine.address = some frame)
    (hstarted : frame.started = it.started) (hstate : frame.state = some state)
    (hloop : ∀ (w : GeneratorWorld G) (frame : Frame G) (value : G.Value) (state : G.State),
      w.env.frame it.coroutine.address = some frame → frame.started = it.started →
      frame.state = some state → frame.promise.currentValue = some value →
      Generator.Follows it.coroutine.address w (Generator.loop it limit w)
        ((reads G.body limit state).map fun r => (value :: r.1, r.2))) :
    Generator.Follows it.coroutine.address w
      ((it.coroutine.resume w.env).bind fun m => Generator.loop it limit (w.setEnv m))
      (reads G.body (limit + 1) state) := by
  rw [resume_of_frame hframe hstate, reads]
  cases hbody : G.body state with
  | threw => rfl
  | returned =>
      have hhere : (w.env.setFrame it.coroutine.address
          (some { frame with state := none })).frame it.coroutine.address = _ :=
        frame_setFrame_self _
      exact ⟨_, loop_of_returned (w := w.setEnv (w.env.setFrame it.coroutine.address
          (some { frame with state := none }))) hnull hhere hstarted rfl,
        ⟨rfl, rfl, fun other hne => frame_setFrame_of_ne hne _, rfl⟩, _, hhere, rfl⟩
  | yielded value state' =>
      have hhere : (w.env.setFrame it.coroutine.address
          (some { frame with promise := ⟨some value⟩, state := some state' })).frame
            it.coroutine.address = _ :=
        frame_setFrame_self _
      have helse : w.Elsewhere it.coroutine.address (w.setEnv
          ((w.env.setFrame it.coroutine.address
            (some { frame with promise := ⟨some value⟩, state := some state' })).log
              (.yielded it.coroutine.address value))) :=
        ⟨rfl, rfl, fun other hne => frame_setFrame_of_ne hne _, rfl⟩
      exact (hloop _ { frame with promise := ⟨some value⟩, state := some state' } value state'
        hhere hstarted rfl rfl).after helse

theorem loop_of_suspended {limit : Nat} {value : G.Value}
    (hnull : toBool it.coroutine.address = true)
    (hframe : w.env.frame it.coroutine.address = some frame)
    (hstarted : frame.started = it.started) (hstate : frame.state = some state)
    (hvalue : frame.promise.currentValue = some value) :
    Generator.Follows it.coroutine.address w (Generator.loop it limit w)
      ((reads G.body limit state).map fun r => (value :: r.1, r.2)) := by
  have helse : w.Elsewhere it.coroutine.address
      (w.setEnv (w.env.log (.read it.coroutine.address value))) :=
    ⟨rfl, rfl, fun _ _ => rfl, rfl⟩
  induction limit generalizing w frame value state with
  | zero =>
      refine ⟨_, ?_, helse, frame, hframe, hstate⟩
      have hread : it.deref w = some (value, _) :=
        deref_eq_some_iff.mpr ⟨valid_of_frame hframe hstarted, frame.promise,
          Option.map_eq_some_iff.mpr ⟨frame, hframe, rfl⟩, hvalue, rfl⟩
      rw [Generator.loop, operatorEq_of_frame hnull hframe hstarted, hstate]
      simp [hread]
  | succ limit ih =>
      rw [loop_succ hnull hframe hstarted hstate hvalue]
      have hnext := resume_loop
        (w := w.setEnv (w.env.log (.read it.coroutine.address value))) hnull hframe hstarted
        hstate fun w frame value state hframe hstarted hstate hvalue =>
          ih hframe hstarted hstate hvalue ⟨rfl, rfl, fun _ _ => rfl, rfl⟩
      exact (hnext.after helse).cons value

end Loop

section Loops

variable {w : GeneratorWorld G} {this : G.Name} {address : G.Address} {state : G.State}

theorem getHandle_of_owns (h : w.coroutineOf this = some address) :
    w.live ⟨(), this⟩ = true ∧ w.getHandle ⟨(), this⟩ = ⟨address⟩ ∧
      toBool address = true := by
  unfold World.coroutineOf at h
  obtain ⟨hlive, howned⟩ := Option.ite_none_right_eq_some.mp h
  obtain ⟨hnull, heq⟩ := Option.ite_none_right_eq_some.mp howned
  exact ⟨hlive, by rw [← Option.some.inj heq], Option.some.inj heq ▸ hnull⟩

theorem rangeFor_eq_bind {limit : Nat} {frame : Frame G}
    (howns : w.coroutineOf this = some address) (hframe : w.env.frame address = some frame) :
    Generator.rangeFor this limit w =
      ((CoroutineHandle.mk address).resume w.env).bind fun m =>
        Generator.loop ⟨⟨address⟩, frame.started⟩ limit (w.setEnv m) := by
  obtain ⟨hlive, hget, hnull⟩ := getHandle_of_owns howns
  have howned : UniqueRc.operatorBool ⟨(), this⟩ w = true := by
    rw [UniqueRc.operatorBool, UniqueRc.get, hget]
    exact hnull
  simp only [Generator.rangeFor, hlive, if_true, Generator.begin, howned, UniqueRc.get, hget,
    hframe, Option.elim_some, Option.bind_eq_bind]
  cases (CoroutineHandle.mk address).resume w.env <;> rfl

theorem rangeFor_follows (limit : Nat) (howns : w.coroutineOf this = some address)
    (h : w.env.SuspendedAt address (some state)) :
    Generator.Follows address w (Generator.rangeFor this limit w)
      (reads G.body (limit + 1) state) := by
  obtain ⟨-, -, hnull⟩ := getHandle_of_owns howns
  obtain ⟨frame, hframe, hstate⟩ := h
  rw [rangeFor_eq_bind howns hframe]
  have hloop := @resume_loop G w ⟨⟨address⟩, frame.started⟩ frame state
  exact hloop hnull hframe rfl hstate fun _ _ _ _ => loop_of_suspended hnull

theorem rangeFor_of_returned {limit : Nat} (howns : w.coroutineOf this = some address)
    (h : w.env.SuspendedAt address none) : Generator.rangeFor this limit w = none := by
  obtain ⟨frame, hframe, hstate⟩ := h
  rw [rangeFor_eq_bind howns hframe]
  simp [CoroutineHandle.resume, hframe, hstate]

theorem rangeFors_cons {limit : Nat} {limits : List Nat} {values : List G.Value}
    {w₁ : GeneratorWorld G} (hfor : Generator.rangeFor this limit w = some (values, w₁)) :
    Generator.rangeFors this (limit :: limits) w =
      (Generator.rangeFors this limits w₁).map fun later => (values ++ later.1, later.2) := by
  simp only [Generator.rangeFors, hfor, Option.bind_eq_bind, Option.bind_some]
  cases Generator.rangeFors this limits w₁ <;> rfl

theorem elements_dropLast_cons {limit : Nat} {limits : List Nat} {values later : List G.Value}
    (hlength : values.length = limit + 1) :
    Generator.elements (limit :: limits).dropLast ≤ (values ++ later).length ↔
      Generator.elements limits.dropLast ≤ later.length := by
  cases limits with
  | nil => simp [Generator.elements]
  | cons limit' limits =>
      rw [List.dropLast_cons_cons, Generator.elements, List.length_append]
      omega

theorem rangeFors_of_returned {limit : Nat} {limits : List Nat} {values read : List G.Value}
    (howns : w.coroutineOf this = some address) (h : w.env.SuspendedAt address none)
    (hshort : values.length < limit + 1) :
    (∃ w', (Generator.rangeFors this limits w).map (fun later => (values ++ later.1, later.2)) =
        some (read, w')) ↔
      Generator.elements (limit :: limits).dropLast ≤ read.length ∧ values = read := by
  cases limits with
  | nil => simp [Generator.rangeFors, Generator.elements]
  | cons limit' limits =>
      -- the loop before ran to the end, and this one resumes once more
      have hnone : Generator.rangeFors this (limit' :: limits) w = none := by
        simp [Generator.rangeFors, rangeFor_of_returned howns h]
      simp only [hnone, Option.map_none, reduceCtorEq, exists_false, List.dropLast_cons_cons,
        Generator.elements, false_iff, not_and]
      rintro hlong rfl
      omega

theorem rangeFors_eq_some_iff {limits : List Nat} {read : List G.Value}
    (howns : w.coroutineOf this = some address)
    (h : w.env.SuspendedAt address (some state)) :
    (∃ w', Generator.rangeFors this limits w = some (read, w')) ↔
      Generator.elements limits.dropLast ≤ read.length ∧
        ∃ after, reads G.body (Generator.elements limits) state = some (read, after) := by
  induction limits generalizing w state read with
  | nil => simp [Generator.rangeFors, Generator.elements, reads, eq_comm]
  | cons limit limits ih =>
      have hfirst := rangeFor_follows limit howns h
      rw [Generator.elements, reads_add]
      cases hreads : reads G.body (limit + 1) state with
      | none =>
          rw [hreads] at hfirst
          have hnone : Generator.rangeFor this limit w = none := hfirst
          simp [Generator.rangeFors, hnone]
      | some r =>
          obtain ⟨values, after⟩ := r
          rw [hreads] at hfirst
          obtain ⟨w₁, hfor, helse, hafter⟩ := hfirst
          have howns₁ : w₁.coroutineOf this = some address := helse.coroutineOf ▸ howns
          rw [rangeFors_cons hfor]
          cases after with
          | none =>
              rw [rangeFors_of_returned howns₁ hafter (reads_none_iff.mp hreads).2]
              simp
          | some s' =>
              have hdrop := @elements_dropLast_cons G limit limits values
              have hlength := (reads_some_iff.mp hreads).2
              simp only [Option.map_eq_some_iff, Option.bind_some, Prod.mk.injEq, Prod.exists]
              constructor
              · rintro ⟨w', later, w₂, hlater, rfl, -⟩
                obtain ⟨hlong, after, hrest⟩ := (ih howns₁ hafter).mp ⟨w₂, hlater⟩
                exact ⟨(hdrop hlength).mpr hlong, after, later, after, hrest, rfl, rfl⟩
              · rintro ⟨hlong, after, later, _, hrest, rfl, -⟩
                obtain ⟨w₂, hlater⟩ := (ih howns₁ hafter).mpr
                  ⟨(hdrop hlength).mp hlong, _, hrest⟩
                exact ⟨w₂, later, w₂, hlater, rfl, rfl⟩

/--
Loops over one generator that are left early, one after the other, read
consecutive elements.  They are defined exactly if no loop begins after one that
ran to the end, and the coroutine does not throw before they are done with it.
-/
theorem rangeFors_read {limits : List Nat} {read : List G.Value}
    (howns : w.coroutineOf this = some address)
    (h : w.env.SuspendedAt address (some state)) :
    (∃ w', Generator.rangeFors this limits w = some (read, w')) ↔
      Generator.elements limits.dropLast ≤ read.length ∧
        ∃ state', Produces G.body state read state' ∧
          (read.length = Generator.elements limits ∨
            read.length < Generator.elements limits ∧ G.body state' = .returned) := by
  rw [rangeFors_eq_some_iff howns h, reads_iff]

theorem exists_start_follows (state : G.State) (limit : Nat) (hthis : w.live ⟨(), this⟩ = false)
    (hnull : toBool address = true) (hfree : w.env.frame address = none) :
    ∃ w', (GeneratorOp.start this address state).exec w = some w' ∧
      w'.coroutineOf = Function.update w.coroutineOf this (some address) ∧
      w'.env = (w.env.setFrame address
        (some ⟨w.env.events.length, ⟨none⟩, some state⟩)).log (.started address state) ∧
      Generator.Follows address w' (Generator.rangeFor this limit w')
        (reads G.body (limit + 1) state) := by
  obtain ⟨w', hstart, howner, henv⟩ := exec_start state hthis hnull hfree
  have howns : w'.coroutineOf this = some address := by rw [howner, Function.update_self]
  have hsuspended : w'.env.SuspendedAt address (some state) := by
    rw [henv]
    exact ⟨_, frame_setFrame_self _, rfl⟩
  exact ⟨w', hstart, howner, henv, rangeFor_follows limit howns hsuspended⟩

theorem exists_forOver {limit : Nat} {values : List G.Value} {after : Option G.State}
    (hthis : w.live ⟨(), this⟩ = false) (hnull : toBool address = true)
    (hfree : w.env.frame address = none)
    (hreads : reads G.body (limit + 1) state = some (values, after)) :
    ∃ w', Generator.forOver this address state limit w = some (values, w') ∧
      w'.coroutineOf = w.coroutineOf ∧ w'.env.frame = w.env.frame ∧
      destroyedFrames w'.env.events = address :: destroyedFrames w.env.events := by
  obtain ⟨w₁, hstart, howner, henv, hfollows⟩ :=
    exists_start_follows state limit hthis hnull hfree
  rw [hreads] at hfollows
  obtain ⟨w₂, hfor, helse, frame, hframe, -⟩ := hfollows
  have howns₂ : w₂.coroutineOf this = some address := by
    rw [helse.coroutineOf, howner, Function.update_self]
  obtain ⟨w₃, hdestroy, howner₃, henv₃⟩ := exec_destroy howns₂ (by rw [hframe]; rfl)
  refine ⟨w₃, by simp [Generator.forOver, hstart, hfor, hdestroy], ?_, ?_, ?_⟩
  · rw [howner₃, helse.coroutineOf, howner, Function.update_idem,
      ← coroutineOf_of_dead hthis, Function.update_eq_self]
  · funext other
    rw [henv₃]
    by_cases heq : other = address
    · subst heq
      exact (frame_setFrame_self none).trans hfree.symm
    · refine (frame_setFrame_of_ne heq none).trans ((helse.frame other heq).trans ?_)
      rw [henv]
      exact frame_setFrame_of_ne heq _
  · rw [henv₃, show destroyedFrames (w₂.env.drop (some address)).events =
      address :: destroyedFrames w₂.env.events from rfl, helse.destroyed, henv]
    rfl

theorem forOver_eq_none {limit : Nat} (hthis : w.live ⟨(), this⟩ = false)
    (hnull : toBool address = true) (hfree : w.env.frame address = none)
    (hreads : reads G.body (limit + 1) state = none) :
    Generator.forOver this address state limit w = none := by
  obtain ⟨w₁, hstart, -, -, hfollows⟩ :=
    exists_start_follows state limit hthis hnull hfree
  rw [hreads] at hfollows
  have hnone : Generator.rangeFor this limit w₁ = none := hfollows
  simp [Generator.forOver, hstart, hnone]

/--
A loop over a temporary generator reads what its coroutine yields, up to the
element it is left with, and leaves the coroutines as it found them: the frame
is destroyed, wherever it was suspended.
-/
theorem forOver_read (limit : Nat) (hthis : w.live ⟨(), this⟩ = false)
    (hnull : toBool address = true) (hfree : w.env.frame address = none)
    {read : List G.Value} :
    ((∃ w', Generator.forOver this address state limit w = some (read, w')) ↔
      ∃ state', Produces G.body state read state' ∧
        (read.length = limit + 1 ∨
          read.length < limit + 1 ∧ G.body state' = .returned)) ∧
    ∀ w', Generator.forOver this address state limit w = some (read, w') →
      w'.coroutineOf = w.coroutineOf ∧ w'.env.frame = w.env.frame ∧
      destroyedFrames w'.env.events = address :: destroyedFrames w.env.events := by
  rw [← reads_iff]
  cases hreads : reads G.body (limit + 1) state with
  | none => simp [forOver_eq_none hthis hnull hfree hreads]
  | some r =>
      obtain ⟨values, after⟩ := r
      obtain ⟨w₁, hfor, hleaves⟩ := exists_forOver hthis hnull hfree hreads
      rw [hfor]
      refine ⟨by simp, fun w' hw' => ?_⟩
      obtain ⟨rfl, rfl⟩ := Prod.mk.inj (Option.some.inj hw')
      exact hleaves

end Loops

/-! ## The coroutine of the example -/

/-- `range(first, last)` with `first` as it is at the last suspension. -/
def rangeBody : Int × Int → Resumption (Int × Int) Int
  | (first, last) =>
      if first < last then .yielded first (first + 1, last) else .returned

theorem range_completes (first last : Int) :
    Completes rangeBody (first, last)
      ((List.range (last - first).toNat).map fun k : Nat => first + (k : Int)) := by
  generalize hcount : (last - first).toNat = count
  induction count generalizing first with
  | zero =>
      refine Completes.nil_iff.mpr (if_neg ?_)
      omega
  | succ count ih =>
      have hbody : rangeBody (first, last) = .yielded first (first + 1, last) :=
        if_pos (by omega)
      have hrest := ih (first + 1) (by omega)
      rw [List.range_succ_eq_map, List.map_cons, List.map_map]
      refine Completes.cons_iff.mpr ⟨_, by simpa using hbody, ?_⟩
      convert hrest using 2
      funext k
      simp only [Function.comp_apply, Nat.succ_eq_add_one]
      omega

/-- `first++` stays between its bounds, so it does not overflow their type. -/
theorem range_bounds {first last first' last' : Int} {values : List Int}
    (h : Produces rangeBody (first, last) values (first', last')) :
    last' = last ∧ first ≤ first' ∧ first' ≤ max first last := by
  generalize hs : (first, last) = s at h
  generalize hs' : (first', last') = s' at h
  induction h generalizing first with
  | nil =>
      obtain ⟨rfl, rfl⟩ := Prod.mk.inj (hs.trans hs'.symm)
      exact ⟨rfl, Int.le_refl _, by omega⟩
  | cons hyield _ ih =>
      subst hs
      obtain ⟨hlt, hnext⟩ : first < last ∧ _ = (first + 1, last) := by
        simp only [rangeBody] at hyield
        split at hyield
        · exact ⟨‹_›, (Resumption.yielded.inj hyield).2.symm⟩
        · cases hyield
      obtain ⟨rfl, hlow, hhigh⟩ := ih hnext.symm hs'
      omega

abbrev rangeShape : GeneratorShape where
  Address := Nat
  Name := Nat
  Iter := Nat
  State := Int × Int
  Value := Int
  body := rangeBody
  nullable := ⟨0⟩

theorem forOver_range {w : GeneratorWorld rangeShape} {this address limit : Nat}
    {first last : Int} (hthis : w.live ⟨(), this⟩ = false) (hnull : address ≠ 0)
    (hfree : w.env.frame address = none) (hlimit : (last - first).toNat ≤ limit + 1) :
    ∃ w', Generator.forOver (G := rangeShape) this address (first, last) limit w =
        some ((List.range (last - first).toNat).map fun k : Nat => first + (k : Int), w') ∧
      w'.env.frame = w.env.frame := by
  obtain ⟨state', hproduces, hreturned⟩ := range_completes first last
  obtain ⟨after, hreads⟩ := reads_iff.mpr ⟨state', hproduces, by
    rw [List.length_map, List.length_range]
    exact (Nat.eq_or_lt_of_le hlimit).imp_right fun hlt => ⟨hlt, hreturned⟩⟩
  obtain ⟨w', hfor, -, hframe, -⟩ := exists_forOver (G := rangeShape) hthis
    (bne_iff_ne.mpr hnull) hfree hreads
  exact ⟨w', hfor, hframe⟩

/-! ## Two coroutines in turn -/

def emptyProgram : GeneratorWorld rangeShape where
  live _ := false
  objects _ := ⟨⟨(0 : Nat)⟩, .value ()⟩
  cells := Empty.elim
  env := ⟨fun _ => none, fun _ => none, []⟩

theorem noCoroutines_emptyProgram : emptyProgram.NoCoroutines :=
  ⟨fun _ => rfl, fun _ => rfl, rfl⟩

/-- Generator 0 hands `range(3, 6)` on to generator 2 while iterator 0 is at work on it. -/
def turnsProgram : List (GeneratorOp rangeShape) :=
  [.start (0 : Nat) (1 : Nat) (3, 6), .start (1 : Nat) (2 : Nat) (10, 12),
    .begin (0 : Nat) (0 : Nat), .deref (0 : Nat),
    .moveConstruct (2 : Nat) (0 : Nat), .begin (1 : Nat) (1 : Nat),
    .increment (0 : Nat), .deref (0 : Nat), .deref (1 : Nat), .compare (0 : Nat),
    .moveAssign (2 : Nat) (1 : Nat), .destroy (0 : Nat), .destroy (1 : Nat),
    .increment (1 : Nat), .destroy (2 : Nat)]

theorem isSome_turnsProgram : (run GeneratorOp.exec turnsProgram emptyProgram).isSome :=
  rfl

theorem values_in_order_turnsProgram :
    ∃ w', run GeneratorOp.exec turnsProgram emptyProgram = some w' ∧ w'.env.InOrder := by
  obtain ⟨w', hrun⟩ := Option.isSome_iff_exists.mp isSome_turnsProgram
  exact ⟨w', hrun, values_in_order noCoroutines_emptyProgram hrun⟩

theorem frames_accounted_turnsProgram :
    ∃ w', run GeneratorOp.exec turnsProgram emptyProgram = some w' ∧
      (∀ address, (w'.env.frame address).isSome = true ↔
        ∃! this, w'.coroutineOf this = some address) ∧
      w'.env.Settled ∧ (∀ address, w'.env.frame address = none) ∧
      (destroyedFrames w'.env.events).Perm (startedFrames w'.env.events) := by
  obtain ⟨w', hrun⟩ := Option.isSome_iff_exists.mp isSome_turnsProgram
  obtain ⟨howner, hsettled, hempty⟩ := frames_accounted noCoroutines_emptyProgram hrun
  have hnone : ∀ this, w'.coroutineOf this = none := by
    rw [← Option.some.inj hrun]
    intro this
    match this with
    | 0 | 1 | 2 => rfl
    | _ + 3 => rfl
  exact ⟨w', hrun, howner, hsettled, hempty hnone⟩

theorem generators_return_iff_turnsProgram :
    Along GeneratorOp.exec (fun op w => op.Ready w) turnsProgram emptyProgram :=
  (generators_return_iff noCoroutines_emptyProgram).mp
    (Option.isSome_iff_exists.mp isSome_turnsProgram)

/-- `while (true) { co_yield first++; }` -/
abbrev ticksShape : GeneratorShape where
  Address := Nat
  Name := Nat
  Iter := Nat
  State := Int
  Value := Int
  body first := .yielded first (first + 1)
  nullable := ⟨0⟩

def oneTicks : GeneratorWorld ticksShape where
  live obj := obj.name == (0 : Nat)
  objects _ := ⟨⟨(1 : Nat)⟩, .value ()⟩
  cells := Empty.elim
  env := ⟨fun address => if address = (1 : Nat) then some ⟨0, ⟨none⟩, some (3 : Int)⟩ else none,
    fun _ => none, [.started (1 : Nat) (3 : Int)]⟩

theorem rangeFors_read_oneTicks :
    ∃ w', Generator.rangeFors (G := ticksShape) (0 : Nat) [1, 0] oneTicks =
      some ([3, 4, 5], w') := by
  have hsuspended : oneTicks.env.SuspendedAt (1 : Nat) (some (3 : Int)) := ⟨_, rfl, rfl⟩
  exact (rangeFors_read rfl hsuspended).mpr
    ⟨by decide, 6, .cons rfl (.cons rfl (.cons rfl .nil)), .inl rfl⟩

theorem forOver_read_emptyProgram :
    ∃ w', Generator.forOver (G := rangeShape) (0 : Nat) (1 : Nat) (3, 6) 1 emptyProgram =
      some ([3, 4], w') ∧ w'.env.frame = emptyProgram.env.frame := by
  obtain ⟨hiff, hleaves⟩ := @forOver_read rangeShape emptyProgram (0 : Nat) (1 : Nat) (3, 6) 1
    rfl rfl rfl [3, 4]
  obtain ⟨w', hfor⟩ := hiff.mpr ⟨(5, 6), .cons rfl (.cons rfl .nil), .inl rfl⟩
  exact ⟨w', hfor, (hleaves w' hfor).2.1⟩

end Raii
