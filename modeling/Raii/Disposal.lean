import Raii.Foundation.Indirection
import Raii.UniqueRc

/-!
# Deleters that dispose of a resource

With a deleter that looks at nothing but the resource its handle stands for,
`unique_rc` is a box of that resource: every operation passes resources on as
the operation on boxes does, whatever the policies and the deleter objects are.
-/

namespace Raii

open Foundation

/--
The resources the handles stand for, and what a deleter makes of the one it is
called on.  Conversions between handle types keep the resource, and the
policies refuse their own `invalid()`.
-/
structure Disposal (S : Signature) (Env R : Type) where
  resource : (kind : S.Kind) → S.Handle kind → Option R
  dispose : Obj S → R → Env → Option Env
  call : DeleterCall S Env
  isSome_resource : ∀ kind hnd, (resource kind hnd).isSome = S.isOwned kind hnd
  resource_convert : ∀ {source target convert},
    S.convertHandle source target = some convert →
      ∀ hnd, resource target (convert hnd) = resource source hnd
  refusesInvalid : ∀ kind, (S.policy kind).RefusesInvalid
  call_eq : ∀ {this del hnd w r}, resource this.kind hnd = some r →
    call this del hnd w = (dispose this r w.env).map w.setEnv

def Op.typed {S : Signature} : Op S → Bool
  | .construct this => (S.defaultConstruct this.kind).isSome
  | .constructHandle this _ => (S.defaultConstruct this.kind).isSome
  | .constructDeleter this _ del => del.fits this.kind
  | .convertConstruct this other _ => !decide (this.kind = other.kind) &&
      (S.convertHandle other.kind this.kind).isSome &&
      (S.convertDeleter other.kind this.kind).isSome
  | .convertAssign this other _ => !decide (this.kind = other.kind) &&
      (S.convertHandle other.kind this.kind).isSome &&
      (S.assignDeleter other.kind this.kind).isSome
  | _ => true

def Op.passing {S : Signature} {N : Type} (given : (kind : S.Kind) → S.Handle kind → Option N) :
    Op S → Passing (Obj S) N
  | .construct this => .create this none
  | .constructHandle this hnd => .create this (given this.kind hnd)
  | .constructDeleter this hnd _ => .create this (given this.kind hnd)
  | .moveConstruct kind this other _ => .createFrom ⟨kind, this⟩ ⟨kind, other⟩
  | .convertConstruct this other _ => .createFrom this other
  | .moveAssign kind this other _ => .take ⟨kind, this⟩ ⟨kind, other⟩
  | .convertAssign this other _ => .take this other
  | .swap kind this other => .swap ⟨kind, this⟩ ⟨kind, other⟩
  | .reset this hnd => .put this (given this.kind hnd)
  | .resetInvalid this => .put this none
  | .release this => .release this
  | .destroy this => .destroy this

theorem Op.map_passing {S : Signature} {N M : Type} (f : N → M)
    (given : (kind : S.Kind) → S.Handle kind → Option N) (op : Op S) :
    (op.passing given).map f = op.passing fun kind hnd => (given kind hnd).map f := by
  cases op <;> rfl

namespace Disposal

variable {S : Signature} {Env R : Type} (D : Disposal S Env R)

def content (w : World S Env) (obj : Obj S) : Option (Option R) :=
  if w.live obj then some (D.resource obj.kind (w.getHandle obj)) else none

def owns (w : World S Env) (obj : Obj S) : Option R :=
  if w.live obj then D.resource obj.kind (w.getHandle obj) else none

def boxes (w : World S Env) : Boxes (Obj S) R Env := ⟨D.content w, w.env⟩

def resources : Resources (Obj S) R Empty R Env where
  acquire _ r env := some (r, env)
  access _ := Empty.elim
  retire := D.dispose

def passing (op : Op S) : Passing (Obj S) R := op.passing D.resource

variable {D} {w w' : World S Env} {this other obj : Obj S} {hnd : S.Handle this.kind}

theorem content_of_live (hlive : w.live obj = true) :
    D.content w obj = some (D.resource obj.kind (w.getHandle obj)) := if_pos hlive

theorem content_of_dead (hdead : w.live obj = false) : D.content w obj = none :=
  if_neg (Bool.eq_false_iff.mp hdead)

@[simp] theorem isSome_content : (D.content w obj).isSome = w.live obj := by
  rw [content]
  cases w.live obj <;> rfl

@[simp] theorem isNone_content : (D.content w obj).isNone = !w.live obj := by
  rw [← Option.not_isSome, isSome_content]

@[simp] theorem owns_content : Boxes.owns (D.content w) = D.owns w := by
  funext obj
  rw [Boxes.owns, content, owns]
  split <;> rfl

theorem owns_of_live (hlive : w.live obj = true) :
    D.owns w obj = D.resource obj.kind (w.getHandle obj) := if_pos hlive

theorem resource_of_not_owned {kind : S.Kind} {hnd : S.Handle kind}
    (h : S.isOwned kind hnd = false) : D.resource kind hnd = none := by
  rw [← Option.not_isSome_iff_eq_none, D.isSome_resource, h]
  exact Bool.false_ne_true

@[simp] theorem resource_invalid (kind : S.Kind) : D.resource kind (S.invalid kind) = none :=
  resource_of_not_owned (D.refusesInvalid kind)

theorem exists_resource {kind : S.Kind} {hnd : S.Handle kind}
    (h : S.isOwned kind hnd = true) : ∃ r, D.resource kind hnd = some r :=
  Option.isSome_iff_exists.mp ((D.isSome_resource kind hnd).trans h)

/-! ## What the writes do to the boxes -/

theorem content_congr (hlive : w'.live = w.live) (hget : w'.getHandle = w.getHandle) :
    D.content w' = D.content w := by
  funext obj
  rw [content, content, hlive, hget]

@[simp] theorem content_setEnv (env : Env) : D.content (w.setEnv env) = D.content w := rfl

theorem content_setHandle (hlive : w.live this = true) :
    D.content (w.setHandle this hnd) =
      Function.update (D.content w) this (some (D.resource this.kind hnd)) := by
  funext obj
  by_cases heq : obj = this
  · subst heq
    rw [Function.update_self, content_of_live (by exact hlive), World.getHandle_setHandle,
      Function.update_self]
  · rw [Function.update_of_ne heq, content, content, World.getHandle_setHandle,
      Function.update_of_ne heq]
    rfl

theorem content_construct (del : DeleterMember S) :
    D.content (w.construct this ⟨hnd, del⟩) =
      Function.update (D.content w) this (some (D.resource this.kind hnd)) := by
  funext obj
  by_cases heq : obj = this
  · subst heq
    rw [Function.update_self, content_of_live (by simp), World.getHandle_construct,
      Function.update_self]
  · rw [Function.update_of_ne heq, content, content, World.getHandle_construct,
      World.live_construct, Function.update_of_ne heq, Function.update_of_ne heq]

theorem content_endLifetime :
    D.content (w.endLifetime this) = Function.update (D.content w) this none := by
  funext obj
  by_cases heq : obj = this
  · subst heq
    rw [Function.update_self, content_of_dead (by simp)]
  · rw [Function.update_of_ne heq, content, content, World.live_endLifetime,
      Function.update_of_ne heq, World.getHandle_endLifetime]

theorem call_settle (h : S.isOwned this.kind hnd = true) (del : S.Deleter) :
    D.call this del hnd w =
      (D.resources.settle this (D.resource this.kind hnd) w.env).map w.setEnv := by
  obtain ⟨r, hr⟩ := D.exists_resource h
  rw [D.call_eq hr, hr]
  rfl

theorem boxes_reset (hcheck : S.selfResetCheck = false) (hlive : w.live this = true) :
    (UniqueRcHolderImpl.reset D.call this hnd w).map D.boxes =
      (D.resources.settle this (D.resource this.kind (w.getHandle this)) w.env).map
        fun env => ⟨Function.update (D.content w) this (some (D.resource this.kind hnd)), env⟩ := by
  cases howned : S.isOwned this.kind (w.getHandle this) with
  | false =>
      rw [UniqueRcHolderImpl.reset_of_not_owned D.call howned, resource_of_not_owned howned,
        Option.map_some, boxes, content_setHandle hlive]
      rfl
  | true =>
      have hne : S.selfResetCheck = true → w.getHandle this ≠ hnd := by simp [hcheck]
      rw [UniqueRcHolderImpl.reset_of_owned D.call howned hne, call_settle howned,
        Option.map_map]
      congr 1
      funext env
      simp [boxes, content_setHandle hlive]

theorem boxes_take (hcheck : S.selfResetCheck = false) (hthis : w.live this = true)
    (hother : w.live other = true)
    (hresource : D.resource this.kind hnd = D.resource other.kind (w.getHandle other)) :
    (UniqueRcHolderImpl.reset D.call this hnd
        (w.setHandle other (S.invalid other.kind))).map D.boxes =
      (D.resources.settle this ((Passing.take (N := R) this other).old (D.content w))
        w.env).map fun env =>
          ⟨(Passing.take (N := R) this other).after none (D.content w), env⟩ := by
  rw [boxes_reset hcheck (by exact hthis), content_setHandle hother, resource_invalid,
    hresource, World.getHandle_setHandle, Passing.old, Passing.after, content_of_live hother]
  by_cases heq : this = other
  · subst heq
    rw [Function.update_self, resource_invalid, if_pos rfl]
    rfl
  · rw [Function.update_of_ne heq, if_neg heq, owns_content, owns_of_live hthis]
    rfl

theorem boxes_assignDeleter (convert : S.Deleter → S.Deleter) (left : S.Deleter) :
    D.boxes (w.assignDeleter this other convert left) = D.boxes w := by
  rw [boxes, boxes, content_congr (World.live_assignDeleter ..)
    (World.getHandle_assignDeleter ..), World.env_assignDeleter]

theorem map_boxes_assignDeleter (convert : S.Deleter → S.Deleter) (left : S.Deleter)
    (x : Option (World S Env)) :
    (x.map (World.assignDeleter this other convert left)).map D.boxes = x.map D.boxes := by
  rw [Option.map_map]
  congr 1
  funext w
  exact boxes_assignDeleter convert left

theorem content_swap {kind : S.Kind} {this rhs : S.Name} (hthis : w.live ⟨kind, this⟩ = true)
    (hrhs : w.live ⟨kind, rhs⟩ = true) :
    D.content (UniqueRc.swap kind this rhs w) =
      (Passing.swap (N := R) ⟨kind, this⟩ ⟨kind, rhs⟩).after none (D.content w) := by
  have hlive : D.content (UniqueRc.swap kind this rhs w) =
      D.content ((w.setHandle ⟨kind, this⟩ (w.getHandle ⟨kind, rhs⟩)).setHandle ⟨kind, rhs⟩
        (w.getHandle ⟨kind, this⟩)) :=
    content_congr (UniqueRcHolderImpl.live_swap ..)
      ((UniqueRcHolderImpl.getHandle_swap ..).trans (by simp))
  rw [hlive, content_setHandle (by exact hrhs), content_setHandle hthis, Passing.after,
    content_of_live hthis, content_of_live hrhs]

theorem content_createFrom (hother : w.live other = true) (hne : this ≠ other)
    (hlive : w'.live = Function.update w.live this true)
    (hresource : D.resource this.kind (w'.getHandle this) =
      D.resource other.kind (w.getHandle other))
    (hnull : w'.getHandle other = S.invalid other.kind)
    (hrest : ∀ obj, obj ≠ this → obj ≠ other → w'.getHandle obj = w.getHandle obj) :
    D.content w' = (Passing.createFrom (N := R) this other).after none (D.content w) := by
  funext obj
  rw [Passing.after, content_of_live hother]
  by_cases hthis : obj = this
  · subst hthis
    rw [Function.update_self, content_of_live (by simp [hlive]), hresource]
  · rw [Function.update_of_ne hthis]
    by_cases heq : obj = other
    · subst heq
      rw [Function.update_self, content_of_live (by simp [hlive, hthis, hother]), hnull,
        resource_invalid]
    · rw [Function.update_of_ne heq, content, content, hlive, Function.update_of_ne hthis,
        hrest obj hthis heq]

theorem boxes_destroy (hlive : w.live this = true) :
    (UniqueRc.destroy D.call this w).map D.boxes =
      (D.resources.settle this (D.resource this.kind (w.getHandle this)) w.env).map
        fun env => ⟨Function.update (D.content w) this none, env⟩ := by
  cases howned : S.isOwned this.kind (w.getHandle this) with
  | false =>
      rw [UniqueRc.destroy_of_not_owned D.call howned, resource_of_not_owned howned,
        Option.map_some, boxes, content_endLifetime]
      rfl
  | true =>
      rw [UniqueRc.destroy_of_owned D.call howned, call_settle howned, Option.map_map,
        Option.map_map]
      congr 1
      funext env
      -- whatever the move leaves in the handle, the object ends empty
      have hset : D.content (((w.setHandle this (S.movedHandle this.kind
          (w.getHandle this))).setEnv env).setHandle this (S.invalid this.kind)) =
          Function.update (D.content w) this (some none) := by
        rw [content_setHandle (by exact hlive), resource_invalid, content_setEnv,
          content_setHandle hlive, Function.update_idem]
      simp [boxes, content_endLifetime, hset]

/-! ## Programs -/

theorem typed_convertConstruct {left : S.Deleter} :
    (Op.convertConstruct this other left).typed = true ↔ this.kind ≠ other.kind ∧
      ∃ convert, S.convertHandle other.kind this.kind = some convert ∧
      ∃ convertDel, S.convertDeleter other.kind this.kind = some convertDel := by
  simp only [Op.typed, Bool.and_eq_true, Bool.not_eq_true', decide_eq_false_iff_not, ne_eq,
    Option.isSome_iff_exists, and_assoc, exists_and_right]

theorem typed_convertAssign {left : S.Deleter} :
    (Op.convertAssign this other left).typed = true ↔ this.kind ≠ other.kind ∧
      ∃ convert, S.convertHandle other.kind this.kind = some convert ∧
      ∃ convertDel, S.assignDeleter other.kind this.kind = some convertDel := by
  simp only [Op.typed, Bool.and_eq_true, Bool.not_eq_true', decide_eq_false_iff_not, ne_eq,
    Option.isSome_iff_exists, and_assoc, exists_and_right]

theorem exec_resources (p : Passing (Obj S) R) (s : Boxes (Obj S) R Env) :
    p.exec D.resources s =
      if p.admits s.content then
        (D.resources.settle p.box (p.old s.content) s.state).map
          fun env => ⟨p.after p.new s.content, env⟩
      else none := by
  have hsupply : D.resources.supply p.box p.new s.state = some (p.new, s.state) := by
    cases p.new <;> rfl
  exact Passing.exec_of_supply hsupply

theorem inLifetime_eq (op : Op S) :
    op.inLifetime w = (D.passing op).admits (D.content w) := by
  cases op <;> simp [Op.inLifetime, passing, Op.passing, Passing.admits]

theorem boxes_of_content {p : Passing (Obj S) R}
    (hcontent : D.content w' = p.after p.new (D.content w)) (henv : w'.env = w.env)
    (hold : p.old (D.content w) = none) :
    some (D.boxes w') = (D.resources.settle p.box (p.old (D.content w)) w.env).map
      fun env => ⟨p.after p.new (D.content w), env⟩ := by
  rw [hold, boxes, hcontent, henv]
  rfl

theorem boxes_run (hcheck : S.selfResetCheck = false) {op : Op S}
    (hlive : op.inLifetime w = true) (htyped : op.typed = true) :
    (op.run D.call w).map D.boxes =
      (D.resources.settle (D.passing op).box ((D.passing op).old (D.content w)) w.env).map
        fun env => ⟨(D.passing op).after (D.passing op).new (D.content w), env⟩ := by
  cases op with
  | construct this =>
      obtain ⟨del, hdel⟩ := Option.isSome_iff_exists.mp htyped
      rw [Op.run, hdel]
      refine boxes_of_content ?_ rfl rfl
      exact (content_construct _).trans (by rw [resource_invalid]; rfl)
  | constructHandle this hnd =>
      obtain ⟨del, hdel⟩ := Option.isSome_iff_exists.mp htyped
      rw [Op.run, hdel]
      exact boxes_of_content (content_construct _) rfl rfl
  | constructDeleter this hnd del =>
      have hfits : del.fits this.kind = true := htyped
      rw [Op.run, if_pos hfits]
      exact boxes_of_content (content_construct _) rfl rfl
  | moveConstruct kind this other left =>
      obtain ⟨hthis, hother⟩ := Bool.and_eq_true_iff.mp hlive
      have hne : this ≠ other := by
        rintro rfl
        simp [hother] at hthis
      refine boxes_of_content (content_createFrom hother (by simpa using hne) ?_ ?_ ?_ ?_) ?_ rfl
      · exact UniqueRcHolderImpl.live_moveConstruct ..
      · simp [UniqueRc.moveConstruct, UniqueRcHolderImpl.getHandle_moveConstruct, hne]
      · simp [UniqueRc.moveConstruct, UniqueRcHolderImpl.getHandle_moveConstruct]
      · intro obj hthis hother
        simp [UniqueRc.moveConstruct, UniqueRcHolderImpl.getHandle_moveConstruct, hthis, hother]
      · exact UniqueRcHolderImpl.env_moveConstruct ..
  | convertConstruct this other left =>
      obtain ⟨-, hother⟩ := Bool.and_eq_true_iff.mp hlive
      obtain ⟨hkind, convert, hconvert, convertDel, hdel⟩ := typed_convertConstruct.mp htyped
      have hne : other ≠ this := fun h => hkind (h ▸ rfl)
      rw [Op.run_convertConstruct_eq_some_iff.mpr
        ⟨hkind, convert, hconvert, convertDel, hdel, rfl⟩]
      refine boxes_of_content (content_createFrom hother hne.symm ?_ ?_ ?_ ?_) ?_ rfl
      · exact UniqueRc.live_convertConstruct ..
      · simp [UniqueRc.getHandle_convertConstruct, D.resource_convert hconvert]
      · simp [UniqueRc.getHandle_convertConstruct, hne]
      · intro obj hthis hother
        simp [UniqueRc.getHandle_convertConstruct, hthis, hother]
      · exact UniqueRc.env_convertConstruct ..
  | moveAssign kind this other left =>
      obtain ⟨hthis, hother⟩ := Bool.and_eq_true_iff.mp hlive
      have hrun : (Op.moveAssign kind this other left).run D.call w =
          (UniqueRcHolderImpl.reset D.call ⟨kind, this⟩ (w.getHandle ⟨kind, other⟩)
            (w.setHandle ⟨kind, other⟩ (S.invalid kind))).map
              (World.assignDeleter ⟨kind, this⟩ ⟨kind, other⟩ id left) := Option.map_eq_bind.symm
      rw [hrun, map_boxes_assignDeleter]
      exact boxes_take hcheck hthis hother rfl
  | convertAssign this other left =>
      obtain ⟨hthis, hother⟩ := Bool.and_eq_true_iff.mp hlive
      obtain ⟨hkind, convert, hconvert, convertDel, hdel⟩ := typed_convertAssign.mp htyped
      have hrun : (Op.convertAssign this other left).run D.call w =
          (UniqueRcHolderImpl.reset D.call this (convert (w.getHandle other))
            (w.setHandle other (S.invalid other.kind))).map
              (World.assignDeleter this other convertDel left) := by
        simp only [Op.run, hkind, if_false, hconvert, hdel, Option.bind_eq_bind,
          Option.bind_some]
        exact Option.map_eq_bind.symm
      rw [hrun, map_boxes_assignDeleter]
      exact boxes_take hcheck hthis hother (D.resource_convert hconvert _)
  | swap kind this other =>
      obtain ⟨hthis, hother⟩ := Bool.and_eq_true_iff.mp hlive
      refine boxes_of_content (content_swap hthis hother) (UniqueRcHolderImpl.env_swap ..) rfl
  | reset this hnd =>
      exact (boxes_reset hcheck hlive).trans (by rw [← owns_of_live hlive, ← owns_content]; rfl)
  | resetInvalid this =>
      refine (boxes_reset hcheck hlive).trans ?_
      rw [← owns_of_live hlive, ← owns_content, resource_invalid]
      rfl
  | release this =>
      refine boxes_of_content ?_ rfl rfl
      exact (content_setHandle hlive).trans (by rw [resource_invalid]; rfl)
  | destroy this =>
      exact (boxes_destroy hlive).trans (by rw [← owns_of_live hlive, ← owns_content]; rfl)

theorem run_untyped (call : DeleterCall S Env) {op : Op S} (htyped : op.typed = false) :
    op.run call w = none := by
  cases op with
  | construct this => simp_all [Op.typed, Op.run]
  | constructHandle this hnd => simp_all [Op.typed, Op.run]
  | constructDeleter this hnd del => simp_all [Op.typed, Op.run]
  | convertConstruct this other left =>
      by_contra hrun
      obtain ⟨w', hw'⟩ := Option.ne_none_iff_exists'.mp hrun
      obtain ⟨hkind, convert, hconvert, convertDel, hdel, -⟩ :=
        Op.run_convertConstruct_eq_some_iff.mp hw'
      rw [typed_convertConstruct.mpr ⟨hkind, convert, hconvert, convertDel, hdel⟩] at htyped
      cases htyped
  | convertAssign this other left =>
      by_contra hrun
      obtain ⟨w', hw'⟩ := Option.ne_none_iff_exists'.mp hrun
      obtain ⟨hkind, convert, hconvert, convertDel, hdel, -⟩ :=
        Op.run_convertAssign_eq_some_iff.mp hw'
      rw [typed_convertAssign.mpr ⟨hkind, convert, hconvert, convertDel, hdel⟩] at htyped
      cases htyped
  | _ => cases htyped

theorem boxes_exec (hcheck : S.selfResetCheck = false) (op : Op S) :
    (op.exec D.call w).map D.boxes =
      if op.typed then (D.passing op).exec D.resources (D.boxes w) else none := by
  rw [exec_resources, boxes, ← D.inLifetime_eq, Op.exec]
  cases htyped : op.typed with
  | false => simp [run_untyped D.call htyped]
  | true =>
      by_cases hlive : op.inLifetime w = true
      · rw [if_pos hlive, if_pos rfl, if_pos hlive, boxes_run hcheck hlive htyped]
      · rw [if_neg hlive, if_pos rfl, if_neg hlive, Option.map_none]

variable (D) in
def step (op : Op S) (s : Boxes (Obj S) R Env) : Option (Boxes (Obj S) R Env) :=
  if op.typed then (D.passing op).exec D.resources s else none

/-- A program goes through the same states on objects as on boxes, to the same end. -/
theorem objects_are_boxes (D : Disposal S Env R) (hcheck : S.selfResetCheck = false)
    (ops : List (Op S)) (w : World S Env) :
    trace D.step ops (D.boxes w) = (trace (Op.exec D.call) ops w).map D.boxes :=
  trace_abstract (fun op _ => (boxes_exec hcheck op).symm) ops w

end Disposal

/-! ## Streams -/

/--
What the functions of `<cstdio>` make of a stream and of the files.  `fclose`
also says if it failed, `Use` is whatever a program does with an open stream.
-/
structure Stdio where
  Stream : Type
  Files : Type
  Path : Type
  Use : Type
  Address : Type
  Name : Type
  fopen : Path → Files → Option (Stream × Files)
  use : Use → Stream → Files → Option (Stream × Files)
  fclose : Stream → Files → Files × Bool
  [decEqAddress : DecidableEq Address]
  [decEqName : DecidableEq Name]

attribute [instance] Stdio.decEqAddress Stdio.decEqName

namespace Stdio

variable (C : Stdio)

abbrev streams : Signature where
  Kind := Unit
  Name := C.Name
  Cell := Empty
  Deleter := Unit
  Handle _ := Option C.Address
  InvalidHandle _ := NullptrT
  policy _ := @nullptrInvalidHandlePolicy (Option C.Address) _ ⟨none⟩
  isReference _ := false
  defaultDeleter _ := some ()
  convertHandle _ _ := some id
  convertDeleter _ _ := some id
  assignDeleter _ _ := some id
  selfResetCheck := false

abbrev Disk := Store C.Address C.Stream C.Files

/-- `fclose(stream)`, which is undefined unless the stream is open. -/
def close (stream : C.Address) (disk : C.Disk) : Option C.Disk := do
  let contents ← disk.1 stream
  some (Function.update disk.1 stream none, (C.fclose contents disk.2).1)

def stdioFclose : DeleterCall C.streams C.Disk
  | _, _, none, _ => none
  | _, _, some stream, w => (C.close stream w.env).map w.setEnv

def disposal : Disposal C.streams C.Disk C.Address where
  resource _ stream := stream
  dispose _ stream disk := C.close stream disk
  call := C.stdioFclose
  isSome_resource kind stream := by
    cases stream <;> simp [Signature.isOwned, nullptrInvalidHandlePolicy,
      defaultInvalidHandlePolicy, Nullable.null]
  resource_convert := by
    intro source target convert hconvert stream
    rw [← Option.some.inj hconvert]
    rfl
  refusesInvalid _ := rfl
  call_eq := by
    intro this del stream w r hr
    subst hr
    rfl

end Stdio

abbrev textFiles : Stdio where
  Stream := Nat × List String
  Files := List (Nat × List String)
  Path := Nat
  Use := String
  Address := Nat
  Name := Nat
  fopen path files := some ((path, []), files)
  use line stream files := some ((stream.1, stream.2 ++ [line]), files)
  fclose stream files := (files ++ [stream], true)

def oneStream : World textFiles.streams textFiles.Disk where
  live _ := false
  objects _ := ⟨none, .value ()⟩
  cells := Empty.elim
  env := (Function.update (fun _ => none) (5 : Nat) (some (1, ["a line"])), [])

def closeProgram : List (Op textFiles.streams) :=
  [.constructHandle ⟨(), (0 : Nat)⟩ (some (5 : Nat)),
    .moveConstruct () (1 : Nat) (0 : Nat) (),
    .destroy ⟨(), (1 : Nat)⟩, .destroy ⟨(), (0 : Nat)⟩]

theorem objects_are_boxes_closeProgram :
    (run (Op.exec textFiles.stdioFclose) closeProgram oneStream).map (fun w => w.env.2) =
        some [(1, ["a line"])] ∧
      trace textFiles.disposal.step closeProgram (textFiles.disposal.boxes oneStream) =
        (trace (Op.exec textFiles.stdioFclose) closeProgram oneStream).map
          textFiles.disposal.boxes :=
  ⟨rfl, Disposal.objects_are_boxes textFiles.disposal rfl closeProgram oneStream⟩

end Raii
