import Raii.Custody
import Raii.Frame

/-!
# Burying objects

The destructor keeps the handle stored while its deleter runs.  To whoever
leaves that object alone it might as well have ended.  Burying an object ends
it in the books only; an operation that does not name it cannot tell, as long
as the deleter it calls cannot.
-/

namespace Raii

open Foundation

variable {P : Sharing}

namespace World

variable (dying : Obj P.signature → Bool) (log : List (Entry P))

/-- The objects in `dying` count as ended, and `log` as the calls made so far. -/
def bury (w : ClientWorld P) : ClientWorld P where
  live obj := w.live obj && !dying obj
  objects := w.objects
  cells := w.cells
  env := { w.env with calls := log }

def exhume (w : ClientWorld P) : ClientWorld P :=
  { w with live := fun obj => w.live obj || dying obj }

variable {dying log} {w : ClientWorld P} {obj : Obj P.signature}

theorem exhume_bury (hdying : ∀ obj, dying obj = true → w.live obj = true)
    (hlog : w.env.calls = log) : (w.bury dying log).exhume dying = w := by
  have hlive : (fun obj => (w.live obj && !dying obj) || dying obj) = w.live := by
    funext obj
    cases hobj : dying obj with
    | false => simp
    | true => simp [hdying obj hobj]
  simp only [exhume, bury, hlive, ← hlog]

theorem bury_exhume (hdying : ∀ obj, dying obj = true → w.live obj = false)
    (hlog : w.env.calls = log) : (w.exhume dying).bury dying log = w := by
  have hlive : (fun obj => (w.live obj || dying obj) && !dying obj) = w.live := by
    funext obj
    cases hobj : dying obj with
    | false => simp
    | true => simp [hdying obj hobj]
  simp only [exhume, bury, hlive, ← hlog]

@[simp] theorem live_bury : (w.bury dying log).live obj = (w.live obj && !dying obj) := rfl

@[simp] theorem getHandle_bury : (w.bury dying log).getHandle = w.getHandle := rfl

@[simp] theorem getDeleter_bury : (w.bury dying log).getDeleter = w.getDeleter := rfl

theorem setHandle_bury (hnd : P.Handle) :
    (w.bury dying log).setHandle obj hnd = (w.setHandle obj hnd).bury dying log := rfl

theorem setDeleter_bury (del : P.Deleter) :
    (w.bury dying log).setDeleter obj del = (w.setDeleter obj del).bury dying log := by
  simp only [setDeleter, bury]
  split <;> rfl

theorem construct_bury (h : dying obj = false) (hdt : Holder P.signature obj.kind) :
    (w.bury dying log).construct obj hdt = (w.construct obj hdt).bury dying log := by
  have hlive : Function.update (fun other => w.live other && !dying other) obj true =
      fun other => Function.update w.live obj true other && !dying other := by
    funext other
    by_cases heq : other = obj
    · subst heq
      simp [h]
    · simp [heq]
  simp only [construct, bury, hlive]

theorem update_false_and (live dying : Obj P.signature → Bool) (obj : Obj P.signature) :
    Function.update (fun other => live other && !dying other) obj false =
      fun other => Function.update live obj false other && !dying other := by
  funext other
  by_cases heq : other = obj <;> simp [heq]

theorem update_false_or (live : Obj P.signature → Bool) (obj : Obj P.signature) :
    (fun other => Function.update live obj false other && !dying other) =
      fun other => live other && !(dying other || other == obj) := by
  funext other
  by_cases heq : other = obj
  · simp [heq]
  · simp [heq, beq_false_of_ne heq]

theorem endLifetime_bury :
    (w.bury dying log).endLifetime obj = (w.endLifetime obj).bury dying log := by
  simp only [endLifetime, bury, update_false_and]

theorem assignDeleter_bury {this other : Obj P.signature}
    (convert : P.Deleter → P.Deleter) (left : P.Deleter) :
    (w.bury dying log).assignDeleter this other convert left =
      (w.assignDeleter this other convert left).bury dying log := by
  have hobjects : (w.bury dying log).objects other = w.objects other := rfl
  simp only [assignDeleter, hobjects, setDeleter_bury]
  split
  · split <;> rfl
  · rfl

theorem moveDeleter_bury (left : P.Deleter) :
    (w.bury dying log).moveDeleter obj left =
      ((w.moveDeleter obj left).1, (w.moveDeleter obj left).2.bury dying log) := by
  have hobjects : (w.bury dying log).objects obj = w.objects obj := rfl
  simp only [moveDeleter, hobjects, setDeleter_bury]
  split <;> rfl

theorem forwardDeleter_bury (kind : P.Kind) (convert : P.Deleter → P.Deleter)
    (left : P.Deleter) :
    UniqueRc.forwardDeleter kind obj convert left (w.bury dying log) =
      ((UniqueRc.forwardDeleter kind obj convert left w).1,
        (UniqueRc.forwardDeleter kind obj convert left w).2.bury dying log) := by
  have hobjects : (w.bury dying log).objects obj = w.objects obj := rfl
  simp only [UniqueRc.forwardDeleter, hobjects, setDeleter_bury]
  split
  · rfl
  · split <;> rfl

end World

/-! ## Operations elsewhere -/

section Elsewhere

variable {dying : Obj P.signature → Bool} {log : List (Entry P)}

structure World.Dying (dying : Obj P.signature → Bool) (log : List (Entry P))
    (w : ClientWorld P) : Prop where
  live : ∀ obj, dying obj = true → w.live obj = true
  log : w.env.calls = log

def Mirrors (dying : Obj P.signature → Bool) (log : List (Entry P))
    (call call' : DeleterCall P.signature (Ledger P)) : Prop :=
  ∀ this del hnd w, dying this = false → World.Dying dying log w →
    call' this del hnd (w.bury dying log) =
      (call this del hnd w).map (World.bury dying log)

variable {call call' : DeleterCall P.signature (Ledger P)} {w : ClientWorld P}
  {this other : Obj P.signature}

theorem Mirrors.reset (hcall : Mirrors dying log call call') (hw : w.Dying dying log)
    (hthis : dying this = false) (hnd : P.Handle) :
    UniqueRcHolderImpl.reset call' this hnd (w.bury dying log) =
      (UniqueRcHolderImpl.reset call this hnd w).map (World.bury dying log) := by
  have hwritten : World.Dying dying log (w.setHandle this hnd) := ⟨hw.live, hw.log⟩
  simp only [UniqueRcHolderImpl.reset, World.getHandle_bury, World.setHandle_bury,
    World.getDeleter_bury, World.getDeleter_setHandle]
  split
  · split
    · rfl
    · exact hcall this _ _ _ hthis hwritten
  · rfl

theorem Mirrors.assign (hcall : Mirrors dying log call call') (hw : w.Dying dying log)
    (hthis : dying this = false) (convert : P.Deleter → P.Deleter) (left : P.Deleter) :
    UniqueRc.convertAssign call' this other id convert left (w.bury dying log) =
      (UniqueRc.convertAssign call this other id convert left w).map
        (World.bury dying log) := by
  have hwritten : World.Dying dying log (w.setHandle other P.invalid) := ⟨hw.live, hw.log⟩
  have hreset := hcall.reset hwritten hthis (w.getHandle other)
  simp only [UniqueRc.convertAssign, UniqueRc.release, UniqueRcHolderImpl.release,
    UniqueRc.reset, World.getHandle_bury, World.setHandle_bury, id, Option.bind_eq_bind]
  rw [show P.signature.invalid other.kind = P.invalid from rfl, hreset]
  cases UniqueRcHolderImpl.reset call this (w.getHandle other)
      (w.setHandle other P.invalid) with
  | none => rfl
  | some w₁ => exact congrArg some (World.assignDeleter_bury convert left)

theorem Mirrors.destroy (hcall : Mirrors dying log call call') (hw : w.Dying dying log)
    (hthis : dying this = false) :
    UniqueRc.destroy call' this (w.bury dying log) =
      (UniqueRc.destroy call this w).map (World.bury dying log) := by
  cases howned : P.isOwned (w.getHandle this) with
  | false =>
      have hburied : P.isOwned ((w.bury dying log).getHandle this) = false := howned
      rw [UniqueRc.destroy_of_not_owned call' hburied,
        UniqueRc.destroy_of_not_owned call howned, World.endLifetime_bury, Option.map_some]
  | true =>
      have hburied : P.isOwned ((w.bury dying log).getHandle this) = true := howned
      have hmoved : World.Dying dying log
          (w.setHandle this (P.signature.movedHandle this.kind (w.getHandle this))) :=
        ⟨hw.live, hw.log⟩
      rw [UniqueRc.destroy_of_owned call' hburied, UniqueRc.destroy_of_owned call howned,
        World.getDeleter_bury, World.getHandle_bury, World.setHandle_bury,
        hcall this _ _ _ hthis hmoved]
      simp only [Option.map_map]
      congr 1
      funext w₁
      simp only [Function.comp_apply, World.setHandle_bury, World.endLifetime_bury]

theorem inLifetime_bury {op : Op P.signature}
    (hoperands : ∀ obj ∈ op.operands, dying obj = false) :
    op.inLifetime (w.bury dying log) = op.inLifetime w := by
  cases op <;>
    simp only [Op.operands, List.forall_mem_cons, List.not_mem_nil, false_implies,
      implies_true, and_true] at hoperands <;>
    simp only [Op.inLifetime, World.live_bury, hoperands, Bool.not_false, Bool.and_true]

theorem Mirrors.exec (hcall : Mirrors dying log call call') (hw : w.Dying dying log)
    {op : Op P.signature} (hoperands : ∀ obj ∈ op.operands, dying obj = false) :
    op.exec call' (w.bury dying log) = (op.exec call w).map (World.bury dying log) := by
  rw [Op.exec, Op.exec, inLifetime_bury hoperands]
  split
  case isFalse => rfl
  case isTrue =>
      cases op with
      | construct this =>
          have hthis := hoperands this List.mem_cons_self
          simp only [Op.run]
          cases P.signature.defaultConstruct this.kind with
          | none => rfl
          | some del => exact congrArg some (World.construct_bury hthis _)
      | constructHandle this hnd =>
          have hthis := hoperands this List.mem_cons_self
          simp only [Op.run]
          cases P.signature.defaultConstruct this.kind with
          | none => rfl
          | some del => exact congrArg some (World.construct_bury hthis _)
      | constructDeleter this hnd del =>
          have hthis := hoperands this List.mem_cons_self
          simp only [Op.run]
          split
          · exact congrArg some (World.construct_bury hthis _)
          · rfl
      | moveConstruct kind this other left =>
          have hthis := hoperands ⟨kind, this⟩ List.mem_cons_self
          simp only [Op.run, UniqueRc.moveConstruct, UniqueRcHolderImpl.moveConstruct,
            World.moveDeleter_bury, World.getHandle_bury, Option.map_some]
          rw [World.construct_bury hthis, World.setHandle_bury]
      | convertConstruct this other left =>
          have hthis := hoperands this List.mem_cons_self
          simp only [Op.run, Option.bind_eq_bind]
          split
          · rfl
          · cases P.convertDeleter other.kind this.kind with
            | none => rfl
            | some convertDel =>
                simp only [Option.bind_some, Option.map_some, UniqueRc.convertConstruct,
                  UniqueRc.release, UniqueRcHolderImpl.release, World.getHandle_bury,
                  World.setHandle_bury, World.forwardDeleter_bury]
                rw [World.construct_bury hthis]
      | moveAssign kind this other left =>
          exact hcall.assign hw (hoperands _ List.mem_cons_self) id left
      | convertAssign this other left =>
          have hthis := hoperands this List.mem_cons_self
          simp only [Op.run, Option.bind_eq_bind]
          split
          · rfl
          · cases P.assignDeleter other.kind this.kind with
            | none => rfl
            | some convertDel => exact hcall.assign hw hthis convertDel left
      | swap kind this other =>
          simp only [Op.run, UniqueRc.swap, UniqueRcHolderImpl.swap, World.getHandle_bury,
            World.setHandle_bury, World.getDeleter_bury, World.setDeleter_bury,
            Option.map_some]
      | reset this hnd => exact hcall.reset hw (hoperands this List.mem_cons_self) hnd
      | resetInvalid this =>
          exact hcall.reset hw (hoperands this List.mem_cons_self) P.invalid
      | release this => rfl
      | destroy this => exact hcall.destroy hw (hoperands this List.mem_cons_self)

end Elsewhere

/-! ## The hand-over of handles -/

section HandOver

variable {dying : Obj P.signature → Bool} {log : List (Entry P)} {w w' : ClientWorld P}

theorem take_bury {hnd : P.Handle} (htake : w.take hnd = some w') :
    (w.bury dying log).take hnd = some (w'.bury dying log) := by
  simp only [World.take] at htake ⊢
  split
  case isTrue howned =>
      rw [if_pos howned] at htake
      obtain ⟨hmem, hw⟩ := Option.ite_none_right_eq_some.mp htake
      exact Option.ite_none_right_eq_some.mpr ⟨hmem, Option.some.inj hw ▸ rfl⟩
  case isFalse howned =>
      rw [if_neg howned] at htake
      exact Option.some.inj htake ▸ rfl

theorem give_bury (hnd : P.Handle) :
    (w.bury dying log).give hnd = (w.give hnd).bury dying log := by
  simp only [World.give]
  split <;> rfl

theorem elim_take_bury {hnd : Option P.Handle}
    (htake : hnd.elim (some w) w.take = some w') :
    hnd.elim (some (w.bury dying log)) (w.bury dying log).take =
      some (w'.bury dying log) := by
  cases hnd with
  | none => exact Option.some.inj htake ▸ rfl
  | some hnd => exact take_bury htake

theorem elim_give_bury (hnd : Option P.Handle) :
    hnd.elim (w.bury dying log) (w.bury dying log).give =
      (hnd.elim w w.give).bury dying log := by
  cases hnd with
  | none => rfl
  | some hnd => exact give_bury hnd

theorem returned_bury (op : Op P.signature) :
    Move.returned (w.bury dying log) op = Move.returned w op := by
  cases op <;> rfl

end HandOver

end Raii
