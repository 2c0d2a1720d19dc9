import Lockspace.Manager.Basic

namespace Lockspace

namespace Act

variable {α β : Type} {m : Manager} {excused : Fault → Prop} {post : α → Manager → Prop}

/-- An action from a state either returns an answer and a state of which `post` holds, or ends in a
fault that is excused. -/
def Ends (act : Act α) (m : Manager) (excused : Fault → Prop) (post : α → Manager → Prop) : Prop :=
  match act m with
  | .ok a m' => post a m'
  | .error fault _ => excused fault

theorem Ends.of_ok {act : Act α} {a : α} {m' : Manager} (ends : act.Ends m excused post)
    (run : act m = .ok a m') : post a m' := by
  simpa only [Ends, run] using ends

theorem Ends.of_error {act : Act α} {fault : Fault} {m' : Manager}
    (ends : act.Ends m excused post) (run : act m = .error fault m') : excused fault := by
  simpa only [Ends, run] using ends

theorem Ends.mono {act : Act α} {more : Fault → Prop} {weaker : α → Manager → Prop}
    (ends : act.Ends m excused post) (faults : ∀ fault, excused fault → more fault)
    (answers : ∀ a m', post a m' → weaker a m') : act.Ends m more weaker := by
  unfold Ends at ends ⊢
  cases run : act m with
  | ok a m' =>
    rw [run] at ends
    exact answers a m' ends
  | error fault m' =>
    rw [run] at ends
    exact faults fault ends

theorem Ends.imp {act : Act α} {weaker : α → Manager → Prop} (ends : act.Ends m excused post)
    (answers : ∀ a m', post a m' → weaker a m') : act.Ends m excused weaker :=
  ends.mono (fun _ excuse => excuse) answers

@[simp] theorem ends_pure {a : α} : (pure a : Act α).Ends m excused post ↔ post a m :=
  Iff.rfl

@[simp] theorem ends_throw {fault : Fault} :
    (throw fault : Act α).Ends m excused post ↔ excused fault :=
  Iff.rfl

@[simp] theorem ends_bind {act : Act α} {next : α → Act β} {post : β → Manager → Prop} :
    (act >>= next).Ends m excused post ↔
      act.Ends m excused fun a m' => (next a).Ends m' excused post := by
  simp only [Ends, Bind.bind, EStateM.bind]
  cases act m <;> rfl

@[simp] theorem ends_map {act : Act α} {f : α → β} {post : β → Manager → Prop} :
    (f <$> act).Ends m excused post ↔ act.Ends m excused fun a m' => post (f a) m' := by
  simp only [Ends, Functor.map, EStateM.map]
  cases act m <;> rfl

@[simp] theorem ends_discard {act : Act α} {post : Unit → Manager → Prop} :
    (discard act : Act Unit).Ends m excused post ↔
      act.Ends m excused fun _ m' => post () m' :=
  ends_map

@[simp] theorem ends_get {post : Manager → Manager → Prop} :
    (get : Act Manager).Ends m excused post ↔ post m m :=
  Iff.rfl

@[simp] theorem ends_modify {f : Manager → Manager} {post : Unit → Manager → Prop} :
    (modify f : Act Unit).Ends m excused post ↔ post () (f m) :=
  Iff.rfl

@[simp] theorem ends_modifyGet {f : Manager → α × Manager} :
    (modifyGet f : Act α).Ends m excused post ↔ post (f m).1 (f m).2 :=
  Iff.rfl

@[simp] theorem ends_ite {condition : Prop} [Decidable condition] {yes no : Act α} :
    (if condition then yes else no).Ends m excused post ↔
      if condition then yes.Ends m excused post else no.Ends m excused post := by
  split <;> rfl

@[simp] theorem ends_ofExcept {answer : Except Fault α} :
    (ofExcept answer).Ends m excused post ↔
      match answer with
      | .ok a => post a m
      | .error fault => excused fault := by
  cases answer <;> rfl

@[simp] theorem ends_note {call : Callback} {post : Unit → Manager → Prop} :
    (note call).Ends m excused post ↔ post () { m with trace := m.trace.push call } :=
  Iff.rfl

@[simp] theorem ends_log {level : Level} {text : String} {post : Unit → Manager → Prop} :
    (log level text).Ends m excused post ↔ post () { m with log := m.log.push ⟨level, text⟩ } :=
  Iff.rfl

@[simp] theorem ends_space {n : SpaceKey} {post : Namespace → Manager → Prop} :
    (space n).Ends m excused post ↔ post (m.space n) m :=
  Iff.rfl

@[simp] theorem ends_lock {l : LockKey} {post : Lock → Manager → Prop} :
    (lock l).Ends m excused post ↔ post (m.lock l) m :=
  Iff.rfl

@[simp] theorem ends_resource {r : ResourceRef} {post : Resource → Manager → Prop} :
    (resource r).Ends m excused post ↔ post (m.resource r) m :=
  Iff.rfl

@[simp] theorem ends_modifySpace {n : SpaceKey} {f : Namespace → Namespace}
    {post : Unit → Manager → Prop} :
    (modifySpace n f).Ends m excused post ↔ post () (m.modifySpace n f) :=
  Iff.rfl

@[simp] theorem ends_modifyLock {l : LockKey} {f : Lock → Lock} {post : Unit → Manager → Prop} :
    (modifyLock l f).Ends m excused post ↔ post () (m.modifyLock l f) :=
  Iff.rfl

@[simp] theorem ends_modifyResource {r : ResourceRef} {f : Resource → Resource}
    {post : Unit → Manager → Prop} :
    (modifyResource r f).Ends m excused post ↔ post () (m.modifyResource r f) :=
  Iff.rfl

@[simp] theorem ends_setTable {n : SpaceKey} {t : Table} {post : Unit → Manager → Prop} :
    (setTable n t).Ends m excused post ↔ post () (m.setTable n t) :=
  Iff.rfl

@[simp] theorem ends_tick {post : Nat → Manager → Prop} :
    tick.Ends m excused post ↔ post (m.clock + 1) { m with clock := m.clock + 1 } :=
  Iff.rfl

theorem ends_always {act : Act α} (always : ∀ a m', post a m') :
    act.Ends m (fun _ => True) post := by
  unfold Ends
  split
  · exact always _ _
  · trivial

-- From here on no proof runs an action to see how it ends.
attribute [irreducible] Ends

/-- What one step of a loop preserves, all of them preserve. -/
theorem ends_forM {invariant : Manager → Prop} {step : α → Act Unit} {items : List α}
    (start : invariant m)
    (each : ∀ a ∈ items, ∀ m, invariant m → (step a).Ends m excused fun _ m' => invariant m') :
    (items.forM step).Ends m excused fun _ m' => invariant m' := by
  induction items generalizing m with
  | nil => exact ends_pure.mpr start
  | cons a rest ih =>
    show (step a >>= fun _ => rest.forM step).Ends m excused _
    rw [ends_bind]
    refine (each a (by simp) m start).imp fun _ m' after => ?_
    exact ih after fun b member => each b (List.mem_cons_of_mem _ member)

end Act

end Lockspace
