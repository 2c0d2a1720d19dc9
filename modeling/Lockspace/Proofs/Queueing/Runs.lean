import Lockspace.Proofs.Queueing.Cancels
import Lockspace.Proofs.Sequential.LockCalls

namespace Lockspace

open Manager Act

/-- A call about the resources of any namespaces and about locks, the setup of a namespace, or a step
of a drain or of a cancellation of unused locks, with the default policy. -/
inductive QueueCall where
  | build (setup : Setup)
  | get (n : SpaceKey) (id : ResourceId) (rtype : ResourceType) (create : Bool)
  | clone (r : ResourceRef)
  | put (r : ResourceRef)
  | newLock (handle : LockHandle) (mode : LockMode) (extent : Option Extent)
  /-- A change of flags, holders or owners of a lock, which does not destroy it. -/
  | alter (l : LockKey) (f : Lock → Lock)
  | disown (l : LockKey)
  | bind (l : LockKey) (r : ResourceRef)
  | unbind (l : LockKey)
  | unused (n : SpaceKey) (l : LockKey)
  | reused (n : SpaceKey) (l : LockKey)
  | add (r : ResourceRef) (q : Queue) (l : LockKey)
  | insertAfter (r : ResourceRef) (anchor l : LockKey)
  | unlink (r : ResourceRef) (l : LockKey)
  | destroy (n : SpaceKey) (l : LockKey)
  | drain (n : SpaceKey) (flags : LockFlags)
  | visit (c : Cleanup)
  | heard (c : Cleanup) (l : LockKey) (failure : Option LockError)
  | quit (c : Cleanup)
  | cancelLru (n : SpaceKey) (count : Nat) (flags : LockFlags)
  | proceed (v : VictimCancel)
  | told (v : VictimCancel) (l : LockKey) (failure : Option LockError)
  | giveUp (v : VictimCancel)

namespace QueueCall

/-- Runs a call and tells which references callers and drains have afterwards. -/
def perform (hands : Multiset ResourceRef) : QueueCall → Act (Multiset ResourceRef)
  | build setup => do
    discard (Act.build setup)
    return hands
  | get n id rtype create => do
    match ← Act.getOrCreate n id rtype create with
    | .ok r => return r ::ₘ hands
    | .error _ => return hands
  | clone r => do
    Act.retain r
    return r ::ₘ hands
  | put r => do
    discard (Act.put r)
    return hands.erase r
  | newLock handle mode extent => do
    discard (Act.newLock handle mode extent)
    return hands
  | alter l f => do
    Act.modifyLock l f
    return hands
  | disown l => do
    Act.disown l
    return hands
  | bind l r => do
    Act.bind l r
    return hands.erase r
  | unbind l => do
    match ← Act.unbind l with
    | some r => return r ::ₘ hands
    | none => return hands
  | unused n l => do
    discard (Act.lockUnused n l)
    return hands
  | reused n l => do
    discard (Act.lockReused n l)
    return hands
  | add r q l => do
    Act.addLock r q l
    return hands
  | insertAfter r anchor l => do
    Act.insertAfter r anchor l
    return hands
  | unlink r l => do
    Act.unlink r l
    return hands
  | destroy n l => do
    Act.destroyLock n l
    return hands
  | drain n flags => do
    return ↑(← Cleanup.start n flags).held + hands
  | visit c => do
    match ← c.turn .default with
    | .returns _ => return hands - ↑c.held
    | _ => return hands
  | heard c l failure => do
    discard (c.answered l failure)
    return hands
  | quit c => do
    c.abandon
    return hands - ↑c.held
  | cancelLru n count flags => do
    discard (Act.cancelLru .default n count flags)
    return hands
  | proceed v => do
    discard v.turn
    return hands
  | told v l failure => do
    discard (v.answered l failure)
    return hands
  | giveUp v => do
    v.abandon
    return hands

/-- Makes calls one after another, allowed or not. -/
def performEach (calls : List QueueCall) : Act (Multiset ResourceRef) :=
  calls.foldlM perform 0

/-- What callers can and may do. They look ids up where a namespace is, use resources that are
referenced, and give away references that they have, as drains do. While a lock is on a queue, it is
bound to nothing but the resource of that queue. -/
def Allowed (m : Manager) (hands : Multiset ResourceRef) : QueueCall → Prop
  | get n .. | drain n _ => 0 < (m.space n).owners
  | clone r | add r _ _ | insertAfter r _ _ | unlink r _ => (m.resource r).refcount ≠ 0
  | visit c | quit c => ↑c.held ≤ hands
  | put r => r ∈ hands
  | alter l f => (f (m.lock l)).standing = (m.lock l).standing ∧
      (f (m.lock l)).isDestroyed = (m.lock l).isDestroyed
  | bind l r => r ∈ hands ∧ ∀ q ∈ (m.lock l).link, l ∈ m.queue r q
  | _ => True

instance (m : Manager) (hands : Multiset ResourceRef) : DecidablePred (Allowed m hands)
  | get n .. | drain n _ => inferInstanceAs (Decidable (0 < (m.space n).owners))
  | clone r | add r _ _ | insertAfter r _ _ | unlink r _ =>
    inferInstanceAs (Decidable ((m.resource r).refcount ≠ 0))
  | put r => inferInstanceAs (Decidable (r ∈ hands))
  | alter l f => inferInstanceAs (Decidable ((f (m.lock l)).standing = (m.lock l).standing ∧
      (f (m.lock l)).isDestroyed = (m.lock l).isDestroyed))
  | bind l r => inferInstanceAs (Decidable (r ∈ hands ∧ ∀ q ∈ (m.lock l).link, l ∈ m.queue r q))
  | visit c | quit c => inferInstanceAs (Decidable (↑c.held ≤ hands))
  | build _ | newLock .. | disown _ | unbind _ | unused .. | reused .. | destroy .. | heard ..
  | cancelLru .. | proceed _ | told .. | giveUp _ => isTrue trivial

/-- Makes calls one after another, up to one that is not allowed or ends in a fault. -/
def performAll? : List QueueCall → Multiset ResourceRef → Manager →
    Option (Multiset ResourceRef × Manager)
  | [], hands, m => some (hands, m)
  | c :: rest, hands, m =>
    if c.Allowed m hands then
      match c.perform hands m with
      | .ok hands m => performAll? rest hands m
      | .error .. => none
    else none

/-- Whether a call only moves a lock. Such a call may be refused and the run goes on. -/
def isMove : QueueCall → Bool
  | add .. | insertAfter .. | unlink .. => true
  | _ => false

end QueueCall

/-- The runs of calls by callers who have the references `hands`, from no namespace at all. A call
that was to move a lock and ended in a fault may be followed by others. -/
inductive Queueing : Manager → Multiset ResourceRef → Prop
  | start : Queueing {} 0
  | call {m m' : Manager} {hands hands' : Multiset ResourceRef} {c : QueueCall}
      (reach : Queueing m hands) (allowed : c.Allowed m hands)
      (run : c.perform hands m = .ok hands' m') : Queueing m' hands'
  | refused {m m' : Manager} {hands : Multiset ResourceRef} {c : QueueCall} {fault : Fault}
      (reach : Queueing m hands) (allowed : c.Allowed m hands) (move : c.isMove)
      (run : c.perform hands m = .error fault m') : Queueing m' hands

namespace QueueCall

variable {m m' : Manager} {hands : Multiset ResourceRef} {c : QueueCall} {fault : Fault}

/-- Whatever a call does that callers may make, locks and queues stay tied together and the books
are kept. -/
theorem ends_perform (settled : Settled m hands) (allowed : c.Allowed m hands) :
    (c.perform hands).Ends m (fun _ => True) fun hands' m' => Settled m' hands' := by
  cases c with
  | build setup =>
    rw [perform, ends_bind, ends_discard]
    exact (settled.ends_build setup).imp fun _ _ after => ends_pure.mpr after
  | get n id rtype create =>
    rw [perform, ends_bind]
    refine ((settled.booked.ends_getOrCreate allowed id rtype create).and_leaves
      (unmoved_getOrCreate id rtype create m)).imp fun answer m' after => ?_
    cases answer with
    | ok r => exact ends_pure.mpr (settled.unmoved after.2 after.1)
    | error e => exact ends_pure.mpr (settled.unmoved after.2 after.1)
  | clone r =>
    rw [perform, ends_bind]
    exact ((settled.booked.ends_retain allowed).and_leaves (steady_retain m)).imp fun _ _ after =>
      ends_pure.mpr (settled.unmoved after.2.toUnmoved after.1)
  | put r =>
    rw [perform, ends_bind, ends_discard]
    rw [← Multiset.cons_erase allowed] at settled
    exact settled.leaves_put.ends.imp fun _ _ after => ends_pure.mpr after.2
  | newLock handle mode extent =>
    rw [perform, ends_bind, ends_discard]
    exact (settled.ends_newLock handle mode extent).imp fun _ _ after => ends_pure.mpr after
  | alter l f =>
    obtain ⟨standing, destroyed⟩ := allowed
    rw [perform, ends_bind, ends_modifyLock, ends_pure]
    have still : Steady m (m.modifyLock l f) := by
      refine Manager.steady_modifyLock l (congrArg (·.1) standing) (congrArg (·.2.2.2) standing)
        (fun _ => congrArg (·.2.1) standing) destroyed
    exact settled.unmoved still.toUnmoved (settled.booked.relock (congrArg (·.2.2.1) standing))
  | disown l =>
    rw [perform, ends_bind]
    exact settled.leaves_disown.ends.imp fun _ _ after => ends_pure.mpr after.2
  | bind l r =>
    rw [perform, ends_bind]
    rw [← Multiset.cons_erase allowed.1] at settled
    exact (settled.ends_bind_lock allowed.2).imp fun _ _ after => ends_pure.mpr after
  | unbind l =>
    rw [perform, ends_bind]
    refine (settled.booked.ends_unbind.and_leaves (steady_unbind m)).imp fun answer m' after => ?_
    cases answer with
    | some r => exact ends_pure.mpr (settled.unmoved after.2.toUnmoved after.1)
    | none => exact ends_pure.mpr (settled.unmoved after.2.toUnmoved after.1)
  | unused n l =>
    rw [perform, ends_bind, ends_discard]
    refine (((Quiet.ends_all fun k => quiet_lockUnused (n := k)).mono (fun _ _ => trivial)
      fun _ _ => id).and_leaves (steady_lockUnused m)).imp fun _ _ after => ?_
    exact ends_pure.mpr (settled.unmoved after.2.toUnmoved (settled.booked.agrees after.1))
  | reused n l =>
    rw [perform, ends_bind, ends_discard]
    refine (((Quiet.ends_all fun k => quiet_lockReused (n := k)).mono (fun _ _ => trivial)
      fun _ _ => id).and_leaves (steady_lockReused m)).imp fun _ _ after => ?_
    exact ends_pure.mpr (settled.unmoved after.2.toUnmoved (settled.booked.agrees after.1))
  | add r q l =>
    rw [perform, ends_bind]
    exact (settled.leaves_addLock allowed).ends.imp fun _ _ after => ends_pure.mpr after
  | insertAfter r anchor l =>
    rw [perform, ends_bind]
    exact (settled.leaves_insertAfter allowed).ends.imp fun _ _ after => ends_pure.mpr after
  | unlink r l =>
    rw [perform, ends_bind]
    exact settled.leaves_unlink.ends.imp fun _ _ after => ends_pure.mpr after
  | destroy n l =>
    rw [perform, ends_bind]
    exact settled.ends_destroyLock.imp fun _ _ after => ends_pure.mpr after
  | drain n flags =>
    rw [perform, ends_bind]
    exact (Cleanup.ends_snapshot settled allowed flags).mono nofun fun _ _ after =>
      ends_pure.mpr after
  | visit c =>
    obtain ⟨rest, rfl⟩ := Multiset.le_iff_exists_add.mp allowed
    rw [perform, ends_bind, add_tsub_cancel_left]
    refine (Cleanup.leaves_turn settled).ends.imp fun turn m' after => ?_
    cases turn with
    | returns cleaned => exact ends_pure.mpr after
    | goes c => exact ends_pure.mpr after
    | asks l c => exact ends_pure.mpr after
    | parks bound c => exact ends_pure.mpr after
  | heard c l failure =>
    rw [perform, ends_bind, ends_discard]
    exact (Cleanup.leaves_answered settled failure).ends.imp fun _ _ after => ends_pure.mpr after
  | quit c =>
    obtain ⟨rest, rfl⟩ := Multiset.le_iff_exists_add.mp allowed
    rw [perform, ends_bind, add_tsub_cancel_left]
    exact (Cleanup.leaves_abandon settled).ends.imp fun _ _ after => ends_pure.mpr after
  | cancelLru n count flags =>
    rw [perform, ends_bind, ends_discard]
    exact (VictimCancel.leaves_cancelLru settled count flags).ends.imp fun _ _ after =>
      ends_pure.mpr after.1
  | proceed v =>
    rw [perform, ends_bind, ends_discard]
    exact (VictimCancel.leaves_turn settled v).ends.imp fun _ _ after => ends_pure.mpr after
  | told v l failure =>
    rw [perform, ends_bind, ends_discard]
    exact (VictimCancel.leaves_answered settled v failure).ends.imp fun _ _ after =>
      ends_pure.mpr after
  | giveUp v =>
    rw [perform, ends_bind]
    exact (leaves_disowns settled v.victims).ends.imp fun _ _ after => ends_pure.mpr after

/-- A call that was to move a lock and ends in a fault has changed no namespace and no lock. -/
theorem same_of_refused (settled : Settled m hands) (allowed : c.Allowed m hands) (move : c.isMove)
    (run : c.perform hands m = .error fault m') : m'.spaces = m.spaces ∧ m'.locks = m.locks := by
  have unchanged : (c.perform hands).Leaves m (OnlyReturns m fun m' => Settled m' hands) := by
    cases c with
    | add r q l =>
      rw [perform, leaves_bind]
      exact (settled.leaves_addLock allowed).imp fun answer _ => by cases answer <;> exact id
    | insertAfter r anchor l =>
      rw [perform, leaves_bind]
      exact (settled.leaves_insertAfter allowed).imp fun answer _ => by cases answer <;> exact id
    | unlink r l =>
      rw [perform, leaves_bind]
      exact settled.leaves_unlink.imp fun answer _ => by cases answer <;> exact id
    | _ => cases move
  exact unchanged.of_error run

end QueueCall

namespace Queueing

variable {m m' : Manager} {hands hands' : Multiset ResourceRef}

theorem settled (reach : Queueing m hands) : Settled m hands := by
  induction reach with
  | start => exact .start
  | call _ allowed run ih => exact (QueueCall.ends_perform ih allowed).of_ok run
  | refused _ allowed move run ih =>
    obtain ⟨spaces, locks⟩ := QueueCall.same_of_refused ih allowed move run
    exact ih.of_same spaces locks

theorem all {calls : List QueueCall} (reach : Queueing m hands)
    (run : QueueCall.performAll? calls hands m = some (hands', m')) : Queueing m' hands' := by
  induction calls generalizing hands m with
  | nil =>
    cases run
    exact reach
  | cons c rest ih =>
    unfold QueueCall.performAll? at run
    split at run
    · rename_i allowed
      split at run
      · rename_i once
        exact ih (reach.call allowed once) run
      · cases run
    · cases run

theorem exists_of_calls (calls : List QueueCall) (holds : Manager → Prop)
    (seen : ∃ after ∈ QueueCall.performAll? calls 0 {}, holds after.2) :
    ∃ m hands, Queueing m hands ∧ holds m := by
  obtain ⟨⟨hands, m⟩, run, found⟩ := seen
  exact ⟨m, hands, start.all run, found⟩

end Queueing

end Lockspace
