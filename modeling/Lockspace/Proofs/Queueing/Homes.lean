import Lockspace.Proofs.Queueing.Runs

namespace Lockspace

open Manager Act

namespace Manager

/-- The home of every lock on a queue is the one resource that has it on a queue, and still is
there. -/
def Homed (m : Manager) : Prop :=
  ∀ l q, (m.lock l).link = some q →
    ∃ r, (∀ s, l ∈ m.queue s q ↔ s = r) ∧ homeOf l m = .ok (some r) m

/-- Whatever cancels locks with the default policy takes them off their queues, even where it ends
in a fault. It does so only where the last reference on a resource goes while other locks are on
its queues. -/
structure Cancellable (m : Manager) : Prop where
  destroys : ∀ n l, (destroyLock n l).Leaves m fun answer m' =>
    TakenOff l m m' ∧ Discharged m' ∧
      match answer with
      | .ok _ => (m.lock l).isDestroyed = false → ∀ r, ¬ m.Pins l r
      | .error fault => ∃ r, m.Pins l r ∧
          fault = .releasedWithLocks (m.resource r).id (m'.resource r).queued
  drains : ∀ (c : Cleanup) r q rest l, c.todo = (r, q) :: rest →
    (m.resource r).firstUncleaned m.lock q = some l →
      (c.turn .default).Leaves m fun answer m' =>
        TakenOff l m m' ∧ Discharged m' ∧ ∀ fault, answer = .error fault → Stranded m' fault
  cancels : ∀ n count flags, (cancelLru .default n count flags).Leaves m fun answer m' =>
    Discharged m' ∧
      match answer with
      | .ok v => AllTakenOff v.victims m m'
      | .error fault => Stranded m' fault

variable {α : Type} {m : Manager} {hands : Multiset ResourceRef}

theorem Settles.discharged {answer : Except Fault α} (settles : Settles hands answer m) :
    Discharged m := by
  cases answer with
  | ok a => exact Settled.discharged settles
  | error fault => exact settles.2.1

theorem Settled.homed (settled : Settled m hands) : Homed m := by
  intro l q link
  obtain ⟨r, member⟩ := settled.seated.linked l q link
  refine ⟨r, fun s => ⟨fun there => (settled.seated.eq_of_mem member there).1, ?_⟩,
    run_homeOf settled.seated settled.booked member⟩
  rintro rfl
  exact member

theorem Settled.cancellable (settled : Settled m hands) : Cancellable m where
  destroys n l := by
    refine (leaves_destroyLock settled.seated settled.booked n l).imp fun answer m' after => ?_
    obtain ⟨taken, -, how⟩ := after
    refine ⟨taken, taken.discharged settled.discharged, ?_⟩
    cases answer with
    | ok _ => exact how.2
    | error fault => exact how.2
  drains c r q rest l todo first := by
    refine (Cleanup.leaves_visit settled todo first).imp fun answer m' after => ?_
    obtain ⟨⟨taken, settles⟩, -⟩ := after
    refine ⟨taken, settles.discharged, ?_⟩
    rintro fault rfl
    exact settles.2.2
  cancels n count flags := by
    refine (VictimCancel.leaves_cancelLru settled count flags).imp fun answer m' after => ?_
    refine ⟨after.1.discharged, ?_⟩
    cases answer with
    | ok v => exact after.2 v rfl
    | error fault => exact after.1.2.2

end Manager

namespace QueueCall

/-- A lock on a queue that is bound to another resource takes that for its home. Its destruction
fails, or leaves it on the queue once the other resource is gone. Where it is bound to its own
resource, the last reference there goes with it in spite of a lock behind it. -/
theorem lost_home_of_rebound_lock :
    let a : ResourceRef := ⟨⟨0⟩, ⟨0⟩⟩
    let b : ResourceRef := ⟨⟨0⟩, ⟨1⟩⟩
    let astray : List QueueCall := [.build .oneBucket, .get ⟨0⟩ ⟨1, 0, 0, 0⟩ .plain true,
      .get ⟨0⟩ ⟨2, 0, 0, 0⟩ .plain true, .newLock ⟨1⟩ .ex none, .add a .granted ⟨0⟩, .bind ⟨0⟩ b]
    let pinned : List QueueCall := [.build .oneBucket, .get ⟨0⟩ ⟨1, 0, 0, 0⟩ .plain true,
      .newLock ⟨1⟩ .ex none, .newLock ⟨2⟩ .ex none, .add a .granted ⟨0⟩, .add a .waiting ⟨1⟩,
      .bind ⟨0⟩ a]
    ((performEach astray).Leaves {} fun answer m => answer.isOk ∧
      (m.lock ⟨0⟩).link = some .granted ∧ ⟨0⟩ ∈ m.queue a .granted ∧
      (homeOf ⟨0⟩).Leaves m (fun home _ => home = .ok (some b)) ∧
      (destroyLock ⟨0⟩ ⟨0⟩).Leaves m fun answer _ =>
        answer = .error (.claimsAbsent "0x1" .granted ⟨2, 0, 0, 0⟩)) ∧
    ((performEach (astray ++ [.unbind ⟨0⟩, .put b, .destroy ⟨0⟩ ⟨0⟩])).Leaves {} fun answer m =>
      answer.isOk ∧ (m.lock ⟨0⟩).isDestroyed ∧ (m.lock ⟨0⟩).link = some .granted) ∧
    ((performEach pinned).Leaves {} fun answer m => answer.isOk ∧
      (destroyLock ⟨0⟩ ⟨0⟩).Leaves m fun answer _ =>
        answer = .error (.releasedWithLocks ⟨1, 0, 0, 0⟩ 1)) := by
  decide +kernel

end QueueCall

namespace Queueing

variable {m : Manager} {hands : Multiset ResourceRef}

/-- A lock on a queue knows its resource, so that cancels find it there. -/
theorem knows_home (reach : Queueing m hands) : Homed m ∧ Discharged m ∧ Cancellable m :=
  ⟨reach.settled.homed, reach.settled.discharged, reach.settled.cancellable⟩

/-- A lock that owns a reference on one resource is on a queue of another one. -/
theorem knows_home_of_foreign_reference : ∃ m hands, Queueing m hands ∧
    ⟨0⟩ ∈ m.queue ⟨⟨0⟩, ⟨0⟩⟩ .granted ∧ (m.lock ⟨0⟩).bound = some ⟨⟨0⟩, ⟨1⟩⟩ ∧
      Homed m ∧ Discharged m ∧ Cancellable m := by
  obtain ⟨m, hands, reach, member, bound⟩ := exists_of_calls
    [.build .oneBucket, .get ⟨0⟩ ⟨1, 0, 0, 0⟩ .plain true, .get ⟨0⟩ ⟨2, 0, 0, 0⟩ .plain true,
      .newLock ⟨1⟩ .ex none, .bind ⟨0⟩ ⟨⟨0⟩, ⟨1⟩⟩, .add ⟨⟨0⟩, ⟨0⟩⟩ .granted ⟨0⟩]
    (fun m => ⟨0⟩ ∈ m.queue ⟨⟨0⟩, ⟨0⟩⟩ .granted ∧ (m.lock ⟨0⟩).bound = some ⟨⟨0⟩, ⟨1⟩⟩)
    (by decide +kernel)
  exact ⟨m, hands, reach, member, bound, reach.knows_home⟩

end Queueing

end Lockspace
