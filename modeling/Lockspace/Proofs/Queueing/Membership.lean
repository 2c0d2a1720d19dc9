import Lockspace.Proofs.Queueing.Runs

namespace Lockspace

open Manager Act

namespace Manager

/-- Every lock is where its link says, once, and nowhere else. -/
structure Exclusive (m : Manager) : Prop where
  linked_iff : ∀ l q, (m.lock l).link = some q ↔ ∃! r, l ∈ m.queue r q
  once : ∀ r q l, l ∈ m.queue r q → (m.queue r q).count l = 1
  alone : ∀ r q s p l, l ∈ m.queue r q → l ∈ m.queue s p → s = r ∧ p = q

/-- The counts of queued locks say how many there are, with none to clamp. -/
structure Counted (m : Manager) : Prop where
  queued : ∀ r, (m.resource r).queued = (m.queue r .granted).length +
    (m.queue r .converting).length + (m.queue r .waiting).length
  locks : ∀ n, (m.space n).stats.locks = (m.space n).table.lockTotal
  lockCount : ∀ n, (m.space n).snapshot.lockCount = (m.space n).table.lockTotal
  granted : ∀ n, (m.space n).stats.granted = (m.space n).table.grantedTotal
  grantedCount : ∀ n, (m.space n).snapshot.granted = (m.space n).table.grantedTotal
  /-- A resource that is gone has no part in the counts. -/
  gone : ∀ r, (m.resource r).refcount = 0 → (m.resource r).queued = 0

/-- A call that returns and changes one queue at most. -/
def Rearranges (act : Act Unit) (m : Manager) (r : ResourceRef) (q : Queue)
    (locks : List LockKey) : Prop :=
  ∃ m', act m = .ok () m' ∧ ∀ s p, m'.queue s p = if s = r ∧ p = q then locks else m.queue s p

/-- What each call about a lock does to the queues. Those that move a lock keep the others in
order, and those that cannot do so leave everything alone. -/
structure KeepsOrder (m : Manager) : Prop where
  appends : ∀ r q l, (m.lock l).isDestroyed = false → (m.lock l).link = none →
    Rearranges (addLock r q l) m r q (m.queue r q ++ [l])
  insertsBehind : ∀ r q anchor l before after, m.queue r q = before ++ anchor :: after →
    (m.lock l).isDestroyed = false → (m.lock l).link = none →
      Rearranges (insertAfter r anchor l) m r q (before ++ anchor :: l :: after)
  removes : ∀ r q l, l ∈ m.queue r q → Rearranges (unlink r l) m r q ((m.queue r q).erase l)
  /-- Even a destruction that ends in a fault has taken the lock off. -/
  destroys : ∀ n l, (destroyLock n l).Leaves m fun _ m' =>
    (m'.lock l).link = none ∧ ∀ r q, m'.queue r q = (m.queue r q).erase l
  refusesLinked : ∀ r q anchor l on, (m.lock l).link = some on →
    (addLock r q l).Refuses m (.alreadyQueued (m.lock l).handleText on q (m.resource r).id) ∧
      ∃ fault, (insertAfter r anchor l).Refuses m fault
  refusesElsewhere : ∀ r q l, (m.lock l).link = some q → l ∉ m.queue r q →
    (unlink r l).Refuses m (.claimsAbsent (m.lock l).handleText q (m.resource r).id)
  skipsDestroyed : ∀ r q anchor l, (m.lock l).isDestroyed → addLock r q l m = .ok () m ∧
    (anchor ∈ m.queue r q → insertAfter r anchor l m = .ok () m)
  skipsUnlinked : ∀ r l, (m.lock l).link = none → unlink r l m = .ok () m

variable {m : Manager} {hands : Multiset ResourceRef} {l anchor : LockKey} {r : ResourceRef}
  {q : Queue}

theorem Seated.exclusive (seated : Seated m) : Exclusive m where
  linked_iff l q := by
    constructor
    · intro on
      obtain ⟨r, member⟩ := seated.linked l q on
      exact ⟨r, member, fun s there => (seated.eq_of_mem member there).1⟩
    · rintro ⟨r, member, -⟩
      exact seated.link member
  once r q _ member := List.count_eq_one_of_mem ((seated.lined r).nodup q) member
  alone _ _ _ _ _ here there := seated.eq_of_mem here there

theorem Settled.counted (settled : Settled m hands) : Counted m where
  queued r := (settled.seated.lined r).total
  locks := settled.seated.locks
  lockCount n := by
    show (m.space n).stats.locks.toNat = _
    rw [settled.seated.locks, Int.toNat_natCast]
  granted := settled.seated.granted
  grantedCount n := by
    show (m.space n).stats.granted.toNat = _
    rw [settled.seated.granted, Int.toNat_natCast]
  gone r unreferenced := by
    by_contra queued
    exact settled.booked.alive r queued unreferenced

/-- A lock goes right behind its anchor. -/
theorem insertBehind_append {before after : List LockKey} (absent : anchor ∉ before) :
    insertBehind anchor l (before ++ anchor :: after) = before ++ anchor :: l :: after := by
  induction before with
  | nil => simp [insertBehind]
  | cons k rest ih =>
    have other : k ≠ anchor := fun same => absent (same ▸ List.mem_cons_self ..)
    have later : anchor ∉ rest := fun member => absent (List.mem_cons_of_mem k member)
    simp [insertBehind, other, ih later]

theorem Settled.keepsOrder (settled : Settled m hands) : KeepsOrder m where
  appends r q l whole free := ⟨_, addLock_of_free whole free, fun _ _ => queue_joined⟩
  insertsBehind r q anchor l before after split whole free := by
    have member : anchor ∈ m.queue r q := by
      rw [split]
      exact List.mem_append_right before (List.mem_cons_self ..)
    have absent : anchor ∉ before := by
      have distinct : (m.queue r q).Nodup := (settled.seated.lined r).nodup q
      rw [split, List.nodup_append] at distinct
      exact fun inside => distinct.2.2 _ inside _ (List.mem_cons_self ..) rfl
    refine ⟨_, insertAfter_of_free (settled.seated.link member) member whole free, fun s p => ?_⟩
    rw [queue_joined, split, insertBehind_append absent]
  removes r q l member := by
    obtain ⟨res, left, -, queue⟩ := settled.departed member
    refine ⟨_, unlink_of_departed (settled.seated.link member) member left, fun s p => ?_⟩
    rw [queue]
    split
    · rename_i here
      rw [here.1, here.2]
    · rename_i other
      exact List.erase_of_not_mem fun there => other (settled.seated.eq_of_mem member there)
  destroys n l := (leaves_destroyLock settled.seated settled.booked n l).imp fun _ _ after =>
    ⟨after.1.free, after.1.queue⟩
  refusesLinked r q anchor l on link :=
    ⟨addLock_of_linked (settled.whole link) link, insertAfter_of_linked (settled.whole link) link⟩
  refusesElsewhere _ _ _ link absent := unlink_of_elsewhere link absent
  skipsDestroyed r q anchor l gone := by
    refine ⟨addLock_of_destroyed gone, fun member => ?_⟩
    exact insertAfter_of_destroyed (settled.seated.link member) member gone
  skipsUnlinked _ _ free := unlink_of_free free

end Manager

namespace Queueing

variable {m : Manager} {hands : Multiset ResourceRef}

/-- In every run of calls, each lock is on the queue it says to be on and on no other, each call
moves the lock it is about and no other, and the counts are exact. -/
theorem membership (reach : Queueing m hands) : Exclusive m ∧ Counted m ∧ KeepsOrder m :=
  ⟨reach.settled.seated.exclusive, reach.settled.counted, reach.settled.keepsOrder⟩

/-- Three locks get onto a queue, the last of them between the others. -/
theorem membership_of_three_locks : ∃ m hands, Queueing m hands ∧
    m.queue ⟨⟨0⟩, ⟨0⟩⟩ .granted = [⟨0⟩, ⟨2⟩, ⟨1⟩] ∧ Exclusive m ∧ Counted m ∧ KeepsOrder m := by
  let r : ResourceRef := ⟨⟨0⟩, ⟨0⟩⟩
  obtain ⟨m, hands, reach, order⟩ := exists_of_calls
    [.build .oneBucket, .get ⟨0⟩ ⟨1, 2, 0, 0⟩ .plain true, .newLock ⟨1⟩ .pr none,
      .newLock ⟨2⟩ .pr none, .newLock ⟨3⟩ .cr none, .add r .granted ⟨0⟩, .add r .granted ⟨1⟩,
      .insertAfter r ⟨0⟩ ⟨2⟩]
    (fun m => m.queue r .granted = [⟨0⟩, ⟨2⟩, ⟨1⟩]) (by decide +kernel)
  exact ⟨m, hands, reach, order, reach.membership⟩

end Queueing

end Lockspace
