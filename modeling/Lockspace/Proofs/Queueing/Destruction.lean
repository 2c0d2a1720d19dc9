import Lockspace.Proofs.FlagWords
import Lockspace.Proofs.Queueing.Owned
import Lockspace.Proofs.Queueing.Moves

namespace Lockspace

open Manager Act

/-- Queues with a lock on one of them are counted. -/
theorem Resource.Lined.queued_ne_zero {res : Resource} {lockOf : LockKey → Lock}
    (lined : res.Lined lockOf) : res.queued ≠ 0 ↔ ∃ q l, l ∈ res.queues.get q := by
  rw [lined.total]
  constructor
  · intro some
    by_contra none
    have empty : ∀ q, (res.queues.get q).length = 0 := fun q =>
      List.length_eq_zero_iff.mpr (List.eq_nil_iff_forall_not_mem.mpr fun l on => none ⟨q, l, on⟩)
    rw [empty, empty, empty] at some
    exact some rfl
  · rintro ⟨q, l, member⟩
    have positive := List.length_pos_of_mem member
    cases q
    · omega
    · omega
    · omega

namespace Manager

/-- A lock is destroyed and on no queue any more, and nobody else has moved. -/
structure TakenOff (l : LockKey) (m m' : Manager) : Prop where
  free : (m'.lock l).link = none
  destroyed : (m'.lock l).isDestroyed
  queue : ∀ r q, m'.queue r q = (m.queue r q).erase l
  others : ∀ k, k ≠ l → (m'.lock k).link = (m.lock k).link ∧
    (m'.lock k).isDestroyed = (m.lock k).isDestroyed

/-- The reference that a lock owns is the last one on its resource, where other locks are
queued. -/
def Pins (m : Manager) (l : LockKey) (r : ResourceRef) : Prop :=
  (m.lock l).bound = some r ∧ (m.resource r).refcount = 1 ∧ ∃ q, ∃ k ∈ m.queue r q, k ≠ l

variable {m m' m'' : Manager} {hands : Multiset ResourceRef} {n : SpaceKey} {l : LockKey}
  {r : ResourceRef}

theorem TakenOff.unmoved (taken : TakenOff l m m') (still : Unmoved m' m'') : TakenOff l m m'' where
  free := (still.link l).trans taken.free
  destroyed := by
    rw [still.destroyed]
    exact taken.destroyed
  queue r q := (congrArg (LockQueues.get · q) (still.queues r)).trans (taken.queue r q)
  others k other := by
    rw [still.link, still.destroyed]
    exact taken.others k other

theorem TakenOff.discharged (taken : TakenOff l m m') (discharged : Discharged m) :
    Discharged m' := by
  intro k gone
  by_cases here : k = l
  · rw [here]
    exact taken.free
  · rw [(taken.others k here).2] at gone
    rw [(taken.others k here).1]
    exact discharged k gone

theorem run_homeOf_of_home (home : (m.lock l).home = some r)
    (referenced : (m.resource r).refcount ≠ 0) : homeOf l m = .ok (some r) m := by
  rw [run_homeOf_eq, home, Option.filter_some,
    if_pos (by simpa using Nat.pos_of_ne_zero referenced)]

/-- The home of a lock on a queue is the resource of that queue, which still is referenced. -/
theorem run_homeOf (seated : Seated m) (booked : Booked m hands) {q : Queue}
    (member : l ∈ m.queue r q) : homeOf l m = .ok (some r) m :=
  run_homeOf_of_home (seated.home r q l member)
    (booked.alive r ((seated.lined r).queued_ne_zero.mpr ⟨q, l, member⟩))

/-- A lock that is on no queue has nothing to leave, wherever its home is. -/
theorem unlinkAndMark_of_free (free : (m.lock l).link = none) :
    unlinkAndMark l m = markDestroyed l m := by
  unfold unlinkAndMark
  rw [run_bind (run_homeOf_eq l m)]
  cases (m.lock l).home.filter fun r => (m.resource r).refcount > 0 with
  | none => rfl
  | some r => exact run_bind (unlink_of_free free)

/-- A lock that wants to leave its queue does so by way of its home. -/
theorem run_leave (seated : Seated m) (booked : Booked m hands) (l : LockKey) :
    ∃ m', unlinkAndMark l m = markDestroyed l m' ∧
      (∀ k, m'.lock k = if k = l then { m.lock l with link := none } else m.lock k) ∧
      (∀ r q, m'.queue r q = (m.queue r q).erase l) ∧ Seated m' ∧ Booked m' hands ∧
      ∀ r, (m'.resource r).refcount = (m.resource r).refcount ∧
        (m'.resource r).id = (m.resource r).id := by
  cases link : (m.lock l).link with
  | none =>
    refine ⟨m, unlinkAndMark_of_free link, fun k => ?_, fun r q => ?_, seated, booked,
      fun _ => ⟨rfl, rfl⟩⟩
    · split
      · rename_i same
        subst same
        rw [← link]
      · rfl
    · exact (List.erase_of_not_mem (seated.not_mem link)).symm
  | some q =>
    obtain ⟨r, member⟩ := seated.linked l q link
    obtain ⟨res, left, after, queue⟩ := seated.departed member
    have queued := (seated.lined r).queued_ne_zero.mpr ⟨q, l, member⟩
    obtain ⟨id, -, count⟩ := Resource.departed_keeps left
    refine ⟨m.departed r l q res, ?_, fun k => lock_departed, queue, after,
      booked.departed (booked.alive r queued) left, fun s => ?_⟩
    · unfold unlinkAndMark
      rw [run_bind (run_homeOf seated booked member)]
      exact run_bind (unlink_of_departed link member left)
    · rw [resource_departed]
      split
      · rename_i here
        rw [here]
        exact ⟨count, id⟩
      · exact ⟨rfl, rfl⟩

/-- What a destruction first does to a lock: it leaves its queue and is marked. References and
everything else about it stay. -/
theorem run_unlinkAndMark (seated : Seated m) (booked : Booked m hands) (l : LockKey) :
    ∃ m', unlinkAndMark l m = .ok (!(m.lock l).isDestroyed) m' ∧ TakenOff l m m' ∧ Seated m' ∧
      Booked m' hands ∧ (m'.lock l).bound = (m.lock l).bound ∧
      ∀ r, (m'.resource r).refcount = (m.resource r).refcount ∧
        (m'.resource r).id = (m.resource r).id := by
  obtain ⟨m₁, run, lock, queue, after, books, keeps⟩ := run_leave seated booked l
  have own : m₁.lock l = { m.lock l with link := none } := by rw [lock, if_pos rfl]
  have free : (m₁.lock l).link = none := by rw [own]
  have mark : ∀ k, (m₁.modifyLock l (·.setFlags .destroyed)).lock k =
      if k = l then (m₁.lock l).setFlags .destroyed else m₁.lock k :=
    fun k => lock_modifyLock m₁ l k _
  refine ⟨m₁.modifyLock l (·.setFlags .destroyed), ?_, ⟨?_, ?_, queue, fun k other => ?_⟩,
    after.relock free free, books.relock rfl, ?_, keeps⟩
  · rw [run]
    show EStateM.Result.ok (!(m₁.lock l).isDestroyed) _ = _
    rw [own]
    rfl
  · rw [mark, if_pos rfl]
    exact free
  · rw [mark, if_pos rfl]
    exact LockFlags.contains_union_right _ _
  · rw [mark, if_neg other, lock, if_neg other]
    exact ⟨rfl, rfl⟩
  · rw [mark, if_pos rfl]
    show (m₁.lock l).bound = _
    rw [own]

theorem run_lockReused (n : SpaceKey) (l : LockKey) (m : Manager) : ∃ removed lru,
    lockReused n l m = .ok removed (m.modifySpace n fun s => { s with lru }) :=
  ⟨_, _, rfl⟩

/-- Once a lock is off its queue, its reference must stay exactly if other locks are queued where
it is the last. -/
theorem strands_iff_pins (seated : Seated m) (after : Seated m') (taken : TakenOff l m m')
    (bound : (m.lock l).bound = some r)
    (count : (m'.resource r).refcount = (m.resource r).refcount) :
    m'.Strands r ↔ m.Pins l r := by
  unfold Strands Pins
  rw [(after.lined r).queued_ne_zero, count]
  have others : ∀ q k, k ∈ (m'.resource r).queues.get q ↔ k ∈ m.queue r q ∧ k ≠ l := by
    intro q k
    have queue := taken.queue r q
    unfold Manager.queue at queue ⊢
    rw [queue, ((seated.lined r).nodup q).mem_erase_iff, and_comm]
  simp only [others, bound, true_and]

/-- However the destruction of a lock ends, it takes the lock off its queue. It ends in a fault
exactly if the lock, not destroyed before, owns the last reference on a resource where other locks
are queued. -/
theorem leaves_destroyLock (seated : Seated m) (booked : Booked m hands) (n : SpaceKey)
    (l : LockKey) : (destroyLock n l).Leaves m fun answer m' =>
      TakenOff l m m' ∧ Seated m' ∧
        match answer with
        | .ok _ => Booked m' hands ∧ ((m.lock l).isDestroyed = false → ∀ r, ¬ m.Pins l r)
        | .error fault => (m.lock l).isDestroyed = false ∧ ∃ r, m.Pins l r ∧
            fault = .releasedWithLocks (m.resource r).id (m'.resource r).queued := by
  obtain ⟨m₁, run, taken, after, books, bound, keeps⟩ := run_unlinkAndMark seated booked l
  unfold destroyLock
  rw [leaves_bind]
  refine leaves_of_run run ?_
  cases destroyed : (m.lock l).isDestroyed with
  | true => exact ⟨taken, after, books, nofun⟩
  | false =>
    obtain ⟨removed, lru, reused⟩ := run_lockReused n l m₁
    show (discard (lockReused n l) >>= fun _ => dropBound l : Act Unit).Leaves m₁ _
    rw [leaves_bind]
    refine leaves_of_run (run_discard reused) ?_
    have still : Steady m₁ (m₁.modifySpace n fun s => { s with lru }) :=
      Manager.steady_modifySpace n rfl rfl rfl rfl rfl
    have same : ∀ r, (m₁.modifySpace n fun s => { s with lru }).resource r = m₁.resource r :=
      fun r => congrArg (·.resource r.key) (view_modifySpace (·.table) rfl r.space)
    have kept : Booked (m₁.modifySpace n fun s => { s with lru }) hands :=
      books.agrees fun k => agrees_modifySpace n rfl
    -- The lock is off its queue by now, so only others can forbid that its reference goes.
    refine ((steady_dropBound _).and_ends kept.ends_dropBound).imp fun answer m' last => ?_
    obtain ⟨dropped, how⟩ := last
    have unmoved := still.toUnmoved.trans dropped.toUnmoved
    refine ⟨taken.unmoved unmoved, after.unmoved unmoved, ?_⟩
    have strands : ∀ r, (m.lock l).bound = some r →
        ((m₁.modifySpace n fun s => { s with lru }).Strands r ↔ m.Pins l r) := by
      intro r owned
      rw [← strands_iff_pins seated after taken owned (keeps r).1, Strands, Strands, same]
    cases answer with
    | ok _ =>
      refine ⟨how.2, fun _ r pins => ?_⟩
      exact how.1 r (bound.trans pins.1) ((strands r pins.1).mpr pins)
    | error fault =>
      obtain ⟨r, owned, stranded, rfl⟩ := how
      replace owned : (m.lock l).bound = some r := bound.symm.trans owned
      refine ⟨rfl, r, (strands r owned).mp stranded, ?_⟩
      rw [dropped.queued, same, (keeps r).2]

end Manager

end Lockspace
