import Lockspace.Manager.Spaces
import Lockspace.Proofs.ResourceFrames

namespace Lockspace

namespace Act

section

variable {R : Manager → Manager → Prop} [IsPreorder Manager R] {n : SpaceKey} {l : LockKey}
  {r : ResourceRef}

/-- A lock is bound by two changes of it, and drops a reference that it had before. -/
theorem preserves_bind
    (homes : (modifyLock l fun lk => { lk with home := some r }).Preserves R)
    (binds : (modifyLock l fun lk => { lk with bound := some r }).Preserves R)
    (logs : ∀ text, (log .warn text).Preserves R) (puts : ∀ old, (put old).Preserves R) :
    (bind l r).Preserves R := by
  have rebinds : (rebind l r).Preserves R :=
    homes.bind fun _ => preserves_lock.bind fun _ => binds.bind fun _ => preserves_pure _
  refine rebinds.bind fun old => ?_
  cases old with
  | none => exact preserves_pure _
  | some old =>
    refine preserves_lock.bind fun lk => preserves_resource.bind fun res => ?_
    exact (logs _).bind fun _ => (puts old).discard

/-- A lock that becomes unused gets onto the list and is given the time. -/
theorem preserves_lockUnused
    (lists : ∀ lru, (modifySpace n fun s => { s with lru }).Preserves R) (ticks : tick.Preserves R)
    (touches : ∀ now, (modifyLock l fun lk => { lk with lastUsed := now }).Preserves R) :
    (lockUnused n l).Preserves R := by
  unfold lockUnused
  refine preserves_space.bind fun s => preserves_lock.bind fun lk => ?_
  split
  rename_i added lru _
  refine (lists lru).bind fun _ => ?_
  cases added with
  | false => exact preserves_pure _
  | true => exact ticks.bind fun now => (touches now).bind fun _ => preserves_pure _

/-- A lock that leaves its queue changes its resource, itself and the counts of its namespace. -/
theorem preserves_unlink
    (departs : ∀ m q res, (m.resource r).departed l (m.lock l) q = .ok res →
      R m (m.modifyResource r fun _ => res))
    (frees : (modifyLock l fun lk => { lk with link := none }).Preserves R)
    (counts : ∀ q, (modifySpace r.space fun s =>
      { s with stats := s.stats.lockUnqueued q }).Preserves R) : (unlink r l).Preserves R := by
  intro m
  refine leaves_after (run_lock l m) ?_
  cases (m.lock l).link with
  | none => exact leaves_pure.mpr (refl_of R m)
  | some q =>
    refine leaves_after (run_resource r m) (leaves_guard (fun _ => refl_of R m) fun _ => ?_)
    rw [leaves_bind, leaves_ofExcept]
    cases left : (m.resource r).departed l (m.lock l) q with
    | error fault => exact refl_of R m
    | ok res =>
      have onward : ((modifyLock l fun lk => { lk with link := none }) >>= fun _ =>
          modifySpace r.space fun s => { s with stats := s.stats.lockUnqueued q }).Preserves R :=
        frees.bind fun _ => counts q
      exact (onward _).imp fun _ _ after => trans_of R (departs m q res left) after

theorem preserves_unlinkAndMark (unlinks : ∀ r, (unlink r l).Preserves R)
    (marks : (modifyLock l (·.setFlags .destroyed)).Preserves R) :
    (unlinkAndMark l).Preserves R := by
  have marked : (markDestroyed l).Preserves R :=
    preserves_lock.bind fun _ => marks.bind fun _ => preserves_pure _
  refine Preserves.bind (preserves_get.bind fun m => preserves_pure _) fun home => ?_
  cases home with
  | none => exact marked
  | some r => exact (unlinks r).bind fun _ => marked

/-- The destruction of a lock is its way off its queue and a drop. -/
theorem preserves_destroyLock (leaves : (unlinkAndMark l).Preserves R)
    (forgets : (lockReused n l).Preserves R) (drops : (dropBound l).Preserves R) :
    (destroyLock n l).Preserves R := by
  refine leaves.bind fun first => ?_
  split
  · exact forgets.discard.bind fun _ => drops
  · exact preserves_pure _

end

/-- Any change of a lock and of the queues and counts of locks keeps to a relation between states.
Then so does whatever moves or binds a lock. -/
structure LocksWithin (R : Manager → Manager → Prop) : Prop where
  lock : ∀ l f, (modifyLock l f).Preserves R
  resource : ∀ r f, (modifyResource r f).Preserves R
  stats : ∀ n (count : Stats → Stats),
    (modifySpace n fun s => { s with stats := count s.stats }).Preserves R
  logged : ∀ level text, (log level text).Preserves R

namespace LocksWithin

variable {R : Manager → Manager → Prop} [IsPreorder Manager R]

theorem dumpResource (within : LocksWithin R) (level : Level) (r : ResourceRef) :
    (dumpResource level r).Preserves R :=
  preserves_get.bind fun _ => preserves_forM fun line _ => within.logged level line.text

theorem claimLink (within : LocksWithin R) (r : ResourceRef) (l : LockKey) (q : Queue) :
    (claimLink r l q).Preserves R := by
  refine preserves_lock.bind fun lk => ?_
  split
  · exact preserves_pure _
  · split
    · refine Preserves.bind (within.dumpResource .error r) fun _ => ?_
      exact preserves_resource.bind fun _ => preserves_throw _
    · exact (within.lock _ _).bind fun _ => preserves_pure _

theorem join (within : LocksWithin R) (r : ResourceRef) (l : LockKey) (q : Queue)
    (locks : List LockKey) : (join r l q locks).Preserves R :=
  preserves_lock.bind fun _ => (within.resource _ _).bind fun _ =>
    (within.lock _ _).bind fun _ => within.stats r.space (·.lockQueued q)

theorem addLock (within : LocksWithin R) (r : ResourceRef) (q : Queue) (l : LockKey) :
    (addLock r q l).Preserves R := by
  refine (within.claimLink r l q).bind fun claimed => ?_
  split
  · exact preserves_resource.bind fun res => within.join r l q _
  · exact preserves_pure _

theorem insertAfter (within : LocksWithin R) (r : ResourceRef) (anchor l : LockKey) :
    (insertAfter r anchor l).Preserves R := by
  refine preserves_resource.bind fun res => preserves_lock.bind fun lk => ?_
  split
  · exact preserves_throw _
  · refine preserves_guard fun _ => (within.claimLink r l _).bind fun claimed => ?_
    split
    · exact preserves_resource.bind fun res => within.join r l _ _
    · exact preserves_pure _

theorem unlink (within : LocksWithin R) (r : ResourceRef) (l : LockKey) :
    (unlink r l).Preserves R :=
  preserves_unlink (fun m _ _ _ => within.resource r _ m) (within.lock _ _)
    fun q => within.stats r.space (·.lockUnqueued q)

theorem unlinkAndMark (within : LocksWithin R) (l : LockKey) : (unlinkAndMark l).Preserves R :=
  preserves_unlinkAndMark (within.unlink · l) (within.lock _ _)

theorem destroyLock (within : LocksWithin R) (drops : DropsWithin R) (n : SpaceKey) (l : LockKey) :
    (destroyLock n l).Preserves R :=
  preserves_destroyLock (within.unlinkAndMark l) (drops.lockReused n l) (drops.dropBound l)

theorem bind (within : LocksWithin R) (drops : DropsWithin R) (l : LockKey) (r : ResourceRef) :
    (bind l r).Preserves R :=
  preserves_bind (within.lock _ _) (within.lock _ _) (within.logged .warn) drops.put

end LocksWithin

end Act

end Lockspace
