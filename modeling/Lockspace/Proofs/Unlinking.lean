import Lockspace.Proofs.QuietActs
import Lockspace.Proofs.Tally

namespace Lockspace

namespace Resource

variable {res res' : Resource} {l : LockKey} {lk : Lock} {q : Queue}

/-- The resource without a lock on one of its queues, whatever its index says. -/
def without (res : Resource) (q : Queue) (l : LockKey) : Resource :=
  { res with
    queues := res.queues.set q ((res.queues.get q).erase l)
    queued := res.queued - 1 }

theorem departed_eq : res.departed l lk q =
    (if q = .granted then res.unindexGranted l lk else .ok res).map (·.without q l) := by
  unfold departed
  split
  · cases res.unindexGranted l lk <;> rfl
  · rfl

theorem unindexGranted_keeps (ok : res.unindexGranted l lk = .ok res') :
    res'.id = res.id ∧ res'.bucket = res.bucket ∧ res'.refcount = res.refcount := by
  unfold unindexGranted at ok
  split at ok
  · cases ok
    exact ⟨rfl, rfl, rfl⟩
  split at ok
  · split at ok
    · cases ok
    · cases ok
      exact ⟨rfl, rfl, rfl⟩
  · cases ok
    exact ⟨rfl, rfl, rfl⟩

/-- A resource that a lock leaves keeps its id, its bucket and its references. -/
theorem departed_keeps (ok : res.departed l lk q = .ok res') :
    res'.id = res.id ∧ res'.bucket = res.bucket ∧ res'.refcount = res.refcount := by
  rw [departed_eq] at ok
  split at ok
  · cases indexed : res.unindexGranted l lk with
    | error fault =>
      rw [indexed] at ok
      cases ok
    | ok mid =>
      rw [indexed] at ok
      cases ok
      have kept := unindexGranted_keeps indexed
      exact kept
  · cases ok
    exact ⟨rfl, rfl, rfl⟩

theorem unindexGranted_queues (ok : res.unindexGranted l lk = .ok res') :
    res'.queues = res.queues ∧ res'.queued = res.queued := by
  unfold unindexGranted at ok
  split at ok
  · cases ok
    exact ⟨rfl, rfl⟩
  split at ok
  · split at ok
    · cases ok
    · cases ok
      exact ⟨rfl, rfl⟩
  · cases ok
    exact ⟨rfl, rfl⟩

/-- A lock that leaves is taken off its queue, and one lock fewer is counted. -/
theorem departed_queues (ok : res.departed l lk q = .ok res') :
    res'.queues = res.queues.set q ((res.queues.get q).erase l) ∧
      res'.queued = res.queued - 1 := by
  rw [departed_eq] at ok
  split at ok
  · cases indexed : res.unindexGranted l lk with
    | error fault =>
      rw [indexed] at ok
      cases ok
    | ok mid =>
      rw [indexed] at ok
      cases ok
      obtain ⟨queues, queued⟩ := unindexGranted_queues indexed
      rw [← queues, ← queued]
      exact ⟨rfl, rfl⟩
  · cases ok
    exact ⟨rfl, rfl⟩

theorem unindexGranted_fault {fault : Fault} (failed : res.unindexGranted l lk = .error fault) :
    fault = .modeGroupUnderflow lk.mode := by
  unfold unindexGranted at failed
  split at failed
  · cases failed
  split at failed
  · split at failed
    · cases failed
      rfl
    · cases failed
  · cases failed

/-- Only a count of modes that has run out keeps a lock from leaving. -/
theorem departed_fault {fault : Fault} (failed : res.departed l lk q = .error fault) :
    fault = .modeGroupUnderflow lk.mode := by
  rw [departed_eq] at failed
  split at failed
  · cases indexed : res.unindexGranted l lk with
    | error other =>
      rw [indexed] at failed
      cases failed
      exact unindexGranted_fault indexed
    | ok mid =>
      rw [indexed] at failed
      cases failed
  · cases failed

end Resource

namespace Manager

open Table

/-- Two states in which a namespace has the same entries and every resource as many references,
and every lock owns the same reference. -/
structure Keeps (n : SpaceKey) (m m' : Manager) : Prop where
  entries : (m.space n).table.SameEntries (m'.space n).table
  counts : ∀ key, ((m'.space n).table.resource key).refcount =
    ((m.space n).table.resource key).refcount
  bound : ∀ l, (m'.lock l).bound = (m.lock l).bound

variable {n : SpaceKey} {m m' m'' : Manager}

theorem Agrees.keeps (agrees : Agrees n m m') : Keeps n m m' where
  entries := by
    rw [agrees.table]
    exact .rfl
  counts key := by rw [agrees.table]
  bound := agrees.bound

theorem Keeps.trans (first : Keeps n m m') (second : Keeps n m' m'') : Keeps n m m'' where
  entries := first.entries.trans second.entries
  counts key := (second.counts key).trans (first.counts key)
  bound l := (second.bound l).trans (first.bound l)

theorem space_modifyResource (m : Manager) (r : ResourceRef) (f : Resource → Resource) :
    ((m.modifyResource r f).space n).table =
      if n = r.space then (m.space n).table.modifyResource r.key f else (m.space n).table := by
  unfold modifyResource
  rw [space_modifySpace]
  split
  · rename_i same
    rw [same]
  · rfl

theorem owners_modifyResource (m : Manager) (r : ResourceRef) (f : Resource → Resource) :
    ((m.modifyResource r f).space n).owners = (m.space n).owners := by
  unfold modifyResource
  rw [space_modifySpace]
  split
  · rename_i same
    rw [same]
  · rfl

theorem keeps_modifyResource {r : ResourceRef} {f : Resource → Resource}
    (known : r.space = n → r.key.index < (m.space n).table.resources.size)
    (id : (f (m.resource r)).id = (m.resource r).id)
    (bucket : (f (m.resource r)).bucket = (m.resource r).bucket)
    (count : (f (m.resource r)).refcount = (m.resource r).refcount) :
    Keeps n m (m.modifyResource r f) := by
  refine ⟨?_, ?_, fun _ => rfl⟩
  · rw [space_modifyResource]
    split
    · rename_i here
      subst here
      exact sameEntries_modifyResource (known rfl) id bucket
    · exact .rfl
  · intro key
    rw [space_modifyResource]
    split
    · rename_i here
      subst here
      rw [resource_modifyResource]
      split
      · rename_i same
        rw [same]
        exact count
      · rfl
    · rfl

theorem keeps_modifyLock (l : LockKey) {f : Lock → Lock}
    (bound : (f (m.lock l)).bound = (m.lock l).bound) : Keeps n m (m.modifyLock l f) := by
  refine ⟨.rfl, fun _ => rfl, fun k => ?_⟩
  rw [lock_modifyLock]
  split
  · rename_i same
    rw [bound, same]
  · rfl

end Manager

open Manager

namespace Act

variable {n : SpaceKey} {m : Manager} {l : LockKey} {r : ResourceRef}

/-- A lock that leaves a queue moves no reference. -/
theorem ends_unlink (known : r.space = n → r.key.index < (m.space n).table.resources.size) :
    (unlink r l).Ends m (·.isMiscount = false) fun _ m' => Keeps n m m' := by
  unfold unlink
  rw [ends_bind, ends_lock]
  split
  · exact ends_pure.mpr Agrees.rfl.keeps
  rw [ends_bind, ends_resource, ends_ite]
  split
  · rw [ends_bind, ends_throw]
    rfl
  rename_i q _ _
  rw [ends_bind, ends_ofExcept]
  split
  · rename_i without left
    obtain ⟨id, bucket, count⟩ := Resource.departed_keeps left
    simp only [ends_bind, ends_modifyResource, ends_modifyLock, ends_modifySpace]
    have left := keeps_modifyResource (f := fun _ => without) known id bucket count
    exact (left.trans (keeps_modifyLock l rfl)).trans (agrees_modifySpace r.space rfl).keeps
  · rename_i fault failed
    rw [Resource.departed_fault failed]
    rfl

theorem run_homeOf_eq (l : LockKey) (m : Manager) :
    homeOf l m = .ok ((m.lock l).home.filter fun r => (m.resource r).refcount > 0) m :=
  rfl

/-- The first step of the destruction of a lock moves no reference either. -/
theorem ends_unlinkAndMark :
    (unlinkAndMark l).Ends m (·.isMiscount = false) fun _ m' => Keeps n m m' := by
  have marked : ∀ m₁ : Manager, Keeps n m m₁ →
      (markDestroyed l).Ends m₁ (·.isMiscount = false) fun _ m' => Keeps n m m' :=
    fun m₁ before => (quiet_markDestroyed (n := n)).ends
      (fun _ => Fault.not_isMiscount_of_not_isDisorder) fun _ _ after => before.trans after.keeps
  unfold unlinkAndMark homeOf
  simp only [ends_bind, ends_get, ends_pure]
  split
  · rename_i r home
    have referenced : 0 < (m.resource r).refcount := by
      obtain ⟨_, positive⟩ := Option.filter_eq_some_iff.mp home
      simpa using positive
    rw [ends_bind]
    refine (ends_unlink (n := n) ?_).imp fun _ m₁ unlinked => marked m₁ unlinked
    rintro rfl
    exact Table.known_of_pos referenced
  · exact marked m Agrees.rfl.keeps

end Act

end Lockspace
