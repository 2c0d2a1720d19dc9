import Lockspace.Proofs.Lined

namespace Lockspace

namespace Resource

/-- The queues of a resource are in order: every lock on one of them says so and owns a reference
on the resource, no lock is on a queue twice, and the locks are counted, the granted ones by mode
where modes are counted. -/
structure Queued (res : Resource) (r : ResourceRef) (lockOf : LockKey → Lock) : Prop where
  member : ∀ q, ∀ l ∈ res.queues.get q, (lockOf l).link = some q ∧ (lockOf l).bound = some r
  nodup : ∀ q, (res.queues.get q).Nodup
  total : res.queued = (res.queues.get .granted).length + (res.queues.get .converting).length +
    (res.queues.get .waiting).length
  grouped : res.intervals = none → res.rtype.hasModeGroups → ∀ mode,
    res.groups.get mode = (res.queues.get .granted).countP fun l => (lockOf l).mode = mode

variable {res : Resource} {r : ResourceRef} {lockOf lockOf' : LockKey → Lock} {l : LockKey}
  {lk : Lock} {q : Queue} {locks : List LockKey}

theorem Queued.lined (queued : res.Queued r lockOf) : res.Lined lockOf :=
  ⟨fun q l member => (queued.member q l member).1, queued.nodup, queued.total, queued.grouped⟩

/-- Queues in order whose locks own references on the resource. -/
theorem Lined.queued (lined : res.Lined lockOf)
    (bound : ∀ q, ∀ l ∈ res.queues.get q, (lockOf l).bound = some r) : res.Queued r lockOf :=
  ⟨fun q l member => ⟨lined.link q l member, bound q l member⟩, lined.nodup, lined.total,
    lined.grouped⟩

theorem queued_of_empty (queues : res.queues = {}) (none : res.queued = 0)
    (groups : res.groups = .const 0) : res.Queued r lockOf := by
  refine (lined_of_empty queues none groups).queued fun q l member => ?_
  rw [queues] at member
  cases q <;> cases member

theorem Queued.recounted (queued : res.Queued r lockOf) (count : Nat) :
    ({ res with refcount := count } : Resource).Queued r lockOf :=
  ⟨queued.member, queued.nodup, queued.total, queued.grouped⟩

/-- Without locks that own a reference on it a resource has no locks at all. -/
theorem Queued.unused (queued : res.Queued r lockOf) (unowned : ∀ l, (lockOf l).bound ≠ some r) :
    res.queued = 0 := by
  have empty : ∀ q, res.queues.get q = [] := by
    intro q
    refine List.eq_nil_iff_forall_not_mem.mpr fun l member => ?_
    exact unowned l (queued.member q l member).2
  rw [queued.total, empty, empty, empty]
  rfl

/-- Locks that are on no queue of a resource do not matter to it. -/
theorem Queued.others (queued : res.Queued r lockOf)
    (same : ∀ q, ∀ l ∈ res.queues.get q, (lockOf' l).standing = (lockOf l).standing) :
    res.Queued r lockOf' := by
  have lined := queued.lined.others fun q l member =>
    ⟨congrArg (·.1) (same q l member), congrArg (·.2.2.2) (same q l member)⟩
  refine lined.queued fun q l member => ?_
  have bound : (lockOf' l).bound = (lockOf l).bound := congrArg (·.2.2.1) (same q l member)
  rw [bound]
  exact (queued.member q l member).2

/-- A lock that was on no queue joins one. -/
theorem Queued.joined (queued : res.Queued r lockOf) (apart : ∀ p, l ∉ res.queues.get p)
    (order : locks.Perm (l :: res.queues.get q))
    (others : ∀ k, k ≠ l → (lockOf' k).standing = (lockOf k).standing)
    (link : (lockOf' l).link = some q) (bound : (lockOf' l).bound = some r)
    (mode : (lockOf' l).mode = lk.mode) : (res.joined l lk q locks).Queued r lockOf' := by
  have lined := queued.lined.joined apart order
    (fun k other => ⟨congrArg (·.1) (others k other), congrArg (·.2.2.2) (others k other)⟩)
    link mode
  refine lined.queued fun p k member => ?_
  by_cases same : k = l
  · rw [same]
    exact bound
  have still : (lockOf' k).bound = (lockOf k).bound := congrArg (·.2.2.1) (others k same)
  rw [still]
  rw [get_queues_joined] at member
  split at member
  · have old := (List.mem_cons.mp (order.mem_iff.mp member)).resolve_left same
    exact (queued.member q k old).2
  · exact (queued.member p k member).2

/-- A lock on a queue can leave it. -/
theorem Queued.departed (queued : res.Queued r lockOf) (member : l ∈ res.queues.get q)
    (others : ∀ k, k ≠ l → (lockOf' k).standing = (lockOf k).standing) :
    ∃ res', res.departed l (lockOf l) q = .ok res' ∧ res'.Queued r lockOf' ∧
      res'.queues = res.queues.set q ((res.queues.get q).erase l) := by
  obtain ⟨res', left, lined, queues⟩ := queued.lined.departed member fun k other =>
    ⟨congrArg (·.1) (others k other), congrArg (·.2.2.2) (others k other)⟩
  refine ⟨res', left, lined.queued fun p k inside => ?_, queues⟩
  rw [queues] at inside
  obtain ⟨before, other⟩ := queued.lined.mem_left member inside
  have bound : (lockOf' k).bound = (lockOf k).bound := congrArg (·.2.2.1) (others k other)
  rw [bound]
  exact (queued.member p k before).2

end Resource

end Lockspace
