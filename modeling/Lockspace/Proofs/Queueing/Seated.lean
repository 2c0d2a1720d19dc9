import Lockspace.Proofs.SteadyActs

namespace Lockspace

namespace Table

/-- How many locks are on queues of the resources of a table. -/
def lockTotal (t : Table) : Nat :=
  t.resources.sum (·.queued)

/-- How many of them are granted. -/
def grantedTotal (t : Table) : Nat :=
  t.resources.sum fun res => (res.queues.get .granted).length

variable {t t' : Table}

theorem lockTotal_modifyResource (key : ResourceKey) (f : Resource → Resource) :
    (t.modifyResource key f).lockTotal + (t.resource key).queued =
      t.lockTotal + (f (t.resource key)).queued :=
  Store.sum_set _ rfl ..

theorem grantedTotal_modifyResource (key : ResourceKey) (f : Resource → Resource) :
    (t.modifyResource key f).grantedTotal + ((t.resource key).queues.get .granted).length =
      t.grantedTotal + ((f (t.resource key)).queues.get .granted).length :=
  Store.sum_set t.resources (f := fun res => (res.queues.get .granted).length) rfl ..

theorem lockTotal_congr (same : ∀ key, (t'.resource key).queued = (t.resource key).queued) :
    t'.lockTotal = t.lockTotal :=
  Store.sum_congr rfl same

theorem grantedTotal_congr (same : ∀ key, (t'.resource key).queues = (t.resource key).queues) :
    t'.grantedTotal = t.grantedTotal := by
  refine Store.sum_congr rfl fun key => ?_
  have queues : (t'.resources.get key).queues = (t.resources.get key).queues := same key
  simp only [queues]

end Table

namespace Manager

/-- The locks on a queue of a resource, in order. -/
def queue (m : Manager) (r : ResourceRef) (q : Queue) : List LockKey :=
  (m.resource r).queues.get q

/-- The state once a lock has claimed a place on a queue. -/
def claimed (m : Manager) (l : LockKey) (q : Queue) : Manager :=
  m.modifyLock l fun lk => { lk with link := some q }

/-- The state once a lock has joined a queue of a resource, which then holds these locks. -/
def joined (m : Manager) (r : ResourceRef) (l : LockKey) (q : Queue) (locks : List LockKey) :
    Manager :=
  let lk := (m.claimed l q).lock l
  let queued := (m.claimed l q).modifyResource r fun res => res.joined l lk q locks
  let homed := queued.modifyLock l fun lk => { lk with home := some r }
  homed.modifySpace r.space fun s => { s with stats := s.stats.lockQueued q }

/-- The state once a lock has left a queue of a resource, which then is as given. -/
def departed (m : Manager) (r : ResourceRef) (l : LockKey) (q : Queue) (res : Resource) :
    Manager :=
  let left := m.modifyResource r fun _ => res
  let free := left.modifyLock l fun lk => { lk with link := none }
  free.modifySpace r.space fun s => { s with stats := s.stats.lockUnqueued q }

/-- What ties locks and queues together. A lock on a queue says so and has the resource of that
queue for its home, a lock that says it is on a queue is on one, every queue is in order, and the
counts of a namespace are those of its resources. -/
structure Seated (m : Manager) : Prop where
  home : ∀ r q, ∀ l ∈ m.queue r q, (m.lock l).home = some r
  linked : ∀ l q, (m.lock l).link = some q → ∃ r, l ∈ m.queue r q
  lined : ∀ r, (m.resource r).Lined m.lock
  locks : ∀ n, (m.space n).stats.locks = (m.space n).table.lockTotal
  granted : ∀ n, (m.space n).stats.granted = (m.space n).table.grantedTotal

/-- No destroyed lock is on a queue. -/
def Discharged (m : Manager) : Prop :=
  ∀ l, (m.lock l).isDestroyed → (m.lock l).link = none

variable {m m' : Manager} {r s : ResourceRef} {l k : LockKey} {q p : Queue} {n : SpaceKey}
  {locks : List LockKey} {res : Resource} {lk : Lock}

theorem lock_joined : (m.joined r l q locks).lock k =
    if k = l then { m.lock l with link := some q, home := some r } else m.lock k := by
  show ((Manager.modifyLock _ l _).modifySpace _ _).lock k = _
  rw [lock_modifySpace, lock_modifyLock, lock_modifyResource, lock_modifyResource, claimed,
    lock_modifyLock, lock_modifyLock, if_pos rfl]
  split
  · rfl
  · rfl

theorem lock_departed : (m.departed r l q res).lock k =
    if k = l then { m.lock l with link := none } else m.lock k := by
  show ((Manager.modifyLock _ l _).modifySpace _ _).lock k = _
  rw [lock_modifySpace, lock_modifyLock, lock_modifyResource, lock_modifyResource]

theorem mode_claimed : ((m.claimed l q).lock l).mode = (m.lock l).mode :=
  view_modifyLock (·.mode) rfl l

theorem table_joined : ((m.joined r l q locks).space n).table =
    if n = r.space then
      (m.space n).table.modifyResource r.key (·.joined l ((m.claimed l q).lock l) q locks)
    else (m.space n).table := by
  refine (view_modifySpace (·.table) rfl n).trans ?_
  rw [space_modifyLock, space_modifyResource]
  rfl

theorem table_departed : ((m.departed r l q res).space n).table =
    if n = r.space then (m.space n).table.modifyResource r.key fun _ => res
    else (m.space n).table := by
  refine (view_modifySpace (·.table) rfl n).trans ?_
  rw [space_modifyLock, space_modifyResource]

/-- A changed resource among those of all namespaces. -/
theorem resource_of_table {f : Resource → Resource}
    (table : ∀ n, (m'.space n).table = if n = r.space then
      (m.space n).table.modifyResource r.key f else (m.space n).table) :
    m'.resource s = if s = r then f (m.resource r) else m.resource s := by
  obtain ⟨n, key⟩ := s
  obtain ⟨home, other⟩ := r
  unfold Manager.resource
  rw [table]
  by_cases here : n = home
  · subst here
    simp only [if_pos, Table.resource_modifyResource, ResourceRef.mk.injEq, true_and]
  · simp [here]

theorem resource_joined : (m.joined r l q locks).resource s =
    if s = r then (m.resource r).joined l ((m.claimed l q).lock l) q locks else m.resource s :=
  resource_of_table fun _ => table_joined

theorem resource_departed : (m.departed r l q res).resource s =
    if s = r then res else m.resource s :=
  resource_of_table fun _ => table_departed

theorem stats_modifyResource (m : Manager) (r : ResourceRef) (f : Resource → Resource)
    (n : SpaceKey) : ((m.modifyResource r f).space n).stats = (m.space n).stats :=
  view_modifySpace (m := m) (·.stats) rfl n

theorem stats_joined : ((m.joined r l q locks).space n).stats =
    if n = r.space then (m.space n).stats.lockQueued q else (m.space n).stats := by
  have before := (m.claimed l q).stats_modifyResource r
    fun res => res.joined l ((m.claimed l q).lock l) q locks
  show ((Manager.modifySpace _ _ _).space n).stats = _
  rw [space_modifySpace]
  split
  · rename_i here
    rw [here]
    exact congrArg (Stats.lockQueued · q) (before r.space)
  · exact before n

theorem stats_departed : ((m.departed r l q res).space n).stats =
    if n = r.space then (m.space n).stats.lockUnqueued q else (m.space n).stats := by
  have before := m.stats_modifyResource r fun _ => res
  show ((Manager.modifySpace _ _ _).space n).stats = _
  rw [space_modifySpace]
  split
  · rename_i here
    rw [here]
    exact congrArg (Stats.lockUnqueued · q) (before r.space)
  · exact before n

theorem queue_joined : (m.joined r l q locks).queue s p =
    if s = r ∧ p = q then locks else m.queue s p := by
  unfold queue
  rw [resource_joined]
  by_cases here : s = r
  · subst here
    simp only [if_pos, Resource.get_queues_joined, true_and]
  · simp [here]

/-- The count of the locks of a namespace follows a lock that joins a queue. -/
theorem locks_joined (before : ∀ n, (m.space n).stats.locks = (m.space n).table.lockTotal)
    (n : SpaceKey) : ((m.joined r l q locks).space n).stats.locks =
      ((m.joined r l q locks).space n).table.lockTotal := by
  rw [stats_joined, table_joined]
  split
  · rename_i here
    subst here
    have change := (m.space r.space).table.lockTotal_modifyResource r.key
      (·.joined l ((m.claimed l q).lock l) q locks)
    rw [Resource.queued_joined] at change
    have counted := before r.space
    simp only [Stats.lockQueued]
    omega
  · exact before n

theorem granted_joined (before : ∀ n, (m.space n).stats.granted = (m.space n).table.grantedTotal)
    (longer : locks.length = (m.queue r q).length + 1) (n : SpaceKey) :
    ((m.joined r l q locks).space n).stats.granted =
      ((m.joined r l q locks).space n).table.grantedTotal := by
  rw [stats_joined, table_joined]
  split
  · rename_i here
    subst here
    have change := (m.space r.space).table.grantedTotal_modifyResource r.key
      (·.joined l ((m.claimed l q).lock l) q locks)
    rw [Resource.get_queues_joined] at change
    have counted := before r.space
    change locks.length = (((m.space r.space).table.resource r.key).queues.get q).length + 1 at longer
    simp only [Stats.lockQueued]
    split
    · rename_i granted
      subst granted
      rw [if_pos rfl] at change
      omega
    · rename_i other
      rw [if_neg (Ne.symm other)] at change
      omega
  · exact before n

/-- The count of the locks of a namespace follows a lock that leaves a queue. -/
theorem locks_departed (before : ∀ n, (m.space n).stats.locks = (m.space n).table.lockTotal)
    (fewer : res.queued + 1 = (m.resource r).queued) (n : SpaceKey) :
    ((m.departed r l q res).space n).stats.locks =
      ((m.departed r l q res).space n).table.lockTotal := by
  rw [stats_departed, table_departed]
  split
  · rename_i here
    subst here
    have change := (m.space r.space).table.lockTotal_modifyResource r.key fun _ => res
    have counted := before r.space
    change _ = ((m.space r.space).table.resource r.key).queued at fewer
    simp only [Stats.lockUnqueued]
    omega
  · exact before n

theorem granted_departed
    (before : ∀ n, (m.space n).stats.granted = (m.space n).table.grantedTotal)
    (fewer : (res.queues.get .granted).length + (if q = .granted then 1 else 0) =
      (m.queue r .granted).length) (n : SpaceKey) :
    ((m.departed r l q res).space n).stats.granted =
      ((m.departed r l q res).space n).table.grantedTotal := by
  rw [stats_departed, table_departed]
  split
  · rename_i here
    subst here
    have change := (m.space r.space).table.grantedTotal_modifyResource r.key fun _ => res
    have counted := before r.space
    change _ = (((m.space r.space).table.resource r.key).queues.get .granted).length at fewer
    simp only [Stats.lockUnqueued]
    split
    · rename_i granted
      rw [if_pos granted] at fewer
      omega
    · rename_i other
      rw [if_neg other] at fewer
      omega
  · exact before n

namespace Seated

theorem link (seated : Seated m) (member : l ∈ m.queue r q) : (m.lock l).link = some q :=
  (seated.lined r).link q l member

/-- A lock is on one queue at most. -/
theorem eq_of_mem (seated : Seated m) (here : l ∈ m.queue r q) (there : l ∈ m.queue s p) :
    s = r ∧ p = q := by
  have home := (seated.home s p l there).symm.trans (seated.home r q l here)
  have link := (seated.link there).symm.trans (seated.link here)
  exact ⟨Option.some.inj home, Option.some.inj link⟩

theorem not_mem (seated : Seated m) (free : (m.lock l).link = none) : l ∉ m.queue r q := by
  intro member
  rw [seated.link member] at free
  cases free

/-- What moves no lock keeps locks and queues tied together. -/
theorem unmoved (seated : Seated m) (still : Unmoved m m') : Seated m' := by
  have queue : ∀ r q, m'.queue r q = m.queue r q :=
    fun r q => congrArg (LockQueues.get · q) (still.queues r)
  refine ⟨?_, ?_, fun r => still.lined r (seated.lined r), ?_, ?_⟩
  · intro r q l member
    rw [queue] at member
    rw [still.home l (by rw [seated.link member]; exact Option.some_ne_none q)]
    exact seated.home r q l member
  · intro l q on
    rw [still.link] at on
    obtain ⟨r, member⟩ := seated.linked l q on
    exact ⟨r, by rw [queue]; exact member⟩
  · intro n
    have total : (m'.space n).table.lockTotal = (m.space n).table.lockTotal :=
      Table.lockTotal_congr fun key => still.queued ⟨n, key⟩
    rw [still.locks, seated.locks, total]
  · intro n
    have total : (m'.space n).table.grantedTotal = (m.space n).table.grantedTotal :=
      Table.grantedTotal_congr fun key => still.queues ⟨n, key⟩
    rw [still.granted, seated.granted, total]

/-- A lock that is on no queue may change as it likes, as long as it stays off. -/
theorem relock (seated : Seated m) {f : Lock → Lock} (free : (m.lock l).link = none)
    (still : (f (m.lock l)).link = none) : Seated (m.modifyLock l f) := by
  have others : ∀ r q, ∀ k ∈ m.queue r q, (m.modifyLock l f).lock k = m.lock k := by
    intro r q k member
    rw [lock_modifyLock, if_neg]
    rintro rfl
    exact seated.not_mem free member
  have links := view_modifyLock (·.link) (still.trans free.symm)
  refine ⟨?_, ?_, ?_, seated.locks, seated.granted⟩
  · intro r q k member
    rw [others r q k member]
    exact seated.home r q k member
  · intro k q on
    rw [links] at on
    exact seated.linked k q on
  · intro r
    refine (seated.lined r).others fun q k member => ?_
    rw [others r q k member]
    exact ⟨rfl, rfl⟩

/-- A lock that is on no queue joins one. -/
theorem joined (seated : Seated m) (free : (m.lock l).link = none)
    (order : locks.Perm (l :: m.queue r q)) : Seated (m.joined r l q locks) := by
  refine ⟨?_, ?_, ?_, ?_, ?_⟩
  · intro s p k member
    rw [queue_joined] at member
    rw [lock_joined]
    split at member
    · rename_i here
      obtain ⟨rfl, rfl⟩ := here
      split
      · rfl
      · rename_i other
        exact seated.home s p k ((List.mem_cons.mp (order.mem_iff.mp member)).resolve_left other)
    · rw [if_neg]
      · exact seated.home s p k member
      · rintro rfl
        exact seated.not_mem free member
  · intro k p on
    rw [lock_joined] at on
    split at on
    · rename_i same
      cases on
      refine ⟨r, ?_⟩
      rw [queue_joined, if_pos ⟨rfl, rfl⟩, same]
      exact order.mem_iff.mpr (List.mem_cons_self ..)
    · obtain ⟨s, member⟩ := seated.linked k p on
      refine ⟨s, ?_⟩
      rw [queue_joined]
      split
      · rename_i here
        obtain ⟨rfl, rfl⟩ := here
        exact order.mem_iff.mpr (List.mem_cons_of_mem l member)
      · exact member
  · intro s
    have others : ∀ k, k ≠ l → ((m.joined r l q locks).lock k).link = (m.lock k).link ∧
        ((m.joined r l q locks).lock k).mode = (m.lock k).mode := by
      intro k other
      rw [lock_joined, if_neg other]
      exact ⟨rfl, rfl⟩
    rw [resource_joined]
    split
    · refine (seated.lined r).joined (fun p => seated.not_mem free) order others ?_ ?_
      · rw [lock_joined, if_pos rfl]
      · rw [lock_joined, if_pos rfl, mode_claimed]
    · refine (seated.lined s).others fun p k member => others k ?_
      rintro rfl
      exact seated.not_mem free member
  · exact locks_joined seated.locks
  · exact granted_joined seated.granted order.length_eq

/-- Only the queue that a lock was on has lost it. -/
theorem queue_departed (seated : Seated m) (member : l ∈ m.queue r q)
    (queues : res.queues = (m.resource r).queues.set q ((m.queue r q).erase l))
    (s : ResourceRef) (p : Queue) : (m.departed r l q res).queue s p = (m.queue s p).erase l := by
  unfold Manager.queue
  rw [resource_departed]
  by_cases here : s = r
  · subst here
    rw [if_pos rfl, queues, LockQueues.get_set]
    split
    · rename_i same
      rw [same, Manager.queue]
    · rename_i elsewhere
      refine (List.erase_of_not_mem fun again => ?_).symm
      exact elsewhere (seated.eq_of_mem member again).2
  · rw [if_neg here]
    refine (List.erase_of_not_mem fun again => ?_).symm
    exact here (seated.eq_of_mem member again).1

/-- A lock on a queue can leave it. -/
theorem departed (seated : Seated m) (member : l ∈ m.queue r q) :
    ∃ res, (m.resource r).departed l (m.lock l) q = .ok res ∧
      Seated (m.departed r l q res) ∧ ∀ s p, (m.departed r l q res).queue s p =
        (m.queue s p).erase l := by
  have others : ∀ res k, k ≠ l → ((m.departed r l q res).lock k).link = (m.lock k).link ∧
      ((m.departed r l q res).lock k).mode = (m.lock k).mode := by
    intro res k other
    rw [lock_departed, if_neg other]
    exact ⟨rfl, rfl⟩
  obtain ⟨res, left, -, queues⟩ := (seated.lined r).departed member fun _ _ => ⟨rfl, rfl⟩
  obtain ⟨same, again, lined, -⟩ := (seated.lined r).departed member (others res)
  obtain rfl : res = same := Except.ok.inj (left.symm.trans again)
  have queue : ∀ s p, (m.departed r l q res).queue s p = (m.queue s p).erase l :=
    seated.queue_departed member queues
  have stays : ∀ s p k, k ≠ l → k ∈ m.queue s p → k ∈ (m.departed r l q res).queue s p := by
    intro s p k other inside
    rw [queue]
    exact (List.mem_erase_of_ne other).mpr inside
  have left' : ∀ s p k, k ∈ (m.departed r l q res).queue s p → k ∈ m.queue s p ∧ k ≠ l := by
    intro s p k inside
    rw [queue] at inside
    exact (((seated.lined s).nodup p).mem_erase_iff.mp inside).symm
  have counts := (seated.lined r).counts_of_erased lined member queues
  refine ⟨res, left, ⟨?_, ?_, ?_, ?_, ?_⟩, queue⟩
  · intro s p k inside
    obtain ⟨before, other⟩ := left' s p k inside
    rw [lock_departed, if_neg other]
    exact seated.home s p k before
  · intro k p on
    rw [lock_departed] at on
    split at on
    · cases on
    · rename_i other
      obtain ⟨s, inside⟩ := seated.linked k p on
      exact ⟨s, stays s p k other inside⟩
  · intro s
    rw [resource_departed]
    split
    · exact lined
    · rename_i elsewhere
      refine (seated.lined s).others fun p k inside => others res k ?_
      rintro rfl
      exact elsewhere (seated.eq_of_mem member inside).1
  · exact locks_departed seated.locks counts.1
  · exact granted_departed seated.granted counts.2

end Seated

namespace Discharged

theorem unmoved (discharged : Discharged m) (still : Unmoved m m') : Discharged m' := by
  intro l gone
  rw [still.destroyed] at gone
  rw [still.link]
  exact discharged l gone

/-- A lock may change as it likes, as long as it is not both destroyed and on a queue. -/
theorem others (discharged : Discharged m) (same : ∀ k, k ≠ l → m'.lock k = m.lock k)
    (own : (m'.lock l).isDestroyed → (m'.lock l).link = none) : Discharged m' := by
  intro k gone
  by_cases here : k = l
  · subst here
    exact own gone
  · rw [same k here] at gone ⊢
    exact discharged k gone

theorem joined (discharged : Discharged m) (whole : (m.lock l).isDestroyed = false) :
    Discharged (m.joined r l q locks) := by
  refine discharged.others (l := l) (fun k other => by rw [lock_joined, if_neg other]) ?_
  rw [lock_joined, if_pos rfl]
  intro gone
  change (m.lock l).isDestroyed = true at gone
  rw [whole] at gone
  cases gone

theorem departed (discharged : Discharged m) : Discharged (m.departed r l q res) := by
  refine discharged.others (l := l) (fun k other => by rw [lock_departed, if_neg other]) ?_
  rw [lock_departed, if_pos rfl]
  exact fun _ => rfl

end Discharged

end Manager

end Lockspace
