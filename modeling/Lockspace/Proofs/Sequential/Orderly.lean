import Lockspace.Proofs.Sequential.Queued
import Lockspace.Proofs.SpaceLife
import Lockspace.Proofs.TableReleases

namespace Lockspace

open Manager Table

/-- What holds of a namespace between any two calls, where callers have the references `hands` and
`holds` holds. The references of callers and of locks together are those that the table counts. A
lock on a queue owns a reference on the resource of that queue, which is its home, and all queues
are in order. -/
structure Orderly (n : SpaceKey) (m : Manager) (hands : Multiset ResourceKey) (holds : Nat) :
    Prop where
  tallied : (m.space n).table.Tallied (hands + m.boundKeys n) 0 holds
  owned : 0 < (m.space n).owners
  spaces : ∀ l r, (m.lock l).bound = some r → r.space = n
  linked : ∀ l q, (m.lock l).link = some q → ∃ key, (m.lock l).bound = some ⟨n, key⟩ ∧
    (m.lock l).home = some ⟨n, key⟩ ∧ l ∈ ((m.space n).table.resource key).queues.get q
  queued : ∀ key, ((m.space n).table.resource key).Queued ⟨n, key⟩ m.lock

namespace Orderly

variable {n : SpaceKey} {m m' : Manager} {hands hands' : Multiset ResourceKey}
  {holds holds' : Nat} {l : LockKey} {key : ResourceKey} {q : Queue}

theorem of_fresh (fresh : Fresh n m) : Orderly n m 0 0 := by
  obtain ⟨preset, salt, least, sound, table⟩ := fresh.table
  have bound : ∀ l, (m.lock l).bound = none := fun l => congrArg (·.2.2.1) (fresh.locks l)
  have link : ∀ l, (m.lock l).link = none := fun l => congrArg (·.1) (fresh.locks l)
  have blank : ∀ key, (m.space n).table.resource key = default := by
    intro key
    rw [table]
    exact Store.get_of_size_le _ (Nat.zero_le _)
  refine ⟨?_, ?_, ?_, ?_, ?_⟩
  · rw [boundKeys_eq_zero bound, table]
    exact .new sound salt least
  · rw [fresh.owners]
    exact Nat.one_pos
  · intro l r owned
    rw [bound] at owned
    cases owned
  · intro l q on
    rw [link] at on
    cases on
  · intro key
    rw [blank]
    exact Resource.queued_of_empty rfl rfl rfl

/-- A lock that is on no queue, as far as it says, is on none. -/
theorem not_mem_of_unlinked (orderly : Orderly n m hands holds) (free : (m.lock l).link = none)
    (key : ResourceKey) (q : Queue) : l ∉ ((m.space n).table.resource key).queues.get q := by
  intro member
  rw [((orderly.queued key).member q l member).1] at free
  cases free

theorem agrees (orderly : Orderly n m hands holds) (agrees : Agrees n m m') :
    Orderly n m' hands holds where
  tallied := by
    rw [agrees.table, agrees.boundKeys]
    exact orderly.tallied
  owned := by
    rw [agrees.owners]
    exact orderly.owned
  spaces := by
    intro l r bound
    rw [agrees.bound] at bound
    exact orderly.spaces l r bound
  linked := by
    intro l q on
    have link : (m'.lock l).link = (m.lock l).link := congrArg (·.1) (agrees.locks l)
    have home : (m'.lock l).home = (m.lock l).home := congrArg (·.2.1) (agrees.locks l)
    rw [link] at on
    rw [agrees.bound, home, agrees.table]
    exact orderly.linked l q on
  queued := by
    intro key
    rw [agrees.table]
    exact (orderly.queued key).others fun q k _ => agrees.locks k

/-- Another table in which no lock has moved. -/
theorem retable (orderly : Orderly n m hands holds) {t : Table}
    (tallied : t.Tallied (hands' + m.boundKeys n) 0 holds')
    (queued : ∀ key, (t.resource key).Queued ⟨n, key⟩ m.lock)
    (queues : ∀ key ∈ m.boundKeys n,
      (t.resource key).queues = ((m.space n).table.resource key).queues) :
    Orderly n (m.setTable n t) hands' holds' where
  tallied := by
    rw [table_setTable]
    exact tallied
  owned := by
    rw [owners_setTable]
    exact orderly.owned
  spaces := orderly.spaces
  linked := by
    intro l q on
    obtain ⟨key, bound, home, member⟩ := orderly.linked l q on
    rw [table_setTable]
    exact ⟨key, bound, home, by rw [queues key (mem_boundKeys bound)]; exact member⟩
  queued := by
    rw [table_setTable]
    exact queued

theorem alike (orderly : Orderly n m hands holds) {t : Table}
    (tallied : t.Tallied (hands' + m.boundKeys n) 0 holds')
    (alike : (m.space n).table.Alike t) : Orderly n (m.setTable n t) hands' holds' := by
  refine orderly.retable tallied (fun key => ?_) fun key _ => ?_
  · obtain ⟨count, same⟩ := alike key
    rw [same]
    exact (orderly.queued key).recounted count
  · obtain ⟨count, same⟩ := alike key
    rw [same]

/-- A lock that is on no queue changes: its home, or the reference that it owns. -/
theorem relock (orderly : Orderly n m hands holds) {f : Lock → Lock}
    (free : (m.lock l).link = none) (still : (f (m.lock l)).link = none)
    (space : ∀ r, (f (m.lock l)).bound = some r → r.space = n)
    (balance : hands' + (m.modifyLock l f).boundKeys n = hands + m.boundKeys n) :
    Orderly n (m.modifyLock l f) hands' holds where
  tallied := by
    rw [balance]
    exact orderly.tallied
  owned := orderly.owned
  spaces := by
    intro k r bound
    rw [lock_modifyLock] at bound
    split at bound
    · exact space r bound
    · exact orderly.spaces k r bound
  linked := by
    intro k q on
    rw [lock_modifyLock] at on
    split at on
    · rw [still] at on
      cases on
    · rename_i other
      rw [lock_modifyLock, if_neg other]
      exact orderly.linked k q on
  queued := by
    intro key
    refine (orderly.queued key).others fun q k member => ?_
    have other : k ≠ l := by
      rintro rfl
      exact orderly.not_mem_of_unlinked free key q member
    rw [lock_modifyLock, if_neg other]

/-- A resource on which neither a caller nor a lock has a reference has no locks. -/
theorem unused (orderly : Orderly n m hands holds) (none : key ∉ m.boundKeys n) :
    ((m.space n).table.resource key).queued = 0 :=
  (orderly.queued key).unused fun _ bound => none (mem_boundKeys bound)

/-- A lock that owns a reference on a resource gets onto a queue of it or off one. -/
theorem moved (orderly : Orderly n m hands holds) (bound : (m.lock l).bound = some ⟨n, key⟩)
    {res : Resource} (id : res.id = ((m.space n).table.resource key).id)
    (bucket : res.bucket = ((m.space n).table.resource key).bucket)
    (count : res.refcount = ((m.space n).table.resource key).refcount)
    (table : (m'.space n).table = (m.space n).table.modifyResource key fun _ => res)
    (owners : (m'.space n).owners = (m.space n).owners)
    (others : ∀ k, k ≠ l → (m'.lock k).standing = (m.lock k).standing)
    (own : (m'.lock l).bound = (m.lock l).bound) (queued : res.Queued ⟨n, key⟩ m'.lock)
    (stay : ∀ k, k ≠ l → ∀ q, k ∈ ((m.space n).table.resource key).queues.get q →
      k ∈ res.queues.get q)
    (linked : ∀ q, (m'.lock l).link = some q →
      (m'.lock l).home = some ⟨n, key⟩ ∧ l ∈ res.queues.get q) :
    Orderly n m' hands holds := by
  have bounds : ∀ k, (m'.lock k).bound = (m.lock k).bound := by
    intro k
    by_cases same : k = l
    · rw [same, own]
    · exact congrArg (·.2.2.1) (others k same)
  have live : key ∈ hands + m.boundKeys n + 0 := by simp [mem_boundKeys bound]
  have resource : ∀ k, (m'.space n).table.resource k =
      if k = key then res else (m.space n).table.resource k := by
    intro k
    rw [table, resource_modifyResource]
  refine ⟨?_, ?_, ?_, ?_, ?_⟩
  · rw [boundKeys_congr bounds, table]
    refine orderly.tallied.sameEntries
      (sameEntries_modifyResource (orderly.tallied.known key live) id bucket) fun k => ?_
    rw [← table, resource]
    split
    · rename_i same
      rw [same, count]
    · rfl
  · rw [owners]
    exact orderly.owned
  · intro k r owned
    rw [bounds] at owned
    exact orderly.spaces k r owned
  · intro k q on
    rw [bounds]
    by_cases same : k = l
    · subst same
      obtain ⟨home, member⟩ := linked q on
      exact ⟨key, bound, home, by rw [resource, if_pos rfl]; exact member⟩
    · have link : (m'.lock k).link = (m.lock k).link := congrArg (·.1) (others k same)
      have home : (m'.lock k).home = (m.lock k).home := congrArg (·.2.1) (others k same)
      rw [link] at on
      obtain ⟨other, owned, lives, member⟩ := orderly.linked k q on
      refine ⟨other, owned, home.trans lives, ?_⟩
      rw [resource]
      split
      · rename_i here
        subst here
        exact stay k same q member
      · exact member
  · intro other
    rw [resource]
    split
    · rename_i here
      rw [here]
      exact queued
    · rename_i elsewhere
      refine (orderly.queued other).others fun q k member => others k ?_
      -- The lock owns a reference on the resource that changes, so it is on no queue of another.
      rintro rfl
      rw [((orderly.queued other).member q k member).2] at bound
      cases bound
      exact elsewhere rfl

/-- A lock with a reference on a resource joins a queue of it. -/
theorem joined (orderly : Orderly n m hands holds) (free : (m.lock l).link = none)
    (bound : (m.lock l).bound = some ⟨n, key⟩) {locks : List LockKey} (lk : Lock)
    (mode : lk.mode = (m.lock l).mode)
    (order : locks.Perm (l :: ((m.space n).table.resource key).queues.get q))
    (table : (m'.space n).table = (m.space n).table.modifyResource key (·.joined l lk q locks))
    (owners : (m'.space n).owners = (m.space n).owners)
    (own : (m'.lock l).standing = (some q, some ⟨n, key⟩, some ⟨n, key⟩, (m.lock l).mode))
    (others : ∀ k, k ≠ l → (m'.lock k).standing = (m.lock k).standing) :
    Orderly n m' hands holds := by
  have link : (m'.lock l).link = some q := congrArg (·.1) own
  have home : (m'.lock l).home = some ⟨n, key⟩ := congrArg (·.2.1) own
  have still : (m'.lock l).bound = some ⟨n, key⟩ := congrArg (·.2.2.1) own
  have modes : (m'.lock l).mode = lk.mode := (congrArg (·.2.2.2) own).trans mode.symm
  obtain ⟨id, bucket, count⟩ :=
    ((m.space n).table.resource key).joined_keeps l lk q locks
  refine orderly.moved bound id bucket count table owners others (still.trans bound.symm) ?_ ?_ ?_
  · exact (orderly.queued key).joined (orderly.not_mem_of_unlinked free key) order others link
      still modes
  · intro k _ p member
    rw [Resource.get_queues_joined]
    split
    · rename_i here
      rw [here] at member
      exact order.mem_iff.mpr (List.mem_cons_of_mem l member)
    · exact member
  · intro p on
    rw [link] at on
    cases on
    rw [Resource.get_queues_joined, if_pos rfl]
    exact ⟨home, order.mem_iff.mpr (List.mem_cons_self ..)⟩

/-- A lock that is on a queue of a resource can leave it. -/
theorem departed (orderly : Orderly n m hands holds)
    (member : l ∈ ((m.space n).table.resource key).queues.get q) :
    ∃ res, ((m.space n).table.resource key).departed l (m.lock l) q = .ok res ∧
      ∀ m' : Manager, (m'.space n).table = (m.space n).table.modifyResource key (fun _ => res) →
        (m'.space n).owners = (m.space n).owners →
        (∀ k, k ≠ l → (m'.lock k).standing = (m.lock k).standing) →
        (m'.lock l).link = none → (m'.lock l).bound = (m.lock l).bound →
        Orderly n m' hands holds := by
  have bound := ((orderly.queued key).member q l member).2
  obtain ⟨res, left, -, queues⟩ := (orderly.queued key).departed member fun _ _ => rfl
  obtain ⟨id, bucket, count⟩ := Resource.departed_keeps left
  refine ⟨res, left, fun m' table owners others link own => ?_⟩
  obtain ⟨same, again, queued, -⟩ := (orderly.queued key).departed member others
  obtain rfl : res = same := Except.ok.inj (left.symm.trans again)
  refine orderly.moved bound id bucket count table owners others own queued ?_ ?_
  · intro k other p on
    rw [queues, LockQueues.get_set]
    split
    · rename_i here
      rw [here] at on
      exact (List.mem_erase_of_ne other).mpr on
    · exact on
  · intro p on
    rw [link] at on
    cases on

end Orderly

end Lockspace
