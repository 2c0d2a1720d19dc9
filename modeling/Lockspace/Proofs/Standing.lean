import Lockspace.Manager.Locks
import Lockspace.Proofs.Endings
import Lockspace.Proofs.StoreSum
import Mathlib.Data.Multiset.Count
import Mathlib.Algebra.Order.Group.Multiset

namespace Lockspace

namespace Fault

/-- The faults about references and the entries of tables. -/
def isMiscount : Fault → Bool
  | referencedAfterRelease _ | releasedTooOften _ | notInBucket _ | emptiedUnreferenced _
  | referenceUnderflow _ => true
  | _ => false

/-- The faults about references, tables, and the queues and counts of locks. -/
def isDisorder : Fault → Bool
  | releasedWithLocks .. | modeGroupUnderflow _ | alreadyQueued .. | anchorNotQueued ..
  | anchorElsewhere .. | claimsAbsent .. => true
  | other => other.isMiscount

theorem not_isMiscount_of_not_isDisorder {fault : Fault} (calm : fault.isDisorder = false) :
    fault.isMiscount = false := by
  cases fault <;> first | exact calm | rfl

end Fault

/-- What counts about a lock for references and queues: where it is queued, where its home is,
which reference it owns and its mode. -/
def Lock.standing (lk : Lock) : Option Queue × Option ResourceRef × Option ResourceRef × LockMode :=
  (lk.link, lk.home, lk.bound, lk.mode)

/-- What counts about a namespace: its table, and how many hold it. -/
def Namespace.standing (s : Namespace) : Table × Nat :=
  (s.table, s.owners)

/-- The resources of a namespace on which a lock owns a reference, which is at most one. -/
def Lock.ownedKeys (lk : Lock) (n : SpaceKey) : Multiset ResourceKey :=
  match lk.bound with
  | some r => if r.space = n then {r.key} else 0
  | none => 0

namespace Manager

theorem space_modifySpace (m : Manager) (n k : SpaceKey) (f : Namespace → Namespace) :
    (m.modifySpace n f).space k = if k = n then f (m.space n) else m.space k :=
  Store.get_set ..

theorem lock_modifyLock (m : Manager) (l k : LockKey) (f : Lock → Lock) :
    (m.modifyLock l f).lock k = if k = l then f (m.lock l) else m.lock k :=
  Store.get_set ..

@[simp] theorem lock_modifySpace (m : Manager) (n : SpaceKey) (l : LockKey)
    (f : Namespace → Namespace) : (m.modifySpace n f).lock l = m.lock l :=
  rfl

@[simp] theorem lock_modifyResource (m : Manager) (r : ResourceRef) (l : LockKey)
    (f : Resource → Resource) : (m.modifyResource r f).lock l = m.lock l :=
  rfl

@[simp] theorem space_modifyLock (m : Manager) (l : LockKey) (n : SpaceKey) (f : Lock → Lock) :
    (m.modifyLock l f).space n = m.space n :=
  rfl

theorem table_setTable (m : Manager) (n : SpaceKey) (t : Table) :
    ((m.setTable n t).space n).table = t := by
  rw [setTable, space_modifySpace, if_pos rfl]

theorem setTable_setTable (m : Manager) (n : SpaceKey) (t t' : Table) :
    (m.setTable n t).setTable n t' = m.setTable n t' := by
  unfold setTable modifySpace setSpace
  simp only [space, Store.set_set, Store.get_set_self]

theorem owners_setTable (m : Manager) (n : SpaceKey) (t : Table) :
    ((m.setTable n t).space n).owners = (m.space n).owners := by
  rw [setTable, space_modifySpace, if_pos rfl]

/-- Two states in which one namespace and every lock stand alike. -/
structure Agrees (n : SpaceKey) (m m' : Manager) : Prop where
  space : (m'.space n).standing = (m.space n).standing
  locks : ∀ l, (m'.lock l).standing = (m.lock l).standing

variable {n : SpaceKey} {m m' m'' : Manager}

theorem Agrees.rfl : Agrees n m m :=
  ⟨Eq.refl _, fun _ => Eq.refl _⟩

theorem Agrees.trans (first : Agrees n m m') (second : Agrees n m' m'') : Agrees n m m'' where
  space := second.space.trans first.space
  locks l := (second.locks l).trans (first.locks l)

theorem Agrees.table (agrees : Agrees n m m') : (m'.space n).table = (m.space n).table :=
  congrArg (·.1) agrees.space

theorem Agrees.owners (agrees : Agrees n m m') : (m'.space n).owners = (m.space n).owners :=
  congrArg (·.2) agrees.space

theorem agrees_modifyLock (l : LockKey) {f : Lock → Lock}
    (keeps : (f (m.lock l)).standing = (m.lock l).standing) : Agrees n m (m.modifyLock l f) := by
  refine ⟨rfl, fun k => ?_⟩
  rw [lock_modifyLock]
  split
  · rename_i same
    rw [keeps, same]
  · rfl

theorem agrees_modifySpace (k : SpaceKey) {f : Namespace → Namespace}
    (keeps : (f (m.space k)).standing = (m.space k).standing) : Agrees n m (m.modifySpace k f) := by
  refine ⟨?_, fun _ => rfl⟩
  rw [space_modifySpace]
  split
  · rename_i same
    rw [keeps, same]
  · rfl

/-- The references that all locks together own in a namespace. -/
def boundKeys (m : Manager) (n : SpaceKey) : Multiset ResourceKey :=
  m.locks.sum (·.ownedKeys n)

theorem boundKeys_congr (same : ∀ l, (m'.lock l).bound = (m.lock l).bound) :
    m'.boundKeys n = m.boundKeys n := by
  refine Store.sum_congr rfl fun l => ?_
  have bound : (m'.locks.get l).bound = (m.locks.get l).bound := same l
  simp only [Lock.ownedKeys, bound]

theorem boundKeys_modifyLock (m : Manager) (l : LockKey) (f : Lock → Lock) :
    (m.modifyLock l f).boundKeys n + (m.lock l).ownedKeys n =
      m.boundKeys n + (f (m.lock l)).ownedKeys n :=
  Store.sum_set _ rfl ..

theorem Agrees.bound (agrees : Agrees n m m') (l : LockKey) :
    (m'.lock l).bound = (m.lock l).bound :=
  congrArg (·.2.2.1) (agrees.locks l)

theorem Agrees.boundKeys (agrees : Agrees n m m') : m'.boundKeys n = m.boundKeys n :=
  boundKeys_congr agrees.bound

theorem boundKeys_eq_zero (unbound : ∀ l, (m.lock l).bound = none) : m.boundKeys n = 0 := by
  refine Store.sum_of_zero _ rfl fun l => ?_
  have bound : (m.locks.get l).bound = none := unbound l
  simp only [Lock.ownedKeys, bound]

/-- Every resource on which a lock owns a reference is among those that all locks own. -/
theorem mem_boundKeys {l : LockKey} {key : ResourceKey} (bound : (m.lock l).bound = some ⟨n, key⟩) :
    key ∈ m.boundKeys n := by
  obtain ⟨rest, split⟩ := m.locks.exists_sum_eq (f := (·.ownedKeys n)) rfl l
  have owned : (m.locks.get l).ownedKeys n = {key} := by
    have same : (m.locks.get l).bound = some ⟨n, key⟩ := bound
    simp [Lock.ownedKeys, same]
  rw [Manager.boundKeys, split, owned]
  simp

/-- How often a resource is among them is the number of locks that own a reference on it. -/
theorem count_boundKeys (m : Manager) (n : SpaceKey) (key : ResourceKey) :
    (m.boundKeys n).count key = m.locks.toList.countP (·.bound = some ⟨n, key⟩) := by
  unfold Manager.boundKeys Store.sum
  induction m.locks.toList with
  | nil => rfl
  | cons lk rest ih =>
    rw [List.map_cons, List.sum_cons, Multiset.count_add, ih, List.countP_cons, Nat.add_comm]
    congr 1
    cases bound : lk.bound with
    | none => simp [Lock.ownedKeys, bound]
    | some r =>
      obtain ⟨space, k⟩ := r
      by_cases here : space = n
      · simp [Lock.ownedKeys, bound, here, Multiset.count_singleton, eq_comm]
      · simp [Lock.ownedKeys, bound, here]

/-- Taking the reference of a lock away takes it off those that all locks own. -/
theorem boundKeys_of_unbound {l : LockKey} {key : ResourceKey}
    (bound : (m.lock l).bound = some ⟨n, key⟩) : m.boundKeys n =
      key ::ₘ (m.modifyLock l fun lk => { lk with bound := none }).boundKeys n := by
  have change := m.boundKeys_modifyLock (n := n) l fun lk => { lk with bound := none }
  have before : (m.lock l).ownedKeys n = {key} := by simp [Lock.ownedKeys, bound]
  rw [before] at change
  rw [← Multiset.singleton_add, add_comm, change]
  exact (add_zero _).symm

/-- Giving a lock a reference adds it to those that all locks own, in place of an old one. -/
theorem boundKeys_of_bound (m : Manager) (n : SpaceKey) (l : LockKey) (key : ResourceKey) :
    (m.modifyLock l fun lk => { lk with bound := some ⟨n, key⟩ }).boundKeys n +
      (m.lock l).ownedKeys n = key ::ₘ m.boundKeys n := by
  have after : Lock.ownedKeys { m.lock l with bound := some ⟨n, key⟩ } n = {key} := by
    simp [Lock.ownedKeys]
  rw [boundKeys_modifyLock, after, add_comm, Multiset.singleton_add]

end Manager

end Lockspace
