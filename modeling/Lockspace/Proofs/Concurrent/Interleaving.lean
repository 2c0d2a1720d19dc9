import Lockspace.Manager.Spaces
import Mathlib.Data.Multiset.Count
import Mathlib.Algebra.Order.Group.Multiset
import Mathlib.Algebra.BigOperators.Group.Multiset.Basic

namespace Lockspace

/-- What some thread has at hand in a namespace or stands in the middle of. Between two steps of one
activity any other may take one. -/
inductive Activity where
  /-- A reference that a caller holds. -/
  | handle (key : ResourceKey)
  /-- A hold on the namespace that is not yet given back. -/
  | hold
  /-- The answer of a release: whether the resource is gone with it. -/
  | answered (key : ResourceKey) (freed : Bool)
  /-- A lookup of an id, of a kind to create if need and leave be. -/
  | seeking (id : ResourceId) (rtype : ResourceType) (create : Bool)
  /-- An insertion after a lookup that found nothing at a version of the bucket. -/
  | creating (id : ResourceId) (rtype : ResourceType) (seen : Nat)
  | announcing (key : ResourceKey) (firstInBucket : Bool) (bref : Nat)
  | cloning (key : ResourceKey)
  /-- A release that is about to read the count, or has read so many references. -/
  | releasing (key : ResourceKey)
  | comparing (key : ResourceKey) (seen : Nat)
  /-- A release that saw one reference and is about to lock the bucket. -/
  | locking (key : ResourceKey)
  /-- A release that took the last reference and still has the bucket locked. -/
  | evicting (key : ResourceKey)
  | telling (key : ResourceKey) (bucketEmptied : Bool) (bref : Nat)
  /-- A listing with some buckets left to visit and some references taken. -/
  | listing (todo : List BucketKey) (found : List ResourceKey)
  | binding (l : LockKey) (key : ResourceKey)
  | unbinding (l : LockKey)
  /-- A destruction of a lock: it leaves its queue, then the unused locks, then its resource. -/
  | destroying (l : LockKey)
  | reaping (l : LockKey)
  | forgetting (l : LockKey)
  | claiming
  | yielding
  | signalling
deriving DecidableEq

namespace Act

/-- Takes a resource that lost its last reference out of its table. -/
def evict (r : ResourceRef) : Act Release := do
  let (t, answer) := (← space r.space).table.evict r.key
  setTable r.space t
  ofExcept answer

/-- References all resources of one bucket. -/
def snapshotBucket (n : SpaceKey) (b : BucketKey) : Act (List ResourceKey) := do
  let (keys, t) ← ofExcept ((← space n).table.snapshotBucket b)
  setTable n t
  return keys

/-- Drops a reference if there still are as many as were seen. Otherwise tells how many there
are. -/
def exchange (r : ResourceRef) (seen : Nat) : Act (Option Nat) := do
  let t := (← space r.space).table
  match t.exchange? r.key seen with
  | some t' =>
    setTable r.space t'
    return none
  | none => return some (t.resource r.key).refcount

/-- Drops a reference under the lock of the bucket and tells whether it was the last. -/
def dropLocked (r : ResourceRef) : Act Bool := do
  let (last, t) := (← space r.space).table.dropLocked r.key
  setTable r.space t
  return last

end Act

namespace Activity

/-- The next atomic step of an activity and what comes of it. What rests stays as it is. -/
def advance (n : SpaceKey) : Activity → Act (List Activity)
  | seeking id rtype create => do
    if id.seq = 0 then throw (.emptyFirstWord id)
    match ← Act.lookupLocked n ((← Act.space n).table.bucketOf id) id with
    | .found key => return [handle key]
    | .missing seen => return if create then [creating id rtype seen] else []
  | creating id rtype seen => do
    let b := (← Act.space n).table.bucketOf id
    match ← Act.insertLocked n b (← Act.newResource n id rtype) seen with
    | .raceLost winner => return [handle winner]
    | .inserted key firstInBucket bref => return [announcing key firstInBucket bref]
  | announcing key firstInBucket bref => do
    Act.announce ⟨n, key⟩ firstInBucket bref
    return [handle key]
  | cloning key => do
    Act.retain ⟨n, key⟩
    return [handle key, handle key]
  | releasing key => return [comparing key (← Act.resource ⟨n, key⟩).refcount]
  | comparing key seen => do
    if seen = 0 then throw (.releasedTooOften (← Act.resource ⟨n, key⟩).id)
    if seen = 1 then return [locking key]
    match ← Act.exchange ⟨n, key⟩ seen with
    | none => return [answered key false]
    | some actual => return [comparing key actual]
  | locking key => return if ← Act.dropLocked ⟨n, key⟩ then [evicting key] else [answered key false]
  | evicting key => do
    match ← Act.evict ⟨n, key⟩ with
    | .kept => return [answered key false]
    | .freed bucketEmptied bref => return [telling key bucketEmptied bref]
  | telling key bucketEmptied bref =>
    return [answered key (← Act.afterRelease ⟨n, key⟩ (.freed bucketEmptied bref))]
  | listing [] found => return found.map handle
  | listing (b :: todo) found => return [listing todo (found ++ (← Act.snapshotBucket n b))]
  | binding l key => return (← Act.rebind l ⟨n, key⟩).toList.map (releasing ·.key)
  | unbinding l => return (← Act.unbind l).toList.map (handle ·.key)
  | destroying l => return if ← Act.unlinkAndMark l then [reaping l] else []
  | reaping l => do
    discard (Act.lockReused n l)
    return [forgetting l]
  | forgetting l => return (← Act.unbind l).toList.map (releasing ·.key)
  | claiming => do
    discard (Act.takeHold n)
    return [hold]
  | yielding => return if (← Act.dropHoldCount n) = 0 then [signalling] else []
  | signalling => do
    Act.signal n
    return []
  | resting => return [resting]

/-- The calls that need nothing at hand. -/
def IsCall : Activity → Prop
  | seeking .. | listing _ [] | unbinding _ | destroying _ | forgetting _ | claiming => True
  | _ => False

/-- What a caller may do with what is at hand: duplicate a reference, release it or hand it to a
lock, and give a hold back. -/
inductive Uses : Activity → Activity → Prop
  | clone (key : ResourceKey) : Uses (handle key) (cloning key)
  | release (key : ResourceKey) : Uses (handle key) (releasing key)
  | bind (key : ResourceKey) (l : LockKey) : Uses (handle key) (binding l key)
  | yield : Uses hold yielding

/-- The bucket that an activity must lock for its next step. -/
def awaits (t : Table) : Activity → Option BucketKey
  | seeking id _ _ | creating id _ _ => some (t.bucketOf id)
  | locking key => some (t.resource key).bucket
  | listing (b :: _) _ => some b
  | _ => none

/-- The bucket that an activity has locked. -/
def locked (t : Table) : Activity → Option BucketKey
  | evicting key => some (t.resource key).bucket
  | _ => none

/-- Whether the lock that the next step of an activity needs is not taken by another one. -/
def MayStep (a : Activity) (t : Table) (others : Multiset Activity) : Prop :=
  ∀ b, a.awaits t = some b → ∀ other ∈ others, other.locked t ≠ some b

/-- The references that an activity holds. -/
def hands : Activity → Multiset ResourceKey
  | handle key | announcing key _ _ | cloning key | releasing key | comparing key _ | locking key
  | binding _ key => {key}
  | listing _ found => ↑found
  | _ => 0

/-- The resource that an activity is about to take out of the table. -/
def leaving : Activity → Multiset ResourceKey
  | evicting key => {key}
  | _ => 0

/-- The holds on the namespace that an activity stands for. -/
def holds : Activity → Nat
  | hold | yielding => 1
  | _ => 0

/-- Whether an activity is a release that took the last reference on a resource. -/
def frees (key : ResourceKey) : Activity → Bool
  | evicting k | telling k _ _ | answered k true => k = key
  | _ => false

end Activity

/-- The states of a namespace, freshly set up alone, with the activities of any number of threads,
which come at any time and take their steps in any order. Attempts to free the namespace that are
refused may come between. -/
inductive Interleaved (setup : Setup) (n : SpaceKey) : Manager → Multiset Activity → Prop
  | built {m : Manager} (run : Act.build setup {} = .ok (.ok n) m) : Interleaved setup n m 0
  | call {m : Manager} {acts : Multiset Activity} {a : Activity}
      (reach : Interleaved setup n m acts) (fresh : a.IsCall) : Interleaved setup n m (a ::ₘ acts)
  | use {m : Manager} {acts : Multiset Activity} {a b : Activity}
      (reach : Interleaved setup n m (a ::ₘ acts)) (uses : a.Uses b) :
      Interleaved setup n m (b ::ₘ acts)
  | step {m m' : Manager} {acts : Multiset Activity} {a : Activity} {after : List Activity}
      (reach : Interleaved setup n m (a ::ₘ acts)) (may : a.MayStep (m.space n).table acts)
      (run : a.advance n m = .ok after m') : Interleaved setup n m' (↑after + acts)
  | refused {m m' : Manager} {acts : Multiset Activity} (reach : Interleaved setup n m acts)
      (run : Act.freePost n m = .ok false m') : Interleaved setup n m' acts

end Lockspace
