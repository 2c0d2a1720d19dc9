import Lockspace.Config.Basic
import Lockspace.Error
import Lockspace.Estimate
import Lockspace.Resource

namespace Lockspace

/-- One bucket of a table: its entries in order of insertion, a version that every insertion and
removal raises, and the estimate that its resources share. Versions tell states of a bucket apart as
long as it changes fewer than 2 ^ 64 times, as a 64-bit stamp would. -/
structure Bucket where
  entries : List (ResourceId × ResourceKey) := []
  version : Nat := 0
  estimate : Estimate := {}

namespace Bucket

instance : Inhabited Bucket := ⟨{}⟩

def find? (b : Bucket) (id : ResourceId) : Option ResourceKey :=
  b.entries.lookup id

def put (b : Bucket) (id : ResourceId) (key : ResourceKey) : Bucket :=
  { b with entries := b.entries.filter (·.1 != id) ++ [(id, key)], version := b.version + 1 }

def remove (b : Bucket) (id : ResourceId) : Bucket :=
  { b with entries := b.entries.filter (·.1 != id), version := b.version + 1 }

def clear (b : Bucket) : Bucket :=
  { b with entries := [], version := b.version + 1 }

end Bucket

/-- The resources of a namespace, spread over buckets by the hashes of their ids. The count `bref`
is that of the nonempty buckets and of the holds that callers have on the namespace. -/
structure Table where
  preset : HashPreset := default
  salt : UInt64 := 0
  buckets : Store .bucket Bucket := {}
  resources : Store .resource Resource := {}
  bref : Nat := 0

/-- What a lookup finds: a resource, which is now referenced, or the version at which the bucket
holds no entry of the id. -/
inductive Lookup where
  | found (key : ResourceKey)
  | missing (version : Nat)
deriving DecidableEq

/-- What an insertion does: the resource is in the table, or another one was there first and is
now referenced. -/
inductive Insertion where
  | inserted (key : ResourceKey) (firstInBucket : Bool) (bref : Nat)
  | raceLost (winner : ResourceKey)
deriving DecidableEq

/-- What the drop of a reference does: the resource lives on, or it is gone from the table. -/
inductive Release where
  | kept
  | freed (bucketEmptied : Bool) (bref : Nat)
deriving DecidableEq

namespace Table

instance : Inhabited Table := ⟨{}⟩

/-- An empty table of the size that a preset asks for. -/
def new (preset : HashPreset) (salt : UInt64) (enqueueMin : Duration) : Table where
  preset
  salt
  buckets := .replicate preset.shardCount { estimate := .start enqueueMin }

def shardCount (t : Table) : Nat :=
  t.buckets.size

def bucketOf (t : Table) (id : ResourceId) : BucketKey :=
  ⟨(t.preset.strategy.hash id t.salt t.preset.shardBits).toNat % t.shardCount⟩

def resource (t : Table) (key : ResourceKey) : Resource :=
  t.resources.get key

def bucket (t : Table) (b : BucketKey) : Bucket :=
  t.buckets.get b

def modifyResource (t : Table) (key : ResourceKey) (f : Resource → Resource) : Table :=
  { t with resources := t.resources.modify key f }

def modifyBucket (t : Table) (b : BucketKey) (f : Bucket → Bucket) : Table :=
  { t with buckets := t.buckets.modify b f }

def size (t : Table) : Nat :=
  t.buckets.total (·.entries.length)

def occupied (t : Table) : Nat :=
  t.buckets.toList.countP (!·.entries.isEmpty)

/-- One more reference on a resource that still has one. The count is tested before it changes. A
counter that is raised first would be at 1 after the fault, which a run that goes on could tell. -/
def incref (t : Table) (key : ResourceKey) : Except Fault Table :=
  if (t.resource key).refcount = 0 then .error (.referencedAfterRelease (t.resource key).id)
  else .ok (t.modifyResource key fun r => { r with refcount := r.refcount + 1 })

def lookup (t : Table) (b : BucketKey) (id : ResourceId) : Except Fault (Lookup × Table) :=
  match (t.bucket b).find? id with
  | some key => (t.incref key).map fun t' => (.found key, t')
  | none => .ok (.missing (t.bucket b).version, t)

/-- Inserts a new resource, unless its bucket has changed since the version seen and now holds the
id. The first entry of a bucket takes a reference of the table. -/
def insert (t : Table) (b : BucketKey) (candidate : Resource) (seen : Nat) :
    Except Fault (Insertion × Table) :=
  let lost := if (t.bucket b).version ≠ seen then (t.bucket b).find? candidate.id else none
  match lost with
  | some winner => (t.incref winner).map fun t' => (.raceLost winner, t')
  | none =>
    let key := t.resources.nextKey
    let first := ((t.bucket b).put candidate.id key).entries.length == 1
    let bref := if first then t.bref + 1 else t.bref
    let filled := { t with resources := t.resources.set key candidate, bref }
    .ok (.inserted key first bref, filled.modifyBucket b (·.put candidate.id key))

/-- Drops a reference, if so many were seen and there still are as many. -/
def exchange? (t : Table) (key : ResourceKey) (seen : Nat) : Option Table :=
  if (t.resource key).refcount = seen then
    some (t.modifyResource key fun r => { r with refcount := seen - 1 })
  else none

/-- Drops a reference that is not the last one. Nothing if it is the last. -/
def releaseShared? (t : Table) (key : ResourceKey) : Except Fault (Option Table) :=
  let seen := (t.resource key).refcount
  if seen = 0 then .error (.releasedTooOften (t.resource key).id)
  else if seen = 1 then .ok none
  else .ok (t.exchange? key seen)

/-- Drops a reference under the lock of the bucket and tells whether it was the last. -/
def dropLocked (t : Table) (key : ResourceKey) : Bool × Table :=
  ((t.resource key).refcount == 1,
    t.modifyResource key fun r => { r with refcount := r.refcount - 1 })

/-- Takes a resource that lost its last reference out of the table. It must have no locks left and
must be in its bucket. An emptied bucket drops its reference of the table, which is tested for first
as in `dropHold?`. -/
def evict (t : Table) (key : ResourceKey) : Table × Except Fault Release :=
  let res := t.resource key
  if res.queued ≠ 0 then (t, .error (.releasedWithLocks res.id res.queued))
  else if (t.bucket res.bucket).find? res.id ≠ some key then (t, .error (.notInBucket res.id))
  else
    let t := t.modifyBucket res.bucket (·.remove res.id)
    if !(t.bucket res.bucket).entries.isEmpty then (t, .ok (.freed false t.bref))
    else if t.bref = 0 then (t, .error (.emptiedUnreferenced res.bucket.index))
    else ({ t with bref := t.bref - 1 }, .ok (.freed true (t.bref - 1)))

/-- Drops a reference under the lock of the bucket, which the resource leaves with the last one. -/
def releaseLocked (t : Table) (key : ResourceKey) : Table × Except Fault Release :=
  match t.dropLocked key with
  | (false, t) => (t, .ok .kept)
  | (true, t) => t.evict key

def release (t : Table) (key : ResourceKey) : Table × Except Fault Release :=
  match t.releaseShared? key with
  | .error fault => (t, .error fault)
  | .ok (some t') => (t', .ok .kept)
  | .ok none => t.releaseLocked key

/-- References every resource of a bucket. -/
def snapshotBucket (t : Table) (b : BucketKey) : Except Fault (List ResourceKey × Table) := do
  let keys := (t.bucket b).entries.map (·.2)
  return (keys, ← keys.foldlM incref t)

def snapshotFrom (t : Table) : List BucketKey → Except Fault (List ResourceKey × Table)
  | [] => .ok ([], t)
  | b :: rest => do
    let (keys, t) ← t.snapshotBucket b
    let (more, t) ← t.snapshotFrom rest
    return (keys ++ more, t)

def snapshot (t : Table) : Except Fault (List ResourceKey × Table) :=
  t.snapshotFrom t.buckets.keys

def clearBucket (t : Table) (b : BucketKey) : Nat × Table :=
  ((t.bucket b).entries.length, t.modifyBucket b Bucket.clear)

/-- Removes the entries of buckets one after another and counts them. -/
def clearFrom (t : Table) : List BucketKey → Nat × Table
  | [] => (0, t)
  | b :: rest =>
    let (n, t) := t.clearBucket b
    let (m, t) := t.clearFrom rest
    (n + m, t)

def clear (t : Table) : Nat × Table :=
  t.clearFrom t.buckets.keys

/-- One more hold on the namespace. -/
def takeHold (t : Table) : Table :=
  { t with bref := t.bref + 1 }

/-- One hold less on the namespace, if there is one. Without one the count stays at 0, where a counter
that falls before it is tested would have wrapped. -/
def dropHold? (t : Table) : Option Table :=
  if t.bref = 0 then none else some { t with bref := t.bref - 1 }

end Table

end Lockspace
