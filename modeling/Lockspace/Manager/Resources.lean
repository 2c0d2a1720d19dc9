import Lockspace.Manager.Registry

namespace Lockspace

namespace Act

/-- Tells the policy of a namespace about a resource. -/
def emit (r : ResourceRef) (event : ResourceEvent) : Act Unit := do
  let s ← space r.space
  let res ← resource r
  note (.resource r.space event res.desc res.bucket s.table.bref s.table.size)

def retain (r : ResourceRef) : Act Unit := do
  let t ← ofExcept ((← space r.space).table.incref r.key)
  setTable r.space t

/-- Looks an id up under the lock of its bucket. -/
def lookupLocked (n : SpaceKey) (b : BucketKey) (id : ResourceId) : Act Lookup := do
  let (found, t) ← ofExcept ((← space n).table.lookup b id)
  setTable n t
  return found

/-- Inserts a new resource under the lock of its bucket. -/
def insertLocked (n : SpaceKey) (b : BucketKey) (candidate : Resource) (seen : Nat) :
    Act Insertion := do
  let (done, t) ← ofExcept ((← space n).table.insert b candidate seen)
  setTable n t
  return done

/-- What follows an insertion: the policy hears of it, and a client namespace that takes its first
resource becomes active. -/
def announce (r : ResourceRef) (firstInBucket : Bool) (bref : Nat) : Act Unit := do
  emit r .created
  if firstInBucket then
    emit r .bucketOccupied
    if bref = 1 && (← space r.space).isClient then moveTo .client r.space .active

/-- A new resource of a namespace that is in no table yet. -/
def newResource (n : SpaceKey) (id : ResourceId) (rtype : ResourceType) : Act Resource := do
  let s ← space n
  return .new id rtype (s.table.bucketOf id) s.config.dumpGrantedMax.toNat

/-- A reference on the resource of an id, which is created if need be. Without leave to create,
a missing resource is refused. -/
def getOrCreate (n : SpaceKey) (id : ResourceId) (rtype : ResourceType) (create : Bool) :
    Act (Except LockError ResourceRef) := do
  if id.seq = 0 then throw (.emptyFirstWord id)
  let b := (← space n).table.bucketOf id
  match ← lookupLocked n b id with
  | .found key => return .ok ⟨n, key⟩
  | .missing version =>
    if !create then return .error (.notFound id)
    match ← insertLocked n b (← newResource n id rtype) version with
    | .raceLost winner => return .ok ⟨n, winner⟩
    | .inserted key firstInBucket bref =>
      announce ⟨n, key⟩ firstInBucket bref
      return .ok ⟨n, key⟩

def dumpResource (level : Level) (r : ResourceRef) : Act Unit := do
  let m ← get
  dump level ((m.resource r).dumpLines m.lock level)

/-- Drops a reference in the table. A resource that is released with locks is listed first. -/
def releaseLocked (r : ResourceRef) : Act Release := do
  let (t, released) := (← space r.space).table.release r.key
  setTable r.space t
  match released with
  | .ok answer => return answer
  | .error fault =>
    match fault with
    | .releasedWithLocks .. => dumpResource .error r
    | _ => pure ()
    throw fault

/-- Tells those who wait for a namespace that no reference is left. -/
def signal (n : SpaceKey) : Act Unit :=
  modifySpace n fun s => { s with signals := s.signals + 1 }

/-- What follows a release: waiters and the policy hear of a resource that is gone. -/
def afterRelease (r : ResourceRef) : Release → Act Bool
  | .kept => return false
  | .freed bucketEmptied bref => do
    if bucketEmptied && bref = 0 then signal r.space
    emit r .freed
    if bucketEmptied then emit r .bucketEmptied
    return true

/-- Drops a reference in its table and tells whether the resource is gone with it. -/
def release (r : ResourceRef) : Act Bool := do
  afterRelease r (← releaseLocked r)

/-- Lets go of a lock that has left the unused ones. One that nobody else holds drops its resource
reference; the answer is the namespace of that, which may have lost its last holder. -/
def dropUnused (l : LockKey) : Act (Option SpaceKey) := do
  let m ← get
  if m.isHeld l then return none
  match (m.lock l).bound with
  | none => return none
  | some r =>
    modifyLock l fun lk => { lk with bound := none }
    discard (release r)
    return some r.space

/-- Empties the list of unused locks of a namespace that nobody holds any more, the oldest lock
first. What else loses its last holder with a lock goes before the next lock does, up to a
depth. -/
def dropDesertedUpTo : Nat → SpaceKey → Act Unit
  | 0, _ => pure ()
  | depth + 1, n => do
    let s ← space n
    if s.isAlive then return
    s.lru.toList.forM fun l => do
      modifySpace n fun s => { s with lru := (s.lru.remove l).2 }
      if let some next ← dropUnused l then dropDesertedUpTo depth next

/-- Empties the list of unused locks of a namespace if nobody holds it any more. Every namespace on
the way down is another one, so their number bounds the depth. -/
def dropIfDeserted (n : SpaceKey) : Act Unit := do
  dropDesertedUpTo (← get).spaces.size n

/-- Drops a reference, with the namespace if that has no other holder, and tells whether the
resource is gone with it. -/
def put (r : ResourceRef) : Act Bool := do
  let gone ← release r
  dropIfDeserted r.space
  return gone

/-- Drops references one after another. -/
def putAll (refs : List ResourceRef) : Act Unit :=
  refs.forM fun r => discard (put r)

/-- References on all resources of a namespace. -/
def resources (n : SpaceKey) : Act (List ResourceRef) := do
  let (keys, t) ← ofExcept (← space n).table.snapshot
  setTable n t
  return keys.map (ResourceRef.mk n)

/-- Takes a hold on a namespace and gives the new count. -/
def takeHold (n : SpaceKey) : Act Nat := do
  modifySpace n fun s => { s with table := s.table.takeHold }
  return (← space n).table.bref

/-- Drops a hold on a namespace in its table and gives the new count. -/
def dropHoldCount (n : SpaceKey) : Act Nat := do
  let s ← space n
  match s.table.dropHold? with
  | none => throw (.referenceUnderflow s.name)
  | some t =>
    setTable n t
    return t.bref

/-- Drops a hold on a namespace, tells waiters if it was the last reference, and gives the new
count. -/
def dropHold (n : SpaceKey) : Act Nat := do
  let bref ← dropHoldCount n
  if bref = 0 then signal n
  return bref

end Act

end Lockspace
