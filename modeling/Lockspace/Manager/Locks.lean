import Lockspace.Manager.Queues

namespace Lockspace

namespace Act

/-- Makes a lock. The handle is the random one that it is given. -/
def newLock (handle : LockHandle) (mode : LockMode) (extent : Option Extent) : Act LockKey := do
  let now ← tick
  modifyGet fun m =>
    let (l, locks) := m.locks.alloc { handle, mode, extent, lastUsed := now, owners := 1 }
    (l, { m with locks })

def dropBound (l : LockKey) : Act Unit := do
  match (← lock l).bound with
  | none => return
  | some r =>
    modifyLock l fun lk => { lk with bound := none }
    discard (put r)

/-- A lock that nobody holds any more drops its resource reference. -/
def dropIfUnheld (l : LockKey) : Act Unit := do
  if !(← get).isHeld l then dropBound l

def own (l : LockKey) : Act Unit :=
  modifyLock l fun lk => { lk with owners := lk.owners + 1 }

def disown (l : LockKey) : Act Unit := do
  modifyLock l fun lk => { lk with owners := lk.owners - 1 }
  dropIfUnheld l

/-- Hands a resource reference over to a lock and gives back the one that it owned before. -/
def rebind (l : LockKey) (r : ResourceRef) : Act (Option ResourceRef) := do
  modifyLock l fun lk => { lk with home := some r }
  let old := (← lock l).bound
  modifyLock l fun lk => { lk with bound := some r }
  return old

/-- Hands a resource reference over to a lock. A reference that it owned before is dropped. -/
def bind (l : LockKey) (r : ResourceRef) : Act Unit := do
  match ← rebind l r with
  | none => return
  | some old =>
    log .warn ("Lock " ++ (← lock l).handleText ++ " rebound, dropping reference on " ++
      (← resource old).id.text)
    discard (put old)

/-- Takes back the resource reference that a lock owns. -/
def unbind (l : LockKey) : Act (Option ResourceRef) := do
  let bound := (← lock l).bound
  modifyLock l fun lk => { lk with bound := none }
  return bound

/-- Drops one hold on a lock and tells whether none is left. Without such a hold the counts stay as
they are, where a counter that falls before it is tested would have wrapped. -/
def dropHolder (l : LockKey) (mode : LockMode) : Act Bool := do
  let lk ← lock l
  if lk.holds mode = 0 then throw (.tooManyReleases lk.handleText mode)
  modifyLock l (·.dropHold mode)
  return !(← lock l).hasHolders

/-- The resource that a lock was last queued on or bound to, if it still exists. -/
def homeOf (l : LockKey) : Act (Option ResourceRef) := do
  let m ← get
  return (m.lock l).home.filter fun r => (m.resource r).refcount > 0

/-- Keeps a lock that has lost its last holder, at the young end of the unused ones. -/
def lockUnused (n : SpaceKey) (l : LockKey) : Act Bool := do
  let (added, lru) := (← space n).lru.add l (← lock l).isDestroyed
  modifySpace n fun s => { s with lru }
  if added then
    let now ← tick
    modifyLock l fun lk => { lk with lastUsed := now }
  return added

/-- Takes a lock off the list of unused ones and tells whether it was there. -/
def lockReused (n : SpaceKey) (l : LockKey) : Act Bool := do
  let (removed, lru) := (← space n).lru.remove l
  modifySpace n fun s => { s with lru }
  return removed

/-- Marks a lock destroyed and tells whether it was not. -/
def markDestroyed (l : LockKey) : Act Bool := do
  let first := !(← lock l).isDestroyed
  modifyLock l (·.setFlags .destroyed)
  return first

/-- Takes a lock off its queue and marks it destroyed, both under the lock of its resource. Tells
whether it was not destroyed before. -/
def unlinkAndMark (l : LockKey) : Act Bool := do
  if let some r ← homeOf l then unlink r l
  markDestroyed l

/-- Destroys a lock: it leaves its queue and the unused locks, and drops its resource reference.
Of several destructions only the first drops the reference. -/
def destroyLock (n : SpaceKey) (l : LockKey) : Act Unit := do
  if ← unlinkAndMark l then
    discard (lockReused n l)
    dropBound l

end Act

/-- What a namespace delegates: the completion of a lock, and its cancellation without any peer. -/
structure LockPolicy where
  completion : SpaceKey → LockKey → LockFlags → Act Unit
  cancelLocal : SpaceKey → LockKey → Act Unit

/-- The policy that destroys a lock when it is cancelled and when it completes as failed. -/
def LockPolicy.default : LockPolicy where
  completion n l flags := if flags.contains .failed then Act.destroyLock n l else pure ()
  cancelLocal n l := Act.destroyLock n l

namespace Act

def complete (policy : LockPolicy) (n : SpaceKey) (l : LockKey) (flags : LockFlags) : Act Unit := do
  note (.completion n l flags (← lock l).flags)
  policy.completion n l flags

def cancelLocal (policy : LockPolicy) (n : SpaceKey) (l : LockKey) : Act Unit := do
  note (.cancelLocal n l (← lock l).flags)
  policy.cancelLocal n l

end Act

end Lockspace
