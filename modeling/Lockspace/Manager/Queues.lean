import Lockspace.Manager.Resources

namespace Lockspace

namespace Resource

def indexGranted (r : Resource) (l : LockKey) (lock : Lock) : Resource :=
  match r.intervals with
  | some ix => { r with intervals := some (ix.insert l lock) }
  | none =>
    if r.rtype.hasModeGroups then
      { r with groups := r.groups.set lock.mode (r.groups.get lock.mode + 1) }
    else r

/-- Takes a granted lock out of the index. Its mode must be counted where modes are. -/
def unindexGranted (r : Resource) (l : LockKey) (lock : Lock) : Except Fault Resource :=
  match r.intervals with
  | some ix => .ok { r with intervals := some (ix.remove l lock) }
  | none =>
    if r.rtype.hasModeGroups then
      if r.groups.get lock.mode = 0 then .error (.modeGroupUnderflow lock.mode)
      else .ok { r with groups := r.groups.set lock.mode (r.groups.get lock.mode - 1) }
    else .ok r

/-- The resource with other locks on a queue, one lock more than before. -/
def joined (r : Resource) (l : LockKey) (lock : Lock) (q : Queue) (locks : List LockKey) :
    Resource :=
  let r := { r with queues := r.queues.set q locks, queued := r.queued + 1 }
  if q = .granted then r.indexGranted l lock else r

/-- The resource without a lock on one of its queues. -/
def departed (r : Resource) (l : LockKey) (lock : Lock) (q : Queue) : Except Fault Resource := do
  let r ← if q = .granted then r.unindexGranted l lock else pure r
  return { r with queues := r.queues.set q ((r.queues.get q).erase l), queued := r.queued - 1 }

/-- The first lock of a queue that no drain has visited. -/
def firstUncleaned (r : Resource) (lockOf : LockKey → Lock) (q : Queue) : Option LockKey :=
  (r.queues.get q).find? fun l => !(lockOf l).flags.contains .cleaned

end Resource

namespace Act

/-- Claims the link of a lock for a queue and tells whether the lock may join it. A destroyed lock
may not; a lock that is on a queue already is a fault. -/
def claimLink (r : ResourceRef) (l : LockKey) (q : Queue) : Act Bool := do
  let lk ← lock l
  if lk.isDestroyed then return false
  match lk.link with
  | some on =>
    dumpResource .error r
    throw (.alreadyQueued lk.handleText on q (← resource r).id)
  | none =>
    modifyLock l fun lk => { lk with link := some q }
    return true

/-- Makes a lock whose link is claimed part of a queue that then holds these locks. -/
def join (r : ResourceRef) (l : LockKey) (q : Queue) (locks : List LockKey) : Act Unit := do
  let lk ← lock l
  modifyResource r fun res => res.joined l lk q locks
  modifyLock l fun lk => { lk with home := some r }
  modifySpace r.space fun s => { s with stats := s.stats.lockQueued q }

/-- Puts a lock at the tail of a queue. A destroyed lock stays away. -/
def addLock (r : ResourceRef) (q : Queue) (l : LockKey) : Act Unit := do
  if ← claimLink r l q then
    join r l q (((← resource r).queues.get q) ++ [l])

/-- Puts a lock right behind another one, onto the queue of that lock. -/
def insertAfter (r : ResourceRef) (anchor l : LockKey) : Act Unit := do
  let res ← resource r
  let lk ← lock anchor
  match lk.link with
  | none => throw (.anchorNotQueued lk.handleText res.id)
  | some q =>
    if anchor ∉ res.queues.get q then throw (.anchorElsewhere lk.handleText q res.id)
    if ← claimLink r l q then
      join r l q (insertBehind anchor l ((← resource r).queues.get q))

/-- Takes a lock off the queue that its link names, which must hold it. -/
def unlink (r : ResourceRef) (l : LockKey) : Act Unit := do
  let lk ← lock l
  match lk.link with
  | none => return
  | some q =>
    let res ← resource r
    if l ∉ res.queues.get q then throw (.claimsAbsent lk.handleText q res.id)
    let res ← ofExcept (res.departed l lk q)
    modifyResource r fun _ => res
    modifyLock l fun lk => { lk with link := none }
    modifySpace r.space fun s => { s with stats := s.stats.lockUnqueued q }

end Act

end Lockspace
