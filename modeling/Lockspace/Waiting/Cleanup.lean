import Lockspace.Waiting.Turn

namespace Lockspace

/-- A drain of all queues of a namespace in progress. It holds a reference on every resource that
it found, and visits their queues one after another. -/
structure Cleanup where
  space : SpaceKey
  flags : LockFlags
  held : List ResourceRef
  todo : List (ResourceRef × Queue)
  cleaned : Nat := 0
  /-- The lock about which the peer is being asked. -/
  asking : Option LockKey := none

namespace Cleanup

def visitFlags (flags : LockFlags) : LockFlags :=
  LockFlags.cleaned ||| LockFlags.cancelPending ||| LockFlags.failed ||| flags

/-- Starts with all resources that the table holds now. -/
def start (n : SpaceKey) (flags : LockFlags) : Act Cleanup := do
  let held ← Act.resources n
  return { space := n, flags, held, todo := held.flatMap fun r => Queue.all.map (r, ·) }

/-- The first lock of a queue that was not visited yet, which is now marked visited. -/
def pick? (r : ResourceRef) (q : Queue) (flags : LockFlags) : Act (Option LockKey) := do
  let m ← get
  match (m.resource r).firstUncleaned m.lock q with
  | none => return none
  | some l =>
    Act.modifyLock l (·.setFlags (visitFlags flags))
    return some l

/-- Cancels a visited lock, or completes it as failed if it is held and only local work is wanted.
Tells whether the peer must hear of it. -/
def treat (policy : LockPolicy) (n : SpaceKey) (flags : LockFlags) (l : LockKey) : Act Bool := do
  if flags.contains .localOnly && (← Act.lock l).hasHolders then
    Act.complete policy n l .failed
    return false
  Act.cancelLocal policy n l
  let s ← Act.space n
  return s.isClient && s.hasPeer && !(← Act.lock l).flags.contains .localOnly

/-- Complains about a resource that others than the drain still reference. -/
def complain (n : SpaceKey) (r : ResourceRef) : Act Unit := do
  let res ← Act.resource r
  if res.refcount > 1 then
    Act.log .error ((← Act.space n).name ++ ": namespace resource " ++ res.id.text ++
      " refcount nonzero (" ++ toString (res.refcount - 1) ++
      ") after lock cleanup; forcing cleanup.")
    Act.dumpResource .error r

/-- Visits one lock, or leaves a queue without any lock to visit. After the last queue it complains
about references that are left and drops its own. -/
def turn (policy : LockPolicy) (c : Cleanup) : Act (Turn Cleanup Nat) := do
  match c.todo with
  | [] =>
    c.held.forM (complain c.space)
    Act.putAll c.held
    return .returns c.cleaned
  | (r, q) :: rest =>
    match ← pick? r q c.flags with
    | none => return .goes { c with todo := rest }
    | some l =>
      Act.own l
      let c := { c with cleaned := c.cleaned + 1 }
      if ← treat policy c.space c.flags l then
        Act.askPeer c.space l c.flags 0
        return .asks l { c with asking := some l }
      Act.disown l
      return .goes c

/-- Takes the answer of the peer about a lock. A failure is logged and changes nothing else. -/
def answered (c : Cleanup) (l : LockKey) (failure : Option LockError) : Act Cleanup := do
  if let some e := failure then
    Act.log .error ("Cancel of lock " ++ (← Act.lock l).handleText ++ " in namespace " ++
      (← Act.space c.space).name ++ " failed: " ++ e.message)
  Act.disown l
  return { c with asking := none }

def abandon (c : Cleanup) : Act Unit := do
  if let some l := c.asking then
    Act.disown l
  Act.putAll c.held

end Cleanup

end Lockspace
