import Lockspace.Dump
import Lockspace.Namespace
import Lockspace.Registry

namespace Lockspace

/-- What happened to a resource or to its bucket. -/
inductive ResourceEvent where
  | created
  | freed
  | bucketOccupied
  | bucketEmptied
deriving DecidableEq

/-- A call to one of the collaborators of a namespace, with what it saw. Resource events come with
the reference count of the namespace and the number of its resources, calls about a lock with the
flags of the lock, and calls of a peer with the number of calls in progress. -/
inductive Callback where
  | resource (space : SpaceKey) (event : ResourceEvent) (desc : ResourceDesc) (bucket : BucketKey)
      (bref count : Nat)
  | cancelLocal (space : SpaceKey) (lock : LockKey) (flags : LockFlags)
  | completion (space : SpaceKey) (lock : LockKey) (arg flags : LockFlags)
  | peerCancel (space : SpaceKey) (lock : LockKey) (arg flags : LockFlags) (inflight : Nat)
  | lvbUpdate (space : SpaceKey) (id : ResourceId) (hint : LvbHint) (had : List UInt8)
  | disconnect (space : SpaceKey)
  | invalidate (space : SpaceKey)
deriving DecidableEq

/-- The state of all namespaces of one registry, of their resources and of all locks, together
with what their collaborators were told and what was logged. -/
structure Manager where
  spaces : Store .space Namespace := {}
  locks : Store .lock Lock := {}
  registry : Registry := {}
  gauges : Gauges := {}
  clock : Nat := 0
  trace : Array Callback := #[]
  log : Array LogLine := #[]

namespace Manager

instance : Inhabited Manager := ⟨{}⟩

def space (m : Manager) (n : SpaceKey) : Namespace :=
  m.spaces.get n

def lock (m : Manager) (l : LockKey) : Lock :=
  m.locks.get l

def resource (m : Manager) (r : ResourceRef) : Resource :=
  (m.space r.space).table.resource r.key

def setSpace (m : Manager) (n : SpaceKey) (s : Namespace) : Manager :=
  { m with spaces := m.spaces.set n s }

def setLock (m : Manager) (l : LockKey) (lock : Lock) : Manager :=
  { m with locks := m.locks.set l lock }

def modifySpace (m : Manager) (n : SpaceKey) (f : Namespace → Namespace) : Manager :=
  m.setSpace n (f (m.space n))

def modifyLock (m : Manager) (l : LockKey) (f : Lock → Lock) : Manager :=
  m.setLock l (f (m.lock l))

def setTable (m : Manager) (n : SpaceKey) (t : Table) : Manager :=
  m.modifySpace n fun s => { s with table := t }

def modifyResource (m : Manager) (r : ResourceRef) (f : Resource → Resource) : Manager :=
  m.modifySpace r.space fun s => { s with table := s.table.modifyResource r.key f }

/-- Whether a lock is on the list of unused locks of some namespace. -/
def isUnused (m : Manager) (l : LockKey) : Bool :=
  m.spaces.toList.any (·.lru.contains l)

/-- Whether anybody still holds a lock: an owner, a queue or a list of unused locks. -/
def isHeld (m : Manager) (l : LockKey) : Bool :=
  (m.lock l).owners > 0 || (m.lock l).isLinked || m.isUnused l

end Manager

/-- An action on the state of all namespaces. It may end in a fault, after which the state shows
how far it came. -/
abbrev Act := EStateM Fault Manager

namespace Act

def log (level : Level) (text : String) : Act Unit :=
  modify fun m => { m with log := m.log.push ⟨level, text⟩ }

def dump (level : Level) (lines : List DumpLine) : Act Unit :=
  lines.forM fun line => log level line.text

/-- Notes a call to a collaborator. -/
def note (call : Callback) : Act Unit :=
  modify fun m => { m with trace := m.trace.push call }

def space (n : SpaceKey) : Act Namespace :=
  return (← get).space n

def lock (l : LockKey) : Act Lock :=
  return (← get).lock l

def resource (r : ResourceRef) : Act Resource :=
  return (← get).resource r

def modifySpace (n : SpaceKey) (f : Namespace → Namespace) : Act Unit :=
  modify (·.modifySpace n f)

def modifyLock (l : LockKey) (f : Lock → Lock) : Act Unit :=
  modify (·.modifyLock l f)

def modifyResource (r : ResourceRef) (f : Resource → Resource) : Act Unit :=
  modify (·.modifyResource r f)

def setTable (n : SpaceKey) (t : Table) : Act Unit :=
  modify (·.setTable n t)

/-- The time now. It never shows the same twice. -/
def tick : Act Nat :=
  modifyGet fun m => (m.clock + 1, { m with clock := m.clock + 1 })

/-- The last moment that the clock can name, in nanoseconds. -/
def lastMoment : Nat :=
  (wordCount 63 - 1) * 1000000000

/-- The moment a span of time after another one, which the clock must be able to name. -/
def momentAfter (now : Nat) (span : Duration) : Except Fault Nat :=
  if now + span.nanos > lastMoment then .error .momentOverflow else .ok (now + span.nanos)

/-- The answer of a step that may break an invariant. -/
def ofExcept {α : Type} : Except Fault α → Act α
  | .ok a => pure a
  | .error fault => throw fault

end Act

end Lockspace
