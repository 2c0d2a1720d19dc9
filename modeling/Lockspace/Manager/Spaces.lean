import Lockspace.Manager.Locks

namespace Lockspace

/-- What a namespace is set up from. -/
structure Setup where
  name : String
  side : Side
  type : NamespaceType
  appetite : Appetite := .recoverable
  config : NamespaceConfig := default
  connectFlags : UInt64 := 0
  hasPeer : Bool := false
  salt : UInt64 := 0

namespace Setup

/-- The preset of a setup, unless its configuration is refused or has none for the type. -/
def preset (s : Setup) : Except LockError HashPreset :=
  match s.config.problem? with
  | some problem => .error (.configuration problem)
  | none =>
    match HashPreset.find? s.config.hashPresets s.type with
    | some preset => .ok preset
    | none => .error (.unknownNamespaceType s.name s.type)

/-- The namespace of a setup, before it joins the registry. -/
def toNamespace (s : Setup) (preset : HashPreset) : Namespace :=
  let flags := Namespace.initialFlags s.config s.connectFlags
  { name := s.name
    side := s.side
    type := s.type
    appetite := s.appetite
    config := s.config
    table := .new preset s.salt s.config.enqueueMin
    origConnectFlags := flags
    connectFlags := flags
    stats := { name := s.name, registered := true }
    hasPeer := s.hasPeer
    owners := 1 }

end Setup

namespace Act

/-- Sets up a namespace, which joins the inactive list of its side. -/
def build (s : Setup) : Act (Except LockError SpaceKey) := do
  match s.preset with
  | .error e => return .error e
  | .ok preset =>
    discard takeGate
    let fresh := s.toNamespace preset
    let n ← modifyGet fun m =>
      let (n, spaces) := m.spaces.alloc fresh
      (n, { m with spaces, gauges := fresh.stats.publish 0 0 m.gauges })
    register n
    return .ok n

/-- The counts of a namespace, which also go to its gauges. -/
def stats (n : SpaceKey) : Act StatsSnapshot := do
  let s ← space n
  modify fun m => { m with gauges := s.stats.publish s.table.size s.lru.size m.gauges }
  return s.snapshot

/-- Marks a namespace as freed and tells whether it was already. -/
def claimFreed (n : SpaceKey) : Act Bool := do
  let before := (← space n).freed
  modifySpace n fun s => { s with freed := true }
  return before

/-- Drops all unused locks of a namespace, the oldest first, which then takes no more. -/
def finalizeUnused (n : SpaceKey) : Act Unit := do
  let (locks, lru) := (← space n).lru.finalize
  locks.forM own
  modifySpace n fun s => { s with lru }
  locks.forM disown

/-- Zeroes the gauges of a namespace and takes them out of use. -/
def retireStats (n : SpaceKey) : Act Unit := do
  let s ← space n
  modify fun m => { m with gauges := s.stats.retire m.gauges }
  modifySpace n fun s => { s with stats := s.stats.unregister }

def clearTable (n : SpaceKey) : Act Nat := do
  let (left, t) := (← space n).table.clear
  setTable n t
  return left

/-- What the freeing of a namespace does once it is decided: the namespace leaves the registry,
then its unused locks, its gauges and its table are released. -/
def dismantle (n : SpaceKey) : Act Unit := do
  unregister n
  finalizeUnused n
  retireStats n
  let left ← clearTable n
  let s ← space n
  if left ≠ 0 then
    log .error ("Namespace " ++ s.name ++ " freed with " ++ toString left ++
      " resources still hashed")
  if s.link ≠ .detached then throw (.stillLinked s.name)
  discard dropGate

/-- Frees a namespace and tells whether this call did. A namespace that is still referenced, or
freed already, is left alone. -/
def freePost (n : SpaceKey) : Act Bool := do
  let s ← space n
  if s.table.bref ≠ 0 then
    log .error ("Refusing to free namespace " ++ s.name ++ " with " ++ toString s.table.bref ++
      " resources in use")
    return false
  if ← claimFreed n then
    log .warn ("Namespace " ++ s.name ++ " already freed")
    return false
  dismantle n
  return true

/-- Logs a namespace, and its resources unless they were listed within the dump interval. -/
def dumpSpace (level : Level) (n : SpaceKey) : Act Unit := do
  let s ← space n
  dump level [.space s.name s.table.bref s.side]
  let now ← tick
  if !s.nextDump.any (now < ·) then
    let next ← ofExcept (momentAfter now s.config.dumpInterval)
    modifySpace n fun s => { s with nextDump := some next }
    (← resources n).forM fun r => do
      dumpResource level r
      discard (put r)

def dumpAll (level : Level) (side : Side) : Act Unit := do
  ((← get).active side).forM (dumpSpace level)

def ownSpace (n : SpaceKey) : Act Unit :=
  modifySpace n fun s => { s with owners := s.owners + 1 }

def disownSpace (n : SpaceKey) : Act Unit := do
  modifySpace n fun s => { s with owners := s.owners - 1 }
  dropIfDeserted n

end Act

end Lockspace
