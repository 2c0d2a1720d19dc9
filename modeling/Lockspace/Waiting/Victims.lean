import Lockspace.Waiting.Turn

namespace Lockspace

/-- A cancellation of unused locks in progress. It holds all victims to its end. The peer is asked
about each of them, oldest first, in so many calls at a time. -/
structure VictimCancel where
  space : SpaceKey
  flags : LockFlags
  victims : List LockKey
  toAsk : List LockKey
  asking : List LockKey := []
  parallel : Nat

namespace VictimCancel

/-- Takes over locks that have just left the list of unused ones, flags them and lets the policy
cancel each of them. -/
def start (policy : LockPolicy) (n : SpaceKey) (victims : List LockKey) (flags : LockFlags) :
    Act VictimCancel := do
  victims.forM Act.own
  victims.forM fun l => do
    Act.modifyLock l (·.setFlags (LockFlags.cancelPending ||| flags))
    Act.cancelLocal policy n l
  let s ← Act.space n
  let tells := s.isClient && !flags.contains .localOnly && s.hasPeer
  return { space := n, flags, victims, toAsk := if tells then victims else []
           parallel := max s.config.maxParallelAst.toNat 1 }

/-- Asks about the next victim if another call may start, and ends once all calls have ended. -/
def turn (v : VictimCancel) : Act (Turn VictimCancel Nat) := do
  match v.toAsk with
  | l :: rest =>
    if v.asking.length < v.parallel then
      Act.askPeer v.space l v.flags v.asking.length
      return .asks l { v with toAsk := rest, asking := v.asking ++ [l] }
    return .goes v
  | [] =>
    if v.asking.isEmpty then
      v.victims.forM Act.disown
      return .returns v.victims.length
    return .goes v

/-- Whether nothing can be done before a call has ended. -/
def sleeps (v : VictimCancel) : Bool :=
  match v.toAsk with
  | _ :: _ => v.asking.length ≥ v.parallel
  | [] => !v.asking.isEmpty

/-- Takes the answer of the peer about a victim. A failure is logged and changes nothing else. -/
def answered (v : VictimCancel) (l : LockKey) (failure : Option LockError) : Act VictimCancel := do
  if let some e := failure then
    Act.log .error ("Cancel of unused lock " ++ (← Act.lock l).handleText ++ " in " ++
      (← Act.space v.space).name ++ " failed: " ++ e.message)
  return { v with asking := v.asking.erase l }

def abandon (v : VictimCancel) : Act Unit :=
  v.victims.forM Act.disown

end VictimCancel

namespace Act

/-- Takes the victims of a limit off the unused locks, the oldest first. -/
def takeVictims (n : SpaceKey) (limits : VictimLimits) : Act (List LockKey) := do
  let now ← tick
  let m ← get
  let (victims, lru) := (m.space n).lru.takeVictims limits fun l => now - (m.lock l).lastUsed
  modifySpace n fun s => { s with lru }
  return victims

/-- Cancels so many of the oldest unused locks, and those beyond the settings. -/
def cancelLru (policy : LockPolicy) (n : SpaceKey) (count : Nat) (flags : LockFlags) :
    Act VictimCancel := do
  let victims ← takeVictims n ((← space n).victimLimits count)
  VictimCancel.start policy n victims flags

def takeAllUnused (n : SpaceKey) : Act (List LockKey) := do
  let (locks, lru) := (← space n).lru.takeAll
  modifySpace n fun s => { s with lru }
  return locks

end Act

/-- What is left to do to the connect flags once the locks beyond a new LRU size are cancelled. -/
inductive ResizeEnd where
  | keep
  | disable
  | enable
deriving DecidableEq

namespace Act

/-- Starts to store an LRU size. While the server drives the size, a value cancels the locks beyond
it and is then fixed; otherwise it replaces the old one. Zero hands the size over to the server, if
the peer ever supported that. -/
def setLruSize (policy : LockPolicy) (n : SpaceKey) : LruSize → Act (VictimCancel × ResizeEnd)
  | .clear => do
    let victims ← takeAllUnused n
    return (← VictimCancel.start policy n victims .none, .keep)
  | .value value => do
    let s ← space n
    if s.lruResizeEnabled then
      if value ≠ 0 then
        modifySpace n fun s => { s with config := { s.config with lruSize := value } }
      let unused := s.lru.size
      let cancel ← cancelLru policy n (unused - min value.toNat unused) .none
      return (cancel, if value ≠ 0 then .disable else .keep)
    else
      modifySpace n fun s => { s with config := { s.config with lruSize := value } }
      let cancel ← cancelLru policy n 0 .none
      let supported := s.origConnectFlags &&& connectLruResize != 0
      return (cancel, if value = 0 && supported then .enable else .keep)

def endResize (n : SpaceKey) : ResizeEnd → Act Unit
  | .keep => pure ()
  | .disable => modifySpace n fun s => { s with connectFlags := s.connectFlags &&& ~~~connectLruResize }
  | .enable => modifySpace n fun s => { s with connectFlags := s.connectFlags ||| connectLruResize }

end Act

end Lockspace
