import Lockspace.Config.MaxAge
import Lockspace.Stats
import Lockspace.Table
import Lockspace.UnusedLru

namespace Lockspace

/-- The connect flag of a peer that drives the size of the list of unused locks. -/
def connectLruResize : UInt64 := 0x02000000

/-- The connect flag of a peer that takes cancels along with enqueue requests. -/
def connectCancelSet : UInt64 := 0x00400000

/-- One lock domain: its resources, its unused locks and its settings. -/
structure Namespace where
  name : String := ""
  side : Side := .server
  type : NamespaceType := .mdc
  appetite : Appetite := .recoverable
  config : NamespaceConfig := default
  table : Table := {}
  /-- How often waiters were told that no reference is left. -/
  signals : Nat := 0
  stopping : Bool := false
  freed : Bool := false
  origConnectFlags : UInt64 := 0
  connectFlags : UInt64 := 0
  link : NamespaceLink := .detached
  lru : UnusedLru := {}
  stats : Stats := {}
  /-- Whether there is a peer to tell about cancels. -/
  hasPeer : Bool := false
  /-- From when on the resources may be listed again. -/
  nextDump : Option Nat := none
  /-- How many hold the namespace besides the references on its resources. -/
  owners : Nat := 0

namespace Namespace

instance : Inhabited Namespace := ⟨{}⟩

def isClient (s : Namespace) : Bool :=
  s.side.isClient

/-- Whether anybody still holds the namespace, be it through a resource. -/
def isAlive (s : Namespace) : Bool :=
  s.owners > 0 || s.table.resources.toList.any (·.refcount > 0)

/-- Whether the server drives the size of the list of unused locks. -/
def lruResizeEnabled (s : Namespace) : Bool :=
  s.connectFlags &&& connectLruResize != 0

/-- Whether the peer takes cancels along with enqueue requests. -/
def earlyLockCancel (s : Namespace) : Bool :=
  s.connectFlags &&& connectCancelSet != 0

/-- The number of unused locks to keep: all there are while the server drives it. -/
def lruSize (s : Namespace) : UInt32 :=
  if s.lruResizeEnabled then UInt32.ofNat s.lru.size else s.config.lruSize

/-- Switches early cancels. They stay off where the peer never supported them. -/
def setEarlyLockCancel (s : Namespace) (enable : Bool) : Namespace :=
  if enable then
    if s.origConnectFlags &&& connectCancelSet != 0 then
      { s with connectFlags := s.connectFlags ||| connectCancelSet }
    else s
  else { s with connectFlags := s.connectFlags &&& ~~~connectCancelSet }

/-- Which unused locks a cancel takes: so many of the oldest, and those beyond the settings. -/
def victimLimits (s : Namespace) (count : Nat) : VictimLimits where
  count
  maxUnused := if s.lruResizeEnabled then none else some s.config.lruSize.toNat
  maxAge := s.config.lruMaxAge

/-- The connect flags of a new namespace: those of the peer and those that its settings ask
for. -/
def initialFlags (config : NamespaceConfig) (connectFlags : UInt64) : UInt64 :=
  let flags := if config.lruResize then connectFlags ||| connectLruResize else connectFlags
  if config.earlyLockCancel then flags ||| connectCancelSet else flags

/-- The counts of the namespace now. -/
def snapshot (s : Namespace) : StatsSnapshot :=
  s.stats.snapshot s.table.size s.lru.size

end Namespace

/-- A setting of a running namespace with the value to give it. -/
inductive Tunable where
  | lruMaxAge (age : Duration)
  | earlyLockCancel (enable : Bool)
  | ctimeAgeLimit (limit : Duration)
  | maxNolockBytes (bytes : UInt64)
  | contentionTime (time : Duration)
  | contendedLocks (locks : UInt32)
  | maxParallelAst (ast : UInt32)

/-- Gives a setting its value. No peer calls at all is refused. -/
def Namespace.tune (s : Namespace) : Tunable → Except ConfigProblem Namespace
  | .lruMaxAge age => .ok { s with config := { s.config with lruMaxAge := age } }
  | .earlyLockCancel enable => .ok (s.setEarlyLockCancel enable)
  | .ctimeAgeLimit limit => .ok { s with config := { s.config with ctimeAgeLimit := limit } }
  | .maxNolockBytes bytes => .ok { s with config := { s.config with maxNolockBytes := bytes } }
  | .contentionTime time => .ok { s with config := { s.config with contentionTime := time } }
  | .contendedLocks locks => .ok { s with config := { s.config with contendedLocks := locks } }
  | .maxParallelAst ast =>
    if ast = 0 then .error .noParallelAst
    else .ok { s with config := { s.config with maxParallelAst := ast } }

end Lockspace
