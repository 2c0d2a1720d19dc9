import Lockspace.Session.Step

namespace Lockspace

/-- Why a step gave no result. -/
inductive StepError where
  | unknownLabel (label : String)
  | refused (e : LockError)

/-- The entries of a registry list of one side, and the first one to reclaim from. -/
structure ListedSpaces where
  side : Side
  active : List String
  inactive : List String
  first : Option String

/-- The queues of a resource by the texts of their locks, and what is counted about them. -/
structure QueueReport where
  queues : List (List String)
  modes : Nat
  queued : Nat

/-- A resource with the name of its namespace and the estimate of its bucket. -/
structure ResourceReport where
  resource : Resource
  space : String
  estimate : Duration

/-- Counters of their own with the gauges that they set. -/
structure StatsReport where
  registered : Bool
  timeouts : Nat
  snapshot : StatsSnapshot
  gauges : Gauges

/-- What a step answers. -/
inductive Reply where
  | nothing
  | built
  | idle
  | ok
  | truth (b : Bool)
  | count (n : Nat)
  | counts (ns : List Nat)
  | flags (f : LockFlags)
  | duration (d : Duration)
  | text (s : String)
  | maybe (s : Option String)
  | labels (ls : List String)
  | reference (id : ResourceId) (rtype : ResourceType) (refcount : Nat)
  | resources (rs : List Resource)
  | resource (r : ResourceReport)
  | queues (q : QueueReport)
  | lock (l : Lock) (home : Option ResourceId)
  | lvb (v : Lvb)
  | space (s : Namespace)
  | config (c : NamespaceConfig)
  | stats (s : StatsSnapshot)
  | gauges (g : Gauges)
  | registry (r : Registry)
  | listed (l : ListedSpaces)
  | isListed (active inactive : Bool)
  | sizes (ns : List Nat) (isEmpty : Bool)
  | unused (answer : Reply) (size : Nat)
  | counters (s : StatsReport)

/-- Where a step was run from within an operation. -/
inductive Origin where
  | after
  | transport (step : Escalation)

/-- One thing that collaborators saw. -/
inductive Entry where
  | resource (event : ResourceEvent) (desc : ResourceDesc) (bucket : Option Nat) (bref count : Nat)
  | cancelLocal (lock : String) (flags : LockFlags)
  | completion (lock : String) (arg flags : LockFlags)
  | peerCancel (lock : String) (arg : LockFlags) (inflight : Nat)
  | lvbUpdate (id : ResourceId) (hint : LvbHint) (had : List UInt8)
  | disconnect
  | invalidate
  | nested (origin : Origin) (answer : Except StepError Reply)

/-- How an action ended. -/
inductive Result where
  | reply (r : Reply)
  | pending
  | error (e : StepError)
  | fault (f : Fault)

/-- The state of a namespace after an action. -/
structure SpaceStatus where
  link : NamespaceLink
  bref : Nat
  resources : Nat
  locks : Nat
  unused : Nat

/-- The answer to an action: its result, the time it took if it may wait, what collaborators saw,
what was logged, and the state of each namespace afterwards. -/
structure Answer where
  result : Result
  time : Option Nat := none
  journal : List Entry := []
  log : List LogLine := []
  status : List (String × SpaceStatus) := []

end Lockspace
