import Lockspace.Config.Document
import Lockspace.Manager.Spaces
import Lockspace.Waiting.Task

namespace Lockspace

/-- Which callbacks of a namespace are written down, and whether lock callbacks do their work. The
default writes nothing down, `events` only what happens to resources, the others also lock
callbacks; with `keep` those leave the lock alone. -/
inductive PolicyKind where
  | default
  | events
  | record
  | keep
deriving DecidableEq

/-- How a peer answers: for which locks it fails, and how long it takes. -/
structure PeerPlan where
  fails : List String := []
  delay : Nat := 0

/-- A namespace to set up, with its collaborators. The owner of value blocks is missing where the
number of its failures is. -/
structure BuildStep where
  label : String
  name : String
  side : Side
  type : NamespaceType
  appetite : Appetite := .recoverable
  config : ConfigPatch := {}
  connectFlags : UInt64 := 0
  policy : PolicyKind := .default
  peer : Option PeerPlan := none
  lvbFailures : Option Nat := none

/-- How a resource is listed: by itself, while somebody else has it locked, or by the one who has
it locked. -/
inductive DumpStyle where
  | free
  | locked
  | guarded
deriving DecidableEq

/-- A step on a namespace or on the registry. -/
inductive SpaceStep where
  | build (b : BuildStep)
  | dropSpace (space : String)
  | info (space : String)
  | config (space : String)
  | detail (space : String)
  | same (space other : String)
  | takeHold (space : String)
  | dropHold (space : String)
  | recordTimeout (space : String)
  | tune (space : String) (setting : Tunable)
  | stats (space : String)
  | gauges
  | dump (space : String) (level : Level)
  | freePost (space : String)
  | resources (space : String)
  | registryCounts
  | registryLists (side : Side)
  | move (space : String) (side : Side) (link : NamespaceLink)
  | isListed (space : String) (side : Side)
  | takeGate
  | dropGate
  | dumpAll (side : Side) (level : Level)

/-- A step on a resource or on its queues. -/
inductive ResourceStep where
  | get (space : String) (id : ResourceId) (rtype : ResourceType) (create : Bool) (label : String)
  | clone (handle label : String)
  | put (handle : String)
  | drop (handle : String)
  | same (handle other : String)
  | info (handle : String)
  | detail (handle : String)
  | recordTime (handle : String) (elapsed : Duration)
  | add (handle lock : String) (queue : Queue)
  | insertAfter (handle anchor lock : String)
  | unlink (handle lock : String)
  | queues (handle : String)
  | firstUncleaned (handle : String) (queue : Queue)
  | overlapping (handle : String) (mode : LockMode) (extent : Extent)
  | dump (handle : String) (level : Level) (style : DumpStyle)

/-- A step on a lock. -/
inductive LockStep where
  | new (label : String) (mode : LockMode) (extent : Option Extent)
  | drop (lock : String)
  | info (lock : String)
  | detail (lock : String)
  | setFlags (lock : String) (flags : LockFlags)
  | clearFlags (lock : String) (flags : LockFlags)
  | addHold (lock : String) (mode : LockMode)
  | dropHold (lock : String) (mode : LockMode)
  | bind (lock handle : String)
  | unbind (lock label : String)
  | destroy (space lock : String)
  | completion (space lock : String) (flags : LockFlags)
  | cancelLocal (space lock : String)
  | unused (space lock : String)
  | reused (space lock : String)

/-- A step on an interval index, a list of unused locks or a set of counters of its own. -/
inductive ObjectStep where
  | newIntervals (label : String)
  | insertInterval (label lock : String)
  | removeInterval (label lock : String)
  | overlapping (label : String) (mode : LockMode) (extent : Extent)
  | intervalSizes (label : String)
  | newUnused (label : String)
  | addUnused (label lock : String)
  | removeUnused (label lock : String)
  | containsUnused (label lock : String)
  | takeAllUnused (label : String)
  | finalizeUnused (label : String)
  | takeVictims (label : String) (limits : VictimLimits) (age : Int) (lock : Option String)
  | newStats (label name : String)
  | registerStats (label : String)
  | unregisterStats (label : String)
  | recordTimeout (label : String)
  | publishStats (label : String) (resources unused : Nat)
  | snapshotStats (label : String) (resources unused : Nat)

/-- A step that takes no time. -/
inductive Step where
  | space (s : SpaceStep)
  | resource (s : ResourceStep)
  | lock (s : LockStep)
  | object (s : ObjectStep)

/-- The transport of a teardown: what is done while it disconnects and while it invalidates, and
whether these fail. -/
structure ImportPlan where
  disconnect : List Step := []
  invalidate : List Step := []
  disconnectFails : Bool := false
  invalidateFails : Bool := false

/-- An operation that may wait. -/
inductive Operation where
  | cleanup (space : String) (flags : LockFlags)
  | waitIdle (space : String)
  | freePrior (space : String) (force : Bool) (transport : Option ImportPlan)
  | free (space : String) (force : Bool) (transport : Option ImportPlan)
  | setLruSize (space : String) (value : String)
  | cancelLru (space : String) (count : Nat) (flags : LockFlags)
  | lvb (handle : String) (set : Option (List UInt8))
  | updateLvb (handle : String) (hint : LvbHint)

/-- What is done in one go: a step, or an operation together with steps at later times and the time
after which it is abandoned. -/
inductive Action where
  | step (s : Step)
  | operation (o : Operation) (after : List (Nat × Step)) (limit : Nat)

/-- Whether an action asks for a listing, at whichever level. -/
def Action.isListing : Action → Bool
  | .step (.space (.dump ..)) | .step (.space (.dumpAll ..)) | .step (.resource (.dump ..)) => true
  | _ => false

/-- An action, and whether its log is left out of the answer. -/
structure Order where
  action : Action
  quiet : Bool := false

end Lockspace
