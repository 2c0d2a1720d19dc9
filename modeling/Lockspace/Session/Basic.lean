import Lockspace.Session.Reply

namespace Lockspace

/-- The collaborators of a namespace as they were set up. The owner of value blocks is there if the
number of failures that it has left is. -/
structure SpacePlan where
  policy : PolicyKind := .default
  peer : PeerPlan := {}
  lvbFailures : Option Nat := none

instance : Inhabited SpacePlan := ⟨{}⟩

/-- An object that belongs to no namespace. -/
inductive Standalone where
  | intervals (ix : IntervalIndex)
  | unused (u : UnusedLru)
  | stats (s : Stats)

/-- A session: the state of all namespaces, the objects by the labels that name them, and what the
collaborators saw during the current action. -/
structure Session where
  manager : Manager := {}
  spaces : List (String × SpaceKey) := []
  plans : Store .space SpacePlan := {}
  handles : List (String × ResourceRef) := []
  locks : List (String × LockKey) := []
  objects : List (String × Standalone) := []
  journal : Array Entry := #[]

instance : Inhabited Session := ⟨{}⟩

/-- A step of a session. It may end in a fault. -/
abbrev Play := EStateM Fault Session

/-- A step of a session that may also be refused. -/
abbrev Perform := ExceptT StepError Play

namespace Play

/-- An action on the state of all namespaces. The session lets go of that state meanwhile, so that
it is changed in place. -/
def act {α : Type} (a : Act α) : Play α := fun s =>
  let m := s.manager
  let s := { s with manager := {} }
  match a m with
  | .ok x m => .ok x { s with manager := m }
  | .error fault m => .error fault { s with manager := m }

def handleText (m : Manager) (l : LockKey) : String :=
  (m.lock l).handleText

/-- The bucket of an event as it is written down. Where ids are salted it is left out. -/
def shownBucket (s : Namespace) (b : BucketKey) : Option Nat :=
  if s.table.preset.strategy = .identity ∧ s.table.shardCount > 1 then none else some b.index

/-- The journal entry of a callback, if the policy of its namespace writes it down. -/
def journalEntry (s : Session) : Callback → Option Entry
  | .resource n event desc bucket bref count =>
    match (s.plans.get n).policy with
    | .default => none
    | _ => some (.resource event desc (shownBucket (s.manager.space n) bucket) bref count)
  | .cancelLocal n l flags =>
    match (s.plans.get n).policy with
    | .default | .events => none
    | _ => some (.cancelLocal (handleText s.manager l) flags)
  | .completion n l arg flags =>
    match (s.plans.get n).policy with
    | .default | .events => none
    | _ => some (.completion (handleText s.manager l) arg flags)
  | .peerCancel _ l arg _ inflight => some (.peerCancel (handleText s.manager l) arg inflight)
  | .lvbUpdate _ id hint had => some (.lvbUpdate id hint had)
  | .disconnect _ => some .disconnect
  | .invalidate _ => some .invalidate

def settle (s : Session) : Session :=
  { s with
    journal := s.journal ++ s.manager.trace.filterMap (journalEntry s)
    manager := { s.manager with trace := #[] } }

def policy (plans : Store .space SpacePlan) : LockPolicy where
  completion n l flags :=
    if (plans.get n).policy = .keep then pure () else LockPolicy.default.completion n l flags
  cancelLocal n l :=
    if (plans.get n).policy = .keep then pure () else LockPolicy.default.cancelLocal n l

end Play

namespace Perform

def act {α : Type} (a : Act α) : Perform α :=
  ExceptT.lift (Play.act a)

def named {α : Type} (table : Session → List (String × α)) (label : String) : Perform α := do
  match (table (← get)).lookup label with
  | some a => return a
  | none => throw (.unknownLabel label)

def space (label : String) : Perform SpaceKey :=
  named (·.spaces) label

def handle (label : String) : Perform ResourceRef :=
  named (·.handles) label

def lock (label : String) : Perform LockKey :=
  named (·.locks) label

def object (label : String) : Perform Standalone :=
  named (·.objects) label

/-- The answer of an operation that may be refused. -/
def ofExcept {α : Type} : Except LockError α → Perform α
  | .ok a => return a
  | .error e => throw (.refused e)

def keepHandle (label : String) (r : ResourceRef) : Perform Unit :=
  modify fun s => { s with handles := s.handles ++ [(label, r)] }

def forgetHandle (label : String) : Perform Unit :=
  modify fun s => { s with handles := s.handles.filter (·.1 != label) }

def setObject (label : String) (o : Standalone) : Perform Unit :=
  modify fun s => { s with
    objects := s.objects.map fun p => if p.1 == label then (label, o) else p }

def newObject (label : String) (o : Standalone) : Perform Unit :=
  modify fun s => { s with objects := s.objects ++ [(label, o)] }

end Perform

end Lockspace
