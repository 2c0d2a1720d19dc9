import Lockspace.Manager.Spaces
import Lockspace.Waiting.Drain

namespace Lockspace

/-- How a teardown presses the transport of a namespace that does not drain. -/
inductive Escalation where
  | disconnect
  | invalidate
deriving DecidableEq

/-- Where a teardown stands: in its first drain, with the transport, or in the forced retry. -/
inductive TeardownStage where
  | draining (d : Drain)
  | escalating (step : Escalation)
  | retrying (d : Drain)

/-- The first phase of the teardown of a namespace: a drain that, where it runs out of time and
there is a transport, disconnects and invalidates that and then drains by force. -/
structure Teardown where
  space : SpaceKey
  hasImport : Bool
  stage : TeardownStage

namespace Teardown

abbrev Step := Turn Teardown (Except LockError Unit)

def start (n : SpaceKey) (force hasImport : Bool) : Act Teardown := do
  Act.modifySpace n fun s => { s with stopping := true }
  return ⟨n, hasImport, .draining (← Drain.start n force)⟩

/-- What a turn of the first drain means for the teardown. -/
def afterFirst (t : Teardown) : Turn Drain (Except LockError Unit) → Act Step
  | .returns (.error e) => do
    if !t.hasImport then return .returns (.error e)
    Act.log .warn ("Namespace " ++ (← Act.space t.space).name ++ " did not drain (" ++ e.message ++
      "), invalidating its import")
    return .goes { t with stage := .escalating .disconnect }
  | other => return other.map fun d => { t with stage := .draining d }

/-- What a turn of the retry means for the teardown. -/
def afterRetry (t : Teardown) (turn : Turn Drain (Except LockError Unit)) : Step :=
  turn.map fun d => { t with stage := .retrying d }

def turn (policy : LockPolicy) (t : Teardown) : Act Step := do
  match t.stage with
  | .draining d => t.afterFirst (← d.turn policy)
  | .escalating _ => return .goes t
  | .retrying d => return t.afterRetry (← d.turn policy)

/-- What follows when the bound of a wait has passed. -/
def expired (t : Teardown) : Act Step := do
  match t.stage with
  | .draining d => t.afterFirst (← d.expired)
  | .escalating _ => return .goes t
  | .retrying d => return t.afterRetry (← d.expired)

/-- Notes that the transport is pressed. -/
def press (t : Teardown) (step : Escalation) : Act Unit :=
  match step with
  | .disconnect => Act.note (.disconnect t.space)
  | .invalidate => Act.note (.invalidate t.space)

def Escalation.text : Escalation → String
  | .disconnect => "Disconnect"
  | .invalidate => "Invalidate"

/-- Takes the answer of the transport. A failure is logged and changes nothing else; after the
second step the forced drain starts. -/
def pressed (t : Teardown) (step : Escalation) (failure : Option LockError) : Act Teardown := do
  if let some e := failure then
    Act.log .warn (Escalation.text step ++ " of namespace " ++ (← Act.space t.space).name ++
      " import failed: " ++ e.message)
  match step with
  | .disconnect => return { t with stage := .escalating .invalidate }
  | .invalidate => return { t with stage := .retrying (← Drain.start t.space true) }

def answered (t : Teardown) (l : LockKey) (failure : Option LockError) : Act Teardown := do
  match t.stage with
  | .draining d => return { t with stage := .draining (← d.answered l failure) }
  | .escalating _ => return t
  | .retrying d => return { t with stage := .retrying (← d.answered l failure) }

def abandon (t : Teardown) : Act Unit :=
  match t.stage with
  | .draining d | .retrying d => d.abandon
  | .escalating _ => pure ()

/-- Whether the teardown sleeps until a signal, a bound or an answer. -/
def sleeps (t : Teardown) (s : Namespace) : Bool :=
  match t.stage with
  | .draining d | .retrying d => d.sleeps s
  | .escalating _ => false

/-- What follows a first phase that succeeded in a whole teardown: the namespace is freed. It is
refused if a resource has come to life in between. -/
def free (n : SpaceKey) : Act (Except LockError Unit) := do
  if ← Act.freePost n then return .ok ()
  let s ← Act.space n
  if s.table.bref ≠ 0 then return .error (.drainTimeout s.name s.table.bref)
  return .ok ()

end Teardown

end Lockspace
