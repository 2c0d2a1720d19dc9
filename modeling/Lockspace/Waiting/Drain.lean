import Lockspace.Waiting.Cleanup
import Lockspace.Waiting.Waiter

namespace Lockspace

/-- Where a drain stands: it empties queues, or it waits for the last reference, up to a bound. -/
inductive DrainStage where
  | cleaning (c : Cleanup)
  | waiting (w : Waiter) (bound : Duration)

/-- A drain of a namespace that then waits until no reference is left. A forced one only works
locally and never stops waiting. -/
structure Drain where
  space : SpaceKey
  force : Bool
  stage : DrainStage

namespace Drain

def flags (force : Bool) : LockFlags :=
  if force then .localOnly else .none

def start (n : SpaceKey) (force : Bool) : Act Drain := do
  return ⟨n, force, .cleaning (← Cleanup.start n (flags force))⟩

/-- Starts to wait, unless no reference is left. -/
def park (d : Drain) (bound : Duration) : Act (Turn Drain (Except LockError Unit)) := do
  match Waiter.outside.poll (← Act.space d.space) with
  | .finished => return .returns (.ok ())
  | w => return .parks bound { d with stage := .waiting w bound }

/-- The bound of the first wait. -/
def firstBound (force : Bool) (config : NamespaceConfig) : Duration :=
  if force then config.forceWaitTimeout else config.drainWaitTimeout

/-- Goes on emptying queues, or looks again after a signal. -/
def turn (policy : LockPolicy) (d : Drain) : Act (Turn Drain (Except LockError Unit)) := do
  match d.stage with
  | .cleaning c =>
    match ← c.turn policy with
    | .goes c => return .goes { d with stage := .cleaning c }
    | .asks l c => return .asks l { d with stage := .cleaning c }
    | .parks bound c => return .parks bound { d with stage := .cleaning c }
    | .returns _ => d.park (firstBound d.force (← Act.space d.space).config)
  | .waiting w bound =>
    match w.poll (← Act.space d.space) with
    | .finished => return .returns (.ok ())
    | w => return .goes { d with stage := .waiting w bound }

/-- What follows when the bound of a wait has passed: a forced drain waits again, with the next
bound, and any other gives up. -/
def expired (d : Drain) : Act (Turn Drain (Except LockError Unit)) := do
  match d.stage with
  | .cleaning _ => return .goes d
  | .waiting _ bound =>
    let s ← Act.space d.space
    let inUse := s.table.bref
    if d.force then
      Act.log .error ("Forced cleanup waiting for " ++ s.name ++ " namespace with " ++
        toString inUse ++ " resources in use")
      d.park (s.config.nextForceWait bound)
    else
      Act.log .error ("Cleanup waiting for " ++ s.name ++ " namespace with " ++ toString inUse ++
        " resources in use")
      return .returns (.error (.drainTimeout s.name inUse))

def answered (d : Drain) (l : LockKey) (failure : Option LockError) : Act Drain := do
  match d.stage with
  | .cleaning c => return { d with stage := .cleaning (← c.answered l failure) }
  | .waiting .. => return d

def abandon (d : Drain) : Act Unit :=
  match d.stage with
  | .cleaning c => c.abandon
  | .waiting .. => pure ()

/-- Whether the drain sleeps until a signal, a bound or an answer. -/
def sleeps (d : Drain) (s : Namespace) : Bool :=
  match d.stage with
  | .cleaning c => c.asking.isSome
  | .waiting w _ => w.sleeps s

end Drain

end Lockspace
