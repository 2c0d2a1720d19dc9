import Lockspace.Waiting.Teardown
import Lockspace.Waiting.Victims

namespace Lockspace

/-- A waiting operation in progress. -/
inductive Task where
  | cleanup (c : Cleanup)
  | waitIdle (n : SpaceKey) (w : Waiter)
  | prior (t : Teardown)
  | free (t : Teardown)
  | cancel (v : VictimCancel) (last : ResizeEnd)

/-- What a waiting operation returns. -/
inductive Outcome where
  | count (n : Nat)
  | idle
  | ended (result : Except LockError Unit)

namespace Task

abbrev Step := Turn Task Outcome

def space : Task → SpaceKey
  | cleanup c => c.space
  | waitIdle n _ => n
  | prior t | free t => t.space
  | cancel v _ => v.space

/-- What the end of a first teardown phase means. -/
def afterPrior : Turn Teardown (Except LockError Unit) → Step
  | .returns r => .returns (.ended r)
  | .goes t => .goes (prior t)
  | .asks l t => .asks l (prior t)
  | .parks bound t => .parks bound (prior t)

/-- What the end of a first teardown phase means where the second follows. -/
def afterFree (n : SpaceKey) : Turn Teardown (Except LockError Unit) → Act Step
  | .returns (.ok ()) => return .returns (.ended (← Teardown.free n))
  | .returns (.error e) => return .returns (.ended (.error e))
  | .goes t => return .goes (free t)
  | .asks l t => return .asks l (free t)
  | .parks bound t => return .parks bound (free t)

/-- Goes on with an operation that need not sleep. -/
def turn (policy : LockPolicy) : Task → Act Step
  | cleanup c => do
    match ← c.turn policy with
    | .goes c => return .goes (cleanup c)
    | .asks l c => return .asks l (cleanup c)
    | .parks bound c => return .parks bound (cleanup c)
    | .returns n => return .returns (.count n)
  | waitIdle n w => do
    match w.poll (← Act.space n) with
    | .finished => return .returns .idle
    | w => return .goes (waitIdle n w)
  | prior t => return afterPrior (← t.turn policy)
  | free t => do afterFree t.space (← t.turn policy)
  | cancel v last => do
    match ← v.turn with
    | .goes v => return .goes (cancel v last)
    | .asks l v => return .asks l (cancel v last)
    | .parks bound v => return .parks bound (cancel v last)
    | .returns n =>
      Act.endResize v.space last
      return .returns (.count n)

/-- What follows when the bound of a wait has passed. -/
def expired : Task → Act Step
  | prior t => return afterPrior (← t.expired)
  | free t => do afterFree t.space (← t.expired)
  | other => return .goes other

def answered (l : LockKey) (failure : Option LockError) : Task → Act Task
  | cleanup c => return cleanup (← c.answered l failure)
  | waitIdle n w => return waitIdle n w
  | prior t => return prior (← t.answered l failure)
  | free t => return free (← t.answered l failure)
  | cancel v last => return cancel (← v.answered l failure) last

/-- The step that an operation wants to take with the transport. -/
def escalation? : Task → Option (Teardown × Escalation)
  | prior t | free t =>
    match t.stage with
    | .escalating step => some (t, step)
    | _ => none
  | _ => none

def pressed (step : Escalation) (failure : Option LockError) : Task → Act Task
  | prior t => return prior (← t.pressed step failure)
  | free t => return free (← t.pressed step failure)
  | other => return other

def abandon : Task → Act Unit
  | cleanup c => c.abandon
  | waitIdle .. => pure ()
  | prior t | free t => t.abandon
  | cancel v _ => v.abandon

/-- Whether an operation sleeps until a signal, a bound or an answer. -/
def sleeps (m : Manager) : Task → Bool
  | cleanup c => c.asking.isSome
  | waitIdle n w => w.sleeps (m.space n)
  | prior t | free t => t.sleeps (m.space t.space)
  | cancel v _ => v.sleeps

end Task

end Lockspace
