import Lockspace.Session.Locks
import Lockspace.Session.Objects
import Lockspace.Session.Spaces

namespace Lockspace

def Perform.step : Step → Perform Reply
  | .space s => spaceStep s
  | .resource s => resourceStep s
  | .lock s => lockStep s
  | .object s => objectStep s

namespace Play

def step (s : Step) : Play (Except StepError Reply) :=
  (Perform.step s).run

/-- Runs a step from within an operation and writes its answer into the journal. -/
def nested (origin : Origin) (s : Step) : Play Unit := do
  let answer ← step s
  modify settle
  modify fun s => { s with journal := s.journal.push (.nested origin answer) }

/-- Presses the transport of a namespace as planned and gives its failure. -/
def press (plan : ImportPlan) (t : Teardown) (step : Escalation) : Play (Option LockError) := do
  act (t.press step)
  modify settle
  match step with
  | .disconnect =>
    plan.disconnect.forM (nested (.transport step))
    return if plan.disconnectFails then some (.internal "disconnect refused") else none
  | .invalidate =>
    plan.invalidate.forM (nested (.transport step))
    return if plan.invalidateFails then some (.internal "invalidate refused") else none

/-- The failure with which a peer answers about a lock. -/
def peerFailure (s : Session) (n : SpaceKey) (l : LockKey) : Option LockError :=
  let handle := handleText s.manager l
  let fails := (s.plans.get n).peer.fails
  if handle ∈ fails ∨ "*" ∈ fails then some (.remoteCancelFailed handle "peer unreachable")
  else none

end Play

/-- An operation on the clock: the time, what is in progress, the calls of the peer with the times
of their answers, the end of the present wait, and the steps that are still to come. -/
structure Running where
  now : Nat := 0
  task : Task
  calls : List (LockKey × Nat) := []
  deadline : Option Nat := none
  after : List (Nat × Step)
  limit : Nat

/-- What ends a sleep. -/
inductive Alarm where
  | answer (lock : LockKey) (time : Nat)
  | expiry (time : Nat)
  | steps (time : Nat)
  | limit
deriving DecidableEq

namespace Alarm

/-- When an alarm goes off, if it is not the last one of all. -/
def time (limitAt : Nat) : Alarm → Nat
  | answer _ t | expiry t | steps t => t
  | limit => limitAt

/-- The earlier of two alarms, and the first of them if they go off together. -/
def earlier (limitAt : Nat) (a b : Alarm) : Alarm :=
  if b.time limitAt < a.time limitAt then b else a

end Alarm

namespace Running

def nextAlarm (r : Running) : Alarm :=
  let answers := r.calls.map fun c => Alarm.answer c.1 c.2
  let expiry := r.deadline.toList.map Alarm.expiry
  let steps := (r.after.head?.map fun p => Alarm.steps p.1).toList
  match answers ++ expiry ++ steps with
  | [] => .limit
  | a :: rest => (rest ++ [Alarm.limit]).foldl (Alarm.earlier r.limit) a

/-- How many turns an operation may take at most: in every millisecond it may visit every lock and
leave every queue once for each step that comes between. -/
def fuel (m : Manager) (nestedSteps limit : Nat) : Nat :=
  let resources := m.spaces.total (·.table.resources.size)
  (limit + nestedSteps + 4) * (4 * (m.locks.size + resources + 2 * nestedSteps) + 16)

/-- Takes over what a turn did, up to the result if it was the last. -/
def afterTurn (r : Running) (delay : SpaceKey → Nat) : Task.Step → Running ⊕ Outcome
  | .goes t => .inl { r with task := t }
  | .asks l t => .inl { r with task := t, calls := r.calls ++ [(l, r.now + delay t.space)] }
  | .parks bound t => .inl { r with task := t, deadline := some (r.now + bound.timerMillis) }
  | .returns a => .inr a

/-- Runs an operation until it returns or its time is up, together with the steps that come between.
Gives the time that it took and what it returned. -/
def run (plan : ImportPlan) : Nat → Running → Play (Nat × Option Outcome × List (Nat × Step))
  | 0, r => do
    Play.act r.task.abandon
    return (r.limit, none, r.after)
  | fuel + 1, r => do
    let plans := (← get).plans
    let continue' := fun (r : Running) (turn : Task.Step) => do
      match r.afterTurn (fun n => (plans.get n).peer.delay) turn with
      | .inl r => run plan fuel r
      | .inr outcome => return (r.now, some outcome, r.after)
    match r.calls.find? fun c => c.2 ≤ r.now with
    | some (l, _) =>
      let failure := Play.peerFailure (← get) r.task.space l
      let task ← Play.act (r.task.answered l failure)
      continue' { r with calls := r.calls.filter (·.1 != l) } (.goes task)
    | none =>
      match r.task.escalation? with
      | some (t, step) =>
        let failure ← Play.press plan t step
        continue' r (.goes (← Play.act (r.task.pressed step failure)))
      | none =>
        if !r.task.sleeps (← get).manager then
          continue' r (← Play.act (r.task.turn (Play.policy plans)))
        else match r.nextAlarm with
        | .answer _ time => run plan fuel { r with now := time }
        | .expiry time =>
          let turn ← Play.act r.task.expired
          continue' { r with now := time, deadline := none } turn
        | .steps time =>
          (r.after.takeWhile (·.1 = time)).forM fun p => Play.nested .after p.2
          run plan fuel { r with now := time, after := r.after.dropWhile (·.1 = time) }
        | .limit =>
          Play.act r.task.abandon
          return (r.limit, none, r.after)

end Running

end Lockspace
