import Lockspace.Manager.ValueBlock
import Lockspace.Session.Clock

namespace Lockspace

namespace Operation

/-- The transport of a teardown, if it has one. -/
def transport : Operation → Option ImportPlan
  | freePrior _ _ plan | free _ _ plan => plan
  | _ => none

end Operation

/-- What an operation is once it has started: in progress, or done at once. -/
inductive Started where
  | task (t : Task)
  | done (answer : Except LockError Reply)

namespace Perform

/-- The owner of value blocks of a namespace, as long as it has so many failures left. It appends
the first word of the id, its lowest byte first, and the number of the hint. -/
def lvbOwner (failures : Nat) : LvbOwner := fun id hint block => do
  let word := (List.range 8).map fun i => UInt8.ofNat (id.seq.toNat >>> (8 * i))
  let mark : UInt8 := match hint with
    | .init => 0
    | .refresh => 1
    | .increaseOnly => 2
  return ({ block with data := block.data ++ word ++ [mark] },
    if failures > 0 then some (.lvbUpdate id "lvb owner failed") else none)

/-- The owner of value blocks that a namespace has now. -/
def ownerOf (n : SpaceKey) : Perform (Option LvbOwner) :=
  return ((← get).plans.get n).lvbFailures.map lvbOwner

/-- Runs an action that may call the owner of value blocks, and counts its failures down. -/
def withOwner {α : Type} (n : SpaceKey) (a : Option LvbOwner → Act α) : Perform α := do
  let before := (← get).manager.trace.size
  let answer ← act (a (← ownerOf n))
  if (← get).manager.trace.size > before then
    modify fun s => { s with
      plans := s.plans.modify n fun p => { p with lvbFailures := p.lvbFailures.map (· - 1) } }
  return answer

/-- Starts an operation. An LRU size is read before anything else happens. -/
def start : Operation → Perform Started
  | .cleanup label flags => do
    let n ← space label
    return .task (.cleanup (← act (Cleanup.start n flags)))
  | .waitIdle label => do
    let n ← space label
    return .task (.waitIdle n .outside)
  | .freePrior label force transport => do
    let n ← space label
    return .task (.prior (← act (Teardown.start n force transport.isSome)))
  | .free label force transport => do
    let n ← space label
    return .task (.free (← act (Teardown.start n force transport.isSome)))
  | .setLruSize label value => do
    let n ← space label
    match parseLruSize value with
    | .error problem => throw (.refused (.configuration problem))
    | .ok size =>
      let (v, last) ← act (Act.setLruSize (Play.policy (← get).plans) n size)
      return .task (.cancel v last)
  | .cancelLru label count flags => do
    let n ← space label
    return .task (.cancel (← act (Act.cancelLru (Play.policy (← get).plans) n count flags)) .keep)
  | .lvb label set => do
    let r ← handle label
    match ← withOwner r.space fun owner => Act.lvb owner r with
    | .error e => return .done (.error e)
    | .ok _ =>
      if let some data := set then act (Act.setLvb r data)
      return .done (.ok (.lvb (← act (Act.resource r)).lvb))
  | .updateLvb label hint => do
    let r ← handle label
    match ← withOwner r.space fun owner => Act.updateLvb owner r hint with
    | .error e => return .done (.error e)
    | .ok () => return .done (.ok .nothing)

end Perform

namespace Play

def resultOf : Outcome → Result
  | .count n => .reply (.count n)
  | .idle => .reply .idle
  | .ended (.ok ()) => .reply .ok
  | .ended (.error e) => .error (.refused e)

/-- Steps in order of their times. Steps of the same time keep their order. -/
def inOrder (after : List (Nat × Step)) : List (Nat × Step) :=
  after.mergeSort fun a b => a.1 ≤ b.1

/-- Runs the steps that come after an operation has ended. -/
def rest (after : List (Nat × Step)) : Play Unit :=
  after.forM fun p => nested .after p.2

/-- Runs an operation in progress to its end. The operation holds its namespace meanwhile. -/
def wait (t : Task) (plan : ImportPlan) (after : List (Nat × Step)) (limit : Nat) :
    Play (Result × Option Nat) := do
  act (Act.ownSpace t.space)
  let steps := after.length + plan.disconnect.length + plan.invalidate.length
  let fuel := Running.fuel (← get).manager steps limit
  let (time, outcome, left) ← Running.run plan fuel { task := t, after, limit }
  act (Act.disownSpace t.space)
  modify settle
  rest left
  return ((outcome.map resultOf).getD .pending, some time)

/-- Runs an action and gives its result, with the time that it took if it may wait. -/
def action : Action → Play (Result × Option Nat)
  | .step s => do
    match ← step s with
    | .ok r => return (.reply r, none)
    | .error e => return (.error e, none)
  | .operation o after limit => do
    let after := inOrder after
    match ← (Perform.start o).run with
    | .error e => return (.error e, none)
    | .ok (.task t) => wait t (o.transport.getD {}) after limit
    | .ok (.done answer) =>
      modify settle
      rest after
      match answer with
      | .ok r => return (.reply r, some 0)
      | .error e => return (.error (.refused e), some 0)

end Play

namespace Session

def status (s : Session) : List (String × SpaceStatus) :=
  s.spaces.map fun (label, n) =>
    let space := s.manager.space n
    (label, { link := space.link, bref := space.table.bref, resources := space.table.size
              locks := space.stats.locks.toNat, unused := space.lru.size })

/-- The lines of a log that the answer to an order shows. -/
def shownLog (o : Order) (log : List LogLine) : List LogLine :=
  if o.quiet then []
  else if o.action.isListing then log
  else log.filter (·.level.isAlert)

/-- Takes the log and the journal of an order out of a session. -/
def answer (s : Session) (o : Order) (result : Result) (time : Option Nat)
    (status : List (String × SpaceStatus)) : Answer × Session :=
  let s := Play.settle s
  ({ result, time, status
     journal := s.journal.toList
     log := shownLog o s.manager.log.toList },
    { s with journal := #[], manager := { s.manager with log := #[] } })

/-- Runs one order. After a fault there is no session any more. -/
def order (s : Session) (o : Order) : Answer × Option Session :=
  match Play.action o.action s with
  | .ok (result, time) s =>
    let (a, s) := s.answer o result time s.status
    (a, some s)
  | .error fault s =>
    let (a, _) := s.answer o (.fault fault) none []
    (a, none)

/-- Runs orders one after another, up to the first fault. -/
def orders (s : Session) : List Order → List Answer
  | [] => []
  | o :: rest =>
    match s.order o with
    | (a, some s) => a :: s.orders rest
    | (a, none) => [a]

/-- Runs a whole session from nothing. -/
def play (os : List Order) : List Answer :=
  orders {} os

end Session

end Lockspace
