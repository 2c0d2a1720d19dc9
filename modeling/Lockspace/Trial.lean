import Lockspace.Manager.Spaces

namespace Lockspace

/-- What is left of many rounds in which all callers take the same resource and then put it back. The
callers of a round come one after another: all have the same resource in whatever order they come. -/
structure RaceReport where
  /-- In each round all callers had the same resource, and it was the only one. -/
  same : Bool
  refcount : Nat
  freed : Nat
  events : List (ResourceEvent × Nat)
  space : Namespace

namespace Race

/-- One round: whether all took one resource, its reference count, and how many puts freed it. -/
def round (n : SpaceKey) (id : ResourceId) (rtype : ResourceType) (callers : Nat) :
    Act (Bool × Nat × Nat) := do
  let taken ← (List.range callers).mapM fun _ => Act.getOrCreate n id rtype true
  let refs := taken.filterMap Except.toOption
  let s ← Act.space n
  let same := match refs with
    | [] => true
    | r :: rest => rest.all (· == r) && s.table.size == 1 && s.table.bref == 1
  let counts ← refs.mapM fun r => return (← Act.resource r).refcount
  let freed ← refs.mapM Act.put
  return (same, counts.foldl max 0, freed.count true)

def countEvent (trace : Array Callback) (event : ResourceEvent) : Nat :=
  trace.toList.countP fun
    | .resource _ e .. => e == event
    | _ => false

def run (setup : Setup) (id : ResourceId) (rtype : ResourceType) (callers rounds : Nat) :
    Act (Except LockError RaceReport) := do
  match ← Act.build setup with
  | .error e => return .error e
  | .ok n =>
    let results ← (List.range rounds).mapM fun _ => round n id rtype callers
    let trace := (← get).trace
    return .ok
      { same := results.all (·.1)
        refcount := results.foldl (fun acc r => max acc r.2.1) 0
        freed := results.foldl (fun acc r => acc + r.2.2) 0
        events := [.created, .freed, .bucketOccupied, .bucketEmptied].map fun e =>
          (e, countEvent trace e)
        space := ← Act.space n }

end Race

/-- What a namespace does to the registry of its process while it is up and once it is freed: the
number of namespaces that are up, and that of its side. -/
structure GateReport where
  listedFirst : Bool
  up : Nat × Nat
  freed : Bool
  afterwards : Nat × Nat

/-- Sets up a namespace in a registry of its own and frees it again. -/
def gateReport (setup : Setup) : Act (Except LockError GateReport) := do
  let counts : Act (Nat × Nat) := do
    let r := (← get).registry
    return (r.alive, (r.get setup.side).size)
  match ← Act.build setup with
  | .error e => return .error e
  | .ok n =>
    let listedFirst := ((← get).inactive setup.side).head? == some n
    let up ← counts
    let freed ← Act.freePost n
    return .ok { listedFirst, up, freed, afterwards := ← counts }

end Lockspace
