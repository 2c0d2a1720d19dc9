import Lockspace.Session.Basic
import Lockspace.Text.Quoted

namespace Lockspace

namespace BuildStep

/-- What the namespace of a step is set up from. Where no LRU size is given it is one hundred. -/
def setup (b : BuildStep) : Setup where
  name := b.name
  side := b.side
  type := b.type
  appetite := b.appetite
  config := b.config.applyTo (.initial 1)
  connectFlags := b.connectFlags
  hasPeer := b.peer.isSome

def plan (b : BuildStep) : SpacePlan where
  policy := b.policy
  peer := b.peer.getD {}
  lvbFailures := b.lvbFailures

end BuildStep

namespace Perform

def spaceNames (m : Manager) (spaces : List SpaceKey) : List String :=
  spaces.map fun n => (m.space n).name

def spaceDetail (s : Namespace) : String :=
  "Namespace \x7b name: " ++ quoted s.name ++ ", side: " ++ Named.name s.side ++ ", ns_type: " ++
    Named.name s.type ++ ", bref: " ++ toString s.table.bref ++ ", link: " ++ Named.name s.link ++
    " \x7d"

/-- Resources in order of their ids. -/
def sortById (rs : List Resource) : List Resource :=
  rs.mergeSort fun a b => (a.id.compare b.id).isLE

def spaceStep : SpaceStep → Perform Reply
  | .build b => do
    let n ← ofExcept (← act (Act.build b.setup))
    modify fun s => { s with
      spaces := s.spaces ++ [(b.label, n)]
      plans := s.plans.set n b.plan }
    return .built
  | .dropSpace label => do
    let n ← space label
    modify fun s => { s with spaces := s.spaces.filter (·.1 != label) }
    act (Act.disownSpace n)
    return .nothing
  | .info label => do
    let n ← space label
    return .space (← act (Act.space n))
  | .config label => do
    let n ← space label
    return .config (← act (Act.space n)).config
  | .detail label => do
    let n ← space label
    return .text (spaceDetail (← act (Act.space n)))
  | .same label other => do
    let n ← space label
    let k ← space other
    return .truth (n = k)
  | .takeHold label => do
    let n ← space label
    return .count (← act (Act.takeHold n))
  | .dropHold label => do
    let n ← space label
    return .count (← act (Act.dropHold n))
  | .recordTimeout label => do
    let n ← space label
    act (Act.modifySpace n fun s => { s with stats := s.stats.recordTimeout })
    return .nothing
  | .tune label setting => do
    let n ← space label
    match (← act (Act.space n)).tune setting with
    | .ok s =>
      act (Act.modifySpace n fun _ => s)
      return .nothing
    | .error problem => throw (.refused (.configuration problem))
  | .stats label => do
    let n ← space label
    return .stats (← act (Act.stats n))
  | .gauges => return .gauges (← get).manager.gauges
  | .dump label level => do
    let n ← space label
    act (Act.dumpSpace level n)
    return .nothing
  | .freePost label => do
    let n ← space label
    return .truth (← act (Act.freePost n))
  | .resources label => do
    let n ← space label
    let refs ← act (Act.resources n)
    let shown ← act (refs.mapM Act.resource)
    act (Act.putAll refs)
    return .resources (sortById shown)
  | .registryCounts => return .registry (← get).manager.registry
  | .registryLists side => do
    let m := (← get).manager
    return .listed
      { side
        active := spaceNames m (m.active side)
        inactive := spaceNames m (m.inactive side)
        first := (m.first? side).map fun n => (m.space n).name }
  | .move label side link => do
    let n ← space label
    act (Act.moveTo side n link)
    return .nothing
  | .isListed label side => do
    let n ← space label
    let lists := (← get).manager.registry.get side
    return .isListed (lists.active.contains n) (lists.inactive.contains n)
  | .takeGate => return .count (← act Act.takeGate)
  | .dropGate => return .count (← act Act.dropGate)
  | .dumpAll side level => do
    act (Act.dumpAll level side)
    return .nothing

end Perform

end Lockspace
