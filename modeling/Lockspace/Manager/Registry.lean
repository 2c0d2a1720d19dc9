import Lockspace.Manager.Basic

namespace Lockspace

namespace Act

def takeGate : Act Nat :=
  modifyGet fun m =>
    (m.registry.alive + 1, { m with registry := { m.registry with alive := m.registry.alive + 1 } })

/-- One namespace less that is up, if there is one. Without one the count stays at 0,
where a counter that falls before it is tested would have wrapped. -/
def dropGate : Act Nat := do
  let alive := (← get).registry.alive
  if alive = 0 then throw .gateUnderflow
  modify fun m => { m with registry := { m.registry with alive := alive - 1 } }
  return alive - 1

/-- Puts a namespace onto the inactive list of its side. -/
def register (n : SpaceKey) : Act Unit := do
  let s ← space n
  if s.link ≠ .detached then throw (.registeredTwice s.name)
  modify fun m => { m with registry := m.registry.set s.side ((m.registry.get s.side).pushInactive n) }
  modifySpace n fun s => { s with link := .inactive }

def unregister (n : SpaceKey) : Act Unit := do
  let s ← space n
  modify fun m =>
    match (m.registry.get s.side).take? n with
    | some lists => { m with registry := m.registry.set s.side lists }
    | none => m
  modifySpace n fun s => { s with link := .detached }

/-- Moves a namespace to the tail of a list of a side, which must be its own. -/
def moveTo (side : Side) (n : SpaceKey) (link : NamespaceLink) : Act Unit := do
  let s ← space n
  if s.side ≠ side then throw (.wrongSide s.name side)
  if s.link = .detached then throw (.notRegistered s.name)
  match ((← get).registry.get side).take? n with
  | none => throw (.missingFromRegistry s.name side)
  | some lists =>
    modify fun m => { m with registry := m.registry.set side (lists.append link n) }
    modifySpace n fun s => { s with link }

end Act

namespace Manager

/-- The namespaces of a list that still live. -/
def living (m : Manager) (spaces : List SpaceKey) : List SpaceKey :=
  spaces.filter fun n => (m.space n).isAlive

/-- The living namespaces of a side with resources, in list order. -/
def active (m : Manager) (side : Side) : List SpaceKey :=
  m.living (m.registry.get side).active

/-- The living namespaces of a side without resources, in list order. -/
def inactive (m : Manager) (side : Side) : List SpaceKey :=
  m.living (m.registry.get side).inactive

/-- The first living namespace of a side with resources, where the reclaimer goes on. -/
def first? (m : Manager) (side : Side) : Option SpaceKey :=
  (m.registry.get side).active.find? fun n => (m.space n).isAlive

end Manager

end Lockspace
