import Lockspace.Kinds
import Lockspace.Store

namespace Lockspace

/-- The namespaces of one side: those with resources and those without. -/
structure SideLists where
  active : List SpaceKey := []
  inactive : List SpaceKey := []
deriving DecidableEq

namespace SideLists

instance : Inhabited SideLists := ⟨{}⟩

/-- Takes the entry of a namespace off the list that holds it. -/
def take? (s : SideLists) (space : SpaceKey) : Option SideLists :=
  if space ∈ s.active then some { s with active := s.active.erase space }
  else if space ∈ s.inactive then some { s with inactive := s.inactive.erase space }
  else none

/-- Puts a namespace at the head of the inactive list. -/
def pushInactive (s : SideLists) (space : SpaceKey) : SideLists :=
  { s with inactive := space :: s.inactive }

/-- Puts a namespace at the tail of the list that a link names. -/
def append (s : SideLists) (link : NamespaceLink) (space : SpaceKey) : SideLists :=
  match link with
  | .active => { s with active := s.active ++ [space] }
  | .inactive => { s with inactive := s.inactive ++ [space] }
  | .detached => s

def size (s : SideLists) : Nat :=
  s.active.length + s.inactive.length

end SideLists

/-- The namespaces of both sides, and how many have been set up and not yet freed. -/
structure Registry where
  server : SideLists := {}
  client : SideLists := {}
  alive : Nat := 0
deriving DecidableEq

namespace Registry

instance : Inhabited Registry := ⟨{}⟩

def get (r : Registry) : Side → SideLists
  | .server => r.server
  | .client => r.client

def set (r : Registry) (side : Side) (s : SideLists) : Registry :=
  match side with
  | .server => { r with server := s }
  | .client => { r with client := s }

theorem get_set (r : Registry) (side other : Side) (s : SideLists) :
    (r.set side s).get other = if other = side then s else r.get other := by
  cases side <;> cases other <;> rfl

end Registry

end Lockspace
