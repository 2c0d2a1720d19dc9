import Lockspace.Extent
import Lockspace.Kinds
import Lockspace.LockFlags
import Lockspace.Mode
import Lockspace.Store

namespace Lockspace

/-- Where a resource lives: its namespace and its key there. -/
structure ResourceRef where
  space : SpaceKey
  key : ResourceKey
deriving DecidableEq

/-- A lock as queues see it. -/
structure Lock where
  /-- The handle by which peers name the lock. It is drawn when the lock is made, and is never 0. -/
  handle : LockHandle := ⟨0⟩
  /-- A name that texts show in place of the handle, if the lock was given one. -/
  label : Option String := none
  mode : LockMode := .nl
  extent : Option Extent := none
  flags : LockFlags := .none
  /-- The holds that read. Like those that write they stay below 2 ^ 32, as in a 32-bit counter. -/
  readers : Nat := 0
  writers : Nat := 0
  /-- The queue that holds the lock. -/
  link : Option Queue := none
  /-- The resource that the lock was last queued on or bound to. It may be gone by now. -/
  home : Option ResourceRef := none
  /-- The resource reference that the lock itself owns. -/
  bound : Option ResourceRef := none
  /-- When the lock last became unused. -/
  lastUsed : Nat := 0
  /-- How many hold the lock besides queues and lists of unused locks. -/
  owners : Nat := 0

namespace Lock

instance : Inhabited Lock := ⟨{}⟩

/-- How messages name a lock. -/
def handleText (l : Lock) : String :=
  l.label.getD l.handle.text

def isDestroyed (l : Lock) : Bool :=
  l.flags.contains .destroyed

def isLinked (l : Lock) : Bool :=
  l.link.isSome

def hasHolders (l : Lock) : Bool :=
  l.readers > 0 || l.writers > 0

def setFlags (l : Lock) (flags : LockFlags) : Lock :=
  { l with flags := l.flags ||| flags }

/-- The lock without some flags. -/
def clearFlags (l : Lock) (flags : LockFlags) : Lock :=
  { l with flags := l.flags.without flags }

def addHold (l : Lock) (mode : LockMode) : Lock :=
  if mode.reads then { l with readers := l.readers + 1 } else { l with writers := l.writers + 1 }

/-- The holds of the kind that a mode counts as. -/
def holds (l : Lock) (mode : LockMode) : Nat :=
  if mode.reads then l.readers else l.writers

def dropHold (l : Lock) (mode : LockMode) : Lock :=
  if mode.reads then { l with readers := l.readers - 1 } else { l with writers := l.writers - 1 }

def detail (l : Lock) : String :=
  "Lock \x7b handle: LockHandle(" ++ l.label.getD (toString l.handle.cookie.toNat) ++
    "), mode: " ++ Named.name l.mode ++
    ", extent: " ++ Extent.optionDetail l.extent ++
    ", flags: LockFlags(" ++ toString l.flags.bits.toNat ++
    "), readers: " ++ toString l.readers ++ ", writers: " ++ toString l.writers ++
    ", queue: " ++ (l.link.elim "None" fun q => "Some(" ++ q.label ++ ")") ++ " \x7d"

end Lock

end Lockspace
