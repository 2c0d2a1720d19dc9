import Lockspace.Duration
import Lockspace.Store

namespace Lockspace

/-- Which unused locks to cancel: so many of the oldest, those beyond a number to keep, and those
beyond an age. -/
structure VictimLimits where
  count : Nat
  maxUnused : Option Nat
  maxAge : Duration

/-- Whether a limit asks for the lock at a place, where so many locks come before it. -/
def VictimLimits.takes (limits : VictimLimits) (total pos age : Nat) : Bool :=
  pos < limits.count || limits.maxUnused.any (total - pos > ·) || age > limits.maxAge.nanos

/-- Unused locks, the oldest first. Every lock in it has a number by which it is ordered; the
index leads from a lock to its number. Once finalized it takes no more locks. Numbers are not given
twice, as long as fewer than 2 ^ 64 are given in all. -/
structure UnusedLru where
  order : List (Nat × LockKey) := []
  index : List (LockKey × Nat) := []
  next : Nat := 0
  finalized : Bool := false

namespace UnusedLru

instance : Inhabited UnusedLru := ⟨{}⟩

/-- The locks from the oldest to the youngest. -/
def toList (u : UnusedLru) : List LockKey :=
  u.order.map (·.2)

def size (u : UnusedLru) : Nat :=
  u.order.length

def isEmpty (u : UnusedLru) : Bool :=
  u.size == 0

def contains (u : UnusedLru) (lock : LockKey) : Bool :=
  (u.index.lookup lock).isSome

def dropNumber (u : UnusedLru) (seq : Nat) : UnusedLru :=
  { u with order := u.order.filter (·.1 != seq) }

def erase (u : UnusedLru) (lock : LockKey) : UnusedLru :=
  match u.index.lookup lock with
  | none => u
  | some seq => { u.dropNumber seq with index := u.index.filter (·.1 != lock) }

/-- Takes a lock out and tells whether it was there. -/
def remove (u : UnusedLru) (lock : LockKey) : Bool × UnusedLru :=
  match u.index.lookup lock with
  | none => (false, u)
  | some seq => (u.order.any (·.1 == seq), u.erase lock)

def append (u : UnusedLru) (lock : LockKey) : UnusedLru :=
  { u with
    order := u.order ++ [(u.next, lock)]
    index := (lock, u.next) :: u.index
    next := u.next + 1 }

/-- Puts a lock at the young end, unless it is destroyed or the list is finalized, and tells
whether it did. -/
def add (u : UnusedLru) (lock : LockKey) (destroyed : Bool) : Bool × UnusedLru :=
  if u.finalized || destroyed then (false, u) else (true, (u.erase lock).append lock)

/-- The oldest locks as long as a limit asks for each of them. -/
def victimsFrom (limits : VictimLimits) (total : Nat) (age : LockKey → Nat) :
    Nat → List LockKey → List LockKey
  | _, [] => []
  | pos, lock :: rest =>
    if limits.takes total pos (age lock) then
      lock :: victimsFrom limits total age (pos + 1) rest
    else []

/-- Takes out the locks to cancel, the oldest first. -/
def takeVictims (u : UnusedLru) (limits : VictimLimits) (age : LockKey → Nat) :
    List LockKey × UnusedLru :=
  let taken := victimsFrom limits u.size age 0 u.toList
  (taken, taken.foldl erase u)

/-- Takes out every lock, the oldest first. -/
def takeAll (u : UnusedLru) : List LockKey × UnusedLru :=
  (u.toList, { u with order := [], index := [] })

/-- Takes out every lock and refuses further ones. -/
def finalize (u : UnusedLru) : List LockKey × UnusedLru :=
  (u.toList, { u with order := [], index := [], finalized := true })

end UnusedLru

end Lockspace
