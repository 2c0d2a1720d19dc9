import Lockspace.Lock

namespace Lockspace

/-- A lock with the range that it covers and the cookie of its handle. -/
structure Interval where
  extent : Extent
  cookie : UInt64
  lock : LockKey
deriving DecidableEq

/-- Intervals in order of their ranges; locks of one range in order of their handles. -/
def Interval.compare (a b : Interval) : Ordering :=
  (a.extent.compare b.extent).then (Ord.compare a.cookie b.cookie)

/-- The interval under which a lock is indexed, if it covers a range. -/
def Lock.interval? (lk : Lock) (l : LockKey) : Option Interval :=
  lk.extent.map fun e => ⟨e, lk.handle.cookie, l⟩

/-- Puts an interval into its place in a sorted list. One of the same range and handle gives way. -/
def insertInterval (i : Interval) : List Interval → List Interval
  | [] => [i]
  | j :: rest =>
    match i.compare j with
    | .lt => i :: j :: rest
    | .eq => i :: rest
    | .gt => j :: insertInterval i rest

/-- A sorted list without the interval of a range and a handle. -/
def eraseInterval (i : Interval) (tree : List Interval) : List Interval :=
  tree.filter fun j => i.compare j ≠ .eq

/-- The granted range locks of a resource, a sorted list for each mode. -/
structure IntervalIndex where
  trees : PerMode (List Interval) := .const []

namespace IntervalIndex

instance : Inhabited IntervalIndex := ⟨{}⟩

/-- Indexes a granted lock. A lock without a range is not indexed. -/
def insert (ix : IntervalIndex) (l : LockKey) (lk : Lock) : IntervalIndex :=
  match lk.interval? l with
  | none => ix
  | some i => ⟨ix.trees.set lk.mode (insertInterval i (ix.trees.get lk.mode))⟩

def contains (ix : IntervalIndex) (l : LockKey) (lk : Lock) : Bool :=
  (lk.interval? l).any fun i => (ix.trees.get lk.mode).any (i.compare · == .eq)

def remove (ix : IntervalIndex) (l : LockKey) (lk : Lock) : IntervalIndex :=
  match lk.interval? l with
  | none => ix
  | some i => ⟨ix.trees.set lk.mode (eraseInterval i (ix.trees.get lk.mode))⟩

/-- The indexed locks of a mode that overlap a range. No lock that starts beyond the range does,
and the list is sorted by starts. -/
def overlapping (ix : IntervalIndex) (mode : LockMode) (e : Extent) : List LockKey :=
  (((ix.trees.get mode).takeWhile (·.extent.start ≤ e.stop)).filter
    (e.start ≤ ·.extent.stop)).map (·.lock)

def size (ix : IntervalIndex) (mode : LockMode) : Nat :=
  (ix.trees.get mode).length

def isEmpty (ix : IntervalIndex) : Bool :=
  LockMode.all.all fun m => (ix.trees.get m).isEmpty

def locks (ix : IntervalIndex) : List LockKey :=
  LockMode.all.flatMap fun m => (ix.trees.get m).map (·.lock)

end IntervalIndex

end Lockspace
