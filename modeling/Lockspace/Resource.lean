import Lockspace.Intervals
import Lockspace.Lock
import Lockspace.ResourceId

namespace Lockspace

/-- The value block of a resource: bytes that their owner fills on first access. -/
structure Lvb where
  initialized : Bool := false
  data : List UInt8 := []
deriving DecidableEq, Inhabited

/-- The locks of a resource by queue, in order of arrival. -/
structure LockQueues where
  granted : List LockKey := []
  converting : List LockKey := []
  waiting : List LockKey := []
deriving DecidableEq, Inhabited

namespace LockQueues

def get (qs : LockQueues) : Queue → List LockKey
  | .granted => qs.granted
  | .converting => qs.converting
  | .waiting => qs.waiting

def set (qs : LockQueues) (q : Queue) (locks : List LockKey) : LockQueues :=
  match q with
  | .granted => { qs with granted := locks }
  | .converting => { qs with converting := locks }
  | .waiting => { qs with waiting := locks }

def isEmpty (qs : LockQueues) : Bool :=
  Queue.all.all fun q => (qs.get q).isEmpty

theorem get_set (qs : LockQueues) (q r : Queue) (locks : List LockKey) :
    (qs.set q locks).get r = if r = q then locks else qs.get r := by
  cases q <;> cases r <;> rfl

end LockQueues

/-- A list with one more element right behind the first occurrence of another. -/
def insertBehind {α : Type} [BEq α] (anchor a : α) : List α → List α
  | [] => []
  | b :: rest => if b == anchor then b :: a :: rest else b :: insertBehind anchor a rest

/-- The state of one named object: who holds references to it, and the locks queued on it. -/
structure Resource where
  id : ResourceId := default
  rtype : ResourceType := .plain
  bucket : BucketKey := ⟨0⟩
  /-- How many references there are. They stay below 2 ^ 32, where a 32-bit counter would wrap. -/
  refcount : Nat := 0
  /-- How many locks are on any queue. -/
  queued : Nat := 0
  queues : LockQueues := {}
  /-- The granted locks with a range, on resources of that kind. -/
  intervals : Option IntervalIndex := none
  /-- How many granted locks there are of each mode, on resources of that kind. -/
  groups : PerMode Nat := .const 0
  lvb : Lvb := {}
  /-- How many granted locks a capped listing shows. -/
  dumpGrantedMax : Nat := 0

namespace Resource

instance : Inhabited Resource := ⟨{}⟩

/-- A new resource with one reference and no locks. -/
def new (id : ResourceId) (rtype : ResourceType) (bucket : BucketKey) (dumpGrantedMax : Nat) :
    Resource where
  id
  rtype
  bucket
  refcount := 1
  intervals := if rtype.hasIntervalIndex then some {} else none
  dumpGrantedMax

def desc (r : Resource) : ResourceDesc :=
  ⟨r.rtype, r.id⟩

/-- The set of modes of the granted locks that are counted by mode. -/
def grantedModes (r : Resource) : Nat :=
  (LockMode.all.filter fun m => r.groups.get m > 0).foldl (fun acc m => acc ||| m.bit) 0

/-- The granted locks of a mode that overlap a range, where ranges are indexed. -/
def overlapping (r : Resource) (mode : LockMode) (e : Extent) : List LockKey :=
  match r.intervals with
  | some ix => ix.overlapping mode e
  | none => []

def detail (r : Resource) : String :=
  "Resource \x7b id: ResourceId([" ++
    String.intercalate ", " (r.id.words.map fun w => toString w.toNat) ++
    "]), rtype: " ++ Named.name r.rtype ++ ", refcount: " ++ toString r.refcount ++
    ", queued: " ++ toString r.queued ++ " \x7d"

end Resource

end Lockspace
