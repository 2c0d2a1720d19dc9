import Lockspace.Kinds
import Lockspace.Word

namespace Lockspace

/-- What a gauge measures in a namespace. -/
inductive Metric where
  | resourceCount
  | lockCount
  | lockGranted
  | lockUnused
  | lockTimeouts
deriving DecidableEq

instance : Named Metric where
  all := [.resourceCount, .lockCount, .lockGranted, .lockUnused, .lockTimeouts]
  name
    | .resourceCount => "rustfs_dlm_resource_count"
    | .lockCount => "rustfs_dlm_lock_count"
    | .lockGranted => "rustfs_dlm_lock_granted"
    | .lockUnused => "rustfs_dlm_lock_unused_count"
    | .lockTimeouts => "rustfs_dlm_lock_timeouts"

/-- The last value of every gauge that was ever set, by metric and name of the namespace. -/
structure Gauges where
  values : List ((Metric × String) × Nat) := []

/-- The number nearest to a count that has at most 53 significant bits; of two that are equally near
the one whose last bit is zero. -/
def roundSignificant (n : Nat) : Nat :=
  let unit := 1 <<< (n.log2 - 52)
  let whole := n / unit
  let twice := 2 * (n % unit)
  if twice < unit ∨ twice = unit ∧ whole % 2 = 0 then whole * unit else (whole + 1) * unit

namespace Gauges

instance : Inhabited Gauges := ⟨{}⟩

def get? (g : Gauges) (m : Metric) (space : String) : Option Nat :=
  g.values.lookup (m, space)

/-- Sets a gauge, which keeps 53 significant bits of its value and shows at most a word. -/
def set (g : Gauges) (m : Metric) (space : String) (value : Nat) : Gauges :=
  ⟨g.values.filter (·.1 != (m, space)) ++
    [((m, space), min (roundSignificant value) (wordCount 64 - 1))]⟩

end Gauges

/-- The counts of a namespace at one moment. -/
structure StatsSnapshot where
  resourceCount : Nat
  lockCount : Nat
  granted : Nat
  unused : Nat
  lockTimeouts : Nat
deriving DecidableEq

def StatsSnapshot.get (s : StatsSnapshot) : Metric → Nat
  | .resourceCount => s.resourceCount
  | .lockCount => s.lockCount
  | .lockGranted => s.granted
  | .lockUnused => s.unused
  | .lockTimeouts => s.lockTimeouts

/-- The counters of a namespace, and whether its gauges are in use. -/
structure Stats where
  name : String := ""
  granted : Int := 0
  locks : Int := 0
  timeouts : Nat := 0
  registered : Bool := false

namespace Stats

instance : Inhabited Stats := ⟨{}⟩

/-- The counts to report, where a counter below zero counts as zero. -/
def snapshot (s : Stats) (resources unused : Nat) : StatsSnapshot where
  resourceCount := resources
  lockCount := s.locks.toNat
  granted := s.granted.toNat
  unused
  lockTimeouts := s.timeouts

/-- Sets the gauges, if they are in use. -/
def publish (s : Stats) (resources unused : Nat) (g : Gauges) : Gauges :=
  if s.registered then
    (Named.all : List Metric).foldl
      (fun g m => g.set m s.name ((s.snapshot resources unused).get m)) g
  else g

def register (s : Stats) : Stats :=
  { s with registered := true }

/-- Sets the gauges to zero for the last time, if they are in use. -/
def retire (s : Stats) (g : Gauges) : Gauges :=
  if s.registered then (Named.all : List Metric).foldl (fun g m => g.set m s.name 0) g else g

def unregister (s : Stats) : Stats :=
  { s with registered := false }

def recordTimeout (s : Stats) : Stats :=
  { s with timeouts := s.timeouts + 1 }

def lockQueued (s : Stats) (q : Queue) : Stats :=
  { s with
    locks := s.locks + 1
    granted := if q = .granted then s.granted + 1 else s.granted }

def lockUnqueued (s : Stats) (q : Queue) : Stats :=
  { s with
    locks := s.locks - 1
    granted := if q = .granted then s.granted - 1 else s.granted }

end Stats

end Lockspace
