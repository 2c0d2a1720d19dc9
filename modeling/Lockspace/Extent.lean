namespace Lockspace

/-- A range of bytes, both ends included. -/
structure Extent where
  start : UInt64
  stop : UInt64
deriving DecidableEq, Inhabited

namespace Extent

def whole : Extent := ⟨0, 0xffffffffffffffff⟩

/-- Whether two ranges share a byte: each starts no later than the other stops. -/
def overlaps (a b : Extent) : Bool :=
  a.start ≤ b.stop && b.start ≤ a.stop

/-- Ranges in order of their starts, then of their stops. -/
def compare (a b : Extent) : Ordering :=
  (Ord.compare a.start b.start).then (Ord.compare a.stop b.stop)

def detail (e : Extent) : String :=
  s!"Extent \x7b start: {e.start.toNat}, end: {e.stop.toNat} \x7d"

/-- A range that may be missing, as a detailed listing shows it. -/
def optionDetail : Option Extent → String
  | none => "None"
  | some e => "Some(" ++ e.detail ++ ")"

end Extent

end Lockspace
