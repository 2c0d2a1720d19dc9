import Lockspace.Word

namespace Lockspace

/-- The longest span of time: `2 ^ 64 - 1` seconds and `999999999` nanoseconds. -/
def maxNanos : Nat :=
  wordCount 64 * 1000000000 - 1

/-- A span of time in whole nanoseconds, at most the longest one. -/
structure Duration where
  nanos : Nat
  le_max : nanos ≤ maxNanos := by decide
deriving DecidableEq

namespace Duration

def zero : Duration := ⟨0, by decide⟩

instance : Inhabited Duration := ⟨zero⟩

/-- A span of so many nanoseconds, or the longest span where that is too much. -/
def ofNanos (n : Nat) : Duration :=
  ⟨min n maxNanos, Nat.min_le_right n maxNanos⟩

/-- A span of whole seconds; exact below `2 ^ 64`. -/
def ofSecs (n : Nat) : Duration :=
  ofNanos (n * 1000000000)

/-- A span of whole milliseconds; exact below `2 ^ 64`. -/
def ofMillis (n : Nat) : Duration :=
  ofNanos (n * 1000000)

/-- A span from seconds and nanoseconds, where nanoseconds beyond one second carry over.
Nothing if the seconds then pass their word. -/
def ofParts? (secs nanos : Nat) : Option Duration :=
  let total := secs * 1000000000 + nanos
  if total ≤ maxNanos then some (ofNanos total) else none

def secs (d : Duration) : Nat :=
  d.nanos / 1000000000

/-- The nanoseconds of a span beyond its whole seconds. -/
def subsecNanos (d : Duration) : Nat :=
  d.nanos % 1000000000

/-- The whole milliseconds of a span, in a word of 64 bits. -/
def millisWord (d : Duration) : Nat :=
  d.nanos / 1000000 % wordCount 64

/-- The milliseconds that a timer set to a span takes, which never fires early. -/
def timerMillis (d : Duration) : Nat :=
  (d.nanos + 999999) / 1000000

/-- Twice a span, or the longest one. -/
def double (d : Duration) : Duration :=
  ofNanos (2 * d.nanos)

def shorter (a b : Duration) : Duration :=
  if a.nanos ≤ b.nanos then a else b

end Duration

end Lockspace
