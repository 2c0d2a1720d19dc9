import Lockspace.Duration

namespace Lockspace

/-- The greatest number of a word of 64 bits. -/
def maxWord : Nat :=
  wordCount 64 - 1

/-- An estimate of the time that an enqueue takes, in whole milliseconds, and its floor. -/
structure Estimate where
  floor : Nat := 0
  current : Nat := 0

namespace Estimate

instance : Inhabited Estimate := ⟨{}⟩

/-- An estimate that starts at its floor. -/
def start (floor : Duration) : Estimate :=
  ⟨floor.millisWord, floor.millisWord⟩

/-- Seven parts of the estimate and one of the sample, where products and sums stop at the
greatest word. -/
def blend (current sample : Nat) : Nat :=
  min (min (current * 7) maxWord + sample) maxWord / 8

/-- Takes in one more observed time. A slower sample counts at once, a faster one by an eighth,
and the floor holds in any case. -/
def record (e : Estimate) (elapsed : Duration) : Estimate :=
  let sample := elapsed.millisWord
  { e with current := max (if e.current ≤ sample then sample else blend e.current sample) e.floor }

/-- The estimate as a span of time. -/
def duration (e : Estimate) : Duration :=
  .ofMillis e.current

end Estimate

end Lockspace
