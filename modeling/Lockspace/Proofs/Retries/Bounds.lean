import Lockspace.Proofs.HashRange
import Mathlib.Algebra.Group.Nat.Defs

namespace Lockspace

namespace Duration

/-- A span of time in words: its whole seconds, and the nanoseconds beyond them. -/
structure Words where
  secs : UInt64
  nanos : UInt32
deriving DecidableEq

namespace Words

def longest : Words :=
  ⟨18446744073709551615, 999999999⟩

/-- Twice a span. The nanoseconds may carry a second, and where the seconds then pass their word it
is the longest span. -/
def twice (s : Words) : Words :=
  let nanos := s.nanos.toUInt64 * 2
  let carry := nanos / 1000000000
  if s.secs.toNat * 2 + carry.toNat < wordCount 64 then
    ⟨s.secs * 2 + carry, (nanos % 1000000000).toUInt32⟩
  else longest

/-- The shorter one of two spans, by their seconds and then by their nanoseconds. -/
def shorter (a b : Words) : Words :=
  if b.secs < a.secs ∨ b.secs = a.secs ∧ b.nanos < a.nanos then b else a

/-- A first span and those that follow it, each twice the one before up to a cap. -/
def doubling (first cap : Words) : Nat → Words
  | 0 => first
  | k + 1 => (doubling first cap k).twice.shorter cap

variable {s a b : Words}

theorem eq_of_toNat (secs : a.secs.toNat = b.secs.toNat) (nanos : a.nanos.toNat = b.nanos.toNat) :
    a = b := by
  obtain ⟨aSecs, aNanos⟩ := a
  obtain ⟨bSecs, bNanos⟩ := b
  cases UInt64.toNat_inj.mp secs
  cases UInt32.toNat_inj.mp nanos
  rfl

/-- Twice the nanoseconds fit a word of seconds. -/
theorem toNat_twice_nanos (s : Words) : (s.nanos.toUInt64 * 2).toNat = s.nanos.toNat * 2 := by
  have word := s.nanos.toNat_lt
  rw [UInt64.toNat_mul, UInt32.toNat_toUInt64]
  refine Nat.mod_eq_of_lt ?_
  show s.nanos.toNat * 2 < _
  omega

theorem toNat_carry (s : Words) :
    (s.nanos.toUInt64 * 2 / 1000000000).toNat = s.nanos.toNat * 2 / 1000000000 := by
  rw [UInt64.toNat_div, toNat_twice_nanos]
  rfl

/-- Where the seconds fit their word, twice a span is exact. -/
theorem toNat_twice
    (fits : s.secs.toNat * 2 + s.nanos.toNat * 2 / 1000000000 < wordCount 64) :
    s.twice.secs.toNat = s.secs.toNat * 2 + s.nanos.toNat * 2 / 1000000000 ∧
      s.twice.nanos.toNat = s.nanos.toNat * 2 % 1000000000 := by
  unfold twice
  rw [← toNat_carry] at fits ⊢
  rw [if_pos fits]
  have word : wordCount 64 = 18446744073709551616 := rfl
  constructor
  · rw [UInt64.toNat_add, UInt64.toNat_mul]
    show (s.secs.toNat * 2 % 18446744073709551616 + _) % 18446744073709551616 = _
    omega
  · rw [UInt64.toNat_toUInt32, UInt64.toNat_mod, toNat_twice_nanos]
    show s.nanos.toNat * 2 % 1000000000 % 4294967296 = _
    omega

theorem twice_eq_longest
    (passes : ¬ s.secs.toNat * 2 + s.nanos.toNat * 2 / 1000000000 < wordCount 64) :
    s.twice = longest := by
  rw [← toNat_carry] at passes
  exact if_neg passes

end Words

def words (d : Duration) : Words :=
  ⟨UInt64.ofNat d.secs, UInt32.ofNat d.subsecNanos⟩

variable (d a b : Duration)

theorem maxNanos_eq : maxNanos = 18446744073709551615999999999 :=
  rfl

theorem eq_of_nanos {a b : Duration} (same : a.nanos = b.nanos) : a = b := by
  cases a
  cases b
  cases same
  rfl

theorem nanos_double : d.double.nanos = min (2 * d.nanos) maxNanos :=
  rfl

theorem nanos_shorter : (a.shorter b).nanos = min a.nanos b.nanos := by
  unfold shorter
  split <;> omega

theorem toNat_secs_words : d.words.secs.toNat = d.nanos / 1000000000 := by
  have bound := d.le_max
  rw [maxNanos_eq] at bound
  refine UInt64.toNat_ofNat_of_lt' ?_
  show d.nanos / 1000000000 < 18446744073709551616
  omega

theorem toNat_nanos_words : d.words.nanos.toNat = d.nanos % 1000000000 := by
  refine UInt32.toNat_ofNat_of_lt' ?_
  show d.nanos % 1000000000 < 4294967296
  omega

/-- Twice a span is found from its words. -/
theorem words_double : d.double.words = d.words.twice := by
  have bound := d.le_max
  have double := d.nanos_double
  rw [maxNanos_eq] at bound double
  have word : wordCount 64 = 18446744073709551616 := rfl
  have secs := d.toNat_secs_words
  have nanos := d.toNat_nanos_words
  by_cases fits : d.words.secs.toNat * 2 + d.words.nanos.toNat * 2 / 1000000000 < wordCount 64
  · obtain ⟨whole, rest⟩ := Words.toNat_twice fits
    refine Words.eq_of_toNat ?_ ?_
    · rw [toNat_secs_words, whole]
      omega
    · rw [toNat_nanos_words, rest]
      omega
  · rw [Words.twice_eq_longest fits]
    refine Words.eq_of_toNat ?_ ?_
    · rw [toNat_secs_words]
      show _ = 18446744073709551615
      omega
    · rw [toNat_nanos_words]
      show _ = 999999999
      omega

/-- The shorter one of two spans is found from their words. -/
theorem words_shorter : (a.shorter b).words = a.words.shorter b.words := by
  have less : (b.words.secs < a.words.secs ∨ b.words.secs = a.words.secs ∧
      b.words.nanos < a.words.nanos) ↔ b.nanos < a.nanos := by
    rw [UInt64.lt_iff_toNat_lt, UInt32.lt_iff_toNat_lt, ← UInt64.toNat_inj, toNat_secs_words,
      toNat_secs_words, toNat_nanos_words, toNat_nanos_words]
    omega
  unfold shorter Words.shorter
  split
  · rename_i le
    rw [if_neg]
    rw [less]
    exact Nat.not_lt.mpr le
  · rename_i above
    rw [if_pos]
    rw [less]
    exact Nat.not_le.mp above

end Duration

namespace NamespaceConfig

variable {c : NamespaceConfig} {d : Duration} {j k : Nat}

/-- How the wait bounds of a forced teardown go on, in exact arithmetic: each is twice the one before,
up to the cap, which they reach and keep. -/
structure BacksOff (c : NamespaceConfig) : Prop where
  exact : ∀ k, (c.forceWait k).nanos =
    min (c.forceWaitTimeout.nanos * 2 ^ k) c.forceWaitMax.nanos
  /-- The same bounds are worked out in words of seconds and nanoseconds. -/
  words : ∀ k, (c.forceWait k).words =
    .doubling c.forceWaitTimeout.words c.forceWaitMax.words k
  positive : ∀ k, 0 < (c.forceWait k).nanos
  grows : ∀ {j k}, j ≤ k → (c.forceWait j).nanos ≤ (c.forceWait k).nanos
  capped : ∀ k, (c.forceWait k).nanos ≤ c.forceWaitMax.nanos
  /-- After ninety-four retries at most, every bound is the cap. -/
  settles : ∃ k ≤ 94, ∀ j, k ≤ j → c.forceWait j = c.forceWaitMax

/-- The longest span is no shorter than the cap, so twice a bound is exact wherever the cap does not
take its place. -/
theorem nanos_nextForceWait (c : NamespaceConfig) (d : Duration) :
    (c.nextForceWait d).nanos = min (2 * d.nanos) c.forceWaitMax.nanos := by
  have bound := c.forceWaitMax.le_max
  rw [nextForceWait, Duration.nanos_shorter, Duration.nanos_double]
  omega

theorem nanos_forceWait (valid : c.IsValid) (k : Nat) :
    (c.forceWait k).nanos = min (c.forceWaitTimeout.nanos * 2 ^ k) c.forceWaitMax.nanos := by
  induction k with
  | zero =>
    obtain ⟨-, -, ordered, -⟩ := isValid_iff.mp valid
    rw [pow_zero, Nat.mul_one]
    exact (Nat.min_eq_left ordered).symm
  | succ k ih =>
    rw [forceWait, nanos_nextForceWait, ih, pow_succ, ← Nat.mul_assoc]
    omega

theorem words_forceWait (c : NamespaceConfig) (k : Nat) :
    (c.forceWait k).words = .doubling c.forceWaitTimeout.words c.forceWaitMax.words k := by
  induction k with
  | zero => rfl
  | succ k ih =>
    rw [forceWait, nextForceWait, Duration.words_shorter, Duration.words_double, ih]
    rfl

/-- A nanosecond that doubles passes the longest span. -/
theorem maxNanos_le_mul_pow {first : Nat} (positive : 0 < first) (later : 94 ≤ k) :
    maxNanos ≤ first * 2 ^ k :=
  calc
    maxNanos ≤ 2 ^ 94 := by decide
    _ ≤ 2 ^ k := Nat.pow_le_pow_right Nat.two_pos later
    _ ≤ first * 2 ^ k := Nat.le_mul_of_pos_left _ positive

theorem IsValid.backsOff (valid : c.IsValid) : c.BacksOff := by
  obtain ⟨-, first, ordered, -⟩ := isValid_iff.mp valid
  refine ⟨nanos_forceWait valid, c.words_forceWait, fun k => ?positive, fun {j k} le => ?grows,
    fun k => ?capped, ?settles⟩
  case positive =>
    have grown := Nat.mul_pos first (Nat.two_pow_pos k)
    rw [nanos_forceWait valid]
    exact Nat.lt_min.mpr ⟨grown, Nat.lt_of_lt_of_le first ordered⟩
  case grows =>
    have powers : 2 ^ j ≤ 2 ^ k := Nat.pow_le_pow_right Nat.two_pos le
    have grown := Nat.mul_le_mul_left c.forceWaitTimeout.nanos powers
    rw [nanos_forceWait valid, nanos_forceWait valid]
    omega
  case capped =>
    rw [nanos_forceWait valid]
    exact Nat.min_le_right ..
  case settles =>
    refine ⟨94, Nat.le_refl _, fun j later => Duration.eq_of_nanos ?_⟩
    have passed := maxNanos_le_mul_pow first later
    rw [nanos_forceWait valid]
    exact Nat.min_eq_right (Nat.le_trans c.forceWaitMax.le_max passed)

end NamespaceConfig

end Lockspace
