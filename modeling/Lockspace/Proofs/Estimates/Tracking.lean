import Lockspace.Estimate
import Mathlib.Data.List.Induction
import Mathlib.Logic.Function.Iterate
import Mathlib.Order.Basic

namespace Lockspace

/-- The whole milliseconds of a span, however many there are. -/
def Duration.millis (d : Duration) : Nat :=
  d.nanos / 1000000

deriving instance DecidableEq for Estimate

namespace Estimate

/-- What an estimate becomes with one more sample. A slower sample counts at once. A faster one
pulls the estimate down, but neither below the sample nor below the floor. -/
structure Adapts (floor sample current next : Nat) : Prop where
  rises : current ≤ sample → next = max sample floor
  least : sample < current → max sample floor ≤ next
  most : sample < current → next ≤ current
  falls : sample < current → current ≠ floor → next < current

/-- The estimate after some observed times. -/
def after (floor : Duration) (times : List Duration) : Estimate :=
  times.foldl record (start floor)

/-- What holds of an estimate with a floor, after some times and with one more. -/
structure Tracks (floor elapsed : Duration) (times : List Duration) (before next : Nat) : Prop where
  /-- The new estimate is what is asked of it exactly where the floor and the new time are words of
  milliseconds, and a time that is less than the estimate is no more than the floor or an eighth of
  the greatest word. -/
  adapts : Adapts floor.millis elapsed.millis before next ↔
    floor.millis < wordCount 64 ∧ elapsed.millis < wordCount 64 ∧
      (before ≤ elapsed.millis ∨ elapsed.millis ≤ max (maxWord / 8) floor.millis)
  floored : floor.millis ≤ before ↔ floor.millis < wordCount 64
  within : ∃ span ∈ floor :: times, before ≤ span.millis
  /-- Where the new time comes again and again, the estimate reaches it, or the floor, and stays. -/
  settles : (∃ k, ∀ j, k ≤ j → (after floor (times ++ List.replicate j elapsed)).current =
    max elapsed.millis floor.millis) ↔
      floor.millis < wordCount 64 ∧ elapsed.millis < wordCount 64

/-- An estimate is between its floor and the greatest word. -/
structure Bounded (e : Estimate) : Prop where
  floor_le : e.floor ≤ e.current
  le_word : e.current ≤ maxWord

variable {e : Estimate} {floor elapsed : Duration} {times : List Duration} {current sample : Nat}

theorem maxWord_eq : maxWord = 18446744073709551615 :=
  rfl

theorem wordCount_eq : wordCount 64 = 18446744073709551616 :=
  rfl

theorem millisWord_of_lt (short : elapsed.millis < wordCount 64) :
    elapsed.millisWord = elapsed.millis :=
  Nat.mod_eq_of_lt short

theorem millisWord_le_millis (elapsed : Duration) : elapsed.millisWord ≤ elapsed.millis :=
  Nat.mod_le _ _

theorem millisWord_le_maxWord (elapsed : Duration) : elapsed.millisWord ≤ maxWord := by
  have below : elapsed.millisWord < wordCount 64 := Nat.mod_lt _ (by decide)
  rw [wordCount_eq] at below
  rw [maxWord_eq]
  omega

theorem blend_lt (faster : sample < current) : blend current sample < current := by
  unfold blend
  rw [maxWord_eq]
  omega

/-- A blend is no less than the faster sample up to an eighth of the greatest word. Beyond that the
sum stops at the greatest word. -/
theorem le_blend_iff (faster : sample < current) :
    sample ≤ blend current sample ↔ sample ≤ maxWord / 8 := by
  unfold blend
  rw [maxWord_eq]
  omega

theorem current_record (e : Estimate) (elapsed : Duration) : (e.record elapsed).current =
    max (if e.current ≤ elapsed.millisWord then elapsed.millisWord
      else blend e.current elapsed.millisWord) e.floor :=
  rfl

theorem current_record_of_slower (slower : e.current ≤ elapsed.millisWord) :
    (e.record elapsed).current = max elapsed.millisWord e.floor := by
  rw [current_record, if_pos slower]

theorem current_record_of_faster (faster : elapsed.millisWord < e.current) :
    (e.record elapsed).current = max (blend e.current elapsed.millisWord) e.floor := by
  rw [current_record, if_neg (Nat.not_le.mpr faster)]

/-- Equal samples lead to a value, and from some number of them on to no other one. -/
def Reaches (e : Estimate) (elapsed : Duration) (value : Nat) : Prop :=
  ∃ k, ∀ j, k ≤ j → ((fun e : Estimate => e.record elapsed)^[j] e).current = value

/-- An estimate that is at the sample or the floor stays there. -/
theorem record_of_reached (there : e.current = max elapsed.millisWord e.floor) :
    (e.record elapsed).current = max elapsed.millisWord e.floor := by
  rcases Nat.lt_or_ge elapsed.millisWord e.current with faster | slower
  · have blended := blend_lt faster
    rw [current_record_of_faster faster]
    omega
  · exact current_record_of_slower slower

theorem reaches_of_reached (there : e.current = max elapsed.millisWord e.floor) :
    e.Reaches elapsed (max elapsed.millisWord e.floor) := by
  refine ⟨0, fun j _ => ?_⟩
  induction j generalizing e with
  | zero => exact there
  | succ j ih => exact ih (record_of_reached there) (Nat.zero_le j)

theorem reaches_of_record {value : Nat} (reaches : (e.record elapsed).Reaches elapsed value) :
    e.Reaches elapsed value := by
  obtain ⟨k, reached⟩ := reaches
  refine ⟨k + 1, fun j later => ?_⟩
  obtain ⟨j, rfl⟩ := Nat.exists_eq_add_of_le' (Nat.le_of_add_left_le later)
  exact reached j (by omega)

namespace Bounded

theorem record (bounded : e.Bounded) (elapsed : Duration) : (e.record elapsed).Bounded := by
  have sample := millisWord_le_maxWord elapsed
  obtain ⟨floor_le, le_word⟩ := bounded
  refine ⟨Nat.le_max_right .., ?_⟩
  rcases Nat.lt_or_ge elapsed.millisWord e.current with faster | slower
  · have blended := blend_lt faster
    rw [current_record_of_faster faster]
    omega
  · rw [current_record_of_slower slower]
    omega

/-- With a floor and a sample that are words, all that is asked of an estimate holds but for a faster
sample that is more than an eighth of the greatest word, and more than the floor. -/
theorem adapts_iff (bounded : e.Bounded) (elapsed : Duration) :
    Adapts e.floor elapsed.millisWord e.current (e.record elapsed).current ↔
      (e.current ≤ elapsed.millisWord ∨ elapsed.millisWord ≤ max (maxWord / 8) e.floor) := by
  have floor_le := bounded.floor_le
  rcases Nat.lt_or_ge elapsed.millisWord e.current with faster | slower
  · have blended := blend_lt faster
    have least := le_blend_iff faster
    rw [current_record_of_faster faster]
    constructor
    · intro adapts
      have := adapts.least faster
      omega
    · intro small
      refine ⟨fun slower => ?_, fun _ => ?_, fun _ => ?_, fun _ off => ?_⟩ <;> omega
  · refine iff_of_true ⟨fun _ => current_record_of_slower slower, ?_, ?_, ?_⟩ (.inl slower)
    all_goals exact fun faster => absurd slower (Nat.not_le.mpr faster)

/-- Where the floor or the sample is no word, not all that is asked of an estimate holds, which is
itself a word. -/
theorem not_adapts_of_long {above sample : Nat} (bounded : e.Bounded)
    (long : maxWord < max sample above) :
    ¬ Adapts above sample e.current (e.record elapsed).current := by
  intro adapts
  have word := (bounded.record elapsed).le_word
  rcases Nat.lt_or_ge sample e.current with faster | slower
  · have := adapts.least faster
    omega
  · have := adapts.rises slower
    omega

/-- Equal samples reach the sample or the floor and stay there. -/
theorem reaches (bounded : e.Bounded) (elapsed : Duration) :
    e.Reaches elapsed (max elapsed.millisWord e.floor) := by
  -- Until it is there, the estimate falls with every sample, or is there with the next.
  obtain ⟨size, bound⟩ : ∃ size, e.current ≤ size := ⟨_, Nat.le_refl _⟩
  induction size generalizing e with
  | zero => exact reaches_of_record (reaches_of_reached (current_record_of_slower (by omega)))
  | succ size ih =>
    by_cases there : e.current = max elapsed.millisWord e.floor
    · exact reaches_of_reached there
    rcases Nat.lt_or_ge elapsed.millisWord e.current with faster | slower
    · have blended := blend_lt faster
      have floor_le := bounded.floor_le
      have falls : (e.record elapsed).current ≤ size := by
        rw [current_record_of_faster faster]
        omega
      exact reaches_of_record (ih (bounded.record elapsed) falls)
    · exact reaches_of_record (reaches_of_reached (current_record_of_slower slower))

end Bounded

theorem bounded_start (floor : Duration) : (start floor).Bounded :=
  ⟨Nat.le_refl _, millisWord_le_maxWord floor⟩

theorem after_append (floor : Duration) (times more : List Duration) :
    after floor (times ++ more) = more.foldl record (after floor times) :=
  List.foldl_append

theorem bounded_after (floor : Duration) (times : List Duration) : (after floor times).Bounded := by
  induction times using List.reverseRecOn with
  | nil => exact bounded_start floor
  | append_singleton times elapsed ih =>
    rw [after_append]
    exact ih.record elapsed

theorem floor_after (floor : Duration) (times : List Duration) :
    (after floor times).floor = floor.millisWord := by
  induction times using List.reverseRecOn with
  | nil => rfl
  | append_singleton times elapsed ih =>
    rw [after_append]
    exact ih

/-- No estimate is beyond its floor and all samples, however long these are. -/
theorem current_after_le (floor : Duration) (times : List Duration) :
    ∃ span ∈ floor :: times, (after floor times).current ≤ span.millis := by
  induction times using List.reverseRecOn with
  | nil => exact ⟨floor, List.mem_cons_self .., millisWord_le_millis floor⟩
  | append_singleton times elapsed ih =>
    obtain ⟨span, among, le⟩ := ih
    have bounded := bounded_after floor times
    have sample := millisWord_le_millis elapsed
    have least := millisWord_le_millis floor
    suffices one : ((after floor times).record elapsed).current ≤ elapsed.millis ∨
        ((after floor times).record elapsed).current ≤ floor.millis ∨
        ((after floor times).record elapsed).current ≤ span.millis by
      rw [after_append]
      rcases one with le | le | le
      · exact ⟨elapsed, by simp, le⟩
      · exact ⟨floor, by simp, le⟩
      · exact ⟨span, List.mem_append_left [elapsed] among, le⟩
    rcases Nat.lt_or_ge elapsed.millisWord (after floor times).current with faster | slower
    · have blended := blend_lt faster
      rw [current_record_of_faster faster, floor_after]
      omega
    · rw [current_record_of_slower slower, floor_after]
      omega

/-- What equal samples lead to. -/
theorem iterate_record (e : Estimate) (elapsed : Duration) (j : Nat) :
    (fun e : Estimate => e.record elapsed)^[j] e = (List.replicate j elapsed).foldl record e := by
  induction j generalizing e with
  | zero => rfl
  | succ j ih => exact ih (e.record elapsed)

/-- Equal samples reach the greater one of the sample and the floor where that is a word, as every
estimate is. -/
theorem settles_iff (floor elapsed : Duration) (times : List Duration) :
    (∃ k, ∀ j, k ≤ j → (after floor (times ++ List.replicate j elapsed)).current =
      max elapsed.millis floor.millis) ↔
        floor.millis < wordCount 64 ∧ elapsed.millis < wordCount 64 := by
  constructor
  · rintro ⟨k, settled⟩
    have word := (bounded_after floor (times ++ List.replicate k elapsed)).le_word
    rw [settled k (Nat.le_refl k), maxWord_eq] at word
    rw [wordCount_eq]
    omega
  · rintro ⟨base, short⟩
    obtain ⟨k, reached⟩ := (bounded_after floor times).reaches elapsed
    rw [floor_after, millisWord_of_lt base, millisWord_of_lt short] at reached
    refine ⟨k, fun j later => ?_⟩
    rw [after_append, ← iterate_record]
    exact reached j later

end Estimate

end Lockspace
