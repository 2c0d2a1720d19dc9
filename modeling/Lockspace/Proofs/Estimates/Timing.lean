import Lockspace.Proofs.Estimates.Tracking
import Lockspace.Proofs.Migration.Placement
import Lockspace.Session.Resources

namespace Lockspace

open Manager Act

/-- The runs of a namespace from its setup, with the floor of its estimates and the number of its
buckets, and with the times that were recorded for each bucket, in order. Whatever else happens
leaves the estimates alone. -/
inductive Timed (n : SpaceKey) : Duration → Nat → Manager → (BucketKey → List Duration) → Prop
  | built {setup : Setup} {preset : HashPreset} {m₀ m : Manager} (given : setup.preset = .ok preset)
      (run : build setup m₀ = .ok (.ok n) m) :
      Timed n setup.config.enqueueMin preset.shardCount m fun _ => []
  | recorded {floor elapsed : Duration} {count : Nat} {m m' : Manager}
      {times : BucketKey → List Duration} {r : ResourceRef} (reach : Timed n floor count m times)
      (here : r.space = n) (run : Perform.recordTime r elapsed m = .ok () m') :
      Timed n floor count m' (Function.update times (m.resource r).bucket
        (times (m.resource r).bucket ++ [elapsed]))
  | other {floor : Duration} {count : Nat} {m m' : Manager} {times : BucketKey → List Duration}
      (reach : Timed n floor count m times)
      (still : ∀ b : BucketKey, b.index < count →
        ((m'.space n).table.bucket b).estimate = ((m.space n).table.bucket b).estimate) :
      Timed n floor count m' times

namespace Timed

open Estimate

variable {n : SpaceKey} {floor elapsed : Duration} {count : Nat} {m m' : Manager}
  {times : BucketKey → List Duration} {b : BucketKey} {r : ResourceRef}

/-- A bucket has the estimate that the times recorded for it lead to. -/
theorem estimate_eq (reach : Timed n floor count m times) (inside : b.index < count) :
    ((m.space n).table.bucket b).estimate = after floor (times b) := by
  induction reach with
  | @built setup preset m₀ m given run =>
    obtain ⟨_, m₁, again, made, -, joined⟩ := exists_register_of_build run
    cases given.symm.trans again
    have table : (m.space n).table = (m₁.space n).table :=
      ((quiet_register (n := n) n m₁).of_ok joined).table
    rw [table, made]
    show ((Table.new preset setup.salt setup.config.enqueueMin).bucket b).estimate = _
    simp only [Table.bucket, Table.new, Store.get_replicate, if_pos inside]
    rfl
  | @recorded floor elapsed count m m' times r _ here run ih =>
    subst here
    cases run
    rw [space_modifySpace, if_pos rfl, Table.bucket_modifyBucket, Function.update_apply]
    change Bucket.estimate (if b = (m.resource r).bucket then _ else _) = _
    split
    · rename_i same
      subst same
      rw [after_append, ← ih inside]
      rfl
    · exact ih inside
  | other _ still ih => rw [still b inside, ih inside]

/-- An estimate keeps to what is asked of it, up to the samples for which it does not. -/
theorem tracks (reach : Timed n floor count m times) (here : r.space = n)
    (inside : (m.resource r).bucket.index < count)
    (run : Perform.recordTime r elapsed m = .ok () m') :
    Tracks floor elapsed (times (m.resource r).bucket)
      ((m.space n).table.bucket (m.resource r).bucket).estimate.current
      ((m'.space n).table.bucket (m.resource r).bucket).estimate.current := by
  have next := (reach.recorded here run).estimate_eq inside
  rw [Function.update_self, after_append] at next
  rw [next, reach.estimate_eq inside]
  generalize times (m.resource r).bucket = times
  have bounded := bounded_after floor times
  have word := bounded.le_word
  have least := bounded.floor_le
  rw [floor_after] at least
  rw [maxWord_eq] at word
  refine ⟨?_, ⟨fun le => ?_, fun base => ?_⟩, current_after_le floor times,
    settles_iff floor elapsed times⟩
  · by_cases words : floor.millis < wordCount 64 ∧ elapsed.millis < wordCount 64
    · have both := bounded.adapts_iff elapsed
      rw [floor_after, millisWord_of_lt words.1, millisWord_of_lt words.2] at both
      exact both.trans ⟨fun small => ⟨words.1, words.2, small⟩, fun all => all.2.2⟩
    · refine iff_of_false (bounded.not_adapts_of_long ?_) fun all => words ⟨all.1, all.2.1⟩
      rw [wordCount_eq] at words
      rw [maxWord_eq]
      omega
  · rw [wordCount_eq]
    omega
  · rwa [millisWord_of_lt base] at least

/-- Any times can be recorded for the bucket of a resource, one after another. -/
theorem all (reach : Timed n floor count m times) (here : r.space = n) (more : List Duration) :
    ∃ m' times', Timed n floor count m' times' ∧ m'.resource r = m.resource r ∧
      times' (m.resource r).bucket = times (m.resource r).bucket ++ more := by
  induction more using List.reverseRecOn with
  | nil => exact ⟨m, times, reach, rfl, (List.append_nil _).symm⟩
  | append_singleton more elapsed ih =>
    obtain ⟨m₁, times₁, reach₁, same, recorded⟩ := ih
    have run : Perform.recordTime r elapsed m₁ = .ok () _ := rfl
    refine ⟨_, _, reach₁.recorded here run, ?_, ?_⟩
    · rw [← same, Manager.resource, space_modifySpace, if_pos rfl]
      rfl
    · rw [same, Function.update_self, recorded, List.append_assoc]

/-- A namespace with one bucket and a floor of a tenth of a second, for a resource of which times were
recorded. -/
theorem exists_of_times (earlier : List Duration) :
    ∃ m times, Timed ⟨0⟩ (.ofMillis 100) 1 m times ∧
      (m.resource ⟨⟨0⟩, ⟨0⟩⟩).bucket.index < 1 ∧ (m.resource ⟨⟨0⟩, ⟨0⟩⟩).refcount = 1 ∧
      times (m.resource ⟨⟨0⟩, ⟨0⟩⟩).bucket = earlier := by
  let setup : Setup :=
    { Setup.oneBucket with config := { NamespaceConfig.initial 1 with enqueueMin := .ofMillis 100 } }
  obtain ⟨m₀, built, seen⟩ : ∃ m₀, build setup {} = .ok (.ok ⟨0⟩) m₀ ∧
      (getOrCreate ⟨0⟩ ⟨1, 0, 0, 0⟩ .plain true).Leaves m₀ fun answer m => answer.isOk ∧
        (m.resource ⟨⟨0⟩, ⟨0⟩⟩).bucket.index < 1 ∧ (m.resource ⟨⟨0⟩, ⟨0⟩⟩).refcount = 1 ∧
        ((m.space ⟨0⟩).table.bucket ⟨0⟩).estimate =
          ((m₀.space ⟨0⟩).table.bucket ⟨0⟩).estimate :=
    ⟨_, rfl, by decide +kernel⟩
  obtain ⟨_, m, -, inside, refs, same⟩ := seen.exists_run
  have reach : Timed ⟨0⟩ (.ofMillis 100) 1 m fun _ => [] := by
    refine (Timed.built (show setup.preset = .ok ⟨.mgc, 4, 4, .plain⟩ from rfl) built).other ?_
    rintro ⟨b⟩ inside
    obtain rfl : b = 0 := Nat.lt_one_iff.mp inside
    exact same
  obtain ⟨m', times, later, kept, recorded⟩ := reach.all (r := ⟨⟨0⟩, ⟨0⟩⟩) rfl earlier
  refine ⟨m', times, later, ?_, ?_, ?_⟩
  · rwa [kept]
  · rwa [kept]
  · rw [kept]
    exact recorded

/-- After nine tenths of a second, one tenth pulls the estimate down by an eighth of the difference. -/
theorem tracks_of_two_times : ∃ m m' times, Timed ⟨0⟩ (.ofMillis 100) 1 m times ∧
    (m.resource ⟨⟨0⟩, ⟨0⟩⟩).bucket.index < 1 ∧
    Perform.recordTime ⟨⟨0⟩, ⟨0⟩⟩ (.ofMillis 100) m = .ok () m' ∧
    Tracks (.ofMillis 100) (.ofMillis 100) [.ofMillis 900] 900 800 := by
  obtain ⟨m, times, reach, inside, -, earlier⟩ := exists_of_times [.ofMillis 900]
  obtain ⟨m', run⟩ : ∃ m', Perform.recordTime ⟨⟨0⟩, ⟨0⟩⟩ (.ofMillis 100) m = .ok () m' := ⟨_, rfl⟩
  have tracks := reach.tracks rfl inside run
  rw [(reach.recorded rfl run).estimate_eq inside, Function.update_self,
    reach.estimate_eq inside, earlier] at tracks
  exact ⟨m, m', times, reach, inside, run, tracks⟩

/-- With a floor of a tenth of a second, a time that is recorded after others makes of the estimate
what is not asked of it. -/
def Misses (earlier : List Duration) (elapsed : Duration) : Prop :=
  ∃ m m' times, Timed ⟨0⟩ (.ofMillis 100) 1 m times ∧ (m.resource ⟨⟨0⟩, ⟨0⟩⟩).refcount = 1 ∧
    times (m.resource ⟨⟨0⟩, ⟨0⟩⟩).bucket = earlier ∧
    Perform.recordTime ⟨⟨0⟩, ⟨0⟩⟩ elapsed m = .ok () m' ∧
    ¬ Adapts 100 elapsed.millis
      ((m.space ⟨0⟩).table.bucket (m.resource ⟨⟨0⟩, ⟨0⟩⟩).bucket).estimate.current
      ((m'.space ⟨0⟩).table.bucket (m.resource ⟨⟨0⟩, ⟨0⟩⟩).bucket).estimate.current

theorem misses {earlier : List Duration} (never : ¬ Adapts 100 elapsed.millis
    (after (.ofMillis 100) earlier).current (after (.ofMillis 100) (earlier ++ [elapsed])).current) :
    Misses earlier elapsed := by
  obtain ⟨m, times, reach, inside, refs, same⟩ := exists_of_times earlier
  obtain ⟨m', run⟩ : ∃ m', Perform.recordTime ⟨⟨0⟩, ⟨0⟩⟩ elapsed m = .ok () m' := ⟨_, rfl⟩
  refine ⟨m, m', times, reach, refs, same, run, ?_⟩
  rwa [(reach.recorded rfl run).estimate_eq inside, Function.update_self,
    reach.estimate_eq inside, same]

/-- A time that is no word of milliseconds does not raise the estimate. A time that is a word, but more
than an eighth of the greatest one, pulls a greater estimate down to that eighth. -/
theorem forgets_long_times : Misses [] (.ofMillis (wordCount 64)) ∧
    Misses [.ofMillis (wordCount 63)] (.ofMillis (wordCount 62)) := by
  refine ⟨misses fun adapts => ?_, misses fun adapts => ?_⟩
  · exact absurd (adapts.rises (by decide)) (by decide)
  · exact absurd (adapts.least (by decide)) (by decide)

end Timed

end Lockspace
