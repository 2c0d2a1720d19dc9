import Lockspace.Proofs.Replay.Journal
import Lockspace.Proofs.SteadyActs
import Lockspace.Proofs.TableListing
import Lockspace.Proofs.TableReleases

namespace Lockspace

namespace Table

/-- Two tables with the same entries, whose resources have the same ids and buckets. The second may
have room for more. -/
structure SameFiles (t t' : Table) : Prop where
  id : ∀ key, (t'.resource key).id = (t.resource key).id
  home : ∀ key, (t'.resource key).bucket = (t.resource key).bucket
  buckets : t'.buckets = t.buckets
  preset : t'.preset = t.preset
  salt : t'.salt = t.salt
  bref : t'.bref = t.bref
  size : t.resources.size ≤ t'.resources.size

variable {t t' t'' : Table} {holds : Nat} {key : ResourceKey} {id : ResourceId} {b : BucketKey}
  {candidate : Resource}

namespace SameFiles

theorem rfl : t.SameFiles t :=
  ⟨fun _ => Eq.refl _, fun _ => Eq.refl _, Eq.refl _, Eq.refl _, Eq.refl _, Eq.refl _, Nat.le_refl _⟩

theorem trans (first : t.SameFiles t') (second : t'.SameFiles t'') : t.SameFiles t'' where
  id key := (second.id key).trans (first.id key)
  home key := (second.home key).trans (first.home key)
  buckets := second.buckets.trans first.buckets
  preset := second.preset.trans first.preset
  salt := second.salt.trans first.salt
  bref := second.bref.trans first.bref
  size := first.size.trans second.size

theorem bucket_eq (same : t.SameFiles t') (b : BucketKey) : t'.bucket b = t.bucket b := by
  rw [bucket, same.buckets, bucket]

theorem bucketOf_eq (same : t.SameFiles t') : t'.bucketOf = t.bucketOf := by
  funext id
  simp only [bucketOf, shardCount, same.buckets, same.preset, same.salt]

end SameFiles

theorem sameFiles_modifyResource {f : Resource → Resource}
    (id : (f (t.resource key)).id = (t.resource key).id)
    (home : (f (t.resource key)).bucket = (t.resource key).bucket) :
    t.SameFiles (t.modifyResource key f) := by
  refine ⟨fun k => ?_, fun k => ?_, rfl, rfl, rfl, rfl, ?_⟩
  · rw [resource_modifyResource]
    split
    · rename_i same
      rw [id, same]
    · rfl
  · rw [resource_modifyResource]
    split
    · rename_i same
      rw [home, same]
    · rfl
  · show t.resources.size ≤ (t.resources.set key _).size
    rw [Store.size_set]
    exact le_max_left _ _

theorem Recounted.sameFiles (recounted : t.Recounted t') : t.SameFiles t' := by
  induction recounted with
  | refl => exact .rfl
  | tail _ step ih =>
    obtain ⟨key, count, rfl⟩ := step
    exact ih.trans (sameFiles_modifyResource (Eq.refl _) (Eq.refl _))

/-- The occupied buckets are as many as are counted. -/
theorem occupied_eq_card {buckets : Finset BucketKey}
    (all : ∀ b, b ∈ buckets ↔ (t.bucket b).entries ≠ []) : t.occupied = buckets.card := by
  have listed : buckets = ((Finset.range t.buckets.size).filter
      fun i => (t.bucket ⟨i⟩).entries ≠ []).image Key.mk := by
    ext b
    rw [all, Finset.mem_image]
    constructor
    · intro some
      refine ⟨b.index, Finset.mem_filter.mpr ⟨Finset.mem_range.mpr ?_, some⟩, rfl⟩
      by_contra beyond
      refine some ?_
      rw [Table.bucket, Store.get_of_size_le _ (Nat.le_of_not_lt beyond)]
      rfl
    · rintro ⟨i, member, rfl⟩
      exact (Finset.mem_filter.mp member).2
  have apart : Function.Injective (Key.mk : Nat → BucketKey) := fun _ _ => congrArg Key.index
  rw [occupied_eq_sum, Store.sum_eq_range _ Bucket.occupancy_default (Nat.le_refl _), listed,
    Finset.card_image_of_injective _ apart, Finset.card_filter]
  refine Finset.sum_congr rfl fun i _ => ?_
  show (t.bucket ⟨i⟩).occupancy = _
  cases entries : (t.bucket ⟨i⟩).entries <;> simp [Bucket.occupancy, entries]

namespace Filed

variable (filed : t.Filed holds)

include filed

/-- A table has as many resources as ids. -/
theorem size_eq_card {ids : Finset ResourceId}
    (all : ∀ id, id ∈ ids ↔ ∃ b key, (id, key) ∈ (t.bucket b).entries) : t.size = ids.card := by
  have listed : ids = (Finset.range t.buckets.size).biUnion
      fun i => ((t.bucket ⟨i⟩).entries.map Prod.fst).toFinset := by
    ext id
    simp only [all, Finset.mem_biUnion, Finset.mem_range, List.mem_toFinset, List.mem_map,
      Prod.exists, exists_and_right, exists_eq_right]
    constructor
    · rintro ⟨b, key, member⟩
      refine ⟨b.index, ?_, key, member⟩
      by_contra beyond
      rw [Table.bucket, Store.get_of_size_le _ (Nat.le_of_not_lt beyond)] at member
      cases member
    · rintro ⟨i, -, key, member⟩
      exact ⟨⟨i⟩, key, member⟩
  -- An id has one bucket only.
  have disjoint : ∀ i ∈ Finset.range t.buckets.size, ∀ j ∈ Finset.range t.buckets.size, i ≠ j →
      Disjoint ((t.bucket ⟨i⟩).entries.map Prod.fst).toFinset
        ((t.bucket ⟨j⟩).entries.map Prod.fst).toFinset := by
    intro i _ j _ apart
    refine Finset.disjoint_left.mpr fun id here there => apart ?_
    obtain ⟨⟨_, key⟩, member, rfl⟩ := List.mem_map.mp (List.mem_toFinset.mp here)
    obtain ⟨⟨_, other⟩, again, rfl⟩ := List.mem_map.mp (List.mem_toFinset.mp there)
    have home := (filed.entry _ _ _ member).2.2.2
    exact congrArg Key.index (home.symm.trans (filed.entry _ _ _ again).2.2.2)
  rw [size_eq_sum, Store.sum_eq_range _ rfl (Nat.le_refl _), listed, Finset.card_biUnion disjoint]
  refine Finset.sum_congr rfl fun i _ => ?_
  rw [List.toFinset_card_of_nodup (filed.distinct ⟨i⟩), List.length_map]
  rfl

/-- The buckets of the ids in a table are those that are occupied. -/
theorem bref_eq_card {ids : Finset ResourceId}
    (all : ∀ id, id ∈ ids ↔ ∃ b key, (id, key) ∈ (t.bucket b).entries) :
    t.bref = (ids.image t.bucketOf).card + holds := by
  rw [filed.held, occupied_eq_card fun b => ?_]
  rw [Finset.mem_image]
  constructor
  · rintro ⟨id, member, rfl⟩ empty
    obtain ⟨c, key, member⟩ := (all id).mp member
    rw [(filed.entry c id key member).2.2.2, List.eq_nil_iff_forall_not_mem] at empty
    exact empty _ member
  · intro some
    obtain ⟨⟨id, key⟩, member⟩ := List.exists_mem_of_ne_nil _ some
    exact ⟨id, (all id).mpr ⟨b, key, member⟩, (filed.entry b id key member).2.2.2⟩

theorem of_sameFiles (same : t.SameFiles t') : t'.Filed holds where
  shaped := by
    refine ⟨?_, ?_⟩
    · rw [shardCount, same.buckets, same.preset]
      exact filed.shaped.sized
    · rw [same.preset]
      exact filed.shaped.sound
  distinct b := by
    rw [same.bucket_eq]
    exact filed.distinct b
  entry b id key member := by
    rw [same.bucket_eq] at member
    obtain ⟨known, named, home⟩ := filed.entry b id key member
    rw [same.id, same.home, same.bucketOf_eq]
    exact ⟨known.trans_le same.size, named, home⟩
  held := by
    rw [same.bref, occupied, same.buckets]
    exact filed.held

/-- A release changes no entry, or takes the resource that it released out of the table. -/
theorem release_cases (key : ResourceKey) : ∃ t₁, t.SameFiles t₁ ∧
    ((∃ fault, t.release key = (t₁, .error fault)) ∨ t.release key = (t₁, .ok .kept) ∨
      ((t₁.resource key).id, key) ∈ (t₁.bucket (t₁.resource key).bucket).entries ∧
      t.release key = (t₁.strike key, .ok (.freed
        ((t₁.strike key).bucket (t₁.resource key).bucket).entries.isEmpty
        (t₁.strike key).bref))) := by
  rcases t.release_cases key with run | run | run <;> rw [run]
  · exact ⟨t, .rfl, Or.inl ⟨_, rfl⟩⟩
  · exact ⟨_, sameFiles_modifyResource rfl rfl, Or.inr (Or.inl rfl)⟩
  · have same : t.SameFiles (t.recount key 0) := sameFiles_modifyResource rfl rfl
    generalize t.recount key 0 = t₁ at same
    have filed := filed.of_sameFiles same
    refine ⟨t₁, same, ?_⟩
    by_cases queued : (t₁.resource key).queued = 0
    · by_cases found : (t₁.bucket (t₁.resource key).bucket).find? (t₁.resource key).id = some key
      · have member := Bucket.mem_of_find? found
        exact Or.inr (Or.inr ⟨member, filed.evict member queued⟩)
      · refine Or.inl ⟨.notInBucket (t₁.resource key).id, ?_⟩
        simp only [Table.evict, queued, ne_eq, not_true_eq_false, if_false, found,
          not_false_eq_true, if_true]
    · exact Or.inl ⟨_, evict_of_queued queued⟩

end Filed

theorem Filed.new {p : HashPreset} (sound : p.isSound) (salt : UInt64) (least : Duration) :
    (Table.new p salt least).Filed 0 := by
  have tallied := Tallied.new sound salt least
  refine ⟨tallied.shaped, tallied.distinct, fun b id key member => ?_, tallied.held⟩
  simpa using (tallied.filed b id key member).1

end Table

end Lockspace
