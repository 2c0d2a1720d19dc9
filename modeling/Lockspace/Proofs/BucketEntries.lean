import Lockspace.Proofs.StoreSum
import Lockspace.Table

namespace Lockspace

namespace Bucket

/-- No id has two entries. -/
def Distinct (b : Bucket) : Prop :=
  (b.entries.map Prod.fst).Nodup

theorem mem_of_find? {b : Bucket} {id : ResourceId} {key : ResourceKey}
    (found : b.find? id = some key) : (id, key) ∈ b.entries := by
  obtain ⟨before, after, split, _⟩ := List.lookup_eq_some_iff.mp found
  rw [split]
  simp

theorem not_mem_of_find?_eq_none {b : Bucket} {id : ResourceId} (absent : b.find? id = none)
    (key : ResourceKey) : (id, key) ∉ b.entries := by
  intro member
  have differs := List.lookup_eq_none_iff.mp absent (id, key) member
  simp at differs

/-- Where no id has two entries, every entry is the one that a search finds. -/
theorem Distinct.find?_of_mem {b : Bucket} {id : ResourceId} {key : ResourceKey}
    (distinct : b.Distinct) (member : (id, key) ∈ b.entries) : b.find? id = some key := by
  cases found : b.find? id with
  | none => exact absurd member (not_mem_of_find?_eq_none found key)
  | some other =>
    have same := List.inj_on_of_nodup_map distinct (mem_of_find? found) member rfl
    rw [(Prod.mk.inj same).2]

/-- A new id joins behind all other entries. -/
theorem entries_put {b : Bucket} {id : ResourceId} (absent : b.find? id = none)
    (key : ResourceKey) : (b.put id key).entries = b.entries ++ [(id, key)] := by
  have all : b.entries.filter (·.1 != id) = b.entries := by
    rw [List.filter_eq_self]
    rintro ⟨other, k⟩ member
    have differs : other ≠ id := by
      intro same
      exact not_mem_of_find?_eq_none absent k (same ▸ member)
    simpa using differs
  simp [put, all]

theorem Distinct.put {b : Bucket} (distinct : b.Distinct) {id : ResourceId}
    (absent : b.find? id = none) (key : ResourceKey) : (b.put id key).Distinct := by
  unfold Distinct
  rw [entries_put absent, List.map_append, List.nodup_append]
  refine ⟨distinct, by simp, ?_⟩
  rintro other member _ single rfl
  obtain ⟨entry, inBucket, rfl⟩ := List.mem_map.mp member
  have same : entry.1 = id := by simpa using single
  exact not_mem_of_find?_eq_none absent entry.2 (same ▸ inBucket)

theorem mem_remove {b : Bucket} {id other : ResourceId} {key : ResourceKey} :
    (other, key) ∈ (b.remove id).entries ↔ (other, key) ∈ b.entries ∧ other ≠ id := by
  simp [remove]

theorem Distinct.remove {b : Bucket} (distinct : b.Distinct) (id : ResourceId) :
    (b.remove id).Distinct :=
  distinct.sublist ((List.filter_sublist).map _)

/-- One for a bucket that holds anything. -/
def occupancy (b : Bucket) : Nat :=
  if b.entries.isEmpty then 0 else 1

theorem occupancy_default : (default : Bucket).occupancy = 0 :=
  rfl

theorem occupancy_eq_zero {b : Bucket} : b.occupancy = 0 ↔ b.entries = [] := by
  cases entries : b.entries <;> simp [occupancy, entries]

theorem occupancy_put {b : Bucket} {id : ResourceId} (key : ResourceKey) :
    (b.put id key).occupancy = 1 := by
  simp [occupancy, Bucket.put]

/-- The entry of a new id is the first one exactly if it comes into an empty bucket. -/
theorem first_put {b : Bucket} {id : ResourceId} (absent : b.find? id = none) (key : ResourceKey) :
    (if (b.put id key).entries.length = 1 then 1 else 0) + b.occupancy =
      (b.put id key).occupancy := by
  rw [occupancy_put, entries_put absent]
  cases entries : b.entries <;> simp [occupancy, entries]

theorem occupancy_of_mem {b : Bucket} {entry : ResourceId × ResourceKey}
    (member : entry ∈ b.entries) : b.occupancy = 1 := by
  cases entries : b.entries with
  | nil => simp [entries] at member
  | cons => simp [occupancy, entries]

end Bucket

namespace Table

theorem occupied_eq_sum (t : Table) : t.occupied = t.buckets.sum Bucket.occupancy := by
  unfold occupied Store.sum
  induction t.buckets.toList with
  | nil => rfl
  | cons b rest ih =>
    rw [List.countP_cons, ih, List.map_cons, List.sum_cons, Nat.add_comm]
    cases entries : b.entries <;> simp [Bucket.occupancy, entries]

theorem size_eq_sum (t : Table) : t.size = t.buckets.sum (·.entries.length) := by
  unfold size Store.total Store.sum
  induction t.buckets.toList with
  | nil => rfl
  | cons b rest ih => rw [List.foldr_cons, ih, List.map_cons, List.sum_cons]

/-- No bucket is occupied exactly if none holds an entry. -/
theorem occupied_eq_zero {t : Table} : t.occupied = 0 ↔ ∀ b, (t.bucket b).entries = [] := by
  rw [occupied_eq_sum, Store.sum_eq_zero _ Bucket.occupancy_default]
  simp only [Bucket.occupancy_eq_zero, bucket]

theorem size_eq_zero {t : Table} : t.size = 0 ↔ ∀ b, (t.bucket b).entries = [] := by
  rw [size_eq_sum, Store.sum_eq_zero _ rfl]
  simp only [List.length_eq_zero_iff, bucket]

end Table

end Lockspace
