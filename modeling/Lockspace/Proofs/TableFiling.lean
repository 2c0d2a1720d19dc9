import Lockspace.Proofs.Tally

namespace Lockspace

namespace Table

variable {t : Table} {holds : Nat} {key : ResourceKey} {b : BucketKey} {candidate : Resource}

/-- The table with a new resource, which is now the entry of its id in a bucket. -/
def enter (t : Table) (b : BucketKey) (candidate : Resource) : Table :=
  let first := ((t.bucket b).put candidate.id t.resources.nextKey).entries.length = 1
  { t with
    resources := t.resources.set t.resources.nextKey candidate
    buckets := t.buckets.modify b (·.put candidate.id t.resources.nextKey)
    bref := if first then t.bref + 1 else t.bref }

theorem resource_enter (k : ResourceKey) :
    (t.enter b candidate).resource k =
      if k = t.resources.nextKey then candidate else t.resource k :=
  Store.get_set ..

theorem bucket_enter (c : BucketKey) :
    (t.enter b candidate).bucket c =
      if c = b then (t.bucket b).put candidate.id t.resources.nextKey else t.bucket c :=
  Store.get_modify ..

/-- Where the id was absent, the entry joins the others and nothing is overwritten. -/
theorem mem_bucket_enter (absent : (t.bucket b).find? candidate.id = none) {c : BucketKey}
    {entry : ResourceId × ResourceKey} :
    entry ∈ ((t.enter b candidate).bucket c).entries ↔
      entry ∈ (t.bucket c).entries ∨ c = b ∧ entry = (candidate.id, t.resources.nextKey) := by
  rw [bucket_enter]
  by_cases same : c = b
  · rw [if_pos same, Bucket.entries_put absent, List.mem_append, List.mem_singleton, same]
    simp
  · simp [same]

theorem shardCount_enter (inside : b.index < t.shardCount) :
    (t.enter b candidate).shardCount = t.shardCount := by
  show (t.buckets.set b _).size = t.buckets.size
  rw [Store.size_set]
  exact max_eq_left inside

theorem bucketOf_enter (inside : b.index < t.shardCount) (id : ResourceId) :
    (t.enter b candidate).bucketOf id = t.bucketOf id := by
  simp only [Table.bucketOf, shardCount_enter inside]
  rfl

theorem size_enter : (t.enter b candidate).resources.size = t.resources.size + 1 := by
  show (t.resources.set _ _).size = _
  rw [Store.size_set]
  exact max_eq_right (Nat.le_succ _)

theorem occupied_enter (absent : (t.bucket b).find? candidate.id = none) :
    (t.enter b candidate).bref + t.occupied = t.bref + (t.enter b candidate).occupied := by
  have changed := t.buckets.sum_set Bucket.occupancy_default b
    ((t.bucket b).put candidate.id t.resources.nextKey)
  have first := Bucket.first_put absent t.resources.nextKey
  have sum : (t.enter b candidate).occupied =
      (t.buckets.set b ((t.bucket b).put candidate.id t.resources.nextKey)).sum
        Bucket.occupancy := occupied_eq_sum _
  rw [sum, occupied_eq_sum]
  change _ + (t.bucket b).occupancy = _ at changed
  simp only [enter]
  split at first <;> simp_all; omega

/-- The table without the entry of a resource. -/
def strike (t : Table) (key : ResourceKey) : Table :=
  let b := (t.resource key).bucket
  let t' := t.modifyBucket b (·.remove (t.resource key).id)
  { t' with bref := if (t'.bucket b).entries.isEmpty then t.bref - 1 else t.bref }

theorem bucket_strike (c : BucketKey) :
    (t.strike key).bucket c = if c = (t.resource key).bucket
      then (t.bucket (t.resource key).bucket).remove (t.resource key).id else t.bucket c :=
  Store.get_modify ..

theorem mem_bucket_strike {c : BucketKey} {id : ResourceId} {k : ResourceKey} :
    (id, k) ∈ ((t.strike key).bucket c).entries ↔ (id, k) ∈ (t.bucket c).entries ∧
      ¬ (c = (t.resource key).bucket ∧ id = (t.resource key).id) := by
  rw [bucket_strike]
  by_cases same : c = (t.resource key).bucket
  · rw [if_pos same, Bucket.mem_remove, same]
    simp
  · simp [same]

theorem shardCount_strike (inside : (t.resource key).bucket.index < t.shardCount) :
    (t.strike key).shardCount = t.shardCount := by
  show (t.buckets.set _ _).size = t.buckets.size
  rw [Store.size_set]
  exact max_eq_left inside

theorem bucketOf_strike (inside : (t.resource key).bucket.index < t.shardCount)
    (id : ResourceId) : (t.strike key).bucketOf id = t.bucketOf id := by
  simp only [Table.bucketOf, shardCount_strike inside]
  rfl

theorem occupied_strike {entry : ResourceId × ResourceKey}
    (present : entry ∈ (t.bucket (t.resource key).bucket).entries) :
    (t.strike key).occupied + (if ((t.strike key).bucket (t.resource key).bucket).entries.isEmpty
      then 1 else 0) = t.occupied := by
  have changed := t.buckets.sum_set Bucket.occupancy_default (t.resource key).bucket
    ((t.bucket (t.resource key).bucket).remove (t.resource key).id)
  change _ + (t.bucket (t.resource key).bucket).occupancy = _ at changed
  rw [Bucket.occupancy_of_mem present] at changed
  have sum : (t.strike key).occupied = (t.buckets.set (t.resource key).bucket
      ((t.bucket (t.resource key).bucket).remove (t.resource key).id)).sum Bucket.occupancy :=
    occupied_eq_sum _
  rw [sum, occupied_eq_sum, bucket_strike, if_pos rfl]
  simp only [Bucket.occupancy] at changed ⊢
  split at changed
  · rename_i empty
    rw [if_pos empty]
    omega
  · rename_i filled
    rw [if_neg filled]
    omega

theorem evict_of_queued (queued : (t.resource key).queued ≠ 0) :
    t.evict key = (t, .error (.releasedWithLocks (t.resource key).id (t.resource key).queued)) := by
  simp only [evict, if_pos queued]

/-- The order in a table, whatever its resources are referenced by. Every entry names a resource of
its id, in the bucket of that id, and the count of the table is that of the occupied buckets and of
the holds from outside. -/
structure Filed (t : Table) (holds : Nat) : Prop where
  shaped : t.Shaped
  distinct : ∀ b, (t.bucket b).Distinct
  entry : ∀ b id key, (id, key) ∈ (t.bucket b).entries → key.index < t.resources.size ∧
    (t.resource key).id = id ∧ (t.resource key).bucket = b ∧ t.bucketOf id = b
  held : t.bref = t.occupied + holds

theorem Tallied.toFiled {live leaving : Multiset ResourceKey}
    (tallied : t.Tallied live leaving holds) : t.Filed holds where
  shaped := tallied.shaped
  distinct := tallied.distinct
  entry b id key member := by
    obtain ⟨present, rest⟩ := tallied.filed b id key member
    exact ⟨tallied.known key present, rest⟩
  held := tallied.held

namespace Filed

variable (filed : t.Filed holds)

include filed

theorem bucketOf_enter (own : t.bucketOf candidate.id = b) :
    (t.enter b candidate).bucketOf = t.bucketOf := by
  have inside : b.index < t.shardCount := by
    rw [← own]
    exact filed.shaped.bucketOf_lt _
  exact funext fun id => Table.bucketOf_enter inside id

theorem enter (absent : (t.bucket b).find? candidate.id = none) (home : candidate.bucket = b)
    (own : t.bucketOf candidate.id = b) : (t.enter b candidate).Filed holds := by
  have inside : b.index < t.shardCount := by
    rw [← own]
    exact filed.shaped.bucketOf_lt _
  refine ⟨⟨(shardCount_enter inside).trans filed.shaped.sized, filed.shaped.sound⟩, ?_, ?_, ?_⟩
  · intro c
    rw [bucket_enter]
    split
    · exact (filed.distinct b).put absent _
    · exact filed.distinct c
  -- An entry is an old one, or the one that joins.
  · intro c id key member
    rw [size_enter, filed.bucketOf_enter own, resource_enter]
    rcases (mem_bucket_enter absent).mp member with before | ⟨rfl, new⟩
    · obtain ⟨known, rest⟩ := filed.entry c id key before
      have old : key ≠ t.resources.nextKey := by
        rintro rfl
        exact lt_irrefl _ known
      rw [if_neg old]
      exact ⟨known.trans (Nat.lt_succ_self _), rest⟩
    · obtain ⟨rfl, rfl⟩ := Prod.mk.inj new
      rw [if_pos rfl]
      exact ⟨Nat.lt_succ_self _, rfl, home, own⟩
  · have counts := occupied_enter absent
    have held := filed.held
    omega

section Strikes

variable (member : ((t.resource key).id, key) ∈ (t.bucket (t.resource key).bucket).entries)

include member

theorem bucket_lt : (t.resource key).bucket.index < t.shardCount := by
  rw [← (filed.entry _ _ _ member).2.2.2]
  exact filed.shaped.bucketOf_lt _

theorem bucketOf_strike : (t.strike key).bucketOf = t.bucketOf :=
  funext fun id => Table.bucketOf_strike (filed.bucket_lt member) id

theorem strike : (t.strike key).Filed holds := by
  have inside := filed.bucket_lt member
  refine ⟨⟨(shardCount_strike inside).trans filed.shaped.sized, filed.shaped.sound⟩, ?_, ?_, ?_⟩
  · intro c
    rw [bucket_strike]
    split
    · exact (filed.distinct _).remove _
    · exact filed.distinct c
  · intro c id k left
    rw [filed.bucketOf_strike member]
    exact filed.entry c id k (mem_bucket_strike.mp left).1
  · have counts := occupied_strike member
    have held := filed.held
    show (if ((t.strike key).bucket (t.resource key).bucket).entries.isEmpty
      then t.bref - 1 else t.bref) = _
    split at counts
    · rename_i empty
      rw [if_pos empty]
      omega
    · rename_i some
      rw [if_neg some]
      omega

/-- A resource without locks that is the entry of its id leaves the table. -/
theorem evict (unused : (t.resource key).queued = 0) :
    t.evict key = (t.strike key, .ok (.freed
      ((t.strike key).bucket (t.resource key).bucket).entries.isEmpty (t.strike key).bref)) := by
  have found := (filed.distinct _).find?_of_mem member
  have counts := occupied_strike member
  have held := filed.held
  have kept :
      (t.modifyBucket (t.resource key).bucket (·.remove (t.resource key).id)).bref = t.bref :=
    rfl
  simp only [Table.evict, unused, found, ne_eq, not_true_eq_false, if_false, kept]
  by_cases empty : ((t.strike key).bucket (t.resource key).bucket).entries.isEmpty
  · have used : t.bref ≠ 0 := by
      rw [if_pos empty] at counts
      omega
    rw [empty]
    change ((t.modifyBucket (t.resource key).bucket (·.remove (t.resource key).id)).bucket
      (t.resource key).bucket).entries.isEmpty = true at empty
    simp [Table.strike, empty, used]
  · rw [Bool.not_eq_true] at empty
    rw [empty]
    change ((t.modifyBucket (t.resource key).bucket (·.remove (t.resource key).id)).bucket
      (t.resource key).bucket).entries.isEmpty = false at empty
    simp only [Table.strike, empty, Bool.not_false, if_true, Bool.false_eq_true, if_false]
    rfl

end Strikes

end Filed

end Table

end Lockspace
