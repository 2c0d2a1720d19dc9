import Lockspace.Proofs.BucketEntries
import Lockspace.Proofs.HashRange
import Mathlib.Data.Multiset.Count

namespace Lockspace

namespace Table

/-- The table with another reference count of one resource. -/
def recount (t : Table) (key : ResourceKey) (count : Nat) : Table :=
  t.modifyResource key fun r => { r with refcount := count }

theorem resource_modifyResource (t : Table) (key k : ResourceKey) (f : Resource → Resource) :
    (t.modifyResource key f).resource k = if k = key then f (t.resource key) else t.resource k :=
  Store.get_modify ..

theorem bucket_modifyBucket (t : Table) (b c : BucketKey) (f : Bucket → Bucket) :
    (t.modifyBucket b f).bucket c = if c = b then f (t.bucket b) else t.bucket c :=
  Store.get_modify ..

theorem resource_recount (t : Table) (key k : ResourceKey) (count : Nat) :
    (t.recount key count).resource k =
      if k = key then { t.resource key with refcount := count } else t.resource k :=
  t.resource_modifyResource ..

theorem exchange?_of_eq {t : Table} {key : ResourceKey} {seen : Nat}
    (same : (t.resource key).refcount = seen) :
    t.exchange? key seen = some (t.recount key (seen - 1)) := by
  simp only [exchange?, same, if_true]
  rfl

theorem dropLocked_eq (t : Table) (key : ResourceKey) : t.dropLocked key =
    ((t.resource key).refcount == 1, t.recount key ((t.resource key).refcount - 1)) :=
  rfl

section Releases

variable {t : Table} {key : ResourceKey}

theorem release_of_none (none : (t.resource key).refcount = 0) :
    t.release key = (t, .error (.releasedTooOften (t.resource key).id)) := by
  simp only [release, releaseShared?, if_pos none]

/-- A reference that is not the last one just goes. -/
theorem release_of_shared (shared : 2 ≤ (t.resource key).refcount) :
    t.release key = (t.recount key ((t.resource key).refcount - 1), .ok .kept) := by
  have some : (t.resource key).refcount ≠ 0 := by omega
  have more : (t.resource key).refcount ≠ 1 := by omega
  simp only [release, releaseShared?, if_neg some, if_neg more, exchange?_of_eq rfl]

/-- With the last one the resource has to leave. -/
theorem release_of_last (last : (t.resource key).refcount = 1) :
    t.release key = (t.recount key 0).evict key := by
  have locked : t.releaseShared? key = .ok none := by
    simp only [releaseShared?, last, Nat.one_ne_zero, if_false, if_true]
  have drop : t.dropLocked key = (true, t.recount key 0) := by
    rw [dropLocked_eq, last]
    rfl
  simp only [release, locked, releaseLocked, drop]

theorem release_cases (t : Table) (key : ResourceKey) :
    t.release key = (t, .error (.releasedTooOften (t.resource key).id)) ∨
    t.release key = (t.recount key ((t.resource key).refcount - 1), .ok .kept) ∨
    t.release key = (t.recount key 0).evict key := by
  have cases : (t.resource key).refcount = 0 ∨ 2 ≤ (t.resource key).refcount ∨
      (t.resource key).refcount = 1 := by omega
  exact cases.imp release_of_none (.imp release_of_shared release_of_last)

end Releases

/-- Two tables whose resources differ in nothing but their reference counts. -/
def Alike (t t' : Table) : Prop :=
  ∀ key, ∃ count, t'.resource key = { t.resource key with refcount := count }

variable {t t' t'' : Table}

theorem Alike.rfl : t.Alike t :=
  fun key => ⟨(t.resource key).refcount, by cases t.resource key; exact Eq.refl _⟩

theorem Alike.trans (first : t.Alike t') (second : t'.Alike t'') : t.Alike t'' := by
  intro key
  obtain ⟨count, eq⟩ := first key
  obtain ⟨other, eq'⟩ := second key
  exact ⟨other, by rw [eq', eq]⟩

theorem Alike.of_resources (same : t'.resources = t.resources) : t.Alike t' := by
  intro key
  obtain ⟨count, eq⟩ := (Alike.rfl : t.Alike t) key
  exact ⟨count, by simpa only [resource, same] using eq⟩

theorem alike_recount (t : Table) (key : ResourceKey) (count : Nat) :
    t.Alike (t.recount key count) := by
  intro k
  by_cases same : k = key
  · exact ⟨count, by rw [resource_recount, if_pos same, same]⟩
  · obtain ⟨old, eq⟩ := (Alike.rfl : t.Alike t) k
    exact ⟨old, by rw [resource_recount, if_neg same]; exact eq⟩

/-- Two tables with the same entries, whose resources have the same ids and buckets. -/
structure SameEntries (t t' : Table) : Prop where
  id : ∀ key, (t'.resource key).id = (t.resource key).id
  home : ∀ key, (t'.resource key).bucket = (t.resource key).bucket
  buckets : t'.buckets = t.buckets
  preset : t'.preset = t.preset
  salt : t'.salt = t.salt
  bref : t'.bref = t.bref
  size : t'.resources.size = t.resources.size

theorem SameEntries.rfl : t.SameEntries t :=
  ⟨fun _ => Eq.refl _, fun _ => Eq.refl _, Eq.refl _, Eq.refl _, Eq.refl _, Eq.refl _, Eq.refl _⟩

theorem SameEntries.trans (first : t.SameEntries t') (second : t'.SameEntries t'') :
    t.SameEntries t'' where
  id key := (second.id key).trans (first.id key)
  home key := (second.home key).trans (first.home key)
  buckets := second.buckets.trans first.buckets
  preset := second.preset.trans first.preset
  salt := second.salt.trans first.salt
  bref := second.bref.trans first.bref
  size := second.size.trans first.size

theorem sameEntries_modifyResource {key : ResourceKey} {f : Resource → Resource}
    (known : key.index < t.resources.size)
    (id : (f (t.resource key)).id = (t.resource key).id)
    (home : (f (t.resource key)).bucket = (t.resource key).bucket) :
    t.SameEntries (t.modifyResource key f) := by
  refine ⟨fun k => ?_, fun k => ?_, rfl, rfl, rfl, rfl, ?_⟩
  · rw [resource_modifyResource]
    split
    · rename_i same
      rw [id, same]
    · rfl
  · rw [resource_modifyResource]
    split
    · rename_i same
      rw [home, same]
    · rfl
  · show (t.resources.set key _).size = t.resources.size
    rw [Store.size_set]
    exact max_eq_left known

theorem sameEntries_recount {key : ResourceKey} (known : key.index < t.resources.size)
    (count : Nat) : t.SameEntries (t.recount key count) :=
  sameEntries_modifyResource known rfl rfl

theorem SameEntries.bucket_eq (same : t.SameEntries t') (b : BucketKey) :
    t'.bucket b = t.bucket b := by
  rw [bucket, same.buckets, bucket]

theorem SameEntries.bucketOf_eq (same : t.SameEntries t') (id : ResourceId) :
    t'.bucketOf id = t.bucketOf id := by
  simp only [bucketOf, shardCount, same.buckets, same.preset, same.salt]

/-- The bookkeeping of a table. It holds `live` references, each counted at its resource. Every
referenced resource is the entry of its id in the bucket of that id, and so are those in `leaving`,
which have lost their last reference and are about to be taken out. There is nothing else in the
table, and its own count is that of the occupied buckets and of `holds` from outside. -/
structure Tallied (t : Table) (live leaving : Multiset ResourceKey) (holds : Nat) : Prop where
  shaped : t.Shaped
  counted : ∀ key, (t.resource key).refcount = live.count key
  apart : ∀ key ∈ leaving, key ∉ live ∧ leaving.count key = 1
  filed : ∀ b id key, (id, key) ∈ (t.bucket b).entries →
    key ∈ live + leaving ∧ (t.resource key).id = id ∧ (t.resource key).bucket = b ∧
      t.bucketOf id = b
  entered : ∀ key ∈ live + leaving,
    ((t.resource key).id, key) ∈ (t.bucket (t.resource key).bucket).entries
  known : ∀ key ∈ live + leaving, key.index < t.resources.size
  distinct : ∀ b, (t.bucket b).Distinct
  held : t.bref = t.occupied + holds

variable {live leaving live' leaving' : Multiset ResourceKey} {holds : Nat} {key : ResourceKey}

/-- A table whose entries stay keeps its books, if the references are counted anew and nothing
has come or gone. -/
theorem Tallied.recounted (tallied : t.Tallied live leaving holds) (entries : t.SameEntries t')
    (counted : ∀ key, (t'.resource key).refcount = live'.count key)
    (apart : ∀ key ∈ leaving', key ∉ live' ∧ leaving'.count key = 1)
    (same : ∀ key, key ∈ live' + leaving' ↔ key ∈ live + leaving) :
    t'.Tallied live' leaving' holds := by
  refine ⟨⟨?_, ?_⟩, counted, apart, ?_, ?_, ?_, ?_, ?_⟩
  · rw [shardCount, entries.buckets, entries.preset]
    exact tallied.shaped.sized
  · rw [entries.preset]
    exact tallied.shaped.sound
  · intro b id key member
    rw [entries.bucket_eq] at member
    rw [same, entries.id, entries.home, entries.bucketOf_eq]
    exact tallied.filed b id key member
  · intro key member
    rw [entries.id, entries.home, entries.bucket_eq]
    exact tallied.entered key ((same key).mp member)
  · intro key member
    rw [entries.size]
    exact tallied.known key ((same key).mp member)
  · intro b
    rw [entries.bucket_eq]
    exact tallied.distinct b
  · rw [entries.bref, occupied, entries.buckets]
    exact tallied.held

theorem Tallied.sameEntries (tallied : t.Tallied live leaving holds) (entries : t.SameEntries t')
    (counts : ∀ key, (t'.resource key).refcount = (t.resource key).refcount) :
    t'.Tallied live leaving holds :=
  tallied.recounted entries (fun key => (counts key).trans (tallied.counted key)) tallied.apart
    fun _ => Iff.rfl

/-- The same for one count. -/
theorem Tallied.recount (tallied : t.Tallied live leaving holds) {count : Nat}
    (member : key ∈ live + leaving) (now : live'.count key = count)
    (others : ∀ k, k ≠ key → live'.count k = live.count k)
    (apart : ∀ key ∈ leaving', key ∉ live' ∧ leaving'.count key = 1)
    (same : ∀ key, key ∈ live' + leaving' ↔ key ∈ live + leaving) :
    (t.recount key count).Tallied live' leaving' holds := by
  refine tallied.recounted (sameEntries_recount (tallied.known key member) _) ?_ apart same
  intro k
  rw [resource_recount]
  by_cases atKey : k = key
  · rw [if_pos atKey, atKey, now]
  · rw [if_neg atKey, others k atKey, tallied.counted]

theorem Tallied.live_pos (tallied : t.Tallied live leaving holds) (member : key ∈ live) :
    0 < (t.resource key).refcount := by
  rw [tallied.counted]
  exact Multiset.count_pos.mpr member

/-- Only resources that were made are referenced. -/
theorem known_of_pos (positive : 0 < (t.resource key).refcount) :
    key.index < t.resources.size := by
  by_contra beyond
  rw [resource, Store.get_of_size_le _ (Nat.le_of_not_lt beyond)] at positive
  exact absurd positive (lt_irrefl 0)

/-- What is referenced is the entry of its id, in the bucket of its id. -/
theorem Tallied.find? (tallied : t.Tallied live leaving holds) (member : key ∈ live + leaving) :
    (t.bucket (t.bucketOf (t.resource key).id)).find? (t.resource key).id = some key := by
  have entry := tallied.entered key member
  rw [(tallied.filed _ _ _ entry).2.2.2]
  exact (tallied.distinct _).find?_of_mem entry

/-- A bucket that nothing is about to leave has referenced entries only. -/
theorem Tallied.live_of_find? (tallied : t.Tallied live leaving holds) {b : BucketKey}
    (settled : ∀ key ∈ leaving, (t.resource key).bucket ≠ b) {id : ResourceId}
    (found : (t.bucket b).find? id = some key) : key ∈ live := by
  obtain ⟨present, _, filed, _⟩ := tallied.filed b id key (Bucket.mem_of_find? found)
  rcases Multiset.mem_add.mp present with inLive | inLeaving
  · exact inLive
  · exact absurd filed (settled key inLeaving)

end Table

end Lockspace
