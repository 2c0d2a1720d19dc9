import Lockspace.Proofs.TableSteps

namespace Lockspace

namespace Table

variable {t t' : Table} {live leaving : Multiset ResourceKey} {holds : Nat} {key : ResourceKey}
  {b : BucketKey}

/-- A reference that is not the last one goes, and the resource stays. -/
theorem Tallied.drop_shared (tallied : t.Tallied (key ::ₘ live) leaving holds)
    (shared : (t.resource key).refcount ≠ 1) :
    (t.recount key ((t.resource key).refcount - 1)).Tallied live leaving holds := by
  have count := tallied.counted key
  rw [Multiset.count_cons_self] at count
  have remains : key ∈ live := Multiset.count_pos.mp (by omega)
  refine tallied.recount (by simp) (by omega) ?_ ?_ ?_
  · intro k other
    rw [Multiset.count_cons_of_ne other]
  · intro k going
    obtain ⟨gone, once⟩ := tallied.apart k going
    exact ⟨fun inLive => gone (Multiset.mem_cons_of_mem inLive), once⟩
  · intro k
    rw [Multiset.cons_add, Multiset.mem_cons, or_iff_right_of_imp]
    rintro rfl
    exact Multiset.mem_add.mpr (Or.inl remains)

/-- With the last reference a resource starts to leave. -/
theorem Tallied.drop_last (tallied : t.Tallied (key ::ₘ live) leaving holds)
    (last : (t.resource key).refcount = 1) :
    (t.recount key ((t.resource key).refcount - 1)).Tallied live (key ::ₘ leaving) holds := by
  have count := tallied.counted key
  rw [Multiset.count_cons_self] at count
  have gone : key ∉ live := Multiset.count_eq_zero.mp (by omega)
  have fresh : key ∉ leaving :=
    fun going => (tallied.apart key going).1 (Multiset.mem_cons_self key live)
  refine tallied.recount (by simp) (by omega) ?_ ?_ ?_
  · intro k other
    rw [Multiset.count_cons_of_ne other]
  · intro k going
    rcases Multiset.mem_cons.mp going with rfl | before
    · rw [Multiset.count_cons_self, Multiset.count_eq_zero.mpr fresh]
      exact ⟨gone, rfl⟩
    · obtain ⟨out, once⟩ := tallied.apart k before
      have other : k ≠ key := by
        rintro rfl
        exact fresh before
      rw [Multiset.count_cons_of_ne other]
      exact ⟨fun inLive => out (Multiset.mem_cons_of_mem inLive), once⟩
  · intro k
    rw [Multiset.add_cons, Multiset.cons_add]

theorem Tallied.bucket_lt (tallied : t.Tallied live leaving holds)
    (member : key ∈ live + leaving) : (t.resource key).bucket.index < t.shardCount :=
  tallied.toFiled.bucket_lt (tallied.entered key member)

theorem Tallied.strike (tallied : t.Tallied live (key ::ₘ leaving) holds) :
    (t.strike key).Tallied live leaving holds := by
  obtain ⟨out, once⟩ := tallied.apart key (Multiset.mem_cons_self key leaving)
  have fresh : key ∉ leaving := by
    rw [Multiset.count_cons_self] at once
    exact Multiset.count_eq_zero.mp (by omega)
  have widen : ∀ k ∈ live + leaving, k ∈ live + key ::ₘ leaving := by
    intro k member
    rw [Multiset.add_cons]
    exact Multiset.mem_cons_of_mem member
  have entry := tallied.entered key (by simp)
  have after := tallied.toFiled.strike entry
  refine ⟨after.shaped, tallied.counted, ?_, ?_, ?_,
    fun k member => tallied.known k (widen k member), after.distinct, after.held⟩
  · intro k going
    obtain ⟨gone, single⟩ := tallied.apart k (Multiset.mem_cons_of_mem going)
    have other : k ≠ key := by
      rintro rfl
      exact fresh going
    rw [Multiset.count_cons_of_ne other] at single
    exact ⟨gone, single⟩
  · intro c id k member
    refine ⟨?_, (after.entry c id k member).2⟩
    obtain ⟨before, apart⟩ := mem_bucket_strike.mp member
    obtain ⟨kept, named, filed, -⟩ := tallied.filed c id k before
    rw [Multiset.add_cons, Multiset.mem_cons] at kept
    refine kept.resolve_left ?_
    rintro rfl
    exact apart ⟨filed.symm, named.symm⟩
  · intro k member
    have before := tallied.entered k (widen k member)
    refine mem_bucket_strike.mpr ⟨before, ?_⟩
    rintro ⟨filed, named⟩
    -- A second entry of the id would be the resource that leaves, which nobody references.
    have again : ((t.resource key).id, k) ∈ (t.bucket (t.resource key).bucket).entries := by
      rw [← filed, ← named]
      exact before
    have found := (tallied.distinct _).find?_of_mem again
    rw [(tallied.distinct _).find?_of_mem entry] at found
    obtain rfl := Option.some.inj found
    rcases Multiset.mem_add.mp member with inLive | going
    · exact out inLive
    · exact fresh going

/-- A resource without locks leaves the table. -/
theorem Tallied.evict (tallied : t.Tallied live (key ::ₘ leaving) holds)
    (unused : (t.resource key).queued = 0) :
    ∃ emptied, t.evict key = (t.strike key, .ok (.freed emptied (t.strike key).bref)) :=
  ⟨_, tallied.toFiled.evict (tallied.entered key (by simp)) unused⟩

/-- The count of a namespace comes to its occupied buckets and its holds from outside, and to nothing
else of the books. -/
theorem Tallied.rehold {bref more : Nat} (tallied : t.Tallied live leaving holds)
    (held : bref = t.occupied + more) : ({ t with bref } : Table).Tallied live leaving more where
  shaped := ⟨tallied.shaped.sized, tallied.shaped.sound⟩
  counted := tallied.counted
  apart := tallied.apart
  filed := tallied.filed
  entered := tallied.entered
  known := tallied.known
  distinct := tallied.distinct
  held := held

/-- A hold from outside is counted. -/
theorem Tallied.takeHold (tallied : t.Tallied live leaving holds) :
    t.takeHold.Tallied live leaving (holds + 1) := by
  have held := tallied.held
  exact tallied.rehold (by omega)

theorem Tallied.dropHold? (tallied : t.Tallied live leaving (holds + 1)) :
    t.dropHold? = some { t with bref := t.bref - 1 } := by
  have held := tallied.held
  have some : t.bref ≠ 0 := by omega
  simp only [Table.dropHold?, if_neg some]

theorem Tallied.dropHold (tallied : t.Tallied live leaving (holds + 1)) :
    ({ t with bref := t.bref - 1 } : Table).Tallied live leaving holds := by
  have held := tallied.held
  exact tallied.rehold (by omega)

theorem Tallied.new {p : HashPreset} (sound : p.isSound) (salt : UInt64) (least : Duration) :
    (Table.new p salt least).Tallied 0 0 0 := by
  have bucket : ∀ b, ((Table.new p salt least).bucket b).entries = [] := by
    intro b
    simp only [Table.bucket, Table.new, Store.get_replicate]
    split <;> rfl
  refine ⟨.new sound salt least, ?_, by simp, ?_, by simp, by simp, ?_, ?_⟩
  · intro key
    simp only [Table.resource, Table.new]
    rw [Store.get_of_size_le _ (Nat.zero_le _)]
    rfl
  · intro b id key member
    rw [bucket] at member
    cases member
  · intro b
    rw [Bucket.Distinct, bucket]
    exact List.nodup_nil
  · exact (occupied_eq_zero.mpr bucket).symm

theorem Tallied.live_of_mem_bucket (tallied : t.Tallied live leaving holds)
    (settled : ∀ key ∈ leaving, (t.resource key).bucket ≠ b) :
    ∀ key ∈ (t.bucket b).entries.map (·.2), key ∈ live := by
  intro key member
  obtain ⟨⟨id, k⟩, entry, rfl⟩ := List.mem_map.mp member
  exact tallied.live_of_find? settled ((tallied.distinct b).find?_of_mem entry)

/-- References every resource of a bucket that nothing is about to leave. -/
theorem Tallied.snapshotBucket (tallied : t.Tallied live leaving holds)
    (settled : ∀ key ∈ leaving, (t.resource key).bucket ≠ b) :
    ∃ t', t.snapshotBucket b = .ok ((t.bucket b).entries.map (·.2), t') ∧ t.SameEntries t' ∧
      t.Alike t' ∧ t'.Tallied (↑((t.bucket b).entries.map (·.2)) + live) leaving holds := by
  suffices steps : ∀ (keys : List ResourceKey) (live : Multiset ResourceKey) (t : Table),
      t.Tallied live leaving holds → (∀ key ∈ keys, key ∈ live) →
      ∃ t', keys.foldlM Table.incref t = .ok t' ∧ t.SameEntries t' ∧ t.Alike t' ∧
        t'.Tallied (↑keys + live) leaving holds by
    obtain ⟨t', run, after⟩ := steps _ live t tallied (tallied.live_of_mem_bucket settled)
    exact ⟨t', by simp only [Table.snapshotBucket, run]; rfl, after⟩
  intro keys
  induction keys with
  | nil => exact fun live t tallied _ => ⟨t, rfl, .rfl, .rfl, by simpa using tallied⟩
  | cons key rest ih =>
    intro live t tallied present
    have member := present key (by simp)
    have known := tallied.known key (Multiset.mem_add.mpr (Or.inl member))
    obtain ⟨t', run, same, alike, after⟩ :=
      ih (key ::ₘ live) _ (tallied.incref member) fun k inRest =>
        Multiset.mem_cons_of_mem (present k (List.mem_cons_of_mem _ inRest))
    refine ⟨t', ?_, (sameEntries_recount known _).trans same,
      (t.alike_recount key _).trans alike, ?_⟩
    · rw [List.foldlM_cons, incref_of_pos (tallied.live_pos member)]
      exact run
    · rwa [← Multiset.cons_coe, Multiset.cons_add, ← Multiset.add_cons]

end Table

end Lockspace
