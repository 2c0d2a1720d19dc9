import Lockspace.Proofs.TableReleases

namespace Lockspace

namespace Table

variable {t t' : Table} {live : Multiset ResourceKey} {holds : Nat} {key : ResourceKey}
  {b : BucketKey}

/-- A release that nothing comes between drops the reference, and with the last one the resource,
which then must have no locks. -/
theorem Tallied.release (tallied : t.Tallied (key ::ₘ live) 0 holds)
    (unused : key ∉ live → (t.resource key).queued = 0) :
    ∃ t' answer, t.release key = (t', .ok answer) ∧ t.Alike t' ∧ t'.Tallied live 0 holds := by
  have count := tallied.counted key
  rw [Multiset.count_cons_self] at count
  by_cases last : (t.resource key).refcount = 1
  · have gone : key ∉ live := Multiset.count_eq_zero.mp (by omega)
    have leaving := tallied.drop_last last
    have same : ((t.recount key 0).resource key).queued = 0 := by
      rw [resource_recount, if_pos rfl]
      exact unused gone
    rw [last] at leaving
    obtain ⟨emptied, evicted⟩ := leaving.evict same
    exact ⟨_, _, (release_of_last last).trans evicted,
      (t.alike_recount key _).trans (.of_resources rfl), leaving.strike⟩
  · exact ⟨_, .kept, release_of_shared (by omega), t.alike_recount key _, tallied.drop_shared last⟩

theorem Tallied.snapshotFrom (tallied : t.Tallied live 0 holds) (buckets : List BucketKey) :
    ∃ keys t', t.snapshotFrom buckets = .ok (keys, t') ∧ t.Alike t' ∧
      t'.Tallied (↑keys + live) 0 holds := by
  induction buckets generalizing t live with
  | nil => exact ⟨[], t, rfl, .rfl, by simpa using tallied⟩
  | cons b rest ih =>
    obtain ⟨mid, run, -, alike, after⟩ := tallied.snapshotBucket (b := b) (by simp)
    obtain ⟨keys, t', more, others, last⟩ := ih after
    refine ⟨(t.bucket b).entries.map (·.2) ++ keys, t', ?_, alike.trans others, ?_⟩
    · simp only [Table.snapshotFrom, run, bind, Except.bind, more, pure, Except.pure]
    · rw [← Multiset.coe_add, add_comm (Multiset.ofList _) (Multiset.ofList keys), add_assoc]
      exact last

/-- A listing references every resource once. -/
theorem Tallied.snapshot (tallied : t.Tallied live 0 holds) :
    ∃ keys t', t.snapshot = .ok (keys, t') ∧ t.Alike t' ∧ t'.Tallied (↑keys + live) 0 holds :=
  tallied.snapshotFrom _

theorem shardCount_clearBucket (inside : b.index < t.shardCount) :
    (t.clearBucket b).2.shardCount = t.shardCount := by
  show (t.buckets.set b _).size = t.buckets.size
  rw [Store.size_set]
  exact max_eq_left inside

theorem Tallied.clearBucket (tallied : t.Tallied 0 0 holds) (inside : b.index < t.shardCount) :
    (t.clearBucket b).2.Tallied 0 0 holds := by
  have empty : ∀ c, (t.bucket c).entries = [] := by
    intro c
    refine List.eq_nil_iff_forall_not_mem.mpr fun entry member => ?_
    simpa using (tallied.filed c entry.1 entry.2 member).1
  have cleared : ∀ c, ((t.clearBucket b).2.bucket c).entries = [] := by
    intro c
    show ((t.modifyBucket b Bucket.clear).bucket c).entries = []
    rw [bucket_modifyBucket]
    split
    · rfl
    · exact empty c
  refine ⟨⟨(shardCount_clearBucket inside).trans tallied.shaped.sized, tallied.shaped.sound⟩,
    tallied.counted, by simp, ?_, by simp, by simp, ?_, ?_⟩
  · intro c id key member
    rw [cleared] at member
    cases member
  · intro c
    rw [Bucket.Distinct, cleared]
    exact List.nodup_nil
  · have none : (t.clearBucket b).2.occupied = 0 := occupied_eq_zero.mpr cleared
    have before : t.occupied = 0 := occupied_eq_zero.mpr empty
    have held := tallied.held
    rw [before] at held
    rw [none]
    exact held

/-- Where nothing is referenced, there is nothing to clear. -/
theorem Tallied.clear (tallied : t.Tallied 0 0 holds) :
    t.clear.2.Tallied 0 0 holds ∧ t.clear.2.resources = t.resources := by
  have inside : ∀ b ∈ t.buckets.keys, b.index < t.shardCount := by
    intro b member
    obtain ⟨i, below, rfl⟩ := List.mem_map.mp member
    exact List.mem_range.mp below
  unfold Table.clear
  revert inside
  generalize t.buckets.keys = buckets
  induction buckets generalizing t with
  | nil => exact fun _ => ⟨tallied, rfl⟩
  | cons b rest ih =>
    intro inside
    have here := inside b (List.mem_cons_self ..)
    refine ih (tallied.clearBucket here) fun c member => ?_
    show c.index < (t.clearBucket b).2.shardCount
    rw [shardCount_clearBucket here]
    exact inside c (List.mem_cons_of_mem b member)

end Table

end Lockspace
