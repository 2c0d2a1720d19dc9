import Lockspace.Proofs.TableFiling

namespace Lockspace

namespace Table

variable {t t' : Table} {live leaving : Multiset ResourceKey} {holds : Nat} {key : ResourceKey}
  {b : BucketKey} {id : ResourceId} {candidate : Resource} {seen : Nat}

theorem incref_of_pos (positive : 0 < (t.resource key).refcount) :
    t.incref key = .ok (t.recount key ((t.resource key).refcount + 1)) := by
  unfold incref
  rw [if_neg (Nat.ne_of_gt positive)]
  rfl

theorem Tallied.incref (tallied : t.Tallied live leaving holds) (member : key ∈ live) :
    (t.recount key ((t.resource key).refcount + 1)).Tallied (key ::ₘ live) leaving holds := by
  refine tallied.recount (Multiset.mem_add.mpr (Or.inl member)) ?_ ?_ ?_ ?_
  · rw [Multiset.count_cons_self, tallied.counted]
  · intro k other
    exact Multiset.count_cons_of_ne other _
  · intro k going
    obtain ⟨gone, once⟩ := tallied.apart k going
    refine ⟨?_, once⟩
    rw [Multiset.mem_cons]
    rintro (rfl | inLive)
    · exact gone member
    · exact gone inLive
  · intro k
    rw [Multiset.cons_add, Multiset.mem_cons, or_iff_right_of_imp]
    rintro rfl
    exact Multiset.mem_add.mpr (Or.inl member)

theorem lookup_of_find? (found : (t.bucket b).find? id = some key)
    (positive : 0 < (t.resource key).refcount) :
    t.lookup b id = .ok (.found key, t.recount key ((t.resource key).refcount + 1)) := by
  simp only [lookup, found, incref_of_pos positive, Except.map]

theorem lookup_of_absent (absent : (t.bucket b).find? id = none) :
    t.lookup b id = .ok (.missing (t.bucket b).version, t) := by
  simp only [lookup, absent]

/-- An insertion that does not find its id enters the resource, the first of its bucket if that was
empty. -/
theorem insert_eq_of_absent (absent : (t.bucket b).find? candidate.id = none) (seen : Nat) :
    t.insert b candidate seen = .ok (.inserted t.resources.nextKey (t.bucket b).entries.isEmpty
      (t.enter b candidate).bref, t.enter b candidate) := by
  have first : (((t.bucket b).put candidate.id t.resources.nextKey).entries.length == 1) =
      (t.bucket b).entries.isEmpty := by
    rw [Bucket.entries_put absent, List.length_append, List.length_singleton]
    cases (t.bucket b).entries <;> rfl
  simp only [insert, absent, ite_self, first]
  simp only [enter, modifyBucket, ← first, beq_iff_eq]

theorem insert_of_absent (absent : (t.bucket b).find? candidate.id = none) (seen : Nat) :
    ∃ first, t.insert b candidate seen = .ok
      (.inserted t.resources.nextKey first (t.enter b candidate).bref, t.enter b candidate) :=
  ⟨_, insert_eq_of_absent absent seen⟩

/-- An insertion that finds its id in a bucket that has changed references what it finds. -/
theorem insert_of_find? (stale : (t.bucket b).version ≠ seen)
    (found : (t.bucket b).find? candidate.id = some key)
    (positive : 0 < (t.resource key).refcount) :
    t.insert b candidate seen =
      .ok (.raceLost key, t.recount key ((t.resource key).refcount + 1)) := by
  simp only [insert, found, if_pos stale, incref_of_pos positive, Except.map]

theorem Tallied.enter (tallied : t.Tallied live leaving holds)
    (absent : (t.bucket b).find? candidate.id = none) (once : candidate.refcount = 1)
    (filed : candidate.bucket = b) (home : t.bucketOf candidate.id = b) :
    (t.enter b candidate).Tallied (t.resources.nextKey ::ₘ live) leaving holds := by
  have after := tallied.toFiled.enter absent filed home
  have fresh : t.resources.nextKey ∉ live + leaving :=
    fun old => absurd (tallied.known _ old) (lt_irrefl _)
  have old : ∀ k ∈ live + leaving, (t.enter b candidate).resource k = t.resource k := by
    intro k member
    rw [resource_enter, if_neg]
    rintro rfl
    exact fresh member
  refine ⟨after.shaped, ?_, ?_, ?_, ?_, ?_, after.distinct, after.held⟩
  · intro k
    rw [resource_enter]
    by_cases new : k = t.resources.nextKey
    · have none : live.count t.resources.nextKey = 0 :=
        Multiset.count_eq_zero.mpr fun inLive => fresh (Multiset.mem_add.mpr (Or.inl inLive))
      rw [if_pos new, once, new, Multiset.count_cons_self, none]
    · rw [if_neg new, Multiset.count_cons_of_ne new, tallied.counted]
  · intro k going
    obtain ⟨gone, single⟩ := tallied.apart k going
    refine ⟨?_, single⟩
    rw [Multiset.mem_cons]
    rintro (rfl | inLive)
    · exact fresh (Multiset.mem_add.mpr (Or.inr going))
    · exact gone inLive
  -- An entry is an old one, or the one that joins.
  · intro c other k member
    refine ⟨?_, (after.entry c other k member).2⟩
    rw [Multiset.cons_add, Multiset.mem_cons]
    rcases (mem_bucket_enter absent).mp member with before | ⟨-, same⟩
    · exact Or.inr (tallied.filed c other k before).1
    · exact Or.inl (Prod.mk.inj same).2
  · intro k member
    rw [mem_bucket_enter absent]
    rw [Multiset.cons_add, Multiset.mem_cons] at member
    rcases member with rfl | before
    · rw [resource_enter, if_pos rfl]
      exact Or.inr ⟨filed, rfl⟩
    · rw [old k before]
      exact Or.inl (tallied.entered k before)
  · intro k member
    rw [size_enter]
    rw [Multiset.cons_add, Multiset.mem_cons] at member
    rcases member with rfl | before
    · exact Nat.lt_succ_self _
    · exact (tallied.known k before).trans (Nat.lt_succ_self _)

end Table

end Lockspace
