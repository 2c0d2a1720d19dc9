import Lockspace.Proofs.Concurrent.Reached

namespace Lockspace

open Manager Table

variable {setup : Setup} {n : SpaceKey} {m : Manager} {acts : Multiset Activity}

/-- An insertion after a lookup that found nothing puts its resource into the table exactly if the
bucket holds no entry of the id now. Otherwise it answers with that entry, on which it takes a
reference and changes nothing else. So all references on one id are on one resource, the entry. -/
theorem Interleaved.insert_unique (reach : Interleaved setup n m acts) :
    (∀ id rtype seen candidate, .creating id rtype seen ∈ acts → candidate.id = id →
      let t := (m.space n).table
      let b := t.bucketOf id
      (∀ other ∈ acts, other.locked t ≠ some b) →
        (∀ key, (t.bucket b).find? id = some key → t.insert b candidate seen = .ok
          (.raceLost key, t.modifyResource key fun r => { r with refcount := r.refcount + 1 })) ∧
        ((t.bucket b).find? id = none → ∃ first t', t.insert b candidate seen =
            .ok (.inserted t.resources.nextKey first t'.bref, t') ∧
          ∀ c, (t'.bucket c).entries =
            if c = b then (t.bucket c).entries ++ [(id, t.resources.nextKey)]
            else (t.bucket c).entries)) ∧
    (∀ key ∈ handsOf acts + m.boundKeys n,
      let t := (m.space n).table
      (t.bucket (t.bucketOf (t.resource key).id)).find? (t.resource key).id = some key) ∧
    ∀ key ∈ handsOf acts + m.boundKeys n, ∀ other ∈ handsOf acts + m.boundKeys n,
      ((m.space n).table.resource key).id = ((m.space n).table.resource other).id →
        key = other := by
  have inOrder := reach.inOrder
  have books := inOrder.tallied
  have entry : ∀ key ∈ handsOf acts + m.boundKeys n,
      ((m.space n).table.bucket ((m.space n).table.bucketOf
        ((m.space n).table.resource key).id)).find? ((m.space n).table.resource key).id =
      some key :=
    fun key live => books.find? (Multiset.mem_add.mpr (Or.inl live))
  refine ⟨?_, entry, ?_⟩
  · intro id rtype seen candidate creating named t b free
    obtain ⟨bound, current⟩ := inOrder.fits _ creating
    constructor
    · intro key found
      have stale : (t.bucket b).version ≠ seen := by
        intro same
        rw [show (t.bucket b).find? id = none from current same.symm] at found
        cases found
      have live := books.live_of_find? (InOrder.settled free) found
      subst named
      exact insert_of_find? stale found (books.live_pos live)
    · intro absent
      subst named
      obtain ⟨first, inserted⟩ := insert_of_absent absent seen
      refine ⟨first, t.enter b candidate, inserted, fun c => ?_⟩
      rw [bucket_enter]
      by_cases same : c = b
      · rw [if_pos same, if_pos same, Bucket.entries_put absent, same]
      · rw [if_neg same, if_neg same]
  · intro key live other alive same
    have found := entry key live
    rw [same, entry other alive] at found
    exact (Option.some.inj found).symm

/-- Two threads look one id up in a new namespace before either inserts it. The second insertion
finds the resource of the first and references it. -/
theorem insert_unique_of_two_creators :
    ∃ m, Interleaved .oneBucket ⟨0⟩ m
        (.announcing ⟨0⟩ true 1 ::ₘ .creating ⟨1, 2, 0, 0⟩ .plain 0 ::ₘ 0) ∧
      (m.space ⟨0⟩).table.insert ⟨0⟩ (.new ⟨1, 2, 0, 0⟩ .plain ⟨0⟩ 256) 0 =
        .ok (.raceLost ⟨0⟩, (m.space ⟨0⟩).table.modifyResource ⟨0⟩ fun r =>
          { r with refcount := r.refcount + 1 }) := by
  let seeker : Activity := .seeking ⟨1, 2, 0, 0⟩ .plain true
  let creator : Activity := .creating ⟨1, 2, 0, 0⟩ .plain 0
  let announcer : Activity := .announcing ⟨0⟩ true 1
  obtain ⟨m₀, m₁, m₂, m₃, built, first, second, inserts, home, found⟩ : ∃ m₀ m₁ m₂ m₃,
      Act.build .oneBucket {} = .ok (.ok ⟨0⟩) m₀ ∧
      seeker.advance ⟨0⟩ m₀ = .ok [creator] m₁ ∧ seeker.advance ⟨0⟩ m₁ = .ok [creator] m₂ ∧
      creator.advance ⟨0⟩ m₂ = .ok [announcer] m₃ ∧
      (m₃.space ⟨0⟩).table.bucketOf ⟨1, 2, 0, 0⟩ = ⟨0⟩ ∧
      ((m₃.space ⟨0⟩).table.bucket ⟨0⟩).find? ⟨1, 2, 0, 0⟩ = some ⟨0⟩ :=
    ⟨_, _, _, _, rfl, rfl, rfl, rfl, rfl, rfl⟩
  have seeking : Interleaved .oneBucket ⟨0⟩ m₀ (seeker ::ₘ 0) :=
    (Interleaved.built built).call trivial
  have one : Interleaved .oneBucket ⟨0⟩ m₁ (creator ::ₘ 0) :=
    seeking.step (by simp [Activity.MayStep]) first
  have again : Interleaved .oneBucket ⟨0⟩ m₁ (seeker ::ₘ creator ::ₘ 0) := one.call trivial
  have two : Interleaved .oneBucket ⟨0⟩ m₂ (creator ::ₘ creator ::ₘ 0) :=
    again.step (by simp [Activity.MayStep, creator, Activity.locked]) second
  have three : Interleaved .oneBucket ⟨0⟩ m₃ (announcer ::ₘ creator ::ₘ 0) :=
    two.step (by simp [Activity.MayStep, creator, Activity.locked]) inserts
  have unique := three.insert_unique.1 ⟨1, 2, 0, 0⟩ .plain 0 (.new ⟨1, 2, 0, 0⟩ .plain ⟨0⟩ 256)
    (by simp [creator]) rfl (by simp [announcer, creator, Activity.locked])
  rw [home] at unique
  exact ⟨m₃, three, unique.1 ⟨0⟩ found⟩

end Lockspace
