import Lockspace.Proofs.Concurrent.Reached

namespace Lockspace

open Manager Table

variable {setup : Setup} {n : SpaceKey} {m : Manager} {acts : Multiset Activity}

/-- The count of a namespace is that of its occupied buckets and of the holds that were not given
back, at any moment between two steps. Every resource lies in the bucket of its id, to which either
hash leads with nothing left for the remainder to cut off. So the count is zero exactly if the
table is empty and nobody holds the namespace. -/
theorem Interleaved.bref_eq (reach : Interleaved setup n m acts) :
    let t := (m.space n).table
    t.bref = t.occupied + holdsOf acts ∧
    (∀ b id key, (id, key) ∈ (t.bucket b).entries → (t.resource key).id = id ∧ b = t.bucketOf id) ∧
    (∀ id, (t.bucketOf id).index < t.shardCount) ∧
    (∀ (strategy : HashStrategy) id salt,
      (strategy.hash id salt t.preset.shardBits).toNat % t.shardCount =
        (strategy.hash id salt t.preset.shardBits).toNat) ∧
    (t.bref = 0 ↔ t.size = 0 ∧ holdsOf acts = 0) := by
  intro t
  have books := reach.inOrder.tallied
  have held := books.held
  have bits := HashPreset.shardBits_le_of_isSound books.shaped.sound
  refine ⟨held, ?_, books.shaped.bucketOf_lt, ?_, ?_⟩
  · intro b id key entry
    obtain ⟨-, named, -, home⟩ := books.filed b id key entry
    exact ⟨named, home.symm⟩
  · intro strategy id salt
    have below := strategy.hash_lt id salt (bits.trans_lt (by decide))
    exact Nat.mod_eq_of_lt (books.shaped.sized ▸ below)
  · have empty : t.occupied = 0 ↔ t.size = 0 := occupied_eq_zero.trans size_eq_zero.symm
    rw [held, Nat.add_eq_zero_iff, empty]

/-- A namespace with one resource and one hold counts two. -/
theorem bref_eq_of_resource_and_hold :
    ∃ m, Interleaved .oneBucket ⟨0⟩ m (.hold ::ₘ .handle ⟨0⟩ ::ₘ 0) ∧
      (m.space ⟨0⟩).table.bref = 2 ∧
      ((m.space ⟨0⟩).table.bref = 0 ↔ (m.space ⟨0⟩).table.size = 0 ∧
        holdsOf (.hold ::ₘ .handle ⟨0⟩ ::ₘ 0) = 0) := by
  let seeker : Activity := .seeking ⟨1, 2, 0, 0⟩ .plain true
  let creator : Activity := .creating ⟨1, 2, 0, 0⟩ .plain 0
  let announcer : Activity := .announcing ⟨0⟩ true 1
  obtain ⟨m₀, m₁, m₂, m₃, m₄, built, run₁, run₂, run₃, run₄, occupied⟩ : ∃ m₀ m₁ m₂ m₃ m₄,
      Act.build .oneBucket {} = .ok (.ok ⟨0⟩) m₀ ∧ seeker.advance ⟨0⟩ m₀ = .ok [creator] m₁ ∧
      creator.advance ⟨0⟩ m₁ = .ok [announcer] m₂ ∧
      announcer.advance ⟨0⟩ m₂ = .ok [.handle ⟨0⟩] m₃ ∧
      Activity.claiming.advance ⟨0⟩ m₃ = .ok [.hold] m₄ ∧ (m₄.space ⟨0⟩).table.occupied = 1 :=
    ⟨_, _, _, _, _, rfl, rfl, rfl, rfl, rfl, rfl⟩
  have alone : ∀ (a : Activity) (t : Table), a.MayStep t 0 := by simp [Activity.MayStep]
  have seeking : seeker.IsCall := trivial
  have made : Interleaved .oneBucket ⟨0⟩ m₃ (.handle ⟨0⟩ ::ₘ 0) :=
    ((((Interleaved.built built).call seeking).step (alone seeker _) run₁).step (alone creator _)
      run₂).step (alone announcer _) run₃
  have claiming : Activity.claiming.IsCall := trivial
  have held : Interleaved .oneBucket ⟨0⟩ m₄ (.hold ::ₘ .handle ⟨0⟩ ::ₘ 0) :=
    (made.call claiming).step (by simp [Activity.MayStep, Activity.locked]) run₄
  obtain ⟨counted, -, -, -, zero⟩ := held.bref_eq
  exact ⟨m₄, held, by rw [counted, occupied]; rfl, zero⟩

end Lockspace
