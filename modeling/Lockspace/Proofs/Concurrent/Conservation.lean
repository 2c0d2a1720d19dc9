import Lockspace.Proofs.Concurrent.Reached

namespace Lockspace

open Manager Table

variable {setup : Setup} {n : SpaceKey} {m m' : Manager} {acts rest : Multiset Activity}
  {a : Activity} {after : List Activity} {key : ResourceKey}

theorem InOrder.freed_of_live (inOrder : InOrder n m acts)
    (live : key ∈ handsOf acts + m.boundKeys n) : acts.countP (·.frees key) = 0 := by
  have positive := inOrder.tallied.live_pos live
  rw [inOrder.freed, unreferenced, if_neg]
  omega

/-- A step that begins to free a resource takes its last reference, and a step that takes the last
reference begins to free it. -/
theorem InOrder.frees_iff (before : InOrder n m (a ::ₘ rest)) (leads : Leads n m m' (↑after + rest))
    (made : key.index < (m.space n).table.resources.size) :
    (a.frees key = false ∧ ∃ b ∈ after, b.frees key) ↔
      ((m.space n).table.resource key).refcount ≠ 0 ∧
        ((m'.space n).table.resource key).refcount = 0 := by
  have kept := made.trans_le leads.onward.size
  have first := before.freed key
  have second := leads.inOrder.freed key
  have starts : (∃ b ∈ after, b.frees key) ↔ 0 < after.countP (·.frees key) :=
    List.countP_pos_iff.symm
  rw [Multiset.countP_cons] at first
  rw [Multiset.countP_add, Multiset.coe_countP] at second
  simp only [Bool.decide_eq_true, unreferenced, made, kept, true_and] at first second
  -- Before and after the step, one activity frees the resource if it has no reference, else none.
  rw [starts]
  constructor
  · rintro ⟨idle, begun⟩
    rw [if_neg (by simp [idle])] at first
    have used : ((m.space n).table.resource key).refcount ≠ 0 := by
      intro zero
      rw [if_pos zero] at first
      split at second <;> omega
    refine ⟨used, ?_⟩
    by_contra left
    rw [if_neg left] at second
    omega
  · rintro ⟨used, gone⟩
    rw [if_neg used] at first
    rw [if_pos gone] at second
    refine ⟨?_, by omega⟩
    by_contra busy
    rw [if_pos (by simpa using busy)] at first
    omega

/-- The references on a resource are counted exactly, at any moment between two steps: by those
that activities hold and those that locks own. What is in the table is referenced, but for a
resource whose last reference a release has just taken under the lock of its bucket. That release
is the one that frees it. No lookup finds what is freed, and no reference is taken on it or dropped
once too often. -/
theorem Interleaved.conserves (reach : Interleaved setup n m acts) :
    (∀ key, ((m.space n).table.resource key).refcount =
      (handsOf acts).count key + m.locks.toList.countP (·.bound = some ⟨n, key⟩)) ∧
    (∀ b id key, (id, key) ∈ ((m.space n).table.bucket b).entries → .evicting key ∉ acts →
      1 ≤ ((m.space n).table.resource key).refcount) ∧
    (∀ key, key.index < (m.space n).table.resources.size → acts.countP (·.frees key) =
      if ((m.space n).table.resource key).refcount = 0 then 1 else 0) ∧
    (∀ b id key t, (∀ a ∈ acts, a.locked (m.space n).table ≠ some b) →
      (m.space n).table.lookup b id = .ok (.found key, t) → acts.countP (·.frees key) = 0) ∧
    ∀ a rest, acts = a ::ₘ rest → a.MayStep (m.space n).table rest →
      (∀ fault m', a.advance n m = .error fault m' →
        ∀ id, fault ≠ .referencedAfterRelease id ∧ fault ≠ .releasedTooOften id) ∧
      ∀ after m', a.advance n m = .ok after m' →
        ∀ key, key.index < (m.space n).table.resources.size →
          (a.frees key = false ∧ (∃ b ∈ after, b.frees key) ↔
            ((m.space n).table.resource key).refcount ≠ 0 ∧
              ((m'.space n).table.resource key).refcount = 0) := by
  have inOrder := reach.inOrder
  have books := inOrder.tallied
  refine ⟨?_, ?_, ?_, ?_, ?_⟩
  · intro key
    rw [books.counted, Multiset.count_add, count_boundKeys]
  · intro b id key entry settled
    obtain ⟨present, -⟩ := books.filed b id key entry
    rcases Multiset.mem_add.mp present with live | leaving
    · exact books.live_pos live
    · exact absurd (InOrder.evicting_of_mem leaving) settled
  · intro key made
    rw [inOrder.freed, unreferenced]
    simp only [made, true_and]
  · intro b id key t free looked
    cases found : ((m.space n).table.bucket b).find? id with
    | none =>
      rw [lookup_of_absent found] at looked
      cases looked
    | some entry =>
      have live := books.live_of_find? (InOrder.settled free) found
      rw [lookup_of_find? found (books.live_pos live)] at looked
      cases looked
      exact inOrder.freed_of_live live
  · rintro a rest rfl may
    have steps := inOrder.steps may
    constructor
    · intro fault m' failed id
      have counted := steps.of_error failed
      constructor
      · rintro rfl
        cases counted
      · rintro rfl
        cases counted
    · intro after m' run key made
      exact inOrder.frees_iff (steps.of_ok run) made

/-- A release that saw one reference is overtaken by a lookup, so that it drops a reference and
frees nothing. The release of the other reference then takes the last one, and only that one
frees. -/
theorem conserves_of_overtaken_release :
    ∃ m, Interleaved .oneBucket ⟨0⟩ m
        (.evicting ⟨0⟩ ::ₘ .answered ⟨0⟩ false ::ₘ 0) ∧
      ((m.space ⟨0⟩).table.resource ⟨0⟩).refcount = 0 ∧
      Multiset.countP (Activity.frees ⟨0⟩ ·) (.evicting ⟨0⟩ ::ₘ .answered ⟨0⟩ false ::ₘ 0) = 1 := by
  let seeker : Activity := .seeking ⟨1, 2, 0, 0⟩ .plain true
  let creator : Activity := .creating ⟨1, 2, 0, 0⟩ .plain 0
  let announcer : Activity := .announcing ⟨0⟩ true 1
  let handle : Activity := .handle ⟨0⟩
  let releaser : Activity := .releasing ⟨0⟩
  let comparer : Activity := .comparing ⟨0⟩ 1
  let locker : Activity := .locking ⟨0⟩
  let evicter : Activity := .evicting ⟨0⟩
  let done : Activity := .answered ⟨0⟩ false
  obtain ⟨m₀, m₁, m₂, m₃, m₄, m₅, m₆, m₇, m₈, m₉, m₁₀, built, run₁, run₂, run₃, run₄, run₅, run₆,
      run₇, run₈, run₉, run₁₀, locks, made⟩ : ∃ m₀ m₁ m₂ m₃ m₄ m₅ m₆ m₇ m₈ m₉ m₁₀,
      Act.build .oneBucket {} = .ok (.ok ⟨0⟩) m₀ ∧
      seeker.advance ⟨0⟩ m₀ = .ok [creator] m₁ ∧ creator.advance ⟨0⟩ m₁ = .ok [announcer] m₂ ∧
      announcer.advance ⟨0⟩ m₂ = .ok [handle] m₃ ∧ releaser.advance ⟨0⟩ m₃ = .ok [comparer] m₄ ∧
      comparer.advance ⟨0⟩ m₄ = .ok [locker] m₅ ∧ seeker.advance ⟨0⟩ m₅ = .ok [handle] m₆ ∧
      locker.advance ⟨0⟩ m₆ = .ok [done] m₇ ∧ releaser.advance ⟨0⟩ m₇ = .ok [comparer] m₈ ∧
      comparer.advance ⟨0⟩ m₈ = .ok [locker] m₉ ∧ locker.advance ⟨0⟩ m₉ = .ok [evicter] m₁₀ ∧
      m₁₀.locks.toList = [] ∧ (m₁₀.space ⟨0⟩).table.resources.size = 1 :=
    ⟨_, _, _, _, _, _, _, _, _, _, _, rfl, rfl, rfl, rfl, rfl, rfl, rfl, rfl, rfl, rfl, rfl, rfl,
      rfl⟩
  have alone : ∀ (a : Activity) (t : Table), a.MayStep t 0 := by simp [Activity.MayStep]
  have beside : ∀ (a b : Activity) (t : Table), b.locked t = none → a.MayStep t (b ::ₘ 0) := by
    intro a b t free
    simp [Activity.MayStep, free]
  have calls : seeker.IsCall := trivial
  have held : Interleaved .oneBucket ⟨0⟩ m₃ (handle ::ₘ 0) :=
    ((((Interleaved.built built).call calls).step (alone seeker _) run₁).step (alone creator _)
      run₂).step (alone announcer _) run₃
  have locking : Interleaved .oneBucket ⟨0⟩ m₅ (locker ::ₘ 0) :=
    ((held.use (.release _)).step (alone releaser _) run₄).step (alone comparer _) run₅
  have revived : Interleaved .oneBucket ⟨0⟩ m₆ (locker ::ₘ handle ::ₘ 0) := by
    rw [Multiset.cons_swap]
    exact (locking.call calls).step (beside seeker locker _ rfl) run₆
  have kept : Interleaved .oneBucket ⟨0⟩ m₇ (handle ::ₘ done ::ₘ 0) := by
    rw [Multiset.cons_swap]
    exact revived.step (beside locker handle _ rfl) run₇
  have again : Interleaved .oneBucket ⟨0⟩ m₉ (locker ::ₘ done ::ₘ 0) :=
    ((kept.use (.release _)).step (beside releaser done _ rfl) run₈).step
      (beside comparer done _ rfl) run₉
  have last : Interleaved .oneBucket ⟨0⟩ m₁₀ (evicter ::ₘ done ::ₘ 0) :=
    again.step (beside locker done _ rfl) run₁₀
  obtain ⟨counted, -, freed, -⟩ := last.conserves
  have none : ((m₁₀.space ⟨0⟩).table.resource ⟨0⟩).refcount = 0 := by
    rw [counted, locks]
    rfl
  have once := freed ⟨0⟩ (by rw [made]; exact Nat.one_pos)
  rw [if_pos none] at once
  exact ⟨m₁₀, last, none, by simpa using once⟩

end Lockspace
