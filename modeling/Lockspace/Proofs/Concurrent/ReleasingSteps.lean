import Lockspace.Proofs.Concurrent.TakingSteps

namespace Lockspace

open Manager Table

namespace InOrder

variable {n : SpaceKey} {m : Manager} {a : Activity} {rest : Multiset Activity} {id : ResourceId}
  {rtype : ResourceType} {key : ResourceKey} {l : LockKey} {b : BucketKey}

/-- What a release is about has a reference. -/
theorem pos_of_hands (inOrder : InOrder n m (a ::ₘ rest)) (hands : a.hands = {key}) :
    0 < ((m.space n).table.resource key).refcount := by
  refine inOrder.books.live_pos ?_
  rw [hands]
  exact Multiset.mem_cons_self key _

theorem steps_releasing (inOrder : InOrder n m (.releasing key ::ₘ rest)) :
    Steps n m (.releasing key) rest := by
  have positive := inOrder.pos_of_hands rfl
  unfold Steps
  simp only [Activity.advance, Act.ends_bind, Act.ends_resource, Act.ends_pure]
  refine inOrder.keeps Agrees.rfl.keeps rfl rfl rfl ?_ ?_
  · intro b made
    obtain rfl := List.mem_singleton.mp made
    exact Nat.ne_of_gt positive
  · simp [Activity.frees]

theorem steps_comparing {seen : Nat} (inOrder : InOrder n m (.comparing key seen ::ₘ rest)) :
    Steps n m (.comparing key seen) rest := by
  have some : seen ≠ 0 := inOrder.fits _ (Multiset.mem_cons_self _ _)
  have positive := inOrder.pos_of_hands rfl
  unfold Steps
  simp only [Activity.advance, Act.exchange, Act.ends_bind, Act.ends_ite, Act.ends_space,
    if_neg some, Act.ends_pure]
  split
  · refine inOrder.keeps Agrees.rfl.keeps rfl rfl rfl ?_ ?_
    · simp [Activity.Fits]
    · simp [Activity.frees]
  · rename_i shared
    by_cases same : ((m.space n).table.resource key).refcount = seen
    · simp only [exchange?_of_eq same, Act.ends_bind, Act.ends_setTable, Act.ends_pure]
      subst same
      refine inOrder.dereference shared rfl rfl rfl ?_ ?_
      · simp [Activity.Fits]
      · simp [Activity.frees]
    -- The count has changed since it was read: the release reads it again.
    · simp only [exchange?, if_neg same, Act.ends_pure]
      refine inOrder.keeps Agrees.rfl.keeps rfl rfl rfl ?_ ?_
      · intro b made
        obtain rfl := List.mem_singleton.mp made
        exact Nat.ne_of_gt positive
      · simp [Activity.frees]

theorem steps_locking (inOrder : InOrder n m (.locking key ::ₘ rest)) :
    Steps n m (.locking key) rest := by
  have books := inOrder.books
  have known := known_of_pos (inOrder.pos_of_hands rfl)
  unfold Steps
  simp only [Activity.advance, Act.dropLocked, dropLocked_eq, Act.ends_bind, Act.ends_space,
    Act.ends_setTable, Act.ends_pure]
  by_cases last : ((m.space n).table.resource key).refcount = 1
  · rw [beq_iff_eq.mpr last]
    refine inOrder.retable ?_ (sameEntries_recount known _).onward ?_ ?_
    · have dropped := Tallied.drop_last books last
      simpa [handsOf, leavingOf, holdsOf, Activity.hands, Activity.leaving, Activity.holds] using
        dropped
    · simp [Activity.Fits]
    · intro k
      simp only [unreferenced, (sameEntries_recount known _).size, resource_recount]
      by_cases same : k = key
      · subst same
        simp [Activity.frees, last, known]
      · simp [Activity.frees, same, Ne.symm same]
  -- A lookup has taken a reference before the bucket was locked, and so keeps the resource.
  · rw [beq_eq_false_iff_ne.mpr last]
    refine inOrder.dereference last rfl rfl rfl ?_ ?_
    · simp [Activity.Fits]
    · simp [Activity.frees]

theorem steps_evicting (inOrder : InOrder n m (.evicting key ::ₘ rest)) :
    Steps n m (.evicting key) rest := by
  have books := inOrder.books
  unfold Steps
  simp only [Activity.advance, Act.evict, Act.ends_bind, Act.ends_space, Act.ends_setTable,
    Act.ends_ofExcept]
  by_cases unused : ((m.space n).table.resource key).queued = 0
  · obtain ⟨emptied, evicted⟩ := Tallied.evict books unused
    simp only [evicted, Act.ends_pure]
    have inside := books.bucket_lt (show key ∈ _ from by simp [Activity.leaving])
    refine inOrder.retable ?_ (onward_strike inside) ?_ ?_
    · have struck := Tallied.strike books
      simpa [handsOf, leavingOf, holdsOf, Activity.hands, Activity.leaving, Activity.holds] using
        struck
    · simp [Activity.Fits]
    · intro k
      have same : ((m.space n).table.strike key).unreferenced k =
          (m.space n).table.unreferenced k := rfl
      rw [same, Nat.add_comm]
      simp [Activity.frees]
  · rw [evict_of_queued unused]
    rfl

theorem steps_telling {emptied : Bool} {bref : Nat}
    (inOrder : InOrder n m (.telling key emptied bref ::ₘ rest)) :
    Steps n m (.telling key emptied bref) rest := by
  unfold Steps
  simp only [Activity.advance, Act.ends_bind, Act.ends_pure]
  refine (Act.ends_afterRelease (n := n)).mono (fun _ => Fault.not_isMiscount_of_not_isDisorder) ?_
  rintro _ m' ⟨rfl, agrees⟩
  refine inOrder.keeps agrees.keeps rfl rfl rfl ?_ ?_
  · simp [Activity.Fits]
  · simp [Activity.frees]

theorem steps_claiming (inOrder : InOrder n m (.claiming ::ₘ rest)) : Steps n m .claiming rest := by
  have taken := Tallied.takeHold inOrder.books
  unfold Steps
  simp only [Activity.advance, Act.takeHold, Act.ends_bind, Act.ends_discard, Act.ends_modifySpace,
    Act.ends_space, Act.ends_pure]
  refine inOrder.retable (t := (m.space n).table.takeHold) ?_
    ⟨le_rfl, fun _ => rfl, fun _ => Or.inl rfl⟩ ?_ ?_
  · simpa [handsOf, leavingOf, holdsOf, Activity.hands, Activity.leaving, Activity.holds,
      add_comm] using taken
  · simp [Activity.Fits]
  · intro k
    rw [Nat.add_comm]
    rfl

theorem steps_yielding (inOrder : InOrder n m (.yielding ::ₘ rest)) : Steps n m .yielding rest := by
  have books := inOrder.books
  rw [show Activity.yielding.holds = 1 from rfl, Nat.add_comm] at books
  have dropped := Tallied.dropHold books
  unfold Steps
  simp only [Activity.advance, Act.dropHoldCount, Tallied.dropHold? books, Act.ends_bind,
    Act.ends_space, Act.ends_setTable, Act.ends_pure]
  have settle : ∀ after : List Activity, handsOf ↑after = 0 → leavingOf ↑after = 0 →
      holdsOf ↑after = 0 → (∀ b ∈ after, ∀ t, b.Fits t) → (∀ k, after.countP (·.frees k) = 0) →
      Leads n m (m.setTable n { (m.space n).table with bref := (m.space n).table.bref - 1 })
        (↑after + rest) := by
    intro after hands leaving holds fits frees
    refine inOrder.retable ?_ ⟨le_rfl, fun _ => rfl, fun _ => Or.inl rfl⟩
      (fun b new => fits b new _) ?_
    · rw [hands, leaving, holds, zero_add, zero_add, zero_add]
      simpa [Activity.hands, Activity.leaving] using dropped
    · intro k
      rw [frees, Nat.add_comm]
      rfl
  split
  · exact settle _ rfl rfl rfl (by simp [Activity.Fits]) (by simp [Activity.frees])
  · exact settle _ rfl rfl rfl (by simp) (by simp)

theorem steps_signalling (inOrder : InOrder n m (.signalling ::ₘ rest)) :
    Steps n m .signalling rest := by
  unfold Steps
  simp only [Activity.advance, Act.ends_bind, Act.ends_pure]
  refine (Act.quiet_signal (n := n)).ends
    (fun _ => Fault.not_isMiscount_of_not_isDisorder) fun _ m' agrees => ?_
  exact inOrder.keeps agrees.keeps rfl rfl rfl (by simp) (by simp [Activity.frees])

end InOrder

end Lockspace
