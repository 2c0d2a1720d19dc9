import Lockspace.Proofs.Queueing.Drops
import Lockspace.Proofs.Rolls.RollCalls
import Lockspace.Proofs.Sequential.Freeing

namespace Lockspace

open Manager Act

namespace Manager

namespace BookedIn

variable {covered : SpaceKey → Prop} {m m' : Manager} {hands : Multiset ResourceRef}
  {holds : SpaceKey → Nat} {n : SpaceKey} {l : LockKey} {r : ResourceRef}

/-- In a namespace whose count is zero there are no references and no holds, and its table is
empty. -/
theorem unreferenced (booked : BookedIn covered m hands holds) (known : covered n)
    (none : (m.space n).table.bref = 0) :
    refKeys (hands + m.boundRefs) n = 0 ∧ holds n = 0 ∧
      ∀ b, ((m.space n).table.bucket b).entries = [] := by
  have books := booked.tallied n known
  have held := books.held
  rw [none] at held
  have empty := Table.occupied_eq_zero.mp (show (m.space n).table.occupied = 0 by omega)
  refine ⟨Multiset.eq_zero_of_forall_notMem fun key member => ?_, by omega, empty⟩
  have entry := books.entered key (by simpa using member)
  rw [empty] at entry
  cases entry

/-- No resource of such a namespace is referenced, and none has locks. -/
theorem released (booked : BookedIn covered m hands holds) (known : covered r.space)
    (none : (m.space r.space).table.bref = 0) :
    (m.resource r).refcount = 0 ∧ (m.resource r).queued = 0 := by
  have gone : (m.resource r).refcount = 0 := by
    have count := (booked.tallied r.space known).counted r.key
    rw [(booked.unreferenced known none).1] at count
    exact count
  exact ⟨gone, not_not.mp fun queued => booked.alive r queued gone⟩

theorem size_eq_zero (booked : BookedIn covered m hands holds) (known : covered n)
    (none : (m.space n).table.bref = 0) : (m.space n).table.size = 0 :=
  Table.size_eq_zero.mpr (booked.unreferenced known none).2.2

/-- No lock owns a reference on a resource of such a namespace. -/
theorem elsewhere (booked : BookedIn covered m hands holds) (known : covered n)
    (none : (m.space n).table.bref = 0) (bound : (m.lock l).bound = some r) : r.space ≠ n := by
  rintro rfl
  have member : r.key ∈ refKeys (hands + m.boundRefs) r.space :=
    mem_refKeys.mpr (Multiset.mem_add.mpr (Or.inr (mem_boundRefs.mpr ⟨l, bound⟩)))
  rw [(booked.unreferenced known none).1] at member
  exact Multiset.notMem_zero _ member

theorem ends_takeHold (booked : BookedIn covered m hands holds) (known : covered n) :
    (takeHold n).Ends m (fun _ => False) fun _ m' =>
      BookedIn covered m' hands (Function.update holds n (holds n + 1)) := by
  unfold takeHold
  simp only [ends_bind, ends_modifySpace, ends_space, ends_pure]
  refine booked.retable ?_ (fun _ _ => rfl) known (fun key => booked.alive ⟨n, key⟩)
    fun k other => ?_
  · rw [Function.update_self]
    exact (booked.tallied n known).takeHold
  · exact Function.update_of_ne other _ _

theorem ends_dropHold (booked : BookedIn covered m hands holds) (known : covered n)
    (held : 0 < holds n) : (dropHold n).Ends m (fun _ => False) fun _ m' =>
      BookedIn covered m' hands (Function.update holds n (holds n - 1)) := by
  have books := booked.tallied n known
  rw [← Nat.sub_add_cancel held] at books
  have fewer : BookedIn covered (m.setTable n
      { (m.space n).table with bref := (m.space n).table.bref - 1 }) hands
      (Function.update holds n (holds n - 1)) := by
    refine booked.retable ?_ (fun _ _ => rfl) known (fun key => booked.alive ⟨n, key⟩)
      fun k other => ?_
    · rw [Function.update_self]
      exact books.dropHold
    · exact Function.update_of_ne other _ _
  unfold dropHold dropHoldCount
  simp only [ends_bind, ends_space, books.dropHold?, ends_setTable, ends_pure]
  show (if _ then signal n >>= _ else _ : Act Nat).Ends _ _ _
  split
  · rw [ends_bind, signal, ends_modifySpace]
    refine ends_pure.mpr (fewer.agrees fun k => agrees_modifySpace n ?_)
    rfl
  · exact ends_pure.mpr fewer

/-- The unused locks of a namespace can be let go of, unless one of them owns a reference with which
the last one on a resource with locks would go. -/
theorem ends_finalizeUnused (booked : BookedIn covered m hands holds) (n : SpaceKey) :
    (finalizeUnused n).Ends m
      (fun fault => (∃ l ∈ (m.space n).lru.toList, (m.lock l).bound ≠ none) ∧ m.Jams fault)
      fun _ m' => BookedIn covered m' hands holds := by
  have owns : ∀ l ∈ (m.space n).lru.toList, ∀ m₁, BookedIn covered m₁ hands holds ∧ Shed m m₁ →
      (own l).Ends m₁
        (fun fault => (∃ l ∈ (m.space n).lru.toList, (m.lock l).bound ≠ none) ∧ m.Jams fault)
        fun _ m' => BookedIn covered m' hands holds ∧ Shed m m' := by
    rintro l - m₁ ⟨books, shed⟩
    exact ends_modifyLock.mpr ⟨books.relock rfl, shed.trans ((shed_drops.own l m₁).of_ok rfl)⟩
  have disowns : ∀ l ∈ (m.space n).lru.toList, ∀ m₁,
      BookedIn covered m₁ hands holds ∧ Shed m m₁ → (disown l).Ends m₁
        (fun fault => (∃ l ∈ (m.space n).lru.toList, (m.lock l).bound ≠ none) ∧ m.Jams fault)
        fun _ m' => BookedIn covered m' hands holds ∧ Shed m m' := by
    rintro l member m₁ ⟨books, shed⟩
    refine (books.ends_disown.and_leaves (shed_drops.disown l m₁)).mono (fun fault failed => ?_)
      fun _ _ after => ⟨after.1, shed.trans after.2⟩
    exact ⟨⟨l, member, shed.bound_ne_none failed.1⟩, shed.jams failed.2⟩
  unfold finalizeUnused
  rw [ends_bind, ends_space]
  show (((m.space n).lru.toList).forM own >>= _ : Act Unit).Ends m _ _
  rw [ends_bind]
  refine (ends_forM ⟨booked, .rfl⟩ owns).imp fun _ m₁ owned => ?_
  rw [ends_bind, ends_modifySpace]
  have kept := owned.1.agrees fun k => agrees_modifySpace (n := k) n
    (f := fun s => { s with lru := (m.space n).lru.finalize.2 }) rfl
  exact (ends_forM ⟨kept, owned.2.trans (.of_table .rfl)⟩ disowns).imp fun _ _ after => after.1

/-- A table without references and holds is cleared of nothing. -/
theorem ends_clearTable (booked : BookedIn covered m hands holds) (known : covered n)
    (none : refKeys (hands + m.boundRefs) n = 0) :
    (clearTable n).Ends m (fun _ => False) fun _ m' => BookedIn covered m' hands holds := by
  have books := booked.tallied n known
  rw [none] at books
  obtain ⟨cleared, same⟩ := books.clear
  unfold clearTable
  rw [ends_bind, ends_space, ends_bind, ends_setTable]
  refine ends_pure.mpr (booked.retable ?_ (fun _ _ => rfl) known fun key => ?_)
  · rw [none]
    exact cleared
  · rw [Table.resource, same]
    exact booked.alive ⟨n, key⟩

/-- A namespace whose count is zero can be taken apart, unless that drops the last reference on a
resource with locks of another namespace. -/
theorem ends_dismantle (booked : BookedIn covered m hands holds) (known : covered n)
    (none : (m.space n).table.bref = 0) (listed : m.Listed) (counted : m.registry.alive ≠ 0) :
    (dismantle n).Ends m
      (fun fault => (∃ l ∈ (m.space n).lru.toList, (m.lock l).bound ≠ .none) ∧ m.Jams fault)
      fun _ m' => BookedIn covered m' hands holds := by
  obtain ⟨lists, run, anew⟩ := run_unregister (n := n) listed
  have agrees := (Quiet.ends_all fun k => quiet_unregister (n := k)).of_ok run
  have lru : ((m.relist n lists .detached).space n).lru = (m.space n).lru := by
    rw [space_relist, if_pos rfl]
  have shed : Shed m (m.relist n lists .detached) :=
    .of_tables rfl fun k => (agrees k).table ▸ .rfl
  have alive : (m.relist n lists .detached).registry.alive = m.registry.alive := alive_relist
  have books := booked.agrees agrees
  unfold dismantle
  rw [ends_bind]
  refine ends_of_run run ?_
  generalize m.relist n lists .detached = m₁ at anew lru shed alive books
  rw [ends_bind]
  refine (((books.ends_finalizeUnused n).and_leaves (shed_drops.finalizeUnused n m₁)).and_leaves
    (sameRoll_finalizeUnused m₁)).mono (fun fault failed => ?_) fun _ m₂ after => ?_
  · obtain ⟨⟨l, member, bound⟩, jams⟩ := failed
    exact ⟨⟨l, lru ▸ member, shed.bound_ne_none bound⟩, shed.jams jams⟩
  obtain ⟨⟨books, dropped⟩, same⟩ := after
  -- References only went, so there still are none on resources of the namespace.
  have none : refKeys (hands + m₂.boundRefs) n = 0 := by
    refine Multiset.eq_zero_of_forall_notMem fun key member => ?_
    rcases Multiset.mem_add.mp (mem_refKeys.mp member) with inHands | inLocks
    · have before : key ∈ refKeys (hands + m.boundRefs) n :=
        mem_refKeys.mpr (Multiset.mem_add.mpr (Or.inl inHands))
      rw [(booked.unreferenced known none).1] at before
      exact Multiset.notMem_zero _ before
    · obtain ⟨l, bound⟩ := mem_boundRefs.mp inLocks
      exact booked.elsewhere known none ((shed.trans dropped).bound l _ bound) rfl
  obtain ⟨m₃, retired, still⟩ := run_retireStats m₂ n
  have agrees := (Quiet.ends_all fun k => quiet_retireStats (n := k)).of_ok retired
  rw [ends_bind]
  refine ends_of_run retired ?_
  have kept : refKeys (hands + m₃.boundRefs) n = 0 := by
    rw [boundRefs_congr (agrees n).bound]
    exact none
  rw [ends_bind]
  refine (((books.agrees agrees).ends_clearTable known kept).and_leaves
    (sameRoll_clearTable m₃)).mono nofun fun left m₄ cleared => ?_
  obtain ⟨books, last⟩ := cleared
  replace same := (same.trans still).trans last
  have off : (m₄.space n).link = .detached := by
    rw [same.link, anew.link, if_pos rfl]
  have remains : m₄.registry.alive ≠ 0 := by
    rw [same.registry, alive]
    exact counted
  obtain ⟨m', -, uncounted⟩ := run_uncount off remains left
  refine ends_of_run uncounted (books.agrees fun k => ?_)
  exact (quiet_uncount left m₄).of_ok uncounted

/-- To free a namespace succeeds exactly if its count is zero and it is not freed yet, unless that
drops the last reference on a resource with locks. -/
theorem ends_freePost (booked : BookedIn covered m hands holds) (known : covered n)
    (listed : m.Listed) (counted : (m.space n).freed = false → m.registry.alive ≠ 0) :
    (freePost n).Ends m
      (fun fault => (∃ l ∈ (m.space n).lru.toList, (m.lock l).bound ≠ .none) ∧ m.Jams fault)
      fun freed m' => BookedIn covered m' hands holds ∧
        (freed = true ↔ (m.space n).table.bref = 0 ∧ (m.space n).freed = false) := by
  unfold freePost
  rw [ends_bind, ends_space]
  split
  · rename_i used
    rw [ends_bind, ends_log, ends_pure]
    exact ⟨booked.same (fun _ => rfl) rfl, by simp [used]⟩
  rename_i unused
  have none : (m.space n).table.bref = 0 := not_not.mp unused
  unfold claimFreed
  simp only [ends_bind, ends_space, ends_modifySpace, ends_pure]
  have agrees : ∀ k, Agrees k m (m.modifySpace n fun s => { s with freed := true }) :=
    fun k => agrees_modifySpace n rfl
  have books := booked.agrees agrees
  have claimed := (reentered_claimed (m := m) (n := n)).listed listed
  have lru : ((m.modifySpace n fun s => { s with freed := true }).space n).lru =
      (m.space n).lru := view_modifySpace (·.lru) rfl n
  have shed : Shed m (m.modifySpace n fun s => { s with freed := true }) := .of_table .rfl
  rw [← (agrees n).table] at none
  cases already : (m.space n).freed with
  | true =>
    simp only [if_true, ends_bind, ends_log, ends_pure]
    exact ⟨books.same (fun _ => rfl) rfl, by simp⟩
  | false =>
    simp only [Bool.false_eq_true, if_false, ends_bind]
    refine (books.ends_dismantle known none claimed (counted already)).mono (fun fault failed => ?_)
      fun _ m' after => ends_pure.mpr ⟨after, by simpa using not_not.mp unused⟩
    obtain ⟨⟨l, member, bound⟩, jams⟩ := failed
    exact ⟨⟨l, lru ▸ member, shed.bound_ne_none bound⟩, shed.jams jams⟩

end BookedIn

end Manager

end Lockspace
