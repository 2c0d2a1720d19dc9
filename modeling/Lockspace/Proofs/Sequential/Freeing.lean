import Lockspace.Manager.Spaces
import Lockspace.Proofs.Sequential.LockCalls

namespace Lockspace

open Manager Act

variable {n k : SpaceKey} {m : Manager} {hands : Multiset ResourceKey} {holds : Nat} {l : LockKey}

namespace Orderly

/-- A namespace whose count is zero has no references at all, and no lock owns one. -/
theorem unreferenced (orderly : Orderly n m hands holds) (none : (m.space n).table.bref = 0) :
    hands = 0 ∧ holds = 0 ∧ ∀ l, (m.lock l).bound = .none := by
  have books := orderly.tallied
  have held := books.held
  rw [none] at held
  have empty : ∀ key, key ∉ hands + m.boundKeys n := by
    intro key member
    have entry := books.entered key (by simpa using member)
    rw [Table.occupied_eq_zero.mp (by omega)] at entry
    cases entry
  refine ⟨?_, by omega, fun l => ?_⟩
  · exact Multiset.eq_zero_of_forall_notMem fun key member =>
      empty key (Multiset.mem_add.mpr (Or.inl member))
  cases bound : (m.lock l).bound with
  | none => rfl
  | some r =>
    obtain ⟨space, key⟩ := r
    obtain rfl : space = n := orderly.spaces l _ bound
    exact absurd (Multiset.mem_add.mpr (Or.inr (mem_boundKeys bound))) (empty key)

end Orderly

namespace Act

/-- An owner that leaves a lock without a reference changes nothing that counts. -/
theorem ends_disown_of_unbound (unbound : (m.lock l).bound = none) :
    (disown l).Ends m (·.isDisorder = false) fun _ m' => Agrees n m m' := by
  unfold disown
  rw [ends_bind, ends_modifyLock]
  have left : Agrees n m (m.modifyLock l fun lk => { lk with owners := lk.owners - 1 }) :=
    agrees_modifyLock l rfl
  have still := (left.bound l).trans unbound
  generalize m.modifyLock l (fun lk => { lk with owners := lk.owners - 1 }) = m₁ at left still ⊢
  unfold dropIfUnheld
  rw [ends_bind, ends_get, ends_ite]
  split
  · unfold dropBound
    rw [ends_bind, ends_lock, still]
    exact ends_pure.mpr left
  · exact ends_pure.mpr left

theorem ends_finalizeUnused (unbound : ∀ l, (m.lock l).bound = none) :
    (finalizeUnused n).Ends m (·.isDisorder = false) fun _ m' => Agrees n m m' := by
  unfold finalizeUnused
  rw [ends_bind, ends_space]
  split
  rename_i locks lru _
  rw [ends_bind]
  have owned : (locks.forM own).Quiet n := quiet_forM fun l => quiet_own
  refine (owned m).imp fun _ m₁ first => ?_
  rw [ends_bind, ends_modifySpace]
  have second : Agrees n m₁ (m₁.modifySpace n fun s => { s with lru }) :=
    agrees_modifySpace n rfl
  refine ends_forM (first.trans second) fun l _ m₂ agrees => ?_
  have still := (agrees.bound l).trans (unbound l)
  exact (ends_disown_of_unbound still).imp fun _ m' after => agrees.trans after

theorem quiet_unregister : (unregister k).Quiet n := by
  unfold unregister
  refine quiet_space.bind fun s => (quiet_modify fun m => ?_).bind fun _ => ?_
  · split
    · exact ⟨rfl, fun _ => rfl⟩
    · exact .rfl
  · exact quiet_modifySpace fun _ => rfl

theorem quiet_retireStats : (retireStats k).Quiet n := by
  unfold retireStats
  refine quiet_space.bind fun s => (quiet_modify fun m => ?_).bind fun _ => ?_
  · exact ⟨rfl, fun _ => rfl⟩
  · exact quiet_modifySpace fun _ => rfl

theorem quiet_dropGate : dropGate.Quiet n := by
  unfold dropGate
  refine quiet_get.bind fun m => quiet_guard rfl fun _ => ?_
  refine (quiet_modify fun m => ?_).bind fun _ => quiet_pure _
  exact ⟨rfl, fun _ => rfl⟩

/-- The end of taking a namespace apart leaves namespaces and locks alone. -/
theorem quiet_uncount (left : Nat) : (do
    let s ← space k
    if left ≠ 0 then
      log .error ("Namespace " ++ s.name ++ " freed with " ++ toString left ++
        " resources still hashed")
    if s.link ≠ .detached then throw (.stillLinked s.name)
    discard dropGate : Act Unit).Quiet n := by
  refine quiet_space.bind fun s => ?_
  have last : ∀ u : PUnit, (do
      if s.link ≠ .detached then throw (.stillLinked s.name)
      discard dropGate : Act Unit).Quiet n :=
    fun _ => quiet_guard rfl fun _ => quiet_dropGate.discard
  show (if left ≠ 0 then log _ _ >>= _ else _ : Act Unit).Quiet n
  split
  · exact (quiet_log _ _).bind last
  · exact last ()

end Act

namespace Orderly

theorem ends_clearTable (orderly : Orderly n m 0 0) (unbound : ∀ l, (m.lock l).bound = none) :
    (clearTable n).Ends m (·.isDisorder = false) fun _ m' => Orderly n m' 0 0 := by
  have books := orderly.tallied
  rw [boundKeys_eq_zero unbound] at books
  obtain ⟨cleared, same⟩ := books.clear
  unfold clearTable
  rw [ends_bind, ends_space]
  split
  rename_i left t run
  rw [ends_bind, ends_setTable]
  refine ends_pure.mpr (orderly.alike ?_ (.of_resources ?_))
  · rw [boundKeys_eq_zero unbound]
    simpa [run] using cleared
  · simpa [run] using same

/-- A namespace that nobody references can be taken apart. -/
theorem ends_dismantle (orderly : Orderly n m 0 0) (unbound : ∀ l, (m.lock l).bound = none) :
    (dismantle n).Ends m (·.isDisorder = false) fun _ m' => Orderly n m' 0 0 := by
  unfold dismantle
  rw [ends_bind]
  refine (quiet_unregister (n := n) m).imp fun _ m₁ first => ?_
  rw [ends_bind]
  refine (ends_finalizeUnused fun l => (first.bound l).trans (unbound l)).imp fun _ m₂ second => ?_
  rw [ends_bind]
  refine (quiet_retireStats (n := n) m₂).imp fun _ m₃ third => ?_
  have agrees := (first.trans second).trans third
  rw [ends_bind]
  refine ((orderly.agrees agrees).ends_clearTable fun l => (agrees.bound l).trans (unbound l)).imp
    fun left m₄ after => ?_
  exact (quiet_uncount left).tidy m₄ 0 0 after

end Orderly

namespace Act

/-- A namespace is only freed when nobody references it. -/
theorem tidy_freePost : (freePost n).Tidy n := by
  intro m hands holds orderly
  unfold freePost
  rw [ends_bind, ends_space]
  split
  · rw [ends_bind]
    exact (quiet_log (n := n) _ _ m).imp fun _ m' agrees => ends_pure.mpr (orderly.agrees agrees)
  · rename_i unused
    obtain ⟨rfl, rfl, unbound⟩ := orderly.unreferenced (by simpa using unused)
    rw [ends_bind]
    have claimed : (claimFreed n).Quiet n := by
      refine quiet_space.bind fun s => (quiet_modifySpace ?_).bind fun _ => quiet_pure _
      exact fun _ => rfl
    -- From here on there are no references and no holds, so the table may be cleared.
    refine (claimed m).imp fun already m₁ agrees => ?_
    have still := orderly.agrees agrees
    cases already with
    | true =>
      simp only [if_true, ends_bind]
      exact (quiet_log (n := n) _ _ m₁).imp fun _ m' after => ends_pure.mpr (still.agrees after)
    | false =>
      simp only [Bool.false_eq_true, if_false, ends_bind]
      refine (still.ends_dismantle fun l => (agrees.bound l).trans (unbound l)).imp
        fun _ m' after => ends_pure.mpr after

end Act

end Lockspace
