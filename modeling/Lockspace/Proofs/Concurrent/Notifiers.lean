import Lockspace.Proofs.Migration.Lockless
import Lockspace.Proofs.Quiescence.Waking
import Lockspace.Proofs.ResourceRuns

namespace Lockspace

open Manager Act

namespace Table

variable {t t' : Table} {key : ResourceKey}

/-- A resource that leaves takes a reference of the table with it exactly if it empties its
bucket. -/
theorem evict_cases {answer : Release} (run : t.evict key = (t', .ok answer)) :
    answer = .freed false t'.bref ∧ t'.bref = t.bref ∨
      answer = .freed true t'.bref ∧ t.bref = t'.bref + 1 := by
  simp only [evict] at run
  split at run
  · cases run
  split at run
  · cases run
  split at run
  · cases run
    exact Or.inl ⟨rfl, rfl⟩
  split at run
  · cases run
  · rename_i used
    cases run
    exact Or.inr ⟨rfl, (Nat.succ_pred_eq_of_ne_zero used).symm⟩

end Table

namespace Activity

/-- Whether an activity has still to signal that it took the count of its namespace to zero. -/
def isNotifier : Activity → Bool
  | signalling => true
  | telling _ bucketEmptied bref => bucketEmptied && bref == 0
  | _ => false

/-- Whether the next step of an activity may lower the count of its namespace. -/
def lowers : Activity → Bool
  | evicting _ | yielding => true
  | _ => false

end Activity

namespace Act

variable {α β : Type} {P : α → Prop} {Q : β → Prop}

/-- Every answer of an action has a property. -/
def Gives (P : α → Prop) (act : Act α) : Prop :=
  ∀ m a m', act m = .ok a m' → P a

theorem gives_pure {a : α} (holds : P a) : (pure a : Act α).Gives P := by
  rintro m _ _ ⟨⟩
  exact holds

theorem gives_bind {act : Act α} {next : α → Act β} (last : ∀ a, (next a).Gives Q) :
    (act >>= next).Gives Q := by
  intro m b m' run
  obtain ⟨a, m₁, _, after⟩ := ok_of_bind run
  exact last a m₁ b m' after

theorem gives_guard {condition : Prop} [Decidable condition] {fault : Fault}
    {next : PUnit → Act β} (pass : (next ()).Gives Q) :
    (if condition then throw fault >>= next else next ()).Gives Q := by
  split
  · exact gives_bind fun _ => pass
  · exact pass

end Act

namespace Activity

variable {n : SpaceKey} {a : Activity} {after : List Activity} {m m' : Manager}

theorem gives_compare (key : ResourceKey) (seen : Nat) :
    (compare n key seen).Gives fun after => ∀ b ∈ after, b.isNotifier = false := by
  unfold compare
  split
  · exact gives_pure (by simp [isNotifier])
  · refine gives_bind fun left => ?_
    cases left with
    | none => exact gives_pure (by simp [isNotifier])
    | some actual => exact gives_pure (by simp [isNotifier])

/-- Only what lowers a count has to signal it. -/
theorem gives_advance (other : a.lowers = false) :
    (a.advance n).Gives fun after => ∀ b ∈ after, b.isNotifier = false := by
  cases a with
  | seeking id rtype create =>
    simp only [advance]
    refine gives_guard ?_
    refine gives_bind fun s => gives_bind fun found => ?_
    cases found with
    | found key => exact gives_pure (by simp [isNotifier])
    | missing seen => cases create <;> exact gives_pure (by simp [isNotifier])
  | creating id rtype seen =>
    refine gives_bind fun s => gives_bind fun candidate => gives_bind fun done => ?_
    cases done with
    | inserted key first bref => exact gives_pure (by simp [isNotifier])
    | raceLost winner => exact gives_pure (by simp [isNotifier])
  | announcing key first bref => exact gives_bind fun _ => gives_pure (by simp [isNotifier])
  | cloning key => exact gives_bind fun _ => gives_pure (by simp [isNotifier])
  | releasing key => exact gives_bind fun _ => gives_pure (by simp [isNotifier])
  | comparing key seen =>
    rw [advance_comparing]
    split
    · exact gives_bind fun _ => gives_bind fun _ => gives_compare key seen
    · exact gives_compare key seen
  | locking key =>
    refine gives_bind fun last => gives_pure ?_
    split <;> simp [isNotifier]
  | telling key emptied bref => exact gives_bind fun _ => gives_pure (by simp [isNotifier])
  | listing todo found =>
    cases todo with
    | nil => exact gives_pure (by simp [isNotifier])
    | cons b rest => exact gives_bind fun _ => gives_pure (by simp [isNotifier])
  | binding l key => exact gives_bind fun old => gives_pure (by simp [isNotifier])
  | unbinding l => exact gives_bind fun old => gives_pure (by simp [isNotifier])
  | destroying l =>
    refine gives_bind fun first => gives_pure ?_
    split <;> simp [isNotifier]
  | reaping l => exact gives_bind fun _ => gives_pure (by simp [isNotifier])
  | forgetting l => exact gives_bind fun old => gives_pure (by simp [isNotifier])
  | claiming => exact gives_bind fun _ => gives_pure (by simp [isNotifier])
  | signalling => exact gives_bind fun _ => gives_pure (by simp)
  | handle key => exact gives_pure (by simp [isNotifier])
  | hold => exact gives_pure (by simp [isNotifier])
  | answered key freed => exact gives_pure (by simp [isNotifier])
  | evicting key => cases other
  | yielding => cases other

theorem wakes_compare (key : ResourceKey) (seen : Nat) :
    (compare n key seen).Preserves Wakes := by
  have exchanges : (Act.exchange ⟨n, key⟩ seen).Preserves Wakes := by
    refine fun m => leaves_after (run_space n m) ?_
    by_cases same : ((m.space n).table.resource key).refcount = seen
    · simp only [Table.exchange?, if_pos same]
      exact Wakes.setTable le_rfl
    · simp only [Table.exchange?, if_neg same]
      exact refl_of Wakes m
  unfold compare
  split
  · exact preserves_pure _
  · refine exchanges.bind fun left => ?_
    cases left <;> exact preserves_pure _

/-- A step that does not lower the count leaves no namespace without a reference that had one,
unless it signals that. -/
theorem wakes_advance (other : a.lowers = false) : (a.advance n).Preserves Wakes := by
  have unbinds (l : LockKey) : (unbind l).Preserves Wakes := wakes_drops.unbind l
  cases a with
  | seeking id rtype create =>
    simp only [advance]
    refine preserves_guard fun _ => preserves_space.bind fun s => Preserves.bind ?_ fun found => ?_
    · exact wakes_step (·.lookup _ id) fun _ _ _ run => (Table.recounted_of_lookup run).bref.ge
    · cases found <;> exact preserves_pure _
  | creating id rtype seen =>
    refine preserves_space.bind fun s => Preserves.bind ?_ fun candidate =>
      Preserves.bind ?_ fun done => ?_
    · exact preserves_space.bind fun _ => preserves_pure _
    · exact wakes_step (·.insert _ candidate seen) fun _ _ _ => Table.le_bref_of_insert
    · cases done <;> exact preserves_pure _
  | announcing key first bref =>
    refine Preserves.bind ?_ fun _ => preserves_pure _
    exact preserves_announce wakes_emit (wakes_moveTo _ _) first bref
  | cloning key => exact wakes_retain.bind fun _ => preserves_pure _
  | releasing key => exact preserves_resource.bind fun _ => preserves_pure _
  | comparing key seen =>
    rw [advance_comparing]
    split
    · exact preserves_resource.bind fun _ => (preserves_throw _).bind fun _ => wakes_compare key seen
    · exact wakes_compare key seen
  | locking key =>
    refine Preserves.bind (fun m => ?_) fun last => preserves_pure _
    exact leaves_after (run_space n m) (Wakes.setTable le_rfl)
  | telling key emptied bref =>
    refine Preserves.bind ?_ fun _ => preserves_pure _
    exact preserves_afterRelease wakes_emit wakes_signal _
  | listing todo found =>
    cases todo with
    | nil => exact preserves_pure _
    | cons b rest =>
      refine Preserves.bind ?_ fun _ => preserves_pure _
      exact wakes_step (·.snapshotBucket b) fun t keys t' run =>
        (Table.snapshotBucket_cases run).2.bref.ge
  | binding l key =>
    refine Preserves.bind ?_ fun old => preserves_pure _
    exact (wakes_modifyLock _).bind fun _ => preserves_lock.bind fun _ =>
      (wakes_modifyLock _).bind fun _ => preserves_pure _
  | unbinding l => exact (unbinds l).bind fun old => preserves_pure _
  | destroying l => exact (wakes_locks.unlinkAndMark l).bind fun _ => preserves_pure _
  | reaping l => exact (wakes_drops.lockReused n l).discard.bind fun _ => preserves_pure _
  | forgetting l => exact (unbinds l).bind fun old => preserves_pure _
  | claiming => exact wakes_takeHold.discard.bind fun _ => preserves_pure _
  | signalling => exact wakes_signal.bind fun _ => preserves_pure _
  | handle key => exact preserves_pure _
  | hold => exact preserves_pure _
  | answered key freed => exact preserves_pure _
  | evicting key => cases other
  | yielding => cases other

theorem not_notifier_of_lowers (lowers : a.lowers) : a.isNotifier = false := by
  cases a with
  | evicting key => rfl
  | yielding => rfl
  | _ => cases lowers

/-- A notifier waits for no bucket. -/
theorem awaits_of_notifier (notifier : a.isNotifier) (t : Table) : a.awaits t = none := by
  cases a with
  | signalling => rfl
  | telling key emptied bref => rfl
  | _ => cases notifier

/-- A notifier always comes to its signal. -/
theorem exists_advance_of_notifier (notifier : a.isNotifier) (m : Manager) : ∃ after m',
    a.advance n m = .ok after m' ∧ (m.space n).signals < (m'.space n).signals := by
  have signalled : ((m.modifySpace n fun s => { s with signals := s.signals + 1 }).space n).signals =
      (m.space n).signals + 1 := congrArg Namespace.signals (Store.get_set_self ..)
  cases a with
  | signalling => exact ⟨[], _, rfl, by rw [signalled]; exact Nat.lt_succ_self _⟩
  | telling key emptied bref =>
    simp only [isNotifier, Bool.and_eq_true, beq_iff_eq] at notifier
    obtain ⟨rfl, rfl⟩ := notifier
    refine ⟨_, m.freed ⟨n, key⟩ true 0, rfl, ?_⟩
    show _ < ((m.modifySpace n fun s => { s with signals := s.signals + 1 }).space n).signals
    rw [signalled]
    exact Nat.lt_succ_self _
  | _ => cases notifier

/-- A step that lowers the count signals nothing yet. It took the count to zero exactly if somebody
has now to signal that. -/
theorem notifies_of_lowers (lowers : a.lowers) (run : a.advance n m = .ok after m') :
    (m'.space n).signals = (m.space n).signals ∧
      ((∃ b ∈ after, b.isNotifier) ↔ (m.space n).table.bref ≠ 0 ∧ (m'.space n).table.bref = 0) := by
  have changed (t : Table) : ((m.setTable n t).space n).signals = (m.space n).signals ∧
      ((m.setTable n t).space n).table.bref = t.bref := by
    rw [Manager.setTable, space_modifySpace, if_pos rfl]
    exact ⟨rfl, rfl⟩
  cases a with
  | evicting key =>
    obtain ⟨answer, m₁, evicts, run⟩ := ok_of_bind run
    cases gone : (m.space n).table.evict key with
    | mk t left =>
      unfold Act.evict at evicts
      rw [run_bind (run_space n m)] at evicts
      simp only [gone] at evicts
      cases left with
      | error fault => cases evicts
      | ok answer =>
        cases evicts
        obtain ⟨signals, bref⟩ := changed t
        rcases Table.evict_cases gone with ⟨rfl, same⟩ | ⟨rfl, less⟩
        · cases run
          refine ⟨signals, ?_⟩
          rw [bref, same]
          simp [isNotifier]
        · cases run
          refine ⟨signals, ?_⟩
          rw [bref, less]
          simp [isNotifier]
  | yielding =>
    obtain ⟨count, m₁, drops, run⟩ := ok_of_bind run
    unfold dropHoldCount at drops
    rw [run_bind (run_space n m)] at drops
    by_cases none : (m.space n).table.bref = 0
    · simp only [Table.dropHold?, if_pos none] at drops
      cases drops
    · simp only [Table.dropHold?, if_neg none] at drops
      cases drops
      cases run
      obtain ⟨signals, bref⟩ :=
        changed { (m.space n).table with bref := (m.space n).table.bref - 1 }
      refine ⟨signals, ?_⟩
      rw [bref]
      by_cases last : (m.space n).table.bref - 1 = 0
      · simp [isNotifier, last, none]
      · simp [last]
  | _ => cases lowers

end Activity

end Lockspace
