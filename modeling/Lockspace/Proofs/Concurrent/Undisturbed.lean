import Lockspace.Proofs.Concurrent.Interleaving
import Lockspace.Proofs.Outcomes
import Lockspace.Proofs.Standing
import Lockspace.Proofs.TableReleases

namespace Lockspace

open Manager

variable {n : SpaceKey} {m m' : Manager} {a : Activity} {after : List Activity}

/-- A run of one activity that nothing comes between, up to where it rests. -/
inductive Activity.Undisturbed (n : SpaceKey) :
    Activity → Manager → List Activity → Manager → Prop
  | done {a : Activity} {m m' : Manager} {after : List Activity}
      (run : a.advance n m = .ok after m') : Undisturbed n a m after m'
  | next {a b : Activity} {m m₁ m' : Manager} {after : List Activity}
      (run : a.advance n m = .ok [b] m₁) (rest : Undisturbed n b m₁ after m') :
      Undisturbed n a m after m'

/-- While no bucket is locked, an activity may run to its end among others. -/
theorem Interleaved.undisturbed {setup : Setup} {acts : Multiset Activity}
    (reach : Interleaved setup n m (a ::ₘ acts)) (run : a.Undisturbed n m after m')
    (free : ∀ other ∈ acts, ∀ t, other.locked t = none) :
    Interleaved setup n m' (↑after + acts) := by
  have may : ∀ (b : Activity) (t : Table), b.MayStep t acts := by
    intro b t bucket _ other member
    rw [free other member t]
    exact nofun
  induction run with
  | done run => exact reach.step (may _ _) run
  | next run _ ih =>
    refine ih ?_
    rw [← Multiset.singleton_add, ← Multiset.coe_singleton]
    exact reach.step (may _ _) run

namespace Act

variable {key : ResourceKey} {id : ResourceId}

/-- A lookup that finds nothing leaves the table as it is. -/
theorem table_of_missing {b : BucketKey} {seen : Nat}
    (looked : lookupLocked n b id m = .ok (.missing seen) m') :
    (m'.space n).table = (m.space n).table := by
  have ends : (lookupLocked n b id).Ends m (fun _ => True) fun found m' =>
      ∀ seen, found = .missing seen → (m'.space n).table = (m.space n).table := by
    unfold lookupLocked
    simp only [ends_bind, ends_space, ends_ofExcept, ends_setTable, ends_pure, table_setTable]
    unfold Table.lookup
    generalize (m.space n).table = t
    cases found : (t.bucket b).find? id with
    | none => exact fun _ _ => rfl
    | some key =>
      cases reference : t.incref key with
      | ok t' => simp [Except.map, reference]
      | error fault => simp [Except.map, reference]
  exact ends.of_ok looked seen rfl

end Act

open Act

namespace Activity

variable {key : ResourceKey} {id : ResourceId} {rtype : ResourceType} {create : Bool}

/-- A call for a resource is the run of its lookup and, where need be, of its insertion. -/
theorem undisturbed_of_getOrCreate {answer : Except LockError ResourceRef}
    (run : getOrCreate n id rtype create m = .ok answer m') :
    (seeking id rtype create).Undisturbed n m (answer.toOption.toList.map (handle ·.key)) m' := by
  unfold getOrCreate at run
  split at run
  · obtain ⟨_, _, thrown, -⟩ := ok_of_bind run
    cases thrown
  rename_i named
  obtain ⟨found, m₁, looked, run⟩ := ok_of_bind (show (lookupLocked _ _ id >>= _) m = _ from run)
  cases found with
  | found key =>
    cases run
    refine .done ?_
    simp only [advance, if_neg named]
    exact run_bind looked
  | missing seen =>
    cases create with
    | false =>
      cases run
      refine .done ?_
      simp only [advance, if_neg named]
      exact run_bind looked
    | true =>
      have step : (seeking id rtype true).advance n m = .ok [creating id rtype seen] m₁ := by
        simp only [advance, if_neg named]
        exact run_bind looked
      refine .next step ?_
      obtain ⟨done, m₂, inserted, run⟩ :=
        ok_of_bind (show (insertLocked n _ _ seen >>= _) m₁ = _ from run)
      rw [← table_of_missing looked] at inserted
      cases done with
      | raceLost winner =>
        cases run
        exact .done (run_bind inserted)
      | inserted key first bref =>
        obtain ⟨_, m₃, announced, run⟩ := ok_of_bind run
        cases run
        exact .next (run_bind inserted) (.done (run_bind announced))

/-- A clone is one step. -/
theorem undisturbed_of_retain (run : retain ⟨n, key⟩ m = .ok () m') :
    (cloning key).Undisturbed n m [handle key, handle key] m' :=
  .done (run_bind run)

/-- A release that succeeds either drops one of several references or evicts its resource. -/
theorem release_ok {t t' : Table} {answer : Release} (run : t.release key = (t', .ok answer)) :
    ((t.resource key).refcount ≠ 0 ∧ (t.resource key).refcount ≠ 1 ∧
      t.exchange? key (t.resource key).refcount = some t' ∧ answer = .kept) ∨
    ((t.resource key).refcount = 1 ∧
      ∃ t₁, t.dropLocked key = (true, t₁) ∧ t₁.evict key = (t', .ok answer)) := by
  have count : (t.resource key).refcount = 0 ∨ 2 ≤ (t.resource key).refcount ∨
      (t.resource key).refcount = 1 := by omega
  rcases count with none | shared | last
  · rw [Table.release_of_none none] at run
    cases run
  · rw [Table.release_of_shared shared] at run
    cases run
    exact Or.inl ⟨by omega, by omega, Table.exchange?_of_eq rfl, rfl⟩
  · refine Or.inr ⟨last, t.recount key 0, ?_, (Table.release_of_last last).symm.trans run⟩
    rw [Table.dropLocked_eq, last]
    rfl

theorem releaseLocked_ok {answer : Release} (run : Act.releaseLocked ⟨n, key⟩ m = .ok answer m') :
    ∃ t, (m.space n).table.release key = (t, .ok answer) ∧ m' = m.setTable n t := by
  have ends : (Act.releaseLocked ⟨n, key⟩).Ends m (fun _ => True) fun answer m' =>
      ∃ t, (m.space n).table.release key = (t, .ok answer) ∧ m' = m.setTable n t := by
    unfold Act.releaseLocked
    rw [ends_bind, ends_space]
    split
    rename_i t released run
    rw [ends_bind, ends_setTable]
    split
    · exact ends_pure.mpr ⟨t, run, rfl⟩
    · split
      · rw [ends_bind]
        exact ends_always fun _ _ => ends_throw.mpr trivial
      · exact ends_throw.mpr trivial
  exact ends.of_ok run

/-- A release that is not disturbed reads the count once, and takes the lock of the bucket if it
holds the last reference. -/
theorem undisturbed_of_release {gone : Bool} (run : Act.release ⟨n, key⟩ m = .ok gone m') :
    (releasing key).Undisturbed n m [answered key gone] m' := by
  unfold Act.release at run
  obtain ⟨answer, m₁, dropped, told⟩ := ok_of_bind run
  obtain ⟨t, released, rfl⟩ := releaseLocked_ok dropped
  have read : (releasing key).advance n m =
      .ok [comparing key ((m.space n).table.resource key).refcount] m := rfl
  refine .next read ?_
  rcases release_ok released with ⟨none, last, exchanged, rfl⟩ | ⟨last, t₁, locked, evicted⟩
  · cases told
    refine .done ?_
    have swapped : exchange ⟨n, key⟩ ((m.space n).table.resource key).refcount m =
        .ok .none (m.setTable n t) := by
      unfold exchange
      rw [run_bind (run_space n m)]
      simp only [exchanged]
      rfl
    simp only [advance, if_neg none, if_neg last]
    exact run_bind swapped
  · rw [last]
    have locks : (comparing key 1).advance n m = .ok [locking key] m := rfl
    have dropped : Act.dropLocked ⟨n, key⟩ m = .ok true (m.setTable n t₁) := by
      unfold Act.dropLocked
      rw [run_bind (run_space n m)]
      simp only [locked]
      rfl
    have evicts : Act.evict ⟨n, key⟩ (m.setTable n t₁) = .ok answer (m.setTable n t) := by
      unfold Act.evict
      rw [run_bind (run_space n _)]
      simp only [table_setTable, evicted]
      rw [← setTable_setTable m n t₁ t]
      rfl
    refine .next locks ?_
    refine .next (run_bind dropped) ?_
    cases answer with
    | kept =>
      cases told
      exact .done (run_bind evicts)
    | freed emptied bref => exact .next (run_bind evicts) (.done (run_bind told))

theorem snapshotFrom_ok {t t' : Table} {b : BucketKey} {todo : List BucketKey}
    {keys : List ResourceKey} (run : t.snapshotFrom (b :: todo) = .ok (keys, t')) :
    ∃ here t₁ more, t.snapshotBucket b = .ok (here, t₁) ∧
      t₁.snapshotFrom todo = .ok (more, t') ∧ keys = here ++ more := by
  simp only [Table.snapshotFrom, Bind.bind, Except.bind] at run
  cases visited : t.snapshotBucket b with
  | error fault =>
    rw [visited] at run
    cases run
  | ok visit =>
    obtain ⟨here, t₁⟩ := visit
    simp only [visited] at run
    cases others : t₁.snapshotFrom todo with
    | error fault =>
      rw [others] at run
      cases run
    | ok rest =>
      obtain ⟨more, t₂⟩ := rest
      simp only [others] at run
      cases run
      exact ⟨here, t₁, more, rfl, others, rfl⟩

theorem advance_listing {b : BucketKey} {todo : List BucketKey} {found here : List ResourceKey}
    {t : Table} (visited : (m.space n).table.snapshotBucket b = .ok (here, t)) :
    (listing (b :: todo) found).advance n m =
      .ok [listing todo (found ++ here)] (m.setTable n t) := by
  have visits : snapshotBucket n b m = .ok here (m.setTable n t) := by
    unfold Act.snapshotBucket
    rw [run_bind (run_space n m), visited]
    rfl
  exact run_bind visits

/-- A listing that is not disturbed visits one bucket after another. -/
theorem undisturbed_of_snapshotFrom {b : BucketKey} {todo : List BucketKey}
    {found keys : List ResourceKey} {t : Table}
    (run : (m.space n).table.snapshotFrom (b :: todo) = .ok (keys, t)) :
    (listing (b :: todo) found).Undisturbed n m ((found ++ keys).map handle) (m.setTable n t) := by
  induction todo generalizing b m found keys with
  | nil =>
    obtain ⟨here, t₁, more, visited, none, rfl⟩ := snapshotFrom_ok run
    cases none
    rw [List.append_nil]
    exact .next (advance_listing visited) (.done rfl)
  | cons c rest ih =>
    obtain ⟨here, t₁, more, visited, others, rfl⟩ := snapshotFrom_ok run
    refine .next (advance_listing visited) ?_
    rw [← List.append_assoc, ← setTable_setTable m n t₁ t]
    refine ih ?_
    rw [table_setTable]
    exact others

/-- A listing of a namespace that has buckets is the run of its visits. -/
theorem undisturbed_of_resources {refs : List ResourceRef}
    (some : (m.space n).table.buckets.keys ≠ []) (run : Act.resources n m = .ok refs m') :
    (listing (m.space n).table.buckets.keys []).Undisturbed n m (refs.map (handle ·.key)) m' := by
  have ends : (Act.resources n).Ends m (fun _ => True) fun refs m' => ∃ keys t,
      (m.space n).table.snapshot = .ok (keys, t) ∧ refs = keys.map (ResourceRef.mk n) ∧
        m' = m.setTable n t := by
    unfold Act.resources
    rw [ends_bind, ends_space, ends_bind, ends_ofExcept]
    cases listed : (m.space n).table.snapshot with
    | error fault => trivial
    | ok answer =>
      obtain ⟨keys, t⟩ := answer
      exact ends_bind.mpr (ends_setTable.mpr (ends_pure.mpr ⟨keys, t, rfl, rfl, rfl⟩))
  obtain ⟨keys, t, listed, rfl, rfl⟩ := ends.of_ok run
  obtain ⟨b, todo, buckets⟩ := List.exists_cons_of_ne_nil some
  unfold Table.snapshot at listed
  rw [buckets] at listed ⊢
  rw [List.map_map]
  exact undisturbed_of_snapshotFrom listed

/-- A lock that gives up its reference does so in one step. -/
theorem undisturbed_of_unbind {l : LockKey} {bound : Option ResourceRef}
    (run : Act.unbind l m = .ok bound m') :
    (unbinding l).Undisturbed n m (bound.toList.map (handle ·.key)) m' :=
  .done (run_bind run)

theorem undisturbed_of_takeHold {count : Nat} (run : Act.takeHold n m = .ok count m') :
    claiming.Undisturbed n m [hold] m' :=
  .done (run_bind (run_discard run))

/-- A hold that is given back signals those who wait if it was the last reference. -/
theorem undisturbed_of_dropHold {count : Nat} (run : Act.dropHold n m = .ok count m') :
    yielding.Undisturbed n m [] m' := by
  unfold dropHold at run
  obtain ⟨bref, m₁, dropped, told⟩ := ok_of_bind run
  have first : yielding.advance n m = .ok (if bref = 0 then [signalling] else []) m₁ :=
    run_bind dropped
  split at told
  · rename_i last
    rw [if_pos last] at first
    obtain ⟨_, m₂, signalled, told⟩ := ok_of_bind told
    cases told
    exact .next first (.done (run_bind signalled))
  · rename_i more
    rw [if_neg more] at first
    cases told
    exact .done first

end Activity

end Lockspace
