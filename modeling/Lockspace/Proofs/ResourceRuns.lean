import Lockspace.Proofs.Outcomes
import Lockspace.Proofs.Standing
import Lockspace.Proofs.TableSteps

namespace Lockspace

open Manager

namespace Manager

/-- The state after a new resource of an id came into the table of a namespace. -/
def entered (m : Manager) (n : SpaceKey) (id : ResourceId) (rtype : ResourceType) : Manager :=
  m.setTable n ((m.space n).table.enter ((m.space n).table.bucketOf id)
    (.new id rtype ((m.space n).table.bucketOf id) (m.space n).config.dumpGrantedMax.toNat))

/-- The state after the policy was told about a resource. -/
def told (m : Manager) (r : ResourceRef) (event : ResourceEvent) : Manager :=
  { m with trace := m.trace.push (.resource r.space event (m.resource r).desc (m.resource r).bucket
      (m.space r.space).table.bref (m.space r.space).table.size) }

/-- The state after a release that took a resource out of its table, from the one right after the
table changed. -/
def freed (m : Manager) (r : ResourceRef) (emptied : Bool) (bref : Nat) : Manager :=
  let m := if emptied && bref = 0 then
    m.modifySpace r.space fun s => { s with signals := s.signals + 1 } else m
  let m := m.told r .freed
  if emptied then m.told r .bucketEmptied else m

theorem table_freed (m : Manager) (r : ResourceRef) (emptied : Bool) (bref : Nat) (n : SpaceKey) :
    ((m.freed r emptied bref).space n).table = (m.space n).table := by
  have signalled : ((m.modifySpace r.space fun s => { s with signals := s.signals + 1 }).space
      n).table = (m.space n).table := by
    rw [space_modifySpace]
    split
    · rename_i here
      rw [here]
    · rfl
  cases emptied with
  | false => rfl
  | true =>
    by_cases last : bref = 0
    · subst last
      exact signalled
    · simp only [freed, last, decide_false, Bool.and_false, Bool.false_eq_true, if_false, if_true]
      rfl

end Manager

namespace Act

variable {m : Manager} {n : SpaceKey} {r : ResourceRef} {id : ResourceId} {rtype : ResourceType}
  {create : Bool} {key : ResourceKey}

theorem run_lookup {b : BucketKey} {found : Lookup} {t : Table}
    (looked : (m.space n).table.lookup b id = .ok (found, t)) :
    lookupLocked n b id m = .ok found (m.setTable n t) := by
  unfold lookupLocked
  rw [run_bind (run_space n m), looked]
  rfl

/-- An insertion under an id that is not in the bucket. -/
theorem run_insertLocked_of_absent {b : BucketKey} {candidate : Resource}
    (absent : ((m.space n).table.bucket b).find? candidate.id = none) (seen : Nat) :
    insertLocked n b candidate seen m = .ok (.inserted (m.space n).table.resources.nextKey
      ((m.space n).table.bucket b).entries.isEmpty ((m.space n).table.enter b candidate).bref)
        (m.setTable n ((m.space n).table.enter b candidate)) := by
  unfold insertLocked
  rw [run_bind (run_space n m), Table.insert_eq_of_absent absent seen]
  rfl

/-- A call for a resource ends as its lookup does, and where that finds nothing and there is leave to
create, as an insertion that is announced unless another one came before. -/
theorem ends_getOrCreate {excused : Fault → Prop}
    {post : Except LockError ResourceRef → Manager → Prop} (unnamed : excused (.emptyFirstWord id))
    (looks : (lookupLocked n ((m.space n).table.bucketOf id) id).Ends m excused fun looked m₁ =>
      match looked with
      | .found key => post (.ok ⟨n, key⟩) m₁
      | .missing seen => post (.error (.notFound id)) m₁ ∧
        (insertLocked n ((m.space n).table.bucketOf id) (.new id rtype
          ((m₁.space n).table.bucketOf id) (m₁.space n).config.dumpGrantedMax.toNat) seen).Ends m₁
            excused fun done m₂ =>
          match done with
          | .raceLost winner => post (.ok ⟨n, winner⟩) m₂
          | .inserted key first bref =>
            (announce ⟨n, key⟩ first bref).Ends m₂ excused fun _ => post (.ok ⟨n, key⟩)) :
    (getOrCreate n id rtype create).Ends m excused post := by
  unfold getOrCreate
  rw [ends_ite]
  split
  · exact ends_bind.mpr (ends_throw.mpr unnamed)
  rw [ends_bind, ends_space, ends_bind]
  refine looks.imp fun looked m₁ holds => ?_
  cases looked with
  | found key => exact ends_pure.mpr holds
  | missing seen =>
    obtain ⟨refused, inserts⟩ := holds
    cases create with
    | false => exact ends_pure.mpr refused
    | true =>
      unfold newResource
      simp only [Bool.not_true, Bool.false_eq_true, if_false, ends_bind, ends_space, ends_pure]
      refine inserts.imp fun done m₂ entered => ?_
      cases done with
      | raceLost winner => exact ends_pure.mpr entered
      | inserted key first bref =>
        exact ends_bind.mpr (Ends.imp entered fun _ _ told => ends_pure.mpr told)

/-- A resource in its bucket is given out with one more reference. -/
theorem run_getOrCreate_of_find? (named : id.seq ≠ 0)
    (found : ((m.space n).table.bucket ((m.space n).table.bucketOf id)).find? id = some key)
    (positive : 0 < ((m.space n).table.resource key).refcount) :
    getOrCreate n id rtype create m = .ok (.ok ⟨n, key⟩) (m.setTable n ((m.space n).table.recount
      key (((m.space n).table.resource key).refcount + 1))) := by
  unfold getOrCreate
  rw [if_neg named]
  show (Act.space n >>= _) m = _
  rw [run_bind (run_space n m), run_bind (run_lookup (Table.lookup_of_find? found positive))]
  rfl

/-- One that lost its references is not given out any more. -/
theorem run_getOrCreate_of_lost (named : id.seq ≠ 0)
    (found : ((m.space n).table.bucket ((m.space n).table.bucketOf id)).find? id = some key)
    (lost : ((m.space n).table.resource key).refcount = 0) : getOrCreate n id rtype create m =
      .error (.referencedAfterRelease ((m.space n).table.resource key).id) m := by
  have failed : (m.space n).table.lookup ((m.space n).table.bucketOf id) id =
      .error (.referencedAfterRelease ((m.space n).table.resource key).id) := by
    simp only [Table.lookup, found, Table.incref, if_pos lost, Except.map]
  unfold getOrCreate lookupLocked
  rw [if_neg named]
  show (Act.space n >>= _) m = _
  rw [run_bind (run_space n m)]
  show EStateM.bind (Act.space n >>= _) _ m = _
  rw [EStateM.bind, run_bind (run_space n m), failed]
  rfl

theorem run_getOrCreate_of_missing (named : id.seq ≠ 0)
    (absent : ((m.space n).table.bucket ((m.space n).table.bucketOf id)).find? id = none) :
    getOrCreate n id rtype false m =
      .ok (.error (.notFound id)) (m.setTable n (m.space n).table) := by
  unfold getOrCreate
  rw [if_neg named]
  show (Act.space n >>= _) m = _
  rw [run_bind (run_space n m), run_bind (run_lookup (Table.lookup_of_absent absent))]
  rfl

/-- A missing resource is entered and announced. -/
theorem run_getOrCreate_of_entered (rtype : ResourceType) (named : id.seq ≠ 0)
    (absent : ((m.space n).table.bucket ((m.space n).table.bucketOf id)).find? id = none) :
    getOrCreate n id rtype true m = (do
      announce ⟨n, (m.space n).table.resources.nextKey⟩
        ((m.space n).table.bucket ((m.space n).table.bucketOf id)).entries.isEmpty
        ((m.entered n id rtype).space n).table.bref
      return .ok ⟨n, (m.space n).table.resources.nextKey⟩ : Act (Except LockError ResourceRef))
      (m.entered n id rtype) := by
  let t := (m.space n).table
  let b := t.bucketOf id
  let candidate : Resource := .new id rtype b (m.space n).config.dumpGrantedMax.toNat
  have here : (m.setTable n t).space n = m.space n := Store.get_set_self ..
  have bref : ((m.entered n id rtype).space n).table.bref = (t.enter b candidate).bref :=
    congrArg Table.bref (table_setTable ..)
  have made : newResource n id rtype (m.setTable n t) = .ok candidate (m.setTable n t) := by
    unfold newResource
    rw [run_bind (run_space n _), here]
    rfl
  have enters : insertLocked n b candidate (t.bucket b).version (m.setTable n t) =
      .ok (.inserted t.resources.nextKey (t.bucket b).entries.isEmpty (t.enter b candidate).bref)
        (m.entered n id rtype) := by
    have missing : (((m.setTable n t).space n).table.bucket b).find? candidate.id = none := by
      rw [here]
      exact absent
    rw [run_insertLocked_of_absent missing, here, setTable_setTable]
    rfl
  unfold getOrCreate
  rw [if_neg named]
  show (Act.space n >>= _) m = _
  rw [run_bind (run_space n m), run_bind (run_lookup (Table.lookup_of_absent absent))]
  show (newResource n id rtype >>= _) (m.setTable n t) = _
  rw [run_bind made, run_bind enters, bref]

theorem run_announce_of_later (r : ResourceRef) (bref : Nat) (m : Manager) :
    announce r false bref m = .ok () (m.told r .created) :=
  rfl

theorem run_announce_of_first (r : ResourceRef) (bref : Nat) (m : Manager) :
    announce r true bref m = (if bref = 1 && (m.space r.space).isClient
      then moveTo .client r.space .active else pure () : Act Unit)
        ((m.told r .created).told r .bucketOccupied) :=
  rfl

theorem run_release_of_kept {t : Table}
    (kept : (m.space r.space).table.release r.key = (t, .ok .kept)) :
    release r m = .ok false (m.setTable r.space t) := by
  have drops : releaseLocked r m = .ok .kept (m.setTable r.space t) := by
    unfold releaseLocked
    rw [run_bind (run_space _ m), kept]
    rfl
  unfold release
  rw [run_bind drops]
  rfl

theorem run_release_of_freed {t : Table} {emptied : Bool} {bref : Nat}
    (gone : (m.space r.space).table.release r.key = (t, .ok (.freed emptied bref))) :
    release r m = .ok true ((m.setTable r.space t).freed r emptied bref) := by
  have drops : releaseLocked r m = .ok (.freed emptied bref) (m.setTable r.space t) := by
    unfold releaseLocked
    rw [run_bind (run_space _ m), gone]
    rfl
  unfold release
  rw [run_bind drops]
  cases emptied with
  | false => rfl
  | true =>
    by_cases last : bref = 0
    · subst last
      rfl
    · have more : (true && decide (bref = 0)) = false := by simp [last]
      simp only [afterRelease, Manager.freed, more]
      rfl

/-- A release that fails has changed its table and listed the resource at most. -/
theorem run_release_of_error {t : Table} {fault : Fault}
    (failed : (m.space r.space).table.release r.key = (t, .error fault)) :
    ∃ log, release r m = .error fault { m.setTable r.space t with log } := by
  have drops : ∃ log, releaseLocked r m = .error fault { m.setTable r.space t with log } := by
    unfold releaseLocked
    rw [run_bind (run_space _ m), failed]
    dsimp only
    rw [run_bind (rfl : setTable r.space t m = .ok () (m.setTable r.space t))]
    split
    · obtain ⟨log, listed⟩ := run_dumpResource .error r (m.setTable r.space t)
      exact ⟨log, run_bind listed⟩
    · exact ⟨_, rfl⟩
  obtain ⟨log, drops⟩ := drops
  refine ⟨log, ?_⟩
  show EStateM.bind _ _ m = _
  rw [EStateM.bind, drops]

end Act

end Lockspace
