import Lockspace.Proofs.Concurrent.Reached
import Lockspace.Proofs.Outcomes

namespace Lockspace

open Manager

/-- The same state without any locks. -/
def Manager.lockless (m : Manager) : Manager :=
  { m with locks := {} }

@[simp] theorem Manager.space_lockless (m : Manager) (n : SpaceKey) :
    m.lockless.space n = m.space n :=
  rfl

namespace Activity

/-- Whether an activity is about the table of its namespace and about no lock. -/
def isOfTable : Activity → Bool
  | binding .. | unbinding _ | destroying _ | reaping _ | forgetting _ => false
  | _ => true

/-- Compares a count that is not zero with what it was when it was read. -/
def compare (n : SpaceKey) (key : ResourceKey) (seen : Nat) : Act (List Activity) := do
  if seen = 1 then return [locking key]
  match ← Act.exchange ⟨n, key⟩ seen with
  | none => return [answered key false]
  | some actual => return [comparing key actual]

theorem advance_comparing (n : SpaceKey) (key : ResourceKey) (seen : Nat) :
    (comparing key seen).advance n = (do
      if seen = 0 then throw (.releasedTooOften (← Act.resource ⟨n, key⟩).id)
      compare n key seen) :=
  rfl

end Activity

namespace Act

variable {α β : Type} {n : SpaceKey} {r : ResourceRef}

/-- An action that has the same answer and does the same where there are no locks. -/
def Lockless (act : Act α) : Prop :=
  ∀ m a m', act m = .ok a m' → act m.lockless = .ok a m'.lockless

theorem lockless_pure (a : α) : (pure a : Act α).Lockless := by
  rintro m _ _ ⟨⟩
  rfl

theorem lockless_throw (fault : Fault) : (throw fault : Act α).Lockless := by
  rintro m _ _ ⟨⟩

theorem Lockless.bind {act : Act α} {next : α → Act β} (first : act.Lockless)
    (second : ∀ a, (next a).Lockless) : (act >>= next).Lockless := by
  intro m b m' run
  obtain ⟨a, m₁, before, after⟩ := ok_of_bind run
  rw [run_bind (first m a m₁ before)]
  exact second a m₁ b m' after

theorem Lockless.discard {act : Act α} (lockless : act.Lockless) :
    (discard act : Act Unit).Lockless := by
  intro m _ m' run
  change EStateM.map _ act m = _ at run
  unfold EStateM.map at run
  split at run
  · rename_i a m₁ before
    cases run
    exact run_discard (lockless m a _ before)
  · cases run

theorem lockless_guard {condition : Prop} [Decidable condition] {fault : Fault}
    {next : PUnit → Act β} (pass : (next ()).Lockless) :
    (if condition then throw fault >>= next else next ()).Lockless := by
  split
  · exact (lockless_throw fault).bind fun _ => by assumption
  · exact pass

theorem lockless_space : (space n).Lockless := by
  rintro m _ _ ⟨⟩
  rfl

theorem lockless_resource : (resource r).Lockless := by
  rintro m _ _ ⟨⟩
  rfl

/-- What reads the state, but not its locks. -/
theorem lockless_get {next : Manager → Act α} (same : ∀ m, next m.lockless = next m)
    (each : ∀ m, (next m).Lockless) : (get >>= next).Lockless := by
  intro m a m' run
  obtain ⟨_, _, ⟨⟩, rest⟩ := ok_of_bind run
  have after := each m m a m' rest
  rw [← same] at after
  exact after

theorem lockless_note (call : Callback) : (note call).Lockless := by
  rintro m _ _ ⟨⟩
  rfl

theorem lockless_setTable (t : Table) : (setTable n t).Lockless := by
  rintro m _ _ ⟨⟩
  rfl

theorem lockless_modifySpace (f : Namespace → Namespace) : (modifySpace n f).Lockless := by
  rintro m _ _ ⟨⟩
  rfl

theorem lockless_ofExcept (answer : Except Fault α) : (ofExcept answer).Lockless := by
  cases answer with
  | ok a => exact lockless_pure a
  | error fault => exact lockless_throw fault

theorem lockless_emit (event : ResourceEvent) : (emit r event).Lockless :=
  lockless_space.bind fun _ => lockless_resource.bind fun _ => lockless_note _

/-- A step of a table. -/
theorem lockless_step (step : Table → Except Fault (α × Table)) :
    (do
      let (a, t) ← ofExcept (step (← space n).table)
      setTable n t
      return a : Act α).Lockless := by
  refine lockless_space.bind fun s => (lockless_ofExcept _).bind fun answer => ?_
  exact (lockless_setTable _).bind fun _ => lockless_pure _

theorem lockless_lookupLocked (b : BucketKey) (id : ResourceId) :
    (lookupLocked n b id).Lockless :=
  lockless_step (·.lookup b id)

theorem lockless_insertLocked (b : BucketKey) (candidate : Resource) (seen : Nat) :
    (insertLocked n b candidate seen).Lockless :=
  lockless_step (·.insert b candidate seen)

theorem lockless_snapshotBucket (b : BucketKey) : (snapshotBucket n b).Lockless :=
  lockless_step (·.snapshotBucket b)

theorem lockless_moveTo (side : Side) (link : NamespaceLink) : (moveTo side n link).Lockless := by
  refine lockless_space.bind fun s => lockless_guard <| lockless_guard ?_
  refine lockless_get (fun _ => rfl) fun m => ?_
  split
  · exact lockless_throw _
  · refine Lockless.bind ?_ fun _ => lockless_modifySpace _
    rintro m _ _ ⟨⟩
    rfl

theorem lockless_announce (first : Bool) (bref : Nat) : (announce r first bref).Lockless := by
  refine (lockless_emit _).bind fun _ => ?_
  split
  · refine (lockless_emit _).bind fun _ => lockless_space.bind fun s => ?_
    split
    · exact lockless_moveTo _ _
    · exact lockless_pure _
  · exact lockless_pure _

theorem lockless_afterRelease (answer : Release) : (afterRelease r answer).Lockless := by
  cases answer with
  | kept => exact lockless_pure _
  | freed emptied bref =>
    have told : ∀ u : PUnit, (do
        emit r .freed
        if emptied then emit r .bucketEmptied
        return true : Act Bool).Lockless := by
      refine fun _ => (lockless_emit _).bind fun _ => ?_
      split
      · exact (lockless_emit _).bind fun _ => lockless_pure _
      · exact lockless_pure _
    show (if _ then _ else _ : Act Bool).Lockless
    split
    · exact (lockless_modifySpace _).bind told
    · exact told ()

theorem lockless_takeHold : (takeHold n).Lockless :=
  (lockless_modifySpace _).bind fun _ => lockless_space.bind fun _ => lockless_pure _

theorem lockless_dropHoldCount : (dropHoldCount n).Lockless := by
  refine lockless_space.bind fun s => ?_
  split
  · exact lockless_throw _
  · exact (lockless_setTable _).bind fun _ => lockless_pure _

theorem lockless_exchange (seen : Nat) : (exchange r seen).Lockless := by
  refine lockless_space.bind fun s => ?_
  dsimp only
  split
  · exact (lockless_setTable _).bind fun _ => lockless_pure _
  · exact lockless_pure _

theorem lockless_dropLocked : (dropLocked r).Lockless :=
  lockless_space.bind fun _ => (lockless_setTable _).bind fun _ => lockless_pure _

theorem lockless_evict : (evict r).Lockless :=
  lockless_space.bind fun _ => (lockless_setTable _).bind fun _ => lockless_ofExcept _

theorem lockless_compare (key : ResourceKey) (seen : Nat) :
    (Activity.compare n key seen).Lockless := by
  unfold Activity.compare
  split
  · exact lockless_pure _
  · refine (lockless_exchange seen).bind fun left => ?_
    cases left <;> exact lockless_pure _

/-- Only what is about locks sees any. -/
theorem lockless_advance {a : Activity} (ofTable : a.isOfTable) : (a.advance n).Lockless := by
  cases a with
  | seeking id rtype create =>
    simp only [Activity.advance]
    refine lockless_guard ?_
    refine lockless_space.bind fun s => (lockless_lookupLocked _ _).bind fun found => ?_
    cases found <;> exact lockless_pure _
  | creating id rtype seen =>
    refine lockless_space.bind fun s => Lockless.bind ?_ fun candidate => ?_
    · exact lockless_space.bind fun _ => lockless_pure _
    · refine (lockless_insertLocked _ _ _).bind fun done => ?_
      cases done <;> exact lockless_pure _
  | announcing key first bref => exact (lockless_announce first bref).bind fun _ => lockless_pure _
  | cloning key =>
    refine Lockless.bind ?_ fun _ => lockless_pure _
    exact lockless_space.bind fun _ => (lockless_ofExcept _).bind fun _ => lockless_setTable _
  | releasing key => exact lockless_resource.bind fun _ => lockless_pure _
  | comparing key seen =>
    rw [Activity.advance_comparing]
    split
    · exact lockless_resource.bind fun res =>
        (lockless_throw _).bind fun _ => lockless_compare key seen
    · exact lockless_compare key seen
  | locking key =>
    exact lockless_dropLocked.bind fun last => lockless_pure _
  | evicting key =>
    refine lockless_evict.bind fun answer => ?_
    cases answer <;> exact lockless_pure _
  | telling key emptied bref => exact (lockless_afterRelease _).bind fun _ => lockless_pure _
  | listing todo found =>
    cases todo with
    | nil => exact lockless_pure _
    | cons b rest => exact (lockless_snapshotBucket _).bind fun _ => lockless_pure _
  | claiming =>
    refine Lockless.bind ?_ fun _ => lockless_pure _
    exact lockless_takeHold.discard
  | yielding => exact lockless_dropHoldCount.bind fun _ => lockless_pure _
  | signalling => exact (lockless_modifySpace _).bind fun _ => lockless_pure _
  | handle key => exact lockless_pure _
  | hold => exact lockless_pure _
  | answered key freed => exact lockless_pure _
  | _ => cases ofTable

end Act

end Lockspace
