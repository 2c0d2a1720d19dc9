import Lockspace.Proofs.Migration.Lockless
import Lockspace.Proofs.ResourceFrames

namespace Lockspace

/-- Whether an activity is about to announce a resource. -/
def Activity.isAnnouncing : Activity → Bool
  | announcing .. => true
  | _ => false

namespace Act

variable {R : Manager → Manager → Prop} [IsPreorder Manager R] {n : SpaceKey} {r : ResourceRef}
  {a : Activity}

theorem preserves_exchange (table : ∀ n t, (setTable n t).Preserves R) (seen : Nat) :
    (exchange r seen).Preserves R := by
  refine preserves_space.bind fun s => ?_
  dsimp only
  split
  · exact (table _ _).bind fun _ => preserves_pure _
  · exact preserves_pure _

theorem preserves_dropHoldCount (table : ∀ n t, (setTable n t).Preserves R) :
    (dropHoldCount n).Preserves R := by
  refine preserves_space.bind fun s => ?_
  split
  · exact preserves_throw _
  · exact (table _ _).bind fun _ => preserves_pure _

theorem preserves_compare (table : ∀ n t, (setTable n t).Preserves R) (key : ResourceKey)
    (seen : Nat) : (Activity.compare n key seen).Preserves R := by
  unfold Activity.compare
  split
  · exact preserves_pure _
  · refine (preserves_exchange table seen).bind fun left => ?_
    cases left <;> exact preserves_pure _

/-- Besides an announcement, the step of an activity only changes the table of its namespace and
tells waiters and the policy of a release. -/
theorem preserves_advance (table : ∀ n t, (setTable n t).Preserves R)
    (tells : ∀ r answer, (afterRelease r answer).Preserves R) (signals : (signal n).Preserves R)
    (ofTable : a.isOfTable) (other : a.isAnnouncing = false) : (a.advance n).Preserves R := by
  have tables : ∀ (m : Manager) (t : Table), R m (m.setTable n t) := fun m t => table n t m
  cases a with
  | seeking id rtype create =>
    simp only [Activity.advance]
    refine preserves_guard fun _ => preserves_space.bind fun s => ?_
    refine Preserves.bind (preserves_step (·.lookup _ id) fun m _ t _ => tables m t) fun found => ?_
    cases found <;> exact preserves_pure _
  | creating id rtype seen =>
    refine preserves_space.bind fun s => Preserves.bind ?_ fun candidate => ?_
    · exact preserves_space.bind fun _ => preserves_pure _
    · refine Preserves.bind ?_ fun done => ?_
      · exact preserves_step (·.insert _ candidate seen) fun m _ t _ => tables m t
      · cases done <;> exact preserves_pure _
  | cloning key =>
    exact (preserves_retain fun m t _ => tables m t).bind fun _ => preserves_pure _
  | releasing key => exact preserves_resource.bind fun _ => preserves_pure _
  | comparing key seen =>
    rw [Activity.advance_comparing]
    split
    · exact preserves_resource.bind fun _ =>
        (preserves_throw _).bind fun _ => preserves_compare table key seen
    · exact preserves_compare table key seen
  | locking key =>
    refine Preserves.bind ?_ fun last => preserves_pure _
    exact preserves_space.bind fun _ => (table _ _).bind fun _ => preserves_pure _
  | evicting key =>
    refine Preserves.bind ?_ fun answer => ?_
    · exact preserves_space.bind fun _ => (table _ _).bind fun _ => preserves_ofExcept _
    · cases answer <;> exact preserves_pure _
  | telling key emptied bref => exact (tells _ _).bind fun _ => preserves_pure _
  | listing todo found =>
    cases todo with
    | nil => exact preserves_pure _
    | cons b rest =>
      refine Preserves.bind ?_ fun _ => preserves_pure _
      exact preserves_step (·.snapshotBucket b) fun m _ t _ => tables m t
  | claiming =>
    refine Preserves.bind (Preserves.discard ?_) fun _ => preserves_pure _
    refine Preserves.bind ?_ fun _ => preserves_space.bind fun _ => preserves_pure _
    exact fun m => tables m (m.space n).table.takeHold
  | yielding => exact (preserves_dropHoldCount table).bind fun _ => preserves_pure _
  | signalling => exact signals.bind fun _ => preserves_pure _
  | handle key => exact preserves_pure _
  | hold => exact preserves_pure _
  | answered key freed => exact preserves_pure _
  | announcing key first bref => cases other
  | _ => cases ofTable

end Act

end Lockspace
