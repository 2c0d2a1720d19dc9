import Lockspace.Proofs.Concurrent.StepFrames
import Lockspace.Proofs.Rolls.RollCalls
import Lockspace.Proofs.TeardownFrames

namespace Lockspace

open Manager Act

namespace Act

variable {n : SpaceKey} {l : LockKey} {r : ResourceRef}

/-- Whatever step an activity takes, no namespace comes to the registry or leaves it. -/
theorem shuffled_advance (a : Activity) : (a.advance n).Preserves Shuffled := by
  cases a with
  | announcing key first bref => exact (shuffled_announce first bref).bind fun _ => preserves_pure _
  | binding l key =>
    refine shuffled_of_sameRoll (Preserves.bind ?_ fun _ => preserves_pure _)
    exact (sameRoll_modifyLock _).bind fun _ => preserves_lock.bind fun _ =>
      (sameRoll_modifyLock _).bind fun _ => preserves_pure _
  | unbinding l =>
    exact shuffled_of_sameRoll ((sameRoll_drops.unbind l).bind fun _ => preserves_pure _)
  | destroying l =>
    exact shuffled_of_sameRoll ((sameRoll_locks.unlinkAndMark l).bind fun _ => preserves_pure _)
  | reaping l =>
    exact shuffled_of_sameRoll ((sameRoll_drops.lockReused n l).discard.bind fun _ =>
      preserves_pure _)
  | forgetting l =>
    exact shuffled_of_sameRoll ((sameRoll_drops.unbind l).bind fun _ => preserves_pure _)
  | _ =>
    exact shuffled_of_sameRoll <| preserves_advance (fun _ => sameRoll_setTable)
      (fun _ => sameRoll_afterRelease) sameRoll_signal rfl rfl

end Act

theorem LockPolicy.keeps_default : LockPolicy.default.Keeps SameRoll where
  completion n l flags := by
    show (if _ then _ else _ : Act Unit).Preserves SameRoll
    split
    · exact sameRoll_locks.destroyLock sameRoll_drops n l
    · exact preserves_pure _
  cancelLocal n l := sameRoll_locks.destroyLock sameRoll_drops n l

/-- But for its callbacks, a teardown leaves the registry alone. -/
theorem tearsWithin_of_sameRoll {R : Manager → Manager → Prop}
    (within : ∀ m m', SameRoll m m' → R m m') : TearsWithin R where
  drops := sameRoll_drops.mono within
  lists _ := sameRoll_resources.mono within
  flagged _ _ := (sameRoll_modifyLock _).mono within
  stopped _ := Preserves.mono (Act.sameRoll_modifySpace fun _ => rfl) within
  noted call _ := (sameRoll_note call).mono within
  logged level text := (sameRoll_log level text).mono within

end Lockspace
