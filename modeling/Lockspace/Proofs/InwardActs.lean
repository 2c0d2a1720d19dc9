import Lockspace.Manager.Spaces
import Lockspace.Proofs.SteadyActs

namespace Lockspace

open Manager

namespace Act

variable {n : SpaceKey} {l : LockKey} {r : ResourceRef}

theorem inward_modifyLock (f : Lock → Lock) : (modifyLock l f).Preserves Inward :=
  fun _ => .of_eq rfl rfl rfl

theorem inward_setTable (t : Table) : (setTable n t).Preserves Inward :=
  fun _ => inward_modifySpace n rfl rfl rfl

theorem inward_modifyResource (f : Resource → Resource) :
    (modifyResource r f).Preserves Inward :=
  fun _ => inward_modifySpace r.space rfl rfl rfl

theorem inward_unlink : (unlink r l).Preserves Inward :=
  preserves_unlink (fun m _ _ _ => inward_modifyResource _ m) (inward_modifyLock _)
    fun _ _ => inward_modifySpace r.space rfl rfl rfl

/-- The destruction of a lock is a matter of its namespace alone. -/
theorem inward_destroyLock : (destroyLock n l).Preserves Inward := by
  refine preserves_destroyLock (preserves_unlinkAndMark ?_ (inward_modifyLock _)) ?_ ?_
  · exact fun _ => inward_unlink
  · exact steady_lockReused.mono fun _ _ => Steady.toInward
  · exact steady_dropBound.mono fun _ _ => Steady.toInward

theorem unheard_modifySpace {f : Namespace → Namespace} (side : ∀ s, (f s).side = s.side) :
    (modifySpace n f).Preserves Unheard :=
  fun _ => ⟨view_modifySpace (·.side) (side _), rfl⟩

/-- The registry is no concern of any peer. -/
theorem unheard_modify {f : Manager → Manager} (spaces : ∀ m, (f m).spaces = m.spaces)
    (trace : ∀ m, (f m).trace = m.trace) : (modify f : Act Unit).Preserves Unheard := by
  refine preserves_modify fun m => ⟨fun k => ?_, ?_⟩
  · simp only [Manager.space, spaces]
  · simp only [peerCalls, trace]

theorem unheard_of_steady {α : Type} {act : Act α} (steady : act.Preserves Steady) :
    act.Preserves Unheard :=
  steady.mono fun _ _ still => still.toUnheard

theorem unheard_unregister : (unregister n).Preserves Unheard := by
  refine preserves_space.bind fun s => Preserves.bind ?_ fun _ => unheard_modifySpace fun _ => rfl
  refine unheard_modify (fun m => ?_) fun m => ?_
  · split <;> rfl
  · split <;> rfl

theorem unheard_finalizeUnused : (finalizeUnused n).Preserves Unheard :=
  unheard_of_steady (steady_drops.finalizeUnused n)

theorem unheard_retireStats : (retireStats n).Preserves Unheard := by
  refine preserves_space.bind fun s => Preserves.bind ?_ fun _ => unheard_modifySpace fun _ => rfl
  exact unheard_modify (fun _ => rfl) fun _ => rfl

theorem unheard_clearTable : (clearTable n).Preserves Unheard := by
  unfold clearTable
  refine preserves_space.bind fun s => ?_
  split
  exact ((inward_setTable _).mono fun _ _ => Inward.toUnheard).bind fun _ => preserves_pure _

theorem unheard_dropGate : dropGate.Preserves Unheard := by
  refine preserves_get.bind fun m => preserves_guard fun _ => ?_
  refine Preserves.bind (unheard_modify ?_ ?_) fun _ => preserves_pure _
  · exact fun _ => rfl
  · exact fun _ => rfl

theorem unheard_dismantle : (dismantle n).Preserves Unheard := by
  unfold dismantle
  refine Preserves.bind ?_ fun _ => Preserves.bind ?_ fun _ => Preserves.bind ?_ fun _ =>
    Preserves.bind ?_ fun left => ?_
  · exact unheard_unregister
  · exact unheard_finalizeUnused
  · exact unheard_retireStats
  · exact unheard_clearTable
  refine preserves_space.bind fun s => ?_
  have last : ∀ u : PUnit, (do
      if s.link ≠ .detached then throw (.stillLinked s.name)
      discard dropGate : Act Unit).Preserves Unheard :=
    fun _ => preserves_guard fun _ => unheard_dropGate.discard
  show (if left ≠ 0 then log _ _ >>= _ else _ : Act Unit).Preserves Unheard
  split
  · exact (unheard_of_steady (steady_log _ _)).bind last
  · exact last ()

/-- The freeing of a namespace tells no peer about locks. -/
theorem unheard_freePost : (freePost n).Preserves Unheard := by
  unfold freePost
  refine preserves_space.bind fun s => ?_
  split
  · exact (unheard_of_steady (steady_log _ _)).bind fun _ => preserves_pure _
  · refine Preserves.bind ?_ fun already => ?_
    · refine preserves_space.bind fun s => Preserves.bind ?_ fun _ => preserves_pure _
      exact unheard_modifySpace fun _ => rfl
    · split
      · exact (unheard_of_steady (steady_log _ _)).bind fun _ => preserves_pure _
      · refine Preserves.bind ?_ fun _ => preserves_pure _
        exact unheard_dismantle

end Act

end Lockspace
