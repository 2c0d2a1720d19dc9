import Lockspace.Proofs.LockFrames
import Lockspace.Proofs.Recounting
import Lockspace.Proofs.Steady

namespace Lockspace

namespace Table

variable {t : Table} {key : ResourceKey}

theorem alike_evict : t.Alike (t.evict key).1 := by
  have removed : t.Alike
      (t.modifyBucket (t.resource key).bucket (·.remove (t.resource key).id)) :=
    .of_resources rfl
  simp only [evict]
  split
  · exact .rfl
  split
  · exact .rfl
  split
  · exact removed
  split
  · exact removed
  · exact .of_resources rfl

/-- However a release ends, it changes nothing but counts and entries. -/
theorem alike_release : t.Alike (t.release key).1 := by
  rcases t.release_cases key with run | run | run <;> rw [run]
  · exact .rfl
  · exact t.alike_recount key _
  · exact (t.alike_recount key 0).trans alike_evict

end Table

open Manager Table

namespace Act

variable {n k : SpaceKey} {l : LockKey} {r : ResourceRef}

theorem steady_log (level : Level) (text : String) : (log level text).Preserves Steady :=
  fun _ => Steady.of_eq rfl rfl rfl rfl

theorem steady_tick : tick.Preserves Steady :=
  fun _ => Steady.of_eq rfl rfl rfl rfl

/-- Everything but a question to a peer may be noted. -/
theorem steady_note {call : Callback} (other : call.isPeerCall = false) :
    (note call).Preserves Steady := by
  intro m
  refine Steady.of_eq rfl rfl rfl ?_
  show (m.trace.push call).filter (·.isPeerCall) = m.trace.filter (·.isPeerCall)
  rw [Array.filter_push, other]
  rfl

theorem steady_modifySpace {f : Namespace → Namespace} (table : ∀ s, (f s).table = s.table)
    (stats : ∀ s, (f s).stats = s.stats) (side : ∀ s, (f s).side = s.side)
    (owners : ∀ s, (f s).owners = s.owners) (link : ∀ s, (f s).link = s.link) :
    (modifySpace n f).Preserves Steady :=
  fun _ => Manager.steady_modifySpace n (table _) (stats _) (side _) (owners _) (link _)

theorem steady_modifyLock {f : Lock → Lock} (link : ∀ lk, (f lk).link = lk.link)
    (mode : ∀ lk, (f lk).mode = lk.mode) (home : ∀ lk, (f lk).home = lk.home)
    (flags : ∀ lk, (f lk).isDestroyed = lk.isDestroyed) :
    (modifyLock l f).Preserves Steady :=
  fun _ => Manager.steady_modifyLock l (link _) (mode _) (fun _ => home _) (flags _)

theorem steady_dump (level : Level) (lines : List DumpLine) :
    (dump level lines).Preserves Steady :=
  preserves_forM fun line _ => steady_log level line.text

theorem steady_dumpResource (level : Level) : (dumpResource level r).Preserves Steady :=
  preserves_get.bind fun _ => steady_dump level _

theorem steady_emit (event : ResourceEvent) : (emit r event).Preserves Steady :=
  preserves_space.bind fun _ => preserves_resource.bind fun _ => steady_note rfl

theorem steady_signal : (signal n).Preserves Steady := by
  refine steady_modifySpace ?_ ?_ ?_ ?_ ?_ <;> exact fun _ => rfl

theorem steady_retain : (retain r).Preserves Steady :=
  preserves_retain fun _ _ run => steady_of_alike r.space (recounted_of_incref run).alike

theorem steady_lookupLocked (b : BucketKey) (id : ResourceId) :
    (lookupLocked n b id).Preserves Steady :=
  preserves_step (·.lookup b id) fun _ _ _ run =>
    steady_of_alike n (recounted_of_lookup run).alike

/-- A new resource has no locks, and there was none in its place. -/
theorem steady_insertLocked (b : BucketKey) (id : ResourceId) (rtype : ResourceType)
    (home : BucketKey) (limit seen : Nat) :
    (insertLocked n b (.new id rtype home limit) seen).Preserves Steady := by
  refine preserves_step (·.insert b (.new id rtype home limit) seen) fun m done t run => ?_
  rcases recounted_or_entered_of_insert run with counted | rfl
  · exact steady_of_alike n counted.alike
  have old : (m.space n).table.resource (m.space n).table.resources.nextKey = default :=
    Store.get_of_size_le _ (Nat.le_refl _)
  refine Manager.steady_setTable n (fun key => ?_) (fun key => ?_) fun key lined => ?_
  · rw [resource_enter]
    split
    · rename_i new
      rw [new, old]
      rfl
    · rfl
  · rw [resource_enter]
    split
    · rename_i new
      rw [new, old]
      rfl
    · rfl
  · rw [resource_enter]
    split
    · exact Resource.lined_of_empty rfl rfl rfl
    · exact lined

theorem steady_resources : (Act.resources n).Preserves Steady :=
  preserves_resources fun _ _ _ run => steady_of_alike n (snapshotFrom_cases run).2.alike

theorem steady_releaseLocked : (releaseLocked r).Preserves Steady :=
  preserves_releaseLocked (fun _ => steady_of_alike r.space alike_release)
    (steady_dumpResource .error)

theorem steady_afterRelease (answer : Release) : (afterRelease r answer).Preserves Steady :=
  preserves_afterRelease steady_emit steady_signal answer

theorem steady_release : (release r).Preserves Steady :=
  steady_releaseLocked.bind fun answer => steady_afterRelease answer

/-- A drop moves no lock and is noticed by nobody, not even where it ends in a fault. -/
theorem steady_drops : DropsWithin Steady where
  release _ := steady_release
  unbound _ := by refine steady_modifyLock ?_ ?_ ?_ ?_ <;> exact fun _ => rfl
  owners _ _ := by refine steady_modifyLock ?_ ?_ ?_ ?_ <;> exact fun _ => rfl
  unused _ _ := by refine steady_modifySpace ?_ ?_ ?_ ?_ ?_ <;> exact fun _ => rfl

theorem steady_put : (put r).Preserves Steady :=
  steady_drops.put r

theorem steady_putAll (refs : List ResourceRef) : (putAll refs).Preserves Steady :=
  steady_drops.putAll refs

theorem steady_dropBound : (dropBound l).Preserves Steady :=
  steady_drops.dropBound l

theorem steady_own : (own l).Preserves Steady :=
  steady_drops.own l

theorem steady_disown : (disown l).Preserves Steady :=
  steady_drops.disown l

theorem steady_unbind : (unbind l).Preserves Steady :=
  steady_drops.unbind l

theorem steady_lockReused : (lockReused n l).Preserves Steady :=
  steady_drops.lockReused n l

theorem steady_lockUnused : (lockUnused n l).Preserves Steady := by
  refine preserves_lockUnused (fun lru => ?_) steady_tick fun now => ?_
  · refine steady_modifySpace ?_ ?_ ?_ ?_ ?_ <;> exact fun _ => rfl
  · refine steady_modifyLock ?_ ?_ ?_ ?_ <;> exact fun _ => rfl

theorem unmoved_moveTo (side : Side) (link : NamespaceLink) :
    (moveTo side n link).Preserves Unmoved :=
  preserves_moveTo (fun _ _ => .of_eq rfl (fun _ => rfl) (fun _ => rfl) fun _ => rfl)
    fun _ _ => unmoved_modifySpace n rfl rfl

theorem unmoved_register : (register n).Preserves Unmoved :=
  preserves_register (fun _ _ => .of_eq rfl (fun _ => rfl) (fun _ => rfl) fun _ => rfl)
    fun _ _ => unmoved_modifySpace n rfl rfl

theorem unmoved_getOrCreate (id : ResourceId) (rtype : ResourceType) (create : Bool) :
    (getOrCreate n id rtype create).Preserves Unmoved := by
  have within {α : Type} {act : Act α} (steady : act.Preserves Steady) : act.Preserves Unmoved :=
    steady.mono fun _ _ still => still.toUnmoved
  refine preserves_getOrCreate (fun b => within (steady_lookupLocked b id)) ?_ ?_ create
  · exact fun b home limit seen => within (steady_insertLocked b id rtype home limit seen)
  · exact fun key => preserves_announce (fun event => within (steady_emit event)) (unmoved_moveTo _ _)

end Act

end Lockspace
