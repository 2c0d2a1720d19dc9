import Lockspace.Proofs.Queueing.Drops
import Lockspace.Proofs.Queueing.Moves

namespace Lockspace

open Manager Act

namespace Manager

/-- Two states with the same locks on the same queues and with the same counts of them. -/
structure SameQueues (m m' : Manager) : Prop where
  queues : ∀ r, (m'.resource r).queues = (m.resource r).queues
  queued : ∀ r, (m'.resource r).queued = (m.resource r).queued
  locks : ∀ n, (m'.space n).stats.locks = (m.space n).stats.locks

/-- The locks of every resource and of every namespace are counted. Nothing is said about what the
locks themselves know of their queues. -/
structure Totalled (m : Manager) : Prop where
  total : ∀ r, (m.resource r).queued = (m.queue r .granted).length +
    (m.queue r .converting).length + (m.queue r .waiting).length
  locks : ∀ n, (m.space n).stats.locks = (m.space n).table.lockTotal

variable {m m' m'' : Manager} {n : SpaceKey} {l : LockKey} {r : ResourceRef} {q : Queue}

namespace SameQueues

theorem rfl : SameQueues m m :=
  ⟨fun _ => Eq.refl _, fun _ => Eq.refl _, fun _ => Eq.refl _⟩

theorem trans (first : SameQueues m m') (second : SameQueues m' m'') : SameQueues m m'' where
  queues r := (second.queues r).trans (first.queues r)
  queued r := (second.queued r).trans (first.queued r)
  locks n := (second.locks n).trans (first.locks n)

instance : IsPreorder Manager SameQueues where
  refl _ := .rfl
  trans _ _ _ := .trans

theorem of_spaces (spaces : m'.spaces = m.spaces) : SameQueues m m' := by
  have space : ∀ n, m'.space n = m.space n := fun n => by simp only [Manager.space, spaces]
  refine ⟨fun r => ?_, fun r => ?_, fun n => ?_⟩
  · rw [resource, resource, space]
  · rw [resource, resource, space]
  · rw [space]

theorem of_resources (resources : ∀ n,
      (m'.space n).table.resources = (m.space n).table.resources)
    (locks : ∀ n, (m'.space n).stats.locks = (m.space n).stats.locks) : SameQueues m m' := by
  refine ⟨fun r => ?_, fun r => ?_, locks⟩
  · rw [resource, resource, Table.resource, Table.resource, resources]
  · rw [resource, resource, Table.resource, Table.resource, resources]

theorem modifySpace {f : Namespace → Namespace}
    (resources : (f (m.space n)).table.resources = (m.space n).table.resources)
    (locks : (f (m.space n)).stats.locks = (m.space n).stats.locks) :
    SameQueues m (m.modifySpace n f) :=
  .of_resources (view_modifySpace (·.table.resources) resources)
    (view_modifySpace (·.stats.locks) locks)

theorem modifyResource {f : Resource → Resource}
    (queues : (f (m.resource r)).queues = (m.resource r).queues)
    (queued : (f (m.resource r)).queued = (m.resource r).queued) :
    SameQueues m (m.modifyResource r f) := by
  have resource : ∀ s, (m.modifyResource r f).resource s =
      if s = r then f (m.resource r) else m.resource s :=
    fun s => resource_of_table fun n => space_modifyResource m r f
  refine ⟨fun s => ?_, fun s => ?_, view_modifySpace (·.stats.locks) (Eq.refl _)⟩
  · rw [resource]
    split
    · rename_i here
      rw [queues, here]
    · rfl
  · rw [resource]
    split
    · rename_i here
      rw [queued, here]
    · rfl

end SameQueues

theorem Unmoved.sameQueues (still : Unmoved m m') : SameQueues m m' :=
  ⟨still.queues, still.queued, still.locks⟩

namespace Totalled

theorem sameQueues (totals : Totalled m) (same : SameQueues m m') : Totalled m' where
  total r := by
    unfold queue
    rw [same.queues, same.queued]
    exact totals.total r
  locks n := by
    have total : (m'.space n).table.lockTotal = (m.space n).table.lockTotal :=
      Table.lockTotal_congr fun key => same.queued ⟨n, key⟩
    rw [same.locks, totals.locks, total]

theorem empty : Totalled {} where
  total r := by
    have absent : ({} : Manager).resource r = default := by
      rw [resource, space, Store.get_of_size_le _ (Nat.zero_le _)]
      exact Store.get_of_size_le _ (Nat.zero_le _)
    unfold queue
    rw [absent]
    rfl
  locks n := by
    rw [space, Store.get_of_size_le _ (Nat.zero_le _)]
    rfl

/-- A queue that is not empty is counted. -/
theorem queued_ne_zero (totals : Totalled m) (member : l ∈ m.queue r q) :
    (m.resource r).queued ≠ 0 := by
  have positive := List.length_pos_of_mem member
  have total := totals.total r
  cases q <;> omega

theorem queue_eq_nil (totals : Totalled m) (none : (m.resource r).queued = 0) (q : Queue) :
    m.queue r q = [] :=
  List.eq_nil_iff_forall_not_mem.mpr fun _ member => totals.queued_ne_zero member none

theorem joined (totals : Totalled m) {locks : List LockKey}
    (longer : locks.length = (m.queue r q).length + 1) : Totalled (m.joined r l q locks) where
  total s := by
    rw [resource_joined, queue_joined, queue_joined, queue_joined]
    split
    · rename_i here
      subst here
      rw [Resource.queued_joined, totals.total s]
      cases q
      · simp [longer]
        omega
      · simp [longer]
        omega
      · simp [longer]
        omega
    · rename_i elsewhere
      simp only [elsewhere, false_and, if_false]
      exact totals.total s
  locks := locks_joined totals.locks

theorem departed (totals : Totalled m) {res : Resource} (member : l ∈ m.queue r q)
    (left : (m.resource r).departed l (m.lock l) q = .ok res) :
    Totalled (m.departed r l q res) where
  total s := by
    obtain ⟨queues, queued⟩ := Resource.departed_queues left
    have shorter : ((m.queue r q).erase l).length + 1 = (m.queue r q).length :=
      List.length_erase_add_one member
    unfold queue at shorter ⊢
    rw [resource_departed]
    split
    · have total := totals.total r
      unfold queue at total
      rw [queued, queues, total]
      simp only [LockQueues.get_set]
      cases q
      · simp only [reduceCtorEq, if_true, if_false]
        omega
      · simp only [reduceCtorEq, if_true, if_false]
        omega
      · simp only [reduceCtorEq, if_true, if_false]
        omega
    · exact totals.total s
  locks := by
    refine locks_departed totals.locks ?_
    have some := totals.queued_ne_zero member
    rw [(Resource.departed_queues left).2]
    omega

end Totalled

end Manager

namespace Act

variable {n : SpaceKey} {l : LockKey} {r : ResourceRef}

theorem sameQueues_of_steady {α : Type} {act : Act α} (steady : act.Preserves Steady) :
    act.Preserves SameQueues :=
  steady.mono fun _ _ still => still.toUnmoved.sameQueues

theorem sameQueues_modifySpace {f : Namespace → Namespace}
    (resources : ∀ s, (f s).table.resources = s.table.resources)
    (locks : ∀ s, (f s).stats.locks = s.stats.locks) : (modifySpace n f).Preserves SameQueues :=
  fun _ => .modifySpace (resources _) (locks _)

theorem sameQueues_takeHold : (takeHold n).Preserves SameQueues := by
  refine Preserves.bind ?_ fun _ => preserves_space.bind fun _ => preserves_pure _
  exact sameQueues_modifySpace (fun _ => rfl) fun _ => rfl

theorem sameQueues_dropHold : (dropHold n).Preserves SameQueues := by
  refine Preserves.bind (fun m => ?_) fun bref => ?_
  · unfold dropHoldCount
    simp only [leaves_bind, leaves_space, Table.dropHold?]
    split
    · exact leaves_throw.mpr .rfl
    · rename_i t dropped
      rw [leaves_bind, leaves_setTable, leaves_pure]
      refine .modifySpace ?_ rfl
      split at dropped
      · cases dropped
      · cases dropped
        rfl
  · split
    · exact (sameQueues_of_steady steady_signal).bind fun _ => preserves_pure _
    · exact preserves_pure _

theorem sameQueues_drops : DropsWithin SameQueues where
  release _ := sameQueues_of_steady steady_release
  unbound _ _ := .of_spaces rfl
  owners _ _ _ := .of_spaces rfl
  unused _ _ := sameQueues_modifySpace (fun _ => rfl) fun _ => rfl

end Act

theorem Table.resources_clearFrom (t : Table) (buckets : List BucketKey) :
    (t.clearFrom buckets).2.resources = t.resources := by
  induction buckets generalizing t with
  | nil => rfl
  | cons b rest ih => exact ih _

namespace Act

variable {n : SpaceKey}

theorem sameQueues_freePost : (freePost n).Preserves SameQueues := by
  refine sameQueues_drops.freePost n (fun _ _ => .of_spaces) (fun f table _ locks => ?_) fun m => ?_
  · exact sameQueues_modifySpace (fun s => by rw [table]) locks
  · exact .modifySpace ((m.space n).table.resources_clearFrom _) rfl

theorem sameQueues_disownSpace : (disownSpace n).Preserves SameQueues := by
  refine Preserves.bind ?_ fun _ => sameQueues_drops.dropIfDeserted n
  exact sameQueues_modifySpace (fun _ => rfl) fun _ => rfl

end Act

end Lockspace
