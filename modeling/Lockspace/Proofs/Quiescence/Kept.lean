import Lockspace.Proofs.Quiescence.Totals
import Lockspace.Proofs.Quiescence.Emptied
import Lockspace.Proofs.Rolls.Enrolled

namespace Lockspace

open Manager Act Table

/-- Estimates are no concern of the books. -/
theorem Table.Tallied.estimated {t : Table} {live leaving : Multiset ResourceKey} {holds : Nat}
    (tallied : t.Tallied live leaving holds) {b : BucketKey} (inside : b.index < t.shardCount)
    (estimate : Estimate) :
    (t.modifyBucket b fun bucket => { bucket with estimate }).Tallied live leaving holds := by
  have entries : ∀ c, ((t.modifyBucket b fun bucket => { bucket with estimate }).bucket c).entries =
      (t.bucket c).entries := by
    intro c
    rw [bucket_modifyBucket]
    split
    · rename_i here
      rw [here]
    · rfl
  have shards : (t.modifyBucket b fun bucket => { bucket with estimate }).shardCount =
      t.shardCount := by
    show (t.buckets.set b _).size = t.buckets.size
    rw [Store.size_set]
    exact max_eq_left inside
  have home : ∀ id, (t.modifyBucket b fun bucket => { bucket with estimate }).bucketOf id =
      t.bucketOf id := by
    intro id
    unfold bucketOf
    rw [shards]
    rfl
  refine ⟨⟨shards.trans tallied.shaped.sized, tallied.shaped.sound⟩, tallied.counted,
    tallied.apart, fun c id key member => ?_, fun key member => ?_, tallied.known, fun c => ?_, ?_⟩
  · rw [entries] at member
    rw [home]
    exact tallied.filed c id key member
  · rw [entries]
    exact tallied.entered key member
  · rw [Bucket.Distinct, entries]
    exact tallied.distinct c
  · have occupied : (t.modifyBucket b fun bucket => { bucket with estimate }).occupied =
        t.occupied := by
      rw [occupied_eq_sum, occupied_eq_sum]
      refine Store.sum_congr Bucket.occupancy_default fun c => ?_
      have same := entries c
      unfold Table.bucket at same
      simp only [Bucket.occupancy, same]
    rw [occupied]
    exact tallied.held

/-- What callers have: references on resources, holds on namespaces, and the namespaces that were
set up. -/
structure Stakes where
  hands : Multiset ResourceRef := 0
  holds : SpaceKey → Nat := fun _ => 0
  built : List SpaceKey := []

/-- The same with more references. -/
def Stakes.beside (has : Stakes) (refs : Multiset ResourceRef) : Stakes :=
  { has with hands := refs + has.hands }

namespace Manager

/-- The second state differs from the first in nothing that concerns references, queues, signals or
the registry. -/
structure Harmless (m m' : Manager) : Prop extends SameRoll m m' where
  table : ∀ n, (m'.space n).table = (m.space n).table
  signals : ∀ n, (m'.space n).signals = (m.space n).signals
  locks : ∀ n, (m'.space n).stats.locks = (m.space n).stats.locks
  bound : ∀ l, (m'.lock l).bound = (m.lock l).bound

/-- The books of the namespaces that were set up are kept, and the locks of their resources are
counted. -/
structure Kept (m : Manager) (has : Stakes) : Prop where
  booked : BookedIn (· ∈ has.built) m has.hands has.holds
  totals : Totalled m
  unheld : ∀ n, n ∉ has.built → has.holds n = 0

variable {α : Type} {m m' m'' : Manager} {has : Stakes} {hands : Multiset ResourceRef}
  {n : SpaceKey} {l anchor : LockKey} {r : ResourceRef} {q : Queue}

namespace Harmless

theorem trans (first : Harmless m m') (second : Harmless m' m'') : Harmless m m'' where
  toSameRoll := first.toSameRoll.trans second.toSameRoll
  table n := (second.table n).trans (first.table n)
  signals n := (second.signals n).trans (first.signals n)
  locks n := (second.locks n).trans (first.locks n)
  bound l := (second.bound l).trans (first.bound l)

instance : IsPreorder Manager Harmless where
  refl _ := ⟨.rfl, fun _ => rfl, fun _ => rfl, fun _ => rfl, fun _ => rfl⟩
  trans _ _ _ := .trans

theorem of_eq (spaces : m'.spaces = m.spaces) (registry : m'.registry = m.registry)
    (bound : ∀ l, (m'.lock l).bound = (m.lock l).bound) : Harmless m m' := by
  have space : ∀ n, m'.space n = m.space n := fun n => by simp only [Manager.space, spaces]
  refine ⟨.of_eq spaces registry, fun n => ?_, fun n => ?_, fun n => ?_, bound⟩ <;> rw [space]

theorem modifyLock {f : Lock → Lock} (bound : (f (m.lock l)).bound = (m.lock l).bound) :
    Harmless m (m.modifyLock l f) :=
  .of_eq rfl rfl (view_modifyLock (·.bound) bound)

theorem modifySpace {f : Namespace → Namespace}
    (place : (f (m.space n)).place = (m.space n).place)
    (table : (f (m.space n)).table = (m.space n).table)
    (signals : (f (m.space n)).signals = (m.space n).signals)
    (locks : (f (m.space n)).stats.locks = (m.space n).stats.locks) :
    Harmless m (m.modifySpace n f) where
  toSameRoll := sameRoll_modifySpace n place
  table := view_modifySpace (·.table) table
  signals := view_modifySpace (·.signals) signals
  locks := view_modifySpace (·.stats.locks) locks
  bound _ := rfl

theorem sameQueues (harmless : Harmless m m') : SameQueues m m' :=
  .of_resources (fun n => by rw [harmless.table]) harmless.locks

end Harmless

namespace Kept

theorem empty : Kept {} {} := by
  have resource : ∀ r, ({} : Manager).resource r = default := by
    intro r
    rw [Manager.resource, space, Store.get_of_size_le _ (Nat.zero_le _)]
    exact Store.get_of_size_le _ (Nat.zero_le _)
  refine ⟨⟨fun n known => absurd known List.not_mem_nil, fun r member => ?_, fun r => ?_,
    fun r => ?_⟩, .empty, fun _ _ => rfl⟩
  · cases Multiset.notMem_zero r member
  · rw [resource]
    exact fun referenced => absurd rfl referenced
  · rw [resource]
    exact fun queued => absurd rfl queued

/-- Where no lock moves, only the references have to be kept. -/
theorem sameQueues (kept : Kept m has) (same : SameQueues m m')
    (booked : BookedIn (· ∈ has.built) m' hands has.holds) : Kept m' { has with hands } :=
  ⟨booked, kept.totals.sameQueues same, kept.unheld⟩

/-- What moves no lock and ends with kept books. -/
theorem ends_of {act : Act α} {excused : Fault → Prop} {after : α → Multiset ResourceRef}
    (kept : Kept m has) (ends : act.Ends m excused fun a m' =>
      BookedIn (· ∈ has.built) m' (after a) has.holds) (same : act.Preserves SameQueues) :
    act.Ends m excused fun a m' => Kept m' { has with hands := after a } :=
  (ends.and_leaves (same m)).imp fun _ _ last => kept.sameQueues last.2 last.1

theorem harmless (kept : Kept m has) (harmless : Harmless m m') : Kept m' has :=
  kept.sameQueues harmless.sameQueues
    (kept.booked.same harmless.table (by rw [boundRefs_congr harmless.bound]))

theorem ends_build (kept : Kept m has) (unknown : m.spaces.nextKey ∉ has.built) (setup : Setup) :
    (build setup).Ends m (fun _ => True) fun answer m' =>
      match answer with
      | .ok n => Kept m' { has with built := n :: has.built }
      | .error _ => Kept m' has := by
  unfold build
  split
  · exact ends_pure.mpr kept
  rename_i preset given
  simp only [ends_bind, ends_discard, ends_modifyGet, takeGate, ends_pure]
  have sound := Setup.isSound_of_preset given
  let m₁ : Manager := { m with
    spaces := m.spaces.set m.spaces.nextKey (setup.toNamespace preset)
    registry := { m.registry with alive := m.registry.alive + 1 }
    gauges := (setup.toNamespace preset).stats.publish 0 0 m.gauges }
  have spaces : m₁.spaces = m.spaces.set m.spaces.nextKey (setup.toNamespace preset) := rfl
  have absent : m.space m.spaces.nextKey = default := Store.get_of_size_le _ (Nat.le_refl _)
  have same : SameQueues m m₁ := by
    have resource := resource_added (show (setup.toNamespace preset).table = _ from rfl) spaces
    refine ⟨fun r => by rw [resource], fun r => by rw [resource], fun n => ?_⟩
    rw [space_added spaces]
    split
    · rename_i here
      rw [here, absent]
      rfl
    · rfl
  have booked : BookedIn (· ∈ m.spaces.nextKey :: has.built) m₁ has.hands has.holds := by
    simp only [List.mem_cons]
    exact kept.booked.added unknown sound rfl rfl spaces (kept.unheld _ unknown)
  refine ((Quiet.ends_all fun k => quiet_register (n := k) m.spaces.nextKey).mono
    (fun _ _ => trivial) fun _ _ => id).and_leaves (unmoved_register m₁) |>.imp
    fun _ m' after => ?_
  refine ⟨booked.agrees after.1, kept.totals.sameQueues (same.trans after.2.sameQueues),
    fun n unknown => kept.unheld n fun old => unknown (List.mem_cons_of_mem _ old)⟩

theorem ends_newLock (kept : Kept m has) (handle : LockHandle) (mode : LockMode)
    (extent : Option Extent) :
    (newLock handle mode extent).Ends m (fun _ => True) fun _ m' => Kept m' has := by
  unfold newLock
  rw [ends_bind, ends_tick, ends_modifyGet]
  have unused : m.lock m.locks.nextKey = default := Store.get_of_size_le _ (Nat.le_refl _)
  have ticked : Harmless m { m with clock := m.clock + 1 } := .of_eq rfl rfl fun _ => rfl
  refine kept.harmless (ticked.trans (Harmless.modifyLock (l := m.locks.nextKey)
    (f := fun _ => { handle, mode, extent, lastUsed := m.clock + 1, owners := 1 }) ?_))
  exact (congrArg Lock.bound unused).symm

theorem ends_bind_lock (kept : Kept m { has with hands := r ::ₘ hands }) :
    (Act.bind l r).Ends m (fun _ => True) fun _ m' => Kept m' { has with hands } := by
  have put {m₁ : Manager} {s : ResourceRef} (kept : Kept m₁ { has with hands := s ::ₘ hands }) :
      (put s).Ends m₁ (fun _ => True) fun _ m' => Kept m' { has with hands } :=
    kept.ends_of (kept.booked.ends_put.mono (fun _ _ => trivial) fun _ _ => id)
      (sameQueues_drops.put s)
  have homed : Kept (m.modifyLock l fun lk => { lk with home := some r })
      { has with hands := r ::ₘ hands } := kept.harmless (.modifyLock rfl)
  unfold Act.bind rebind
  simp only [ends_bind, ends_modifyLock, ends_lock, ends_pure]
  generalize (m.modifyLock l fun lk => { lk with home := some r }) = m at homed ⊢
  have rebound : SameQueues m (m.modifyLock l fun lk => { lk with bound := some r }) :=
    .of_spaces rfl
  cases bound : (m.lock l).bound with
  | none => exact ends_pure.mpr (homed.sameQueues rebound (homed.booked.bound bound))
  | some old =>
    simp only [ends_bind, ends_lock, ends_resource, ends_discard, ends_log]
    have handed : Kept (m.modifyLock l fun lk => { lk with bound := some r })
        { has with hands := old ::ₘ hands } :=
      homed.sameQueues rebound (homed.booked.rebound bound)
    refine put (handed.harmless ?_)
    exact .of_eq rfl rfl fun _ => rfl

theorem joined (kept : Kept m has) (referenced : (m.resource r).refcount ≠ 0)
    {locks : List LockKey} (longer : locks.length = (m.queue r q).length + 1) :
    Kept (m.joined r l q locks) has :=
  ⟨kept.booked.joined referenced q locks, kept.totals.joined longer, kept.unheld⟩

theorem ends_addLock (kept : Kept m has) (referenced : (m.resource r).refcount ≠ 0) :
    (addLock r q l).Ends m (fun _ => True) fun _ m' => Kept m' has := by
  refine Act.ends_addLock.imp fun _ m' after => ?_
  rcases after with rfl | ⟨-, rfl⟩
  · exact kept
  · exact kept.joined referenced (List.length_append ..)

theorem ends_insertAfter (kept : Kept m has) (referenced : (m.resource r).refcount ≠ 0) :
    (insertAfter r anchor l).Ends m (fun _ => True) fun _ m' => Kept m' has := by
  refine Act.ends_insertAfter.imp fun _ m' after => ?_
  rcases after with rfl | ⟨-, q, member, rfl⟩
  · exact kept
  · exact kept.joined referenced ((insertBehind_perm member).length_eq)

theorem ends_unlink (kept : Kept m has) :
    (unlink r l).Ends m (fun _ => True) fun _ m' => Kept m' has := by
  refine ends_unlink_cases.imp fun _ m' after => ?_
  rcases after with ⟨-, rfl⟩ | ⟨q, res, member, left, rfl⟩
  · exact kept
  · have referenced := kept.booked.alive r (kept.totals.queued_ne_zero member)
    exact ⟨kept.booked.departed referenced left, kept.totals.departed member left, kept.unheld⟩

theorem ends_destroyLock (kept : Kept m has) :
    (destroyLock n l).Ends m (fun _ => True) fun _ m' => Kept m' has := by
  have marks {m : Manager} (kept : Kept m has) :
      (markDestroyed l).Ends m (fun _ => True) fun _ m' => Kept m' has := by
    unfold markDestroyed
    rw [ends_bind, ends_lock, ends_bind, ends_modifyLock]
    exact ends_pure.mpr (kept.harmless (.modifyLock rfl))
  have drops {m : Manager} (kept : Kept m has) :
      (dropBound l).Ends m (fun _ => True) fun _ m' => Kept m' has :=
    kept.ends_of (kept.booked.ends_dropBound.mono (fun _ _ => trivial) fun _ _ => id)
      (sameQueues_drops.dropBound l)
  have leaves : (unlinkAndMark l).Ends m (fun _ => True) fun _ m' => Kept m' has := by
    unfold unlinkAndMark homeOf
    simp only [ends_bind, ends_get, ends_pure]
    split
    · rw [ends_bind]
      exact kept.ends_unlink.imp fun _ _ => marks
    · exact marks kept
  unfold destroyLock
  rw [ends_bind]
  refine leaves.imp fun first m₁ after => ?_
  split
  · rw [ends_bind, ends_discard]
    have reuses := after.ends_of ((Quiet.ends_all fun k => quiet_lockReused (n := k)).mono
      (fun _ _ => trivial) fun _ _ => after.booked.agrees) (sameQueues_drops.lockReused n l)
    exact reuses.imp fun _ _ => drops
  · exact ends_pure.mpr after

end Kept

end Manager

end Lockspace
