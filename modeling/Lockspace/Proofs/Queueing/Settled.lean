import Lockspace.Proofs.Queueing.Destruction

namespace Lockspace

open Manager Act

/-- How a call may end that changes namespaces and locks only if it returns. -/
def OnlyReturns {α : Type} (m : Manager) (ok : Manager → Prop) : Except Fault α → Manager → Prop
  | .ok _, m' => ok m'
  | .error _, m' => m'.spaces = m.spaces ∧ m'.locks = m.locks

namespace Manager

/-- What holds between any two calls of callers with the references `hands`. -/
structure Settled (m : Manager) (hands : Multiset ResourceRef) : Prop where
  seated : Seated m
  discharged : Discharged m
  booked : Booked m hands

/-- What stops the drop of the last reference on a resource where locks still are queued. -/
def Stranded (m : Manager) (fault : Fault) : Prop :=
  ∃ r id, fault = .releasedWithLocks id (m.resource r).queued ∧ (m.resource r).queued ≠ 0

/-- How work may end that drops references: callers have those that they are to have, or the last
one on a resource with locks was dropped. Either way no lock is destroyed on a queue. -/
def Settles {α : Type} (hands : Multiset ResourceRef) : Except Fault α → Manager → Prop
  | .ok _, m => Settled m hands
  | .error fault, m => Seated m ∧ Discharged m ∧ Stranded m fault

variable {α : Type} {m m' : Manager} {hands hands' : Multiset ResourceRef} {n : SpaceKey}
  {l anchor : LockKey} {r : ResourceRef} {q : Queue} {locks : List LockKey}

theorem Strands.stranded (strands : m.Strands r) (still : Unmoved m m') :
    Stranded m' (.releasedWithLocks (m.resource r).id (m.resource r).queued) :=
  ⟨r, (m.resource r).id, by rw [still.queued], by rw [still.queued]; exact strands.2⟩

namespace Settled

theorem unmoved (settled : Settled m hands) (still : Unmoved m m') (booked : Booked m' hands') :
    Settled m' hands' :=
  ⟨settled.seated.unmoved still, settled.discharged.unmoved still, booked⟩

/-- What moves no lock only has to keep the books. -/
theorem ends_of_unmoved (settled : Settled m hands) {act : Act α} {after : α → Multiset ResourceRef}
    (still : act.Preserves Unmoved)
    (ends : act.Ends m (fun _ => True) fun a m' => Booked m' (after a)) :
    act.Ends m (fun _ => True) fun a m' => Settled m' (after a) :=
  (ends.and_leaves (still m)).imp fun _ _ last => settled.unmoved last.2 last.1

theorem joined (settled : Settled m hands) (referenced : (m.resource r).refcount ≠ 0)
    (whole : (m.lock l).isDestroyed = false) (free : (m.lock l).link = none)
    (order : locks.Perm (l :: m.queue r q)) : Settled (m.joined r l q locks) hands :=
  ⟨settled.seated.joined free order, settled.discharged.joined whole,
    settled.booked.joined referenced q locks⟩

/-- A lock that is on a queue leaves it. -/
theorem departed (settled : Settled m hands) (member : l ∈ m.queue r q) :
    ∃ res, (m.resource r).departed l (m.lock l) q = .ok res ∧
      Settled (m.departed r l q res) hands ∧
      ∀ s p, (m.departed r l q res).queue s p = (m.queue s p).erase l := by
  obtain ⟨res, left, seated, queue⟩ := settled.seated.departed member
  have queued := (settled.seated.lined r).queued_ne_zero.mpr ⟨q, l, member⟩
  exact ⟨res, left, ⟨seated, settled.discharged.departed,
    settled.booked.departed (settled.booked.alive r queued) left⟩, queue⟩

/-- Who is on a queue is not destroyed. -/
theorem whole (settled : Settled m hands) (link : (m.lock l).link = some q) :
    (m.lock l).isDestroyed = false := by
  by_contra gone
  rw [settled.discharged l (by simpa using gone)] at link
  cases link

theorem of_same (settled : Settled m hands) (spaces : m'.spaces = m.spaces)
    (locks : m'.locks = m.locks) : Settled m' hands := by
  have space : ∀ n, m'.space n = m.space n := fun n => by simp only [Manager.space, spaces]
  have lock : ∀ l, m'.lock l = m.lock l := fun l => by simp only [Manager.lock, locks]
  refine settled.unmoved (.of_eq locks (fun r => ?_) (fun n => ?_) fun n => ?_)
    (settled.booked.same (fun n => ?_) (fun n => ?_) ?_)
  · simp only [Manager.resource, space]
  · rw [space]
  · rw [space]
  · rw [space]
  · rw [space]
  · rw [boundRefs, boundRefs, locks]

/-- A lock that is on no queue may change as long as it stays off and keeps its reference. -/
theorem relock (settled : Settled m hands) {f : Lock → Lock} (free : (m.lock l).link = none)
    (still : (f (m.lock l)).link = none) (bound : (f (m.lock l)).bound = (m.lock l).bound) :
    Settled (m.modifyLock l f) hands := by
  refine ⟨settled.seated.relock free still, ?_, settled.booked.relock bound⟩
  refine settled.discharged.others (l := l) (fun k other => ?_) fun _ => ?_
  · rw [lock_modifyLock, if_neg other]
  · rw [lock_modifyLock, if_pos rfl]
    exact still

theorem start : Settled {} 0 := by
  have space : ∀ n, ({} : Manager).space n = default :=
    fun n => Store.get_of_size_le _ (Nat.zero_le _)
  have lock : ∀ l, ({} : Manager).lock l = default :=
    fun l => Store.get_of_size_le _ (Nat.zero_le _)
  have resource : ∀ r, ({} : Manager).resource r = default := by
    intro r
    unfold Manager.resource
    rw [space]
    exact Store.get_of_size_le _ (Nat.zero_le _)
  have queue : ∀ r q, ({} : Manager).queue r q = [] := by
    intro r q
    unfold Manager.queue
    rw [resource]
    cases q <;> rfl
  refine ⟨⟨?_, ?_, ?_, ?_, ?_⟩, ?_, ⟨?_, ?_, ?_, ?_⟩⟩
  · intro r q l member
    rw [queue] at member
    cases member
  · intro l q on
    rw [lock] at on
    cases on
  · intro r
    rw [resource]
    exact Resource.lined_of_empty rfl rfl rfl
  · intro n
    rw [space]
    rfl
  · intro n
    rw [space]
    rfl
  · intro l _
    rw [lock]
    rfl
  · intro n held
    rw [space] at held
    cases held
  · intro r member
    cases Multiset.notMem_zero r member
  · intro r referenced
    rw [resource] at referenced
    cases referenced rfl
  · intro r queued
    rw [resource] at queued
    cases queued rfl

theorem ends_newLock (settled : Settled m hands) (handle : LockHandle) (mode : LockMode)
    (extent : Option Extent) :
    (newLock handle mode extent).Ends m (fun _ => True) fun _ m' => Settled m' hands := by
  unfold newLock
  rw [ends_bind, ends_tick, ends_modifyGet]
  have ticked : Settled { m with clock := m.clock + 1 } hands := settled.of_same rfl rfl
  have unused : m.lock m.locks.nextKey = default := Store.get_of_size_le _ (Nat.le_refl _)
  have free : (m.lock m.locks.nextKey).link = none := by rw [unused]; rfl
  have unbound : (m.lock m.locks.nextKey).bound = none := by rw [unused]; rfl
  exact ticked.relock (l := m.locks.nextKey)
    (f := fun _ => { handle, mode, extent, lastUsed := m.clock + 1, owners := 1 })
    free rfl unbound.symm

/-- A new namespace has no resources, and nobody referred to any in its place. -/
theorem added (settled : Settled m hands) {fresh : Namespace} {preset : HashPreset}
    {salt : UInt64} {least : Duration} (sound : preset.isSound)
    (table : fresh.table = .new preset salt least) (total : fresh.stats.locks = 0)
    (granted : fresh.stats.granted = 0) (owned : 0 < fresh.owners) (locks : m'.locks = m.locks)
    (spaces : m'.spaces = m.spaces.set m.spaces.nextKey fresh) : Settled m' hands := by
  have space := space_added spaces
  have old : m.space m.spaces.nextKey = default := Store.get_of_size_le _ (Nat.le_refl _)
  have unowned : ¬ 0 < (m.space m.spaces.nextKey).owners := by
    rw [old]
    exact Nat.lt_irrefl 0
  have covered : (fun n => n = m.spaces.nextKey ∨ 0 < (m.space n).owners) =
      fun n => 0 < (m'.space n).owners := by
    funext n
    rw [space]
    split
    · rename_i here
      simp [here, owned]
    · rename_i other
      simp [other]
  have books := settled.booked.added unowned sound table locks spaces rfl
  rw [covered] at books
  refine settled.unmoved (.of_eq locks (resource_added table spaces) (fun n => ?_) fun n => ?_) books
  · rw [space]
    split
    · rename_i here
      rw [here, old, total]
      rfl
    · rfl
  · rw [space]
    split
    · rename_i here
      rw [here, old, granted]
      rfl
    · rfl

theorem ends_build (settled : Settled m hands) (setup : Setup) :
    (Act.build setup).Ends m (fun _ => True) fun _ m' => Settled m' hands := by
  unfold Act.build
  split
  · exact ends_pure.mpr settled
  · rename_i preset given
    simp only [ends_bind, ends_discard, ends_modifyGet, takeGate, ends_pure]
    have joined : Settled { m with
        spaces := m.spaces.set m.spaces.nextKey (setup.toNamespace preset)
        registry := { m.registry with alive := m.registry.alive + 1 }
        gauges := (setup.toNamespace preset).stats.publish 0 0 m.gauges } hands :=
      settled.added (Setup.isSound_of_preset given) rfl rfl rfl Nat.one_pos rfl rfl
    refine joined.ends_of_unmoved (unmoved_register (n := m.spaces.nextKey)) ?_
    exact (Quiet.ends_all fun k => quiet_register (n := k) m.spaces.nextKey).mono
      (fun _ _ => trivial) fun _ m' agrees => joined.booked.agrees agrees

/-- What moves no lock and may only drop a last reference. -/
theorem leaves_of_unmoved {after : Multiset ResourceRef} (settled : Settled m hands)
    {act : Act α} (still : act.Preserves Unmoved)
    (ends : act.Ends m (fun fault => ∃ r, m.Strands r ∧
      fault = .releasedWithLocks (m.resource r).id (m.resource r).queued)
      fun _ m' => Booked m' after) :
    act.Leaves m fun answer m' => Unmoved m m' ∧ Settles after answer m' := by
  refine ((still m).and_ends ends).imp fun answer m' last => ?_
  obtain ⟨unmoved, how⟩ := last
  refine ⟨unmoved, ?_⟩
  cases answer with
  | ok a => exact settled.unmoved unmoved how
  | error fault =>
    obtain ⟨r, strands, rfl⟩ := how
    exact ⟨settled.seated.unmoved unmoved, settled.discharged.unmoved unmoved,
      strands.stranded unmoved⟩

theorem leaves_disown (settled : Settled m hands) :
    (disown l).Leaves m fun answer m' => Unmoved m m' ∧ Settles hands answer m' :=
  settled.leaves_of_unmoved (steady_disown.mono fun _ _ => Steady.toUnmoved)
    settled.booked.ends_disown

theorem leaves_put (settled : Settled m (r ::ₘ hands)) :
    (put r).Leaves m fun answer m' => Unmoved m m' ∧ Settles hands answer m' :=
  settled.leaves_of_unmoved (steady_put.mono fun _ _ => Steady.toUnmoved)
    (settled.booked.ends_put.mono (fun _ failed => ⟨r, failed⟩) fun _ _ after => after.2)

/-- While a lock is on a queue, it may be bound to the resource of that queue. -/
theorem ends_bind_lock (settled : Settled m (r ::ₘ hands))
    (home : ∀ q ∈ (m.lock l).link, l ∈ m.queue r q) :
    (Act.bind l r).Ends m (fun _ => True) fun _ m' => Settled m' hands := by
  have homed : Settled (m.modifyLock l fun lk => { lk with home := some r }) (r ::ₘ hands) := by
    cases link : (m.lock l).link with
    | none => exact settled.relock link link rfl
    | some q =>
      refine settled.unmoved (Steady.toUnmoved ?_) (settled.booked.relock rfl)
      refine Manager.steady_modifyLock l rfl rfl (fun _ => ?_) rfl
      exact (settled.seated.home r q l (home q link)).symm
  have rebound : ∀ m₁ : Manager,
      Unmoved m₁ (m₁.modifyLock l fun lk => { lk with bound := some r }) := by
    refine fun m₁ => Steady.toUnmoved ?_
    exact Manager.steady_modifyLock l rfl rfl (fun _ => rfl) rfl
  unfold Act.bind rebind
  simp only [Act.ends_bind, ends_modifyLock, ends_lock, ends_pure]
  generalize (m.modifyLock l fun lk => { lk with home := some r }) = m at homed ⊢
  cases bound : (m.lock l).bound with
  | none => exact ends_pure.mpr (homed.unmoved (rebound m) (homed.booked.bound bound))
  | some old =>
    simp only [Act.ends_bind, ends_lock, ends_resource, ends_discard, ends_log]
    have handed := homed.unmoved (rebound m) (homed.booked.rebound bound)
    refine (Settled.leaves_put ?_).ends.imp fun _ _ after => after.2
    exact handed.of_same rfl rfl

theorem leaves_addLock (settled : Settled m hands) (referenced : (m.resource r).refcount ≠ 0) :
    (addLock r q l).Leaves m (OnlyReturns m fun m' => Settled m' hands) := by
  cases gone : (m.lock l).isDestroyed with
  | true => exact leaves_of_run (addLock_of_destroyed gone) settled
  | false =>
    cases link : (m.lock l).link with
    | none =>
      refine leaves_of_run (addLock_of_free gone link) ?_
      exact settled.joined referenced gone link (List.perm_append_singleton l _)
    | some on => exact (addLock_of_linked gone link).leaves fun _ => And.intro

theorem leaves_insertAfter (settled : Settled m hands)
    (referenced : (m.resource r).refcount ≠ 0) :
    (insertAfter r anchor l).Leaves m (OnlyReturns m fun m' => Settled m' hands) := by
  cases there : (m.lock anchor).link with
  | none => exact (insertAfter_of_free_anchor there).leaves fun _ => And.intro
  | some q =>
    by_cases member : anchor ∈ m.queue r q
    · cases gone : (m.lock l).isDestroyed with
      | true => exact leaves_of_run (insertAfter_of_destroyed there member gone) settled
      | false =>
        cases link : (m.lock l).link with
        | none =>
          refine leaves_of_run (insertAfter_of_free there member gone link) ?_
          exact settled.joined referenced gone link (insertBehind_perm member)
        | some on =>
          obtain ⟨fault, refuses⟩ : ∃ fault, (insertAfter r anchor l).Refuses m fault :=
            insertAfter_of_linked gone link
          exact refuses.leaves fun _ => And.intro
    · exact (insertAfter_of_anchor_elsewhere there member).leaves fun _ => And.intro

theorem leaves_unlink (settled : Settled m hands) :
    (unlink r l).Leaves m (OnlyReturns m fun m' => Settled m' hands) := by
  cases link : (m.lock l).link with
  | none => exact leaves_of_run (unlink_of_free link) settled
  | some q =>
    by_cases member : l ∈ m.queue r q
    · obtain ⟨res, left, after, -⟩ := settled.departed member
      exact leaves_of_run (unlink_of_departed link member left) after
    · exact (unlink_of_elsewhere link member).leaves fun _ => And.intro

theorem ends_destroyLock (settled : Settled m hands) :
    (destroyLock n l).Ends m (fun _ => True) fun _ m' => Settled m' hands := by
  refine (leaves_destroyLock settled.seated settled.booked n l).ends.imp fun _ m' after => ?_
  obtain ⟨taken, seated, booked, -⟩ := after
  exact ⟨seated, taken.discharged settled.discharged, booked⟩

end Settled

end Manager

end Lockspace
