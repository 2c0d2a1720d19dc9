import Lockspace.Proofs.Sequential.ResourceCalls

namespace Lockspace

open Manager Table

variable {n k : SpaceKey} {m : Manager} {hands : Multiset ResourceKey} {holds : Nat}
  {key : ResourceKey} {l anchor : LockKey} {q : Queue}

open Act

namespace Orderly

/-- A lock that is on no queue gives up its reference, which a caller then has. -/
theorem unbound (orderly : Orderly n m hands holds) (free : (m.lock l).link = none)
    (bound : (m.lock l).bound = some ⟨n, key⟩) :
    Orderly n (m.modifyLock l fun lk => { lk with bound := none }) (key ::ₘ hands) holds := by
  refine orderly.relock free free (fun r none => by cases none) ?_
  rw [boundKeys_of_unbound bound, Multiset.cons_add,
    Multiset.add_cons]

theorem ends_dropBound (orderly : Orderly n m hands holds) (free : (m.lock l).link = none) :
    (dropBound l).Ends m (·.isDisorder = false) fun _ m' => Orderly n m' hands holds := by
  unfold dropBound
  rw [ends_bind, ends_lock]
  split
  · exact ends_pure.mpr orderly
  · rename_i r bound
    obtain ⟨space, key⟩ := r
    obtain rfl : space = n := orderly.spaces l _ bound
    rw [ends_bind, ends_modifyLock, ends_discard]
    exact (orderly.unbound free bound).ends_put

end Orderly

namespace Act

theorem tidy_newLock (handle : LockHandle) (mode : LockMode) (extent : Option Extent) :
    (newLock handle mode extent).Tidy n := by
  intro m hands holds orderly
  unfold newLock
  rw [ends_bind, ends_tick, ends_modifyGet]
  have ticked : Orderly n { m with clock := m.clock + 1 } hands holds :=
    orderly.agrees ⟨rfl, fun _ => rfl⟩
  have unused : m.lock m.locks.nextKey = default := Store.get_of_size_le _ (Nat.le_refl _)
  have free : (m.lock m.locks.nextKey).link = none := by rw [unused]; rfl
  refine ticked.relock (l := m.locks.nextKey)
    (f := fun _ => { handle, mode, extent, lastUsed := m.clock + 1, owners := 1 })
    free rfl (fun r none => by cases none) ?_
  congr 1
  refine boundKeys_congr fun l => ?_
  rw [lock_modifyLock]
  split
  · rename_i new
    rw [new]
    show none = (m.lock m.locks.nextKey).bound
    rw [unused]
    rfl
  · rfl

theorem tidy_dropIfUnheld : (dropIfUnheld l).Tidy n := by
  intro m hands holds orderly
  unfold dropIfUnheld
  rw [ends_bind, ends_get, ends_ite]
  split
  · rename_i unheld
    have free : (m.lock l).link = none := by
      simp only [isHeld, Lock.isLinked, Bool.not_eq_true', Bool.or_eq_false_iff,
        Option.isSome_eq_false_iff, Option.isNone_iff_eq_none] at unheld
      exact unheld.1.2
    exact orderly.ends_dropBound free
  · exact ends_pure.mpr orderly

theorem quiet_own : (own l).Quiet n :=
  quiet_modifyLock fun _ => rfl

theorem tidy_disown : (disown l).Tidy n := by
  refine (quiet_modifyLock ?_).tidy.bind fun _ => tidy_dropIfUnheld
  exact fun _ => rfl

theorem quiet_lockUnused : (lockUnused k l).Quiet n := by
  unfold lockUnused
  refine quiet_space.bind fun s => ?_
  refine quiet_lock.bind fun lk => ?_
  split
  rename_i added lru _
  refine (quiet_modifySpace ?_).bind fun _ => ?_
  · exact fun _ => rfl
  cases added with
  | false => exact quiet_pure _
  | true =>
    refine quiet_tick.bind fun now => ?_
    refine (quiet_modifyLock ?_).bind fun _ => ?_
    · exact fun _ => rfl
    · exact quiet_pure _

end Act

namespace Orderly

/-- A caller hands its reference over to a lock that is on no queue. -/
theorem ends_bindTo (orderly : Orderly n m (key ::ₘ hands) holds) (free : (m.lock l).link = none) :
    (Act.bind l ⟨n, key⟩).Ends m (·.isDisorder = false) fun _ m' => Orderly n m' hands holds := by
  have homed : Orderly n (m.modifyLock l fun lk => { lk with home := some ⟨n, key⟩ })
      (key ::ₘ hands) holds := by
    refine orderly.relock free free (orderly.spaces l) ?_
    congr 1
    refine boundKeys_congr fun j => ?_
    rw [lock_modifyLock]
    split
    · rename_i same
      rw [same]
    · rfl
  unfold Act.bind rebind
  simp only [ends_bind, ends_modifyLock, ends_lock, ends_pure]
  have free' :
      ((m.modifyLock l fun lk => { lk with home := some ⟨n, key⟩ }).lock l).link = none := by
    rw [lock_modifyLock, if_pos rfl]
    exact free
  generalize (m.modifyLock l fun lk => { lk with home := some ⟨n, key⟩ }) = m at homed free' ⊢
  have handed : Orderly n (m.modifyLock l fun lk => { lk with bound := some ⟨n, key⟩ })
      ((m.lock l).ownedKeys n + hands) holds := by
    refine homed.relock free' free' (fun r owned => by cases owned; rfl) ?_
    rw [add_comm (Lock.ownedKeys _ n), add_assoc, add_comm (Lock.ownedKeys _ n),
      boundKeys_of_bound, Multiset.add_cons, Multiset.cons_add]
  split
  · rename_i unbound
    simp only [Lock.ownedKeys, unbound, zero_add] at handed
    exact ends_pure.mpr handed
  · rename_i old bound
    obtain ⟨space, other⟩ := old
    obtain rfl : space = n := homed.spaces l _ bound
    simp only [Lock.ownedKeys, bound, if_true, Multiset.singleton_add] at handed
    simp only [ends_bind, ends_lock, ends_resource, ends_discard]
    refine (quiet_log (n := space) _ _ _).imp fun _ m' agrees => ?_
    exact (handed.agrees agrees).ends_put

/-- A caller takes the reference of a lock that is on no queue. -/
theorem ends_unbind (orderly : Orderly n m hands holds) (free : (m.lock l).link = none) :
    (unbind l).Ends m (·.isDisorder = false) fun answer m' =>
      Given n m' hands holds answer := by
  unfold unbind
  simp only [ends_bind, ends_lock, ends_modifyLock, ends_pure]
  cases bound : (m.lock l).bound with
  | none =>
    refine orderly.agrees (agrees_modifyLock l ?_)
    simp only [Lock.standing, bound]
  | some r =>
    obtain ⟨space, key⟩ := r
    obtain rfl : space = n := orderly.spaces l _ bound
    exact ⟨rfl, orderly.unbound free bound⟩

/-- A lock leaves its queue by way of the resource of that queue. -/
theorem ends_unlink (orderly : Orderly n m hands holds)
    (own : ∀ q ∈ (m.lock l).link, l ∈ ((m.space n).table.resource key).queues.get q) :
    (unlink ⟨n, key⟩ l).Ends m (·.isDisorder = false) fun _ m' =>
      Orderly n m' hands holds ∧ (m'.lock l).link = none := by
  unfold unlink
  rw [ends_bind, ends_lock]
  cases link : (m.lock l).link with
  | none => exact ends_pure.mpr ⟨orderly, link⟩
  | some q =>
    have there := own q link
    obtain ⟨res, left, after⟩ := orderly.departed there
    change (m.resource ⟨n, key⟩).departed l (m.lock l) q = .ok res at left
    change l ∈ (m.resource ⟨n, key⟩).queues.get q at there
    simp only [ends_bind, ends_resource, ends_ite, there, not_true_eq_false, if_false, left,
      ends_ofExcept, ends_modifyResource, ends_modifyLock, ends_modifySpace]
    refine ⟨after _ ?_ ?_ (fun k other => ?_) ?_ ?_, ?_⟩
    · rw [space_modifySpace, if_pos rfl, space_modifyLock]
      exact (space_modifyResource ..).trans (if_pos rfl)
    · rw [space_modifySpace, if_pos rfl, space_modifyLock]
      exact owners_modifyResource ..
    · rw [lock_modifySpace, lock_modifyLock, if_neg other, lock_modifyResource]
    · rw [lock_modifySpace, lock_modifyLock, if_pos rfl]
    · rw [lock_modifySpace, lock_modifyLock, if_pos rfl, lock_modifyResource]
    · rw [lock_modifySpace, lock_modifyLock, if_pos rfl]

end Orderly

namespace Act

/-- The first step of the destruction of a lock takes it off its queue, by way of its home. -/
theorem ends_unlinkAndMark_of_orderly (orderly : Orderly n m hands holds) :
    (unlinkAndMark l).Ends m (·.isDisorder = false) fun _ m' =>
      Orderly n m' hands holds ∧ (m'.lock l).link = none := by
  have marked : ∀ m₁ : Manager, Orderly n m₁ hands holds ∧ (m₁.lock l).link = none →
      (markDestroyed l).Ends m₁ (·.isDisorder = false) fun _ m' =>
        Orderly n m' hands holds ∧ (m'.lock l).link = none := by
    rintro m₁ ⟨after, free⟩
    refine (quiet_markDestroyed (n := n) m₁).imp fun _ m' agrees => ⟨after.agrees agrees, ?_⟩
    exact (congrArg (·.1) (agrees.locks l)).trans free
  unfold unlinkAndMark homeOf
  simp only [ends_bind, ends_get, ends_pure]
  cases link : (m.lock l).link with
  | none =>
    split
    · rw [ends_bind]
      unfold unlink
      rw [ends_bind, ends_lock, link]
      exact ends_pure.mpr (marked m ⟨orderly, link⟩)
    · exact marked m ⟨orderly, link⟩
  | some q =>
    obtain ⟨key, bound, home, member⟩ := orderly.linked l q link
    have referenced : 0 < (m.resource ⟨n, key⟩).refcount :=
      orderly.tallied.live_pos (by simp [mem_boundKeys bound])
    rw [home, Option.filter_some, if_pos (by simpa using referenced)]
    rw [ends_bind]
    have own : ∀ p ∈ (m.lock l).link, l ∈ ((m.space n).table.resource key).queues.get p := by
      intro p on
      obtain rfl : q = p := Option.some.inj (link.symm.trans on)
      exact member
    exact (orderly.ends_unlink own).imp fun _ m₁ after => marked m₁ after

/-- Whoever destroys a lock, its queue and its reference go with it. -/
theorem tidy_destroyLock : (destroyLock k l).Tidy n := by
  intro m hands holds orderly
  unfold destroyLock
  rw [ends_bind]
  refine (ends_unlinkAndMark_of_orderly orderly).imp fun first m₁ after => ?_
  cases first with
  | false => exact ends_pure.mpr after.1
  | true =>
    rw [if_pos rfl, ends_bind, ends_discard]
    refine (quiet_lockReused (n := n) m₁).imp fun _ m₂ agrees => ?_
    -- The lock left its queue first: no resource loses a reference of a lock that is queued on it.
    refine (after.1.agrees agrees).ends_dropBound ?_
    exact (congrArg (·.1) (agrees.locks l)).trans after.2

theorem tidy_complete (flags : LockFlags) : (complete .default k l flags).Tidy n := by
  refine quiet_lock.tidy.bind fun lk => (quiet_note _).tidy.bind fun _ => ?_
  show (if _ then _ else _ : Act Unit).Tidy n
  split
  · exact tidy_destroyLock
  · exact tidy_pure ()

theorem tidy_cancelLocal : (cancelLocal .default k l).Tidy n :=
  quiet_lock.tidy.bind fun _ => (quiet_note _).tidy.bind fun _ => tidy_destroyLock

end Act

namespace Orderly

/-- A lock that is bound to a resource and on no queue joins one of that resource, at whatever
place, unless it is destroyed. -/
theorem ends_enqueue (orderly : Orderly n m hands holds) (free : (m.lock l).link = none)
    (bound : (m.lock l).bound = some ⟨n, key⟩) (place : List LockKey → List LockKey)
    (order : (place (((m.space n).table.resource key).queues.get q)).Perm
      (l :: ((m.space n).table.resource key).queues.get q)) :
    (do if ← claimLink ⟨n, key⟩ l q then
      join ⟨n, key⟩ l q (place ((← resource ⟨n, key⟩).queues.get q)) : Act Unit).Ends m
      (·.isDisorder = false) fun _ m' => Orderly n m' hands holds := by
  unfold claimLink join
  simp only [ends_bind, ends_lock, ends_ite, ends_pure, free]
  split
  · exact orderly
  simp only [ends_modifyLock, ends_resource, ends_modifyResource, ends_modifySpace]
  have claimed : (m.modifyLock l fun lk => { lk with link := some q }).lock l =
      { m.lock l with link := some q } := by rw [lock_modifyLock, if_pos rfl]
  refine orderly.joined free bound { m.lock l with link := some q } rfl order ?_ ?_ ?_
    fun k other => ?_
  · rw [space_modifySpace, if_pos rfl, space_modifyLock, claimed]
    exact (space_modifyResource ..).trans (if_pos rfl)
  · rw [space_modifySpace, if_pos rfl, space_modifyLock]
    exact owners_modifyResource ..
  · rw [lock_modifySpace, lock_modifyLock, if_pos rfl, lock_modifyResource, claimed]
    simp only [Lock.standing, bound]
  · rw [lock_modifySpace, lock_modifyLock, if_neg other, lock_modifyResource, lock_modifyLock,
      if_neg other]

theorem ends_addLock (orderly : Orderly n m hands holds) (free : (m.lock l).link = none)
    (bound : (m.lock l).bound = some ⟨n, key⟩) :
    (addLock ⟨n, key⟩ q l).Ends m (·.isDisorder = false) fun _ m' => Orderly n m' hands holds :=
  orderly.ends_enqueue free bound (· ++ [l]) (List.perm_append_singleton l _)

/-- A lock joins the queue of another one that is queued on the resource. -/
theorem ends_insertAfter (orderly : Orderly n m hands holds) (free : (m.lock l).link = none)
    (bound : (m.lock l).bound = some ⟨n, key⟩)
    (queued : anchor ∈ ((m.space n).table.resource key).queues.get q) :
    (insertAfter ⟨n, key⟩ anchor l).Ends m (·.isDisorder = false) fun _ m' =>
      Orderly n m' hands holds := by
  have link := ((orderly.queued key).member q anchor queued).1
  have present : anchor ∈ (m.resource ⟨n, key⟩).queues.get q := queued
  unfold insertAfter
  rw [ends_bind, ends_resource, ends_bind, ends_lock, link]
  show (if _ then _ else _ : Act Unit).Ends m _ _
  rw [if_neg (not_not_intro present)]
  exact orderly.ends_enqueue free bound (insertBehind anchor l) (insertBehind_perm queued)

end Orderly

end Lockspace
