import Lockspace.Proofs.Draining.Seats
import Lockspace.Proofs.Queueing.Drops
import Lockspace.Proofs.TableListing

namespace Lockspace

open Manager Act

namespace Manager

/-- No lock has changed, and every list of unused locks is as it was. -/
structure SameLocks (m m' : Manager) : Prop where
  locks : m'.locks = m.locks
  unused : ∀ n, (m'.space n).lru = (m.space n).lru

instance : IsPreorder Manager SameLocks where
  refl _ := ⟨rfl, fun _ => rfl⟩
  trans _ _ _ first second :=
    ⟨second.locks.trans first.locks, fun n => (second.unused n).trans (first.unused n)⟩

variable {covered : SpaceKey → Prop} {m m' : Manager} {hands : Multiset ResourceRef}
  {holds : SpaceKey → Nat} {n : SpaceKey} {l : LockKey} {r : ResourceRef} {q : Queue}
  {held : List ResourceRef}

theorem SameLocks.lock (same : SameLocks m m') (l : LockKey) : m'.lock l = m.lock l := by
  rw [Manager.lock, Manager.lock, same.locks]

theorem SameLocks.boundRefs (same : SameLocks m m') : m'.boundRefs = m.boundRefs :=
  boundRefs_congr fun l => by rw [same.lock]

theorem sameLocks_modifySpace {f : Namespace → Namespace} (unused : ∀ s, (f s).lru = s.lru) :
    SameLocks m (m.modifySpace n f) :=
  ⟨rfl, view_modifySpace (·.lru) (unused _)⟩

end Manager

/-- A release of a reference tells and logs, but has nothing to do with locks. -/
theorem Act.sameLocks_release {r : ResourceRef} : (release r).Preserves SameLocks := by
  have emits : ∀ event, (emit r event).Preserves SameLocks := fun event =>
    preserves_space.bind fun _ => preserves_resource.bind fun _ _ => ⟨rfl, fun _ => rfl⟩
  have dumps : (dumpResource .error r).Preserves SameLocks :=
    preserves_get.bind fun _ => preserves_forM fun _ _ _ => ⟨rfl, fun _ => rfl⟩
  refine (preserves_releaseLocked (fun _ => ?_) dumps).bind
    (preserves_afterRelease emits fun _ => ?_)
  · exact sameLocks_modifySpace fun _ => rfl
  · exact sameLocks_modifySpace fun _ => rfl

namespace Manager

namespace BookedIn

variable {covered : SpaceKey → Prop} {m m' : Manager} {hands : Multiset ResourceRef}
  {holds : SpaceKey → Nat} {n : SpaceKey} {l : LockKey} {r : ResourceRef} {held : List ResourceRef}

/-- A reference that somebody else has too is not the last one. -/
theorem two_le (booked : BookedIn covered m (r ::ₘ hands) holds)
    (again : r ∈ hands + m.boundRefs) : 2 ≤ (m.resource r).refcount := by
  obtain ⟨n, key⟩ := r
  have known := booked.within ⟨n, key⟩ (by simp)
  have count : (m.resource ⟨n, key⟩).refcount = _ := (booked.tallied n known).counted key
  rw [Multiset.cons_add, refKeys_cons_self, Multiset.count_cons_self] at count
  have other := Multiset.count_pos.mpr (mem_refKeys.mpr again)
  omega

/-- A caller of a namespace in use drops a reference on a resource that has no locks, or on which
somebody has another one. -/
theorem returns_put (booked : BookedIn covered m (r ::ₘ hands) holds)
    (owned : 0 < (m.space r.space).owners)
    (rooted : (m.resource r).queued ≠ 0 → r ∈ hands + m.boundRefs) :
    ∃ gone m', put r m = .ok gone m' ∧ BookedIn covered m' hands holds ∧ SameLocks m m' := by
  have free : ¬ m.Strands r := fun strands => by
    have shared := booked.two_le (rooted strands.2)
    rw [strands.1] at shared
    omega
  obtain ⟨gone, m', run, -, after⟩ :=
    (booked.ends_release.mono (fun _ failed => free failed.1) fun _ _ => id).exists_run
  have still : 0 < (m'.space r.space).owners := by
    rw [(steady_release m).of_ok run |>.owners]
    exact owned
  refine ⟨gone, m', ?_, after, (sameLocks_release m).of_ok run⟩
  unfold put
  rw [run_bind run, run_bind (run_dropIfDeserted still)]
  rfl

theorem returns_putAll (booked : BookedIn covered m (↑held + hands) holds)
    (owned : ∀ r ∈ held, 0 < (m.space r.space).owners)
    (rooted : ∀ r ∈ held, (m.resource r).queued ≠ 0 → r ∈ hands + m.boundRefs) :
    ∃ m', putAll held m = .ok () m' ∧ BookedIn covered m' hands holds ∧ SameLocks m m' := by
  induction held generalizing m with
  | nil => exact ⟨m, rfl, by simpa using booked, refl_of SameLocks m⟩
  | cons r rest ih =>
    rw [← Multiset.cons_coe, Multiset.cons_add] at booked
    obtain ⟨gone, m₁, run, after, same⟩ := booked.returns_put (owned r (List.mem_cons_self ..))
      fun queued => by
        rw [add_assoc]
        exact Multiset.mem_add.mpr (.inr (rooted r (List.mem_cons_self ..) queued))
    have steady := (steady_put m).of_ok run
    obtain ⟨m', later, last, still⟩ := ih after
      (fun s member => by
        rw [steady.owners]
        exact owned s (List.mem_cons_of_mem r member))
      fun s member queued => by
        rw [steady.queued] at queued
        rw [same.boundRefs]
        exact rooted s (List.mem_cons_of_mem r member) queued
    refine ⟨m', ?_, last, trans_of SameLocks same still⟩
    exact (run_bind (run_discard run)).trans later

/-- The resources of a namespace on the books are those that somebody references. -/
theorem hashes_iff (booked : BookedIn covered m hands holds) (known : covered r.space) :
    m.Hashes r ↔ r ∈ hands + m.boundRefs := by
  obtain ⟨n, key⟩ := r
  have books := booked.tallied n known
  rw [← mem_refKeys]
  constructor
  · rintro ⟨b, id, entry⟩
    simpa using (books.filed b id key entry).1
  · intro member
    exact ⟨_, _, books.entered key (by simpa using member)⟩

/-- A resource counts the references that there are on it. -/
theorem refcount_eq (booked : BookedIn covered m hands holds) (known : covered r.space) :
    (m.resource r).refcount = (hands + m.boundRefs).count r := by
  obtain ⟨n, key⟩ := r
  have count : (m.resource ⟨n, key⟩).refcount = _ := (booked.tallied n known).counted key
  rw [count, refKeys, Multiset.count_map, Multiset.filter_filter, Multiset.count,
    Multiset.countP_eq_card_filter]
  refine congrArg Multiset.card (Multiset.filter_congr fun s _ => ?_)
  obtain ⟨home, other⟩ := s
  rw [ResourceRef.mk.injEq]
  exact ⟨fun same => ⟨same.2.symm, same.1⟩, fun same => ⟨same.2, same.1.symm⟩⟩

/-- Every resource is listed once. -/
theorem nodup_listing (booked : BookedIn covered m hands holds) (known : covered n) :
    (m.listing n).Nodup := by
  have books := booked.tallied n known
  refine List.Nodup.map (fun _ _ same => (ResourceRef.mk.inj same).2) ?_
  refine List.nodup_flatMap.mpr ⟨fun b _ => ?_, ?_⟩
  · refine (List.Nodup.of_map _ (books.distinct b)).map_on fun x inside y member same => ?_
    have id := (books.filed b x.1 x.2 inside).2.1
    rw [same, (books.filed b y.1 y.2 member).2.1] at id
    exact Prod.ext id.symm same
  · have keys : (m.space n).table.buckets.keys.Nodup :=
      List.nodup_range.map fun _ _ same => (Key.mk.inj same)
    refine keys.imp fun {b c} apart key inside member => apart ?_
    obtain ⟨x, first, rfl⟩ := List.mem_map.mp inside
    obtain ⟨y, second, same⟩ := List.mem_map.mp member
    have home := (books.filed c y.1 y.2 second).2.2.1
    rw [same] at home
    exact (books.filed b x.1 x.2 first).2.2.1.symm.trans home

end BookedIn

end Manager

end Lockspace
