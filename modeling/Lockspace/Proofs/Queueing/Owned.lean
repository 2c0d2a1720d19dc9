import Lockspace.Proofs.Queueing.Drops

namespace Lockspace

open Manager Act Table

namespace Act

variable {m : Manager} {n : SpaceKey}

/-- A namespace that somebody holds keeps its unused locks. -/
theorem run_dropIfDeserted_of_isAlive (alive : (m.space n).isAlive = true) :
    dropIfDeserted n m = .ok () m := by
  unfold dropIfDeserted
  rw [run_bind (show (get : Act Manager) m = .ok m m from rfl)]
  cases m.spaces.size with
  | zero => rfl
  | succ depth =>
    unfold dropDesertedUpTo
    rw [run_bind (run_space n m), if_pos alive]
    rfl

theorem run_dropIfDeserted (held : 0 < (m.space n).owners) : dropIfDeserted n m = .ok () m :=
  run_dropIfDeserted_of_isAlive (by simp [Namespace.isAlive, held])

end Act

namespace Manager

/-- Every namespace has as many holders as before. -/
def SameOwners (m m' : Manager) : Prop :=
  ∀ n, (m'.space n).owners = (m.space n).owners

instance : IsPreorder Manager SameOwners where
  refl _ _ := rfl
  trans _ _ _ first second n := (second n).trans (first n)

/-- The books of all namespaces that somebody holds. -/
def Booked (m : Manager) (hands : Multiset ResourceRef) : Prop :=
  BookedIn (fun n => 0 < (m.space n).owners) m hands fun _ => 0

variable {α : Type} {m m' : Manager} {hands hands' : Multiset ResourceRef} {n : SpaceKey}
  {l : LockKey} {r : ResourceRef}

/-- Books of the namespaces that somebody holds, where those are the same as before. -/
theorem BookedIn.booked (books : BookedIn (fun n => 0 < (m.space n).owners) m' hands fun _ => 0)
    (owners : SameOwners m m') : Booked m' hands := by
  have covered : (fun n => 0 < (m'.space n).owners) = fun n => 0 < (m.space n).owners := by
    funext n
    rw [owners n]
  unfold Booked
  rwa [covered]

namespace Booked

theorem same (booked : Booked m hands) (table : ∀ n, (m'.space n).table = (m.space n).table)
    (owners : SameOwners m m') (refs : hands' + m'.boundRefs = hands + m.boundRefs) :
    Booked m' hands' :=
  (BookedIn.same booked table refs).booked owners

theorem agrees (booked : Booked m hands) (agrees : ∀ n, Agrees n m m') : Booked m' hands :=
  (BookedIn.agrees booked agrees).booked fun n => (agrees n).owners

theorem joined (booked : Booked m hands) (referenced : (m.resource r).refcount ≠ 0)
    (q : Queue) (locks : List LockKey) : Booked (m.joined r l q locks) hands := by
  refine (BookedIn.joined booked referenced q locks).booked fun n => ?_
  refine (view_modifySpace (·.owners) rfl n).trans ?_
  rw [space_modifyLock]
  exact owners_modifyResource ..

theorem departed (booked : Booked m hands) (referenced : (m.resource r).refcount ≠ 0) {q : Queue}
    {res : Resource} (left : (m.resource r).departed l (m.lock l) q = .ok res) :
    Booked (m.departed r l q res) hands := by
  refine (BookedIn.departed booked referenced left).booked fun n => ?_
  refine (view_modifySpace (·.owners) rfl n).trans ?_
  rw [space_modifyLock]
  exact owners_modifyResource ..

/-- What leaves the holders of namespaces alone keeps the books of those that are held. -/
theorem ends_of {act : Act α} {excused : Fault → Prop} {after : α → Multiset ResourceRef}
    (ends : act.Ends m excused fun a m' =>
      BookedIn (fun n => 0 < (m.space n).owners) m' (after a) fun _ => 0)
    (owners : act.Preserves SameOwners) :
    act.Ends m excused fun a m' => Booked m' (after a) :=
  (ends.and_leaves (owners m)).imp fun _ _ last => last.1.booked last.2

theorem owners_of_steady {act : Act α} (steady : act.Preserves Steady) :
    act.Preserves SameOwners :=
  steady.mono fun _ _ still => still.owners

theorem ends_retain (booked : Booked m hands) (referenced : (m.resource r).refcount ≠ 0) :
    (retain r).Ends m (fun _ => True) fun _ m' => Booked m' (r ::ₘ hands) :=
  ends_of (BookedIn.ends_retain booked referenced) (owners_of_steady steady_retain)

theorem owners_getOrCreate (id : ResourceId) (rtype : ResourceType) (create : Bool) :
    (getOrCreate n id rtype create).Preserves SameOwners := by
  refine preserves_getOrCreate (fun b => owners_of_steady (steady_lookupLocked b id)) ?_ ?_ create
  · exact fun b home limit seen => owners_of_steady (steady_insertLocked b id rtype home limit seen)
  · refine fun key => preserves_announce (fun event => owners_of_steady (steady_emit event)) ?_
    refine preserves_space.bind fun s => preserves_guard fun _ => preserves_guard fun _ => ?_
    refine preserves_get.bind fun m => ?_
    split
    · exact preserves_throw _
    · refine (preserves_modify fun m => ?_).bind fun _ => ?_
      · exact fun _ => rfl
      · exact fun m => view_modifySpace (·.owners) rfl

/-- A caller gets a reference on the resource of an id, or is refused. -/
theorem ends_getOrCreate (booked : Booked m hands) (held : 0 < (m.space n).owners)
    (id : ResourceId) (rtype : ResourceType) (create : Bool) :
    (getOrCreate n id rtype create).Ends m (fun _ => True) fun answer m' =>
      match answer with
      | .ok r => Booked m' (r ::ₘ hands)
      | .error _ => Booked m' hands := by
  refine ((BookedIn.ends_getOrCreate booked held id rtype create).and_leaves
    (owners_getOrCreate id rtype create m)).imp fun answer m' after => ?_
  cases answer with
  | ok r => exact after.1.booked after.2
  | error e => exact after.1.booked after.2

theorem ends_resources (booked : Booked m hands) (held : 0 < (m.space n).owners) :
    (Act.resources n).Ends m (fun _ => False) fun refs m' => Booked m' (↑refs + hands) :=
  ends_of (BookedIn.ends_resources booked held) (owners_of_steady steady_resources)

theorem ends_unbind (booked : Booked m hands) :
    (unbind l).Ends m (fun _ => True) fun answer m' =>
      match answer with
      | some r => Booked m' (r ::ₘ hands)
      | none => Booked m' hands := by
  refine ((BookedIn.ends_unbind booked).and_leaves (steady_unbind m)).imp fun answer m' after => ?_
  cases answer with
  | some r => exact after.1.booked after.2.owners
  | none => exact after.1.booked after.2.owners

/-- A caller drops a reference, which fails only if the locks of the resource forbid it. -/
theorem ends_put (booked : Booked m (r ::ₘ hands)) :
    (put r).Ends m
      (fun fault => m.Strands r ∧
        fault = .releasedWithLocks (m.resource r).id (m.resource r).queued)
      fun _ m' => ¬ m.Strands r ∧ Booked m' hands := by
  have held : 0 < (m.space r.space).owners := BookedIn.within booked r (by simp)
  unfold put
  rw [ends_bind]
  refine ((BookedIn.ends_release booked).and_leaves (steady_release m)).imp fun gone m₁ after => ?_
  obtain ⟨⟨free, released⟩, steady⟩ := after
  rw [ends_bind]
  rw [← steady.owners] at held
  exact ends_of_run (run_dropIfDeserted held)
    (ends_pure.mpr ⟨free, released.booked steady.owners⟩)

/-- A lock drops its reference, which fails only if the locks of the resource forbid it. -/
theorem ends_dropBound (booked : Booked m hands) :
    (dropBound l).Ends m
      (fun fault => ∃ r, (m.lock l).bound = some r ∧ m.Strands r ∧
        fault = .releasedWithLocks (m.resource r).id (m.resource r).queued)
      fun _ m' => (∀ r, (m.lock l).bound = some r → ¬ m.Strands r) ∧ Booked m' hands := by
  unfold dropBound
  rw [ends_bind, ends_lock]
  cases bound : (m.lock l).bound with
  | none => exact ends_pure.mpr ⟨nofun, booked⟩
  | some r =>
    have unbound : Booked (m.modifyLock l fun lk => { lk with bound := none }) (r ::ₘ hands) :=
      BookedIn.unbound booked bound
    rw [ends_bind, ends_modifyLock, ends_discard]
    refine unbound.ends_put.mono (fun fault failed => ⟨r, rfl, failed⟩) ?_
    rintro _ m' ⟨free, after⟩
    refine ⟨fun other same => ?_, after⟩
    cases same
    exact free

/-- Who was the last to hold a lock drops its reference with it. -/
theorem ends_disown (booked : Booked m hands) :
    (disown l).Ends m
      (fun fault => ∃ r, m.Strands r ∧
        fault = .releasedWithLocks (m.resource r).id (m.resource r).queued)
      fun _ m' => Booked m' hands := by
  have fewer : Booked (m.modifyLock l fun lk => { lk with owners := lk.owners - 1 }) hands :=
    BookedIn.relock booked rfl
  unfold disown dropIfUnheld
  rw [Act.ends_bind, ends_modifyLock, Act.ends_bind, ends_get, ends_ite]
  split
  · exact fewer.ends_dropBound.mono (fun _ ⟨r, _, failed⟩ => ⟨r, failed⟩) fun _ _ after => after.2
  · exact ends_pure.mpr fewer

end Booked

end Manager

end Lockspace
