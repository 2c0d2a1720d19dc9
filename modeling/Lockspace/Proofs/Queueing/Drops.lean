import Lockspace.Proofs.Queueing.Books

namespace Lockspace

open Manager Act Table

namespace Manager

/-- From the first state to the second references only went. Resources keep their ids and as many
locks, and no lock got a reference. -/
structure Shed (m m' : Manager) : Prop where
  id : ∀ r, (m'.resource r).id = (m.resource r).id
  queued : ∀ r, (m'.resource r).queued = (m.resource r).queued
  bound : ∀ l r, (m'.lock l).bound = some r → (m.lock l).bound = some r

/-- A resource has locks, and the fault tells of a release of that resource. -/
def Strand (m : Manager) (r : ResourceRef) (fault : Fault) : Prop :=
  (m.resource r).queued ≠ 0 ∧
    fault = .releasedWithLocks (m.resource r).id (m.resource r).queued

/-- The fault tells of a resource with locks on which a lock owns a reference. -/
def Jams (m : Manager) (fault : Fault) : Prop :=
  ∃ l r, (m.lock l).bound = some r ∧ m.Strand r fault

variable {m m' m'' : Manager} {n : SpaceKey} {l : LockKey} {r : ResourceRef} {fault : Fault}

namespace Shed

theorem rfl : Shed m m :=
  ⟨fun _ => Eq.refl _, fun _ => Eq.refl _, fun _ _ owned => owned⟩

theorem trans (first : Shed m m') (second : Shed m' m'') : Shed m m'' where
  id r := (second.id r).trans (first.id r)
  queued r := (second.queued r).trans (first.queued r)
  bound l r owned := first.bound l r (second.bound l r owned)

instance : IsPreorder Manager Shed where
  refl _ := .rfl
  trans _ _ _ := .trans

theorem strand (shed : Shed m m') (strand : m'.Strand r fault) : m.Strand r fault := by
  unfold Strand at strand ⊢
  rwa [shed.id, shed.queued] at strand

theorem jams (shed : Shed m m') (jams : m'.Jams fault) : m.Jams fault := by
  obtain ⟨l, r, bound, strand⟩ := jams
  exact ⟨l, r, shed.bound l r bound, shed.strand strand⟩

theorem bound_ne_none (shed : Shed m m') (bound : (m'.lock l).bound ≠ none) :
    (m.lock l).bound ≠ none := by
  obtain ⟨r, owned⟩ := Option.ne_none_iff_exists'.mp bound
  rw [shed.bound l r owned]
  exact Option.some_ne_none r

theorem of_tables (locks : m'.locks = m.locks)
    (alike : ∀ n, (m.space n).table.Alike (m'.space n).table) : Shed m m' := by
  refine ⟨fun r => ?_, fun r => ?_, fun l r => ?_⟩
  · obtain ⟨_, same⟩ := alike r.space r.key
    rw [resource, same, resource]
  · obtain ⟨_, same⟩ := alike r.space r.key
    rw [resource, same, resource]
  · rw [lock, locks]
    exact fun owned => owned

theorem of_table {f : Namespace → Namespace}
    (alike : (m.space n).table.Alike (f (m.space n)).table) : Shed m (m.modifySpace n f) := by
  refine .of_tables (Eq.refl _) fun k => ?_
  rw [space_modifySpace]
  split
  · rename_i same
    rw [same]
    exact alike
  · exact .rfl

theorem modifyLock {f : Lock → Lock}
    (bound : ∀ r, (f (m.lock l)).bound = some r → (m.lock l).bound = some r) :
    Shed m (m.modifyLock l f) := by
  refine ⟨fun _ => Eq.refl _, fun _ => Eq.refl _, fun k r owned => ?_⟩
  rw [lock_modifyLock] at owned
  split at owned
  · rename_i same
    rw [same]
    exact bound r owned
  · exact owned

end Shed

end Manager

namespace Act

variable {n : SpaceKey} {l : LockKey} {r : ResourceRef}

theorem shed_modifySpace {f : Namespace → Namespace} (table : ∀ s, (f s).table = s.table) :
    (modifySpace n f).Preserves Shed := by
  intro m
  refine Shed.of_table ?_
  rw [table]
  exact .rfl

theorem shed_note (call : Callback) : (note call).Preserves Shed :=
  fun _ => .of_tables rfl fun _ => .rfl

theorem shed_log (level : Level) (text : String) : (log level text).Preserves Shed :=
  fun _ => .of_tables rfl fun _ => .rfl

theorem shed_emit (event : ResourceEvent) : (emit r event).Preserves Shed :=
  preserves_space.bind fun _ => preserves_resource.bind fun _ => shed_note _

theorem shed_release : (release r).Preserves Shed := by
  refine (preserves_releaseLocked (fun _ => .of_table alike_release) ?_).bind fun answer => ?_
  · exact preserves_get.bind fun _ => preserves_forM fun line _ => shed_log .error line.text
  · exact preserves_afterRelease shed_emit (shed_modifySpace fun _ => rfl) answer

theorem shed_drops : DropsWithin Shed where
  release _ := shed_release
  unbound _ _ := .modifyLock fun _ owned => absurd owned (by simp)
  owners _ _ _ := .modifyLock fun _ => id
  unused _ _ := shed_modifySpace fun _ => rfl

end Act

namespace Manager

namespace BookedIn

variable {covered : SpaceKey → Prop} {m m' : Manager} {hands hands' : Multiset ResourceRef}
  {holds : SpaceKey → Nat} {n : SpaceKey} {l : LockKey} {r : ResourceRef}

/-- An unused lock that nobody else holds drops its reference. -/
theorem ends_dropUnused (booked : BookedIn covered m hands holds) :
    (dropUnused l).Ends m m.Jams fun _ m' => BookedIn covered m' hands holds := by
  unfold dropUnused
  rw [ends_bind, ends_get, ends_ite]
  split
  · exact ends_pure.mpr booked
  cases bound : (m.lock l).bound with
  | none => exact ends_pure.mpr booked
  | some r =>
    rw [ends_bind, ends_modifyLock, ends_bind, ends_discard]
    refine (booked.unbound bound).ends_release.mono (fun fault failed => ?_) fun _ _ after => ?_
    · exact ⟨l, r, bound, failed.1.2, failed.2⟩
    · exact ends_pure.mpr after.2

/-- However deep the drop of a namespace reaches, it keeps the books. -/
theorem ends_dropDesertedUpTo (booked : BookedIn covered m hands holds) (depth : Nat)
    (n : SpaceKey) : (dropDesertedUpTo depth n).Ends m m.Jams fun _ m' =>
      BookedIn covered m' hands holds := by
  induction depth generalizing m n with
  | zero => exact ends_pure.mpr booked
  | succ depth ih =>
    unfold dropDesertedUpTo
    rw [ends_bind, ends_space, ends_ite]
    split
    · exact ends_pure.mpr booked
    let kept (m₁ : Manager) : Prop := BookedIn covered m₁ hands holds ∧ Shed m m₁
    have start : kept m := ⟨booked, .rfl⟩
    refine (@ends_forM _ _ _ kept _ _ start ?_).imp fun _ _ after => after.1
    rintro l - m₁ ⟨books, shed⟩
    have fewer : Shed m₁ (m₁.modifySpace n fun s => { s with lru := (s.lru.remove l).2 }) :=
      .of_table .rfl
    have same : BookedIn covered
        (m₁.modifySpace n fun s => { s with lru := (s.lru.remove l).2 }) hands holds :=
      books.agrees fun _ => agrees_modifySpace n rfl
    rw [ends_bind, ends_modifySpace, ends_bind]
    replace shed := shed.trans fewer
    generalize m₁.modifySpace n (fun s => { s with lru := (s.lru.remove l).2 }) = m₂ at shed same
    refine (same.ends_dropUnused.and_leaves (shed_drops.dropUnused l m₂)).mono
      (fun fault failed => shed.jams failed) fun next m₃ dropped => ?_
    obtain ⟨after, gone⟩ := dropped
    replace shed := shed.trans gone
    cases next with
    | none => exact ends_pure.mpr ⟨after, shed⟩
    | some next =>
      exact ((ih after next).and_leaves (shed_drops.dropDesertedUpTo depth next m₃)).mono
        (fun fault failed => shed.jams failed) fun _ _ last => ⟨last.1, shed.trans last.2⟩

/-- A caller drops a reference, which only fails on a resource with locks: that one, or one of which
a lock owned the reference that went with it. -/
theorem ends_put (booked : BookedIn covered m (r ::ₘ hands) holds) :
    (put r).Ends m (fun fault => m.Strand r fault ∨ m.Jams fault)
      fun _ m' => BookedIn covered m' hands holds := by
  unfold put
  rw [ends_bind]
  refine (booked.ends_release.and_leaves (shed_release m)).mono
    (fun fault failed => Or.inl ⟨failed.1.2, failed.2⟩) fun gone m₁ after => ?_
  obtain ⟨⟨-, released⟩, shed⟩ := after
  unfold dropIfDeserted
  rw [ends_bind, ends_bind, ends_get]
  exact (released.ends_dropDesertedUpTo _ _).mono (fun fault failed => Or.inr (shed.jams failed))
    fun _ _ last => ends_pure.mpr last

theorem ends_dropBound (booked : BookedIn covered m hands holds) :
    (dropBound l).Ends m (fun fault => (m.lock l).bound ≠ none ∧ m.Jams fault)
      fun _ m' => BookedIn covered m' hands holds := by
  unfold dropBound
  rw [ends_bind, ends_lock]
  cases bound : (m.lock l).bound with
  | none => exact ends_pure.mpr booked
  | some r =>
    have shed := (shed_drops.unbound l m).of_ok rfl
    rw [ends_bind, ends_modifyLock, ends_discard]
    refine (booked.unbound bound).ends_put.mono (fun fault failed => ?_) fun _ _ => id
    refine ⟨Option.some_ne_none r, ?_⟩
    rcases failed with strand | jams
    · exact ⟨l, r, bound, shed.strand strand⟩
    · exact shed.jams jams

/-- Who was the last to hold a lock drops its reference with it. -/
theorem ends_disown (booked : BookedIn covered m hands holds) :
    (disown l).Ends m (fun fault => (m.lock l).bound ≠ none ∧ m.Jams fault)
      fun _ m' => BookedIn covered m' hands holds := by
  have fewer : BookedIn covered (m.modifyLock l fun lk => { lk with owners := lk.owners - 1 }) hands
      holds := booked.relock rfl
  have own : ((m.modifyLock l fun lk => { lk with owners := lk.owners - 1 }).lock l).bound =
      (m.lock l).bound := view_modifyLock (·.bound) rfl l
  have shed := (shed_drops.owners l (· - 1) m).of_ok rfl
  unfold disown dropIfUnheld
  rw [ends_bind, ends_modifyLock, ends_bind, ends_get, ends_ite]
  split
  · rw [← own]
    exact fewer.ends_dropBound.mono (fun fault failed => ⟨failed.1, shed.jams failed.2⟩)
      fun _ _ => id
  · exact ends_pure.mpr fewer

end BookedIn

end Manager

end Lockspace
