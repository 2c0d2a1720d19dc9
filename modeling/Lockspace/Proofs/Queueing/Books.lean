import Lockspace.Proofs.Queueing.Seated
import Lockspace.Proofs.ResourceRuns
import Lockspace.Proofs.Sequential.WholeTable
import Lockspace.Proofs.SpaceLife
import Lockspace.Proofs.Unlinking

namespace Lockspace

open Table

/-- The resources of one namespace among references. -/
def refKeys (refs : Multiset ResourceRef) (n : SpaceKey) : Multiset ResourceKey :=
  (refs.filter (·.space = n)).map (·.key)

/-- The reference that a lock owns, if there is one. -/
def Lock.boundRef (lk : Lock) : Multiset ResourceRef :=
  lk.bound.elim 0 ({·})

theorem refKeys_cons_self (n : SpaceKey) (key : ResourceKey) (refs : Multiset ResourceRef) :
    refKeys (⟨n, key⟩ ::ₘ refs) n = key ::ₘ refKeys refs n := by
  simp [refKeys]

theorem refKeys_cons_of_ne {n k : SpaceKey} (other : n ≠ k) (key : ResourceKey)
    (refs : Multiset ResourceRef) : refKeys (⟨k, key⟩ ::ₘ refs) n = refKeys refs n := by
  simp [refKeys, Ne.symm other]

/-- References on resources of one namespace, among others. -/
theorem refKeys_map_add {n k : SpaceKey} (keys : List ResourceKey) (refs : Multiset ResourceRef) :
    refKeys (↑(keys.map (ResourceRef.mk k)) + refs) n =
      (if n = k then ↑keys else 0) + refKeys refs n := by
  induction keys with
  | nil => simp
  | cons key rest ih =>
    rw [List.map_cons, ← Multiset.cons_coe, Multiset.cons_add]
    by_cases here : n = k
    · subst here
      rw [refKeys_cons_self, ih, if_pos rfl, if_pos rfl, ← Multiset.cons_coe, Multiset.cons_add]
    · rw [refKeys_cons_of_ne here, ih, if_neg here, if_neg here]

theorem mem_refKeys {n : SpaceKey} {key : ResourceKey} {refs : Multiset ResourceRef} :
    key ∈ refKeys refs n ↔ ⟨n, key⟩ ∈ refs := by
  simp only [refKeys, Multiset.mem_map, Multiset.mem_filter]
  constructor
  · rintro ⟨⟨space, k⟩, ⟨member, rfl⟩, rfl⟩
    exact member
  · exact fun member => ⟨_, ⟨member, rfl⟩, rfl⟩

/-- A release of the last reference on a resource with locks drops the reference and fails. -/
theorem Table.release_of_stranded {t : Table} {key : ResourceKey}
    (last : (t.resource key).refcount = 1) (queued : (t.resource key).queued ≠ 0) :
    t.release key = (t.recount key 0,
      .error (.releasedWithLocks (t.resource key).id (t.resource key).queued)) := by
  have same : (t.recount key 0).resource key = { t.resource key with refcount := 0 } := by
    rw [resource_recount, if_pos rfl]
  rw [release_of_last last, evict_of_queued (by rw [same]; exact queued), same]

namespace Manager

/-- The references that all locks together own. -/
def boundRefs (m : Manager) : Multiset ResourceRef :=
  m.locks.sum Lock.boundRef

variable {covered : SpaceKey → Prop} {m m' : Manager} {hands hands' : Multiset ResourceRef}
  {holds holds' : SpaceKey → Nat} {n : SpaceKey} {l : LockKey} {r : ResourceRef} {key : ResourceKey}

theorem boundRefs_congr (same : ∀ l, (m'.lock l).bound = (m.lock l).bound) :
    m'.boundRefs = m.boundRefs := by
  refine Store.sum_congr rfl fun l => ?_
  have bound : (m'.locks.get l).bound = (m.locks.get l).bound := same l
  simp only [Lock.boundRef, bound]

theorem boundRefs_modifyLock (m : Manager) (l : LockKey) (f : Lock → Lock) :
    (m.modifyLock l f).boundRefs + (m.lock l).boundRef =
      m.boundRefs + (f (m.lock l)).boundRef :=
  Store.sum_set _ rfl ..

theorem mem_boundRefs : r ∈ m.boundRefs ↔ ∃ l, (m.lock l).bound = some r := by
  have owns : ∀ lk : Lock, r ∈ lk.boundRef ↔ lk.bound = some r := by
    intro lk
    cases owned : lk.bound with
    | none => simp [Lock.boundRef, owned]
    | some s => simp [Lock.boundRef, owned, eq_comm]
  constructor
  · intro member
    rw [boundRefs, m.locks.sum_eq_range rfl le_rfl] at member
    obtain ⟨i, -, inside⟩ := Multiset.mem_sum.mp member
    exact ⟨⟨i⟩, (owns _).mp inside⟩
  · rintro ⟨l, owned⟩
    obtain ⟨rest, split⟩ := m.locks.exists_sum_eq (f := Lock.boundRef) rfl l
    rw [boundRefs, split]
    exact Multiset.mem_add.mpr (Or.inl ((owns _).mpr owned))

/-- Taking the reference of a lock away takes it off those that all locks own. -/
theorem boundRefs_of_unbound (bound : (m.lock l).bound = some r) :
    m.boundRefs = r ::ₘ (m.modifyLock l fun lk => { lk with bound := none }).boundRefs := by
  have change := m.boundRefs_modifyLock l fun lk => { lk with bound := none }
  have before : (m.lock l).boundRef = {r} := by simp [Lock.boundRef, bound]
  have after : Lock.boundRef { m.lock l with bound := none } = 0 := rfl
  rw [before, after, add_zero] at change
  rw [← change, add_comm, Multiset.singleton_add]

/-- Giving a lock a reference adds it to those that all locks own, in place of an old one. -/
theorem boundRefs_of_bound (m : Manager) (l : LockKey) (r : ResourceRef) :
    (m.modifyLock l fun lk => { lk with bound := some r }).boundRefs + (m.lock l).boundRef =
      r ::ₘ m.boundRefs := by
  have after : Lock.boundRef { m.lock l with bound := some r } = {r} := rfl
  rw [boundRefs_modifyLock, after, add_comm, Multiset.singleton_add]

/-- The books of some namespaces. The references of callers and of locks together are those that the
tables count, next to the holds of callers, there are none on resources of other namespaces, and no
resource with locks on its queues has lost its last one. -/
structure BookedIn (covered : SpaceKey → Prop) (m : Manager) (hands : Multiset ResourceRef)
    (holds : SpaceKey → Nat) : Prop where
  tallied : ∀ n, covered n →
    (m.space n).table.Tallied (refKeys (hands + m.boundRefs) n) 0 (holds n)
  within : ∀ r ∈ hands + m.boundRefs, covered r.space
  held : ∀ r, (m.resource r).refcount ≠ 0 → covered r.space
  alive : ∀ r, (m.resource r).queued ≠ 0 → (m.resource r).refcount ≠ 0

/-- Whether the locks of a resource forbid that a reference on it goes, as no other is left. -/
def Strands (m : Manager) (r : ResourceRef) : Prop :=
  (m.resource r).refcount = 1 ∧ (m.resource r).queued ≠ 0

theorem space_added {fresh : Namespace}
    (spaces : m'.spaces = m.spaces.set m.spaces.nextKey fresh) (n : SpaceKey) :
    m'.space n = if n = m.spaces.nextKey then fresh else m.space n := by
  simp only [Manager.space, spaces, Store.get_set]

/-- No resource is made together with a namespace. -/
theorem resource_added {fresh : Namespace} {preset : HashPreset} {salt : UInt64} {least : Duration}
    (table : fresh.table = .new preset salt least)
    (spaces : m'.spaces = m.spaces.set m.spaces.nextKey fresh) (r : ResourceRef) :
    m'.resource r = m.resource r := by
  have absent : m.space m.spaces.nextKey = default := Store.get_of_size_le _ (Nat.le_refl _)
  have none : ∀ t : Table, t.resources.size = 0 → t.resource r.key = default :=
    fun t empty => Store.get_of_size_le _ (by omega)
  rw [Manager.resource, Manager.resource, space_added spaces]
  split
  · rename_i here
    rw [here, absent, table, none _ rfl, none _ rfl]
  · rfl

namespace BookedIn

/-- The references may change hands as long as the tables stay. -/
theorem same (booked : BookedIn covered m hands holds)
    (table : ∀ n, (m'.space n).table = (m.space n).table)
    (refs : hands' + m'.boundRefs = hands + m.boundRefs) :
    BookedIn covered m' hands' holds where
  tallied n known := by
    rw [refs, table]
    exact booked.tallied n known
  within r member := by
    rw [refs] at member
    exact booked.within r member
  held r := by
    unfold Manager.resource
    rw [table]
    exact booked.held r
  alive r := by
    unfold Manager.resource
    rw [table]
    exact booked.alive r

theorem agrees (booked : BookedIn covered m hands holds) (agrees : ∀ n, Agrees n m m') :
    BookedIn covered m' hands holds :=
  booked.same (fun n => (agrees n).table) (by rw [boundRefs_congr (agrees ⟨0⟩).bound])

/-- Another table of one namespace, whose resources with locks are all referenced. -/
theorem retable (booked : BookedIn covered m hands holds) {t : Table}
    (tallied : t.Tallied (refKeys (hands' + m.boundRefs) n) 0 (holds' n))
    (others : ∀ k, k ≠ n → refKeys (hands' + m.boundRefs) k = refKeys (hands + m.boundRefs) k)
    (known : covered n)
    (alive : ∀ key, (t.resource key).queued ≠ 0 → (t.resource key).refcount ≠ 0)
    (elsewhere : ∀ k, k ≠ n → holds' k = holds k := by intros; rfl) :
    BookedIn covered (m.setTable n t) hands' holds' where
  tallied k known := by
    show ((m.setTable n t).space k).table.Tallied (refKeys (hands' + m.boundRefs) k) 0 (holds' k)
    by_cases here : k = n
    · subst here
      rw [table_setTable]
      exact tallied
    · have away : (m.setTable n t).space k = m.space k := by
        rw [setTable, space_modifySpace, if_neg here]
      rw [away, others k here, elsewhere k here]
      exact booked.tallied k known
  held r := by
    rw [resource_setTable]
    split
    · rename_i here
      rw [here]
      exact fun _ => known
    · exact booked.held r
  within r member := by
    change r ∈ hands' + m.boundRefs at member
    by_cases here : r.space = n
    · rw [here]
      exact known
    · have key : r.key ∈ refKeys (hands + m.boundRefs) r.space := by
        rw [← others r.space here, mem_refKeys]
        exact member
      exact booked.within _ (mem_refKeys.mp key)
  alive r := by
    rw [resource_setTable]
    split
    · exact alive r.key
    · exact booked.alive r

/-- A new namespace has no resources, and nobody referred to any in its place. -/
theorem added (booked : BookedIn covered m hands holds) {fresh : Namespace} {preset : HashPreset}
    {salt : UInt64} {least : Duration} (unknown : ¬ covered m.spaces.nextKey)
    (sound : preset.isSound) (table : fresh.table = .new preset salt least)
    (locks : m'.locks = m.locks) (spaces : m'.spaces = m.spaces.set m.spaces.nextKey fresh)
    (unheld : holds m.spaces.nextKey = 0) :
    BookedIn (fun n => n = m.spaces.nextKey ∨ covered n) m' hands holds := by
  have resource := resource_added table spaces
  have bound : m'.boundRefs = m.boundRefs := by rw [boundRefs, boundRefs, locks]
  have elsewhere : ∀ r ∈ hands + m.boundRefs, r.space ≠ m.spaces.nextKey :=
    fun r member here => unknown (here ▸ booked.within r member)
  refine ⟨fun n known => ?_, fun r member => ?_, fun r => ?_, fun r => ?_⟩
  · rw [bound, space_added spaces]
    split
    · rename_i here
      have none : refKeys (hands + m.boundRefs) n = 0 := by
        refine Multiset.eq_zero_of_forall_notMem fun key member => ?_
        exact elsewhere _ (mem_refKeys.mp member) here
      rw [none, table, here, unheld]
      exact .new sound salt least
    · rename_i other
      exact booked.tallied n (known.resolve_left other)
  · rw [bound] at member
    exact Or.inr (booked.within r member)
  · rw [resource]
    exact fun referenced => Or.inr (booked.held r referenced)
  · rw [resource]
    exact booked.alive r

/-- What somebody references is on the books. -/
theorem mem_of_referenced (booked : BookedIn covered m hands holds)
    (referenced : (m.resource r).refcount ≠ 0) :
    r.key ∈ refKeys (hands + m.boundRefs) r.space := by
  have count := (booked.tallied r.space (booked.held r referenced)).counted r.key
  exact Multiset.count_pos.mp (by rw [← count]; exact Nat.pos_of_ne_zero referenced)

/-- What is on the books is referenced. -/
theorem refcount_ne_zero (booked : BookedIn covered m hands holds)
    (member : r ∈ hands + m.boundRefs) : (m.resource r).refcount ≠ 0 := by
  have count : (m.resource r).refcount = _ :=
    (booked.tallied r.space (booked.within r member)).counted r.key
  rw [count]
  exact Multiset.count_ne_zero.mpr (mem_refKeys.mpr member)

/-- A resource with locks is on the books, also once counts of references have changed. -/
theorem mem_of_queued (booked : BookedIn covered m hands holds) {t : Table}
    (alike : (m.space n).table.Alike t) (queued : (t.resource key).queued ≠ 0) :
    ((m.space n).table.resource key).queued ≠ 0 ∧ key ∈ refKeys (hands + m.boundRefs) n := by
  obtain ⟨_, same⟩ := alike key
  rw [same] at queued
  exact ⟨queued, booked.mem_of_referenced (booked.alive ⟨n, key⟩ queued)⟩

/-- One more reference on a resource that is on the books. -/
theorem referenced (booked : BookedIn covered m hands holds)
    (member : key ∈ refKeys (hands + m.boundRefs) n) :
    BookedIn covered (m.setTable n ((m.space n).table.recount key
      (((m.space n).table.resource key).refcount + 1))) (⟨n, key⟩ ::ₘ hands) holds := by
  have known := booked.within ⟨n, key⟩ (mem_refKeys.mp member)
  refine booked.retable ?_ (fun k other => ?_) known fun k queued => ?_
  · rw [Multiset.cons_add, refKeys_cons_self]
    exact (booked.tallied n known).incref member
  · rw [Multiset.cons_add, refKeys_cons_of_ne other]
  · rw [resource_recount] at queued ⊢
    split
    · exact Nat.succ_ne_zero _
    · rename_i other
      rw [if_neg other] at queued
      exact booked.alive ⟨n, k⟩ queued

end BookedIn

end Manager

open Manager Act

namespace Act

variable {α : Type} {m : Manager}

/-- What leaves every namespace alone leaves all of them alone. -/
theorem Quiet.ends_all {act : Act α} (quiet : ∀ n, act.Quiet n) :
    act.Ends m (·.isDisorder = false) fun _ m' => ∀ n, Agrees n m m' := by
  unfold Ends
  cases run : act m with
  | ok a m' => exact fun n => (quiet n m).of_ok run
  | error fault m' => exact (quiet ⟨0⟩ m).of_error run

end Act

namespace Manager

namespace BookedIn

variable {covered : SpaceKey → Prop} {m m' : Manager} {hands hands' : Multiset ResourceRef}
  {holds : SpaceKey → Nat} {n : SpaceKey} {l : LockKey} {r : ResourceRef} {key : ResourceKey}

theorem ends_retain (booked : BookedIn covered m hands holds)
    (referenced : (m.resource r).refcount ≠ 0) :
    (retain r).Ends m (fun _ => True) fun _ m' => BookedIn covered m' (r ::ₘ hands) holds := by
  have member := booked.mem_of_referenced referenced
  unfold retain
  simp only [ends_bind, ends_space, incref_of_pos (Nat.pos_of_ne_zero referenced),
    ends_ofExcept, ends_setTable]
  exact booked.referenced member

theorem ends_lookupLocked (booked : BookedIn covered m hands holds) (known : covered n)
    (b : BucketKey) (id : ResourceId) :
    (lookupLocked n b id).Ends m (fun _ => True) fun answer m' =>
      match answer with
      | .found key => BookedIn covered m' (⟨n, key⟩ ::ₘ hands) holds
      | .missing _ => BookedIn covered m' hands holds ∧ m'.space n = m.space n ∧
          ((m.space n).table.bucket b).find? id = none := by
  have books := booked.tallied n known
  unfold lookupLocked
  simp only [ends_bind, ends_space, ends_ofExcept, ends_setTable, ends_pure]
  cases found : ((m.space n).table.bucket b).find? id with
  | some key =>
    have member := books.live_of_find? (by simp) found
    simp only [lookup_of_find? found (books.live_pos member)]
    exact booked.referenced member
  | none =>
    simp only [lookup_of_absent found]
    exact ⟨booked.same (view_setTable (·.table) rfl) rfl,
      view_setTable (fun s => s) rfl n, trivial⟩

/-- A new resource of an id that is not in its bucket has a reference and no locks. -/
theorem ends_insertLocked (booked : BookedIn covered m hands holds) (known : covered n)
    {b : BucketKey} {id : ResourceId} (rtype : ResourceType) (limit seen : Nat)
    (home : (m.space n).table.bucketOf id = b)
    (absent : ((m.space n).table.bucket b).find? id = none) :
    (insertLocked n b (.new id rtype b limit) seen).Ends m (fun _ => True) fun answer m' =>
      match answer with
      | .inserted key _ _ | .raceLost key => BookedIn covered m' (⟨n, key⟩ ::ₘ hands) holds := by
  have books := booked.tallied n known
  let candidate : Resource := .new id rtype b limit
  have missing : ((m.space n).table.bucket b).find? candidate.id = none := absent
  refine ends_of_run (run_insertLocked_of_absent missing seen) ?_
  refine booked.retable ?_ (fun k other => ?_) known fun k queued => ?_
  · rw [Multiset.cons_add, refKeys_cons_self]
    exact books.enter missing rfl rfl home
  · rw [Multiset.cons_add, refKeys_cons_of_ne other]
  · rw [resource_enter] at queued ⊢
    split
    · exact Nat.one_ne_zero
    · rename_i other
      rw [if_neg other] at queued
      exact booked.alive ⟨n, k⟩ queued

/-- A caller gets a reference on the resource of an id, or is refused. -/
theorem ends_getOrCreate (booked : BookedIn covered m hands holds) (known : covered n)
    (id : ResourceId) (rtype : ResourceType) (create : Bool) :
    (getOrCreate n id rtype create).Ends m (fun _ => True) fun answer m' =>
      match answer with
      | .ok r => BookedIn covered m' (r ::ₘ hands) holds
      | .error _ => BookedIn covered m' hands holds := by
  refine Act.ends_getOrCreate trivial
    ((booked.ends_lookupLocked known _ id).imp fun answer m₁ looked => ?_)
  cases answer with
  | found key => exact looked
  | missing seen =>
    obtain ⟨still, same, absent⟩ := looked
    rw [← same] at absent ⊢
    refine ⟨still, (still.ends_insertLocked known rtype _ seen rfl absent).imp
      fun done m₂ after => ?_⟩
    cases done with
    | raceLost winner => exact after
    | inserted key first bref =>
      exact (Quiet.ends_all fun k => quiet_announce (n := k) first bref).mono (fun _ _ => trivial)
        fun _ _ agrees => after.agrees agrees

/-- A listing takes a reference on every resource that it finds. -/
theorem ends_resources (booked : BookedIn covered m hands holds) (known : covered n) :
    (Act.resources n).Ends m (fun _ => False) fun refs m' =>
      BookedIn covered m' (↑refs + hands) holds := by
  obtain ⟨keys, t, run, alike, after⟩ := (booked.tallied n known).snapshot
  unfold Act.resources
  simp only [ends_bind, ends_space, run, ends_ofExcept, ends_setTable, ends_pure]
  refine booked.retable ?_ (fun k other => ?_) known fun key queued => ?_
  · rw [add_assoc, refKeys_map_add, if_pos rfl]
    exact after
  · rw [add_assoc, refKeys_map_add, if_neg other, zero_add]
  · obtain ⟨-, member⟩ := booked.mem_of_queued alike queued
    rw [after.counted, ← Nat.pos_iff_ne_zero, Multiset.count_pos]
    exact Multiset.mem_add.mpr (Or.inr member)

/-- Only the last reference on a resource with locks cannot be dropped. -/
theorem ends_releaseLocked (booked : BookedIn covered m (r ::ₘ hands) holds) :
    (Act.releaseLocked r).Ends m
      (fun fault => m.Strands r ∧
        fault = .releasedWithLocks (m.resource r).id (m.resource r).queued)
      fun _ m' => ¬ m.Strands r ∧ BookedIn covered m' hands holds := by
  obtain ⟨n, key⟩ := r
  have known := booked.within ⟨n, key⟩ (by simp)
  have books := booked.tallied n known
  rw [Multiset.cons_add, refKeys_cons_self] at books
  have count := books.counted key
  rw [Multiset.count_cons_self] at count
  unfold Act.releaseLocked
  simp only [ends_bind, ends_space, ends_setTable]
  by_cases strands : m.Strands ⟨n, key⟩
  · rw [release_of_stranded strands.1 strands.2]
    simp only [ends_bind]
    obtain ⟨log, listed⟩ := run_dumpResource .error ⟨n, key⟩
      (m.setTable n ((m.space n).table.recount key 0))
    exact ends_of_run listed (ends_throw.mpr ⟨strands, rfl⟩)
  · have unused : key ∉ refKeys (hands + m.boundRefs) n →
        ((m.space n).table.resource key).queued = 0 := by
      intro gone
      rw [Multiset.count_eq_zero_of_notMem gone] at count
      by_contra queued
      exact strands ⟨count, queued⟩
    obtain ⟨t, answer, run, alike, after⟩ := books.release unused
    simp only [run, ends_pure]
    refine ⟨strands, booked.retable after (fun k other => ?_) known fun k queued => ?_⟩
    · rw [Multiset.cons_add, refKeys_cons_of_ne other]
    · obtain ⟨before, member⟩ := booked.mem_of_queued alike queued
      rw [Multiset.cons_add, refKeys_cons_self] at member
      rw [after.counted, ← Nat.pos_iff_ne_zero, Multiset.count_pos]
      by_contra gone
      -- Who is no longer on the books lost the last reference just now, and had no locks.
      rcases Multiset.mem_cons.mp member with rfl | stays
      · exact before (unused gone)
      · exact gone stays

/-- What follows a release changes no books and does not fail. -/
theorem ends_afterRelease (booked : BookedIn covered m hands holds) (answer : Release)
    {excused : Fault → Prop} :
    (afterRelease r answer).Ends m excused fun _ m' => BookedIn covered m' hands holds := by
  have told : ∀ (emptied : Bool) (m₁ : Manager), BookedIn covered m₁ hands holds → (do
      emit r .freed
      if emptied then emit r .bucketEmptied
      return true : Act Bool).Ends m₁ excused fun _ m' => BookedIn covered m' hands holds := by
    intro emptied m₁ after
    unfold emit
    simp only [ends_bind, ends_space, ends_resource, ends_note, ends_ite, ends_pure]
    split
    · exact after.same (fun _ => rfl) rfl
    · exact after.same (fun _ => rfl) rfl
  cases answer with
  | kept => exact ends_pure.mpr booked
  | freed emptied bref =>
    show (if _ then _ else _ : Act Bool).Ends m _ _
    split
    · rw [ends_bind, signal, ends_modifySpace]
      refine told emptied _ (booked.agrees fun n => agrees_modifySpace r.space ?_)
      rfl
    · exact told emptied m booked

theorem ends_release (booked : BookedIn covered m (r ::ₘ hands) holds) :
    (Act.release r).Ends m
      (fun fault => m.Strands r ∧
        fault = .releasedWithLocks (m.resource r).id (m.resource r).queued)
      fun _ m' => ¬ m.Strands r ∧ BookedIn covered m' hands holds := by
  unfold Act.release
  rw [ends_bind]
  refine booked.ends_releaseLocked.imp fun answer m₁ after => ?_
  exact (after.2.ends_afterRelease answer).imp fun _ _ last => ⟨after.1, last⟩

/-- A lock gives up its reference, which a caller then has. -/
theorem unbound (booked : BookedIn covered m hands holds) (bound : (m.lock l).bound = some r) :
    BookedIn covered (m.modifyLock l fun lk => { lk with bound := none }) (r ::ₘ hands) holds := by
  refine booked.same (fun _ => rfl) ?_
  rw [boundRefs_of_unbound bound, Multiset.cons_add, Multiset.add_cons]

/-- A lock that has no reference gets the one of a caller. -/
theorem bound (booked : BookedIn covered m (r ::ₘ hands) holds)
    (unbound : (m.lock l).bound = none) :
    BookedIn covered (m.modifyLock l fun lk => { lk with bound := some r }) hands holds := by
  refine booked.same (fun _ => rfl) ?_
  have change := m.boundRefs_of_bound l r
  have none : (m.lock l).boundRef = 0 := by simp [Lock.boundRef, unbound]
  rw [none, add_zero] at change
  rw [change, Multiset.cons_add, Multiset.add_cons]

/-- A lock that has a reference gets that of a caller for it. -/
theorem rebound {old : ResourceRef} (booked : BookedIn covered m (r ::ₘ hands) holds)
    (bound : (m.lock l).bound = some old) :
    BookedIn covered (m.modifyLock l fun lk => { lk with bound := some r }) (old ::ₘ hands)
      holds := by
  refine booked.same (fun _ => rfl) ?_
  have change := m.boundRefs_of_bound l r
  have owned : (m.lock l).boundRef = {old} := by simp [Lock.boundRef, bound]
  rw [owned, add_comm, Multiset.singleton_add] at change
  rw [Multiset.cons_add, ← Multiset.add_cons, change, Multiset.cons_add, Multiset.add_cons]

theorem relock (booked : BookedIn covered m hands holds) {f : Lock → Lock}
    (bound : (f (m.lock l)).bound = (m.lock l).bound) :
    BookedIn covered (m.modifyLock l f) hands holds :=
  booked.same (fun _ => rfl)
    (by rw [boundRefs_congr (view_modifyLock (·.bound) bound)])

theorem ends_unbind (booked : BookedIn covered m hands holds) :
    (unbind l).Ends m (fun _ => True) fun answer m' =>
      match answer with
      | some r => BookedIn covered m' (r ::ₘ hands) holds
      | none => BookedIn covered m' hands holds := by
  unfold unbind
  simp only [Act.ends_bind, ends_lock, ends_modifyLock, ends_pure]
  cases bound : (m.lock l).bound with
  | none => exact booked.relock bound.symm
  | some r => exact booked.unbound bound

/-- A resource that somebody references changes in nothing that concerns references. -/
theorem moved (booked : BookedIn covered m hands holds) (referenced : (m.resource r).refcount ≠ 0)
    {f : Resource → Resource} (id : (f (m.resource r)).id = (m.resource r).id)
    (bucket : (f (m.resource r)).bucket = (m.resource r).bucket)
    (count : (f (m.resource r)).refcount = (m.resource r).refcount)
    (table : ∀ n, (m'.space n).table = if n = r.space then
      (m.space n).table.modifyResource r.key f else (m.space n).table)
    (bound : ∀ l, (m'.lock l).bound = (m.lock l).bound) : BookedIn covered m' hands holds := by
  have resource : ∀ s, m'.resource s = if s = r then f (m.resource r) else m.resource s :=
    fun s => resource_of_table table
  have counts : ∀ s, (m'.resource s).refcount = (m.resource s).refcount := by
    intro s
    rw [resource]
    split
    · rename_i here
      rw [count, here]
    · rfl
  refine ⟨fun n known => ?_, fun s member => ?_, fun s => ?_, fun s queued => ?_⟩
  · have books := booked.tallied n known
    rw [boundRefs_congr bound]
    refine books.sameEntries ?_ fun key => counts ⟨n, key⟩
    rw [table]
    split
    · rename_i here
      subst here
      exact sameEntries_modifyResource (known_of_pos (Nat.pos_of_ne_zero referenced)) id bucket
    · exact .rfl
  · rw [boundRefs_congr bound] at member
    exact booked.within s member
  · rw [counts]
    exact booked.held s
  · rw [counts]
    rw [resource] at queued
    split at queued
    · rename_i here
      rw [here]
      exact referenced
    · exact booked.alive s queued

theorem joined (booked : BookedIn covered m hands holds) (referenced : (m.resource r).refcount ≠ 0)
    (q : Queue) (locks : List LockKey) : BookedIn covered (m.joined r l q locks) hands holds := by
  obtain ⟨id, bucket, count⟩ :=
    (m.resource r).joined_keeps l ((m.claimed l q).lock l) q locks
  refine booked.moved referenced id bucket count (fun _ => table_joined) fun k => ?_
  rw [lock_joined]
  split
  · rename_i same
    rw [same]
  · rfl

theorem departed (booked : BookedIn covered m hands holds)
    (referenced : (m.resource r).refcount ≠ 0)
    {q : Queue} {res : Resource} (left : (m.resource r).departed l (m.lock l) q = .ok res) :
    BookedIn covered (m.departed r l q res) hands holds := by
  obtain ⟨id, bucket, count⟩ := Resource.departed_keeps left
  refine booked.moved (f := fun _ => res) referenced id bucket count (fun _ => table_departed)
    fun k => ?_
  rw [lock_departed]
  split
  · rename_i same
    rw [same]
  · rfl

end BookedIn

end Manager

end Lockspace
