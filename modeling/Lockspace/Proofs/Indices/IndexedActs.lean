import Lockspace.Proofs.CallFrames
import Lockspace.Proofs.Indices.DropFaults
import Lockspace.Proofs.Indices.Indexed

namespace Lockspace

namespace Manager

/-- No two locks have one handle. -/
def DistinctHandles (m : Manager) : Prop :=
  ∀ l ∈ m.locks.keys, ∀ k ∈ m.locks.keys, (m.lock l).handle = (m.lock k).handle → l = k

instance (m : Manager) : Decidable m.DistinctHandles :=
  inferInstanceAs (Decidable (∀ l ∈ m.locks.keys, ∀ k ∈ m.locks.keys, _ → l = k))

/-- The indices of every resource agree with its granted queue, as far as handles tell locks apart,
and no lock is queued on two resources. -/
structure Indexed (apart : Prop) (m : Manager) : Prop where
  each : ∀ r, (m.resource r).Indexed apart m.lock
  alone : ∀ r s q p l, l ∈ m.queue r q → l ∈ m.queue s p → s = r

/-- If the indices agreed with the queues before, they still do. Where handles have to tell locks
apart they do so afterwards only if they did before, since they stay with their locks. -/
def KeepsIndices (apart : Prop) (m m' : Manager) : Prop :=
  (apart → m'.DistinctHandles) →
    (apart → m.DistinctHandles) ∧ (m.Indexed apart → m'.Indexed apart)

variable {apart : Prop}

instance : IsPreorder Manager (KeepsIndices apart) where
  refl _ distinct := ⟨distinct, id⟩
  trans _ _ _ first second distinct :=
    have later := second distinct
    have sooner := first later.1
    ⟨sooner.1, later.2 ∘ sooner.2⟩

variable {m m' : Manager} {n : SpaceKey} {r : ResourceRef} {l anchor : LockKey} {q : Queue}
  {locks : List LockKey}

/-- What does not ask for handles is kept whatever they are. -/
theorem KeepsIndices.indexed (keeps : KeepsIndices False m m') (indexed : m.Indexed False) :
    m'.Indexed False :=
  (keeps False.elim).2 indexed

/-- Handles that are distinct in the end were so before, when the indices agreed. -/
theorem KeepsIndices.indexed_of_distinct (keeps : KeepsIndices True m m')
    (before : m.DistinctHandles → m.Indexed True) (distinct : m'.DistinctHandles) :
    m'.Indexed True :=
  have kept := keeps fun _ => distinct
  kept.2 (before (kept.1 trivial))

theorem mem_keys : l ∈ m.locks.keys ↔ l.index < m.locks.size := by
  obtain ⟨index⟩ := l
  simp [Store.keys, Store.size]

theorem mem_keys_of_linked (linked : (m.lock l).link ≠ none) : l ∈ m.locks.keys := by
  refine mem_keys.mpr (Nat.lt_of_not_le fun beyond => linked ?_)
  rw [Manager.lock, Store.get_of_size_le _ beyond]
  rfl

namespace DistinctHandles

/-- Where all locks have kept their handles, these were distinct if they are, whatever was added. -/
theorem of_grown (distinct : m'.DistinctHandles) (size : m.locks.size ≤ m'.locks.size)
    (same : ∀ l ∈ m.locks.keys, (m'.lock l).handle = (m.lock l).handle) : m.DistinctHandles := by
  intro l here k there equal
  have still : ∀ l ∈ m.locks.keys, l ∈ m'.locks.keys :=
    fun l member => mem_keys.mpr ((mem_keys.mp member).trans_le size)
  exact distinct l (still l here) k (still k there) (by rw [same l here, same k there, equal])

theorem of_locks (distinct : m'.DistinctHandles) (locks : m'.locks = m.locks) :
    m.DistinctHandles :=
  distinct.of_grown (by rw [locks]) fun l _ => by rw [Manager.lock, Manager.lock, locks]

theorem of_modifyLock {f : Lock → Lock} (distinct : (m.modifyLock l f).DistinctHandles)
    (keeps : (f (m.lock l)).handle = (m.lock l).handle) : m.DistinctHandles := by
  refine distinct.of_grown ?_ fun k _ => view_modifyLock (·.handle) keeps k
  show _ ≤ (m.locks.set l _).size
  rw [Store.size_set]
  exact Nat.le_max_left ..

theorem of_joined (distinct : (m.joined r l q locks).DistinctHandles) : m.DistinctHandles := by
  have claimed : ((m.claimed l q).modifyLock l fun lk => { lk with home := some r }).DistinctHandles :=
    distinct.of_locks rfl
  exact (claimed.of_modifyLock rfl).of_modifyLock rfl

theorem of_departed {res : Resource} (distinct : (m.departed r l q res).DistinctHandles) :
    m.DistinctHandles := by
  have free : (m.modifyLock l fun lk => { lk with link := none }).DistinctHandles :=
    distinct.of_locks rfl
  exact free.of_modifyLock rfl

/-- Of locks on queues none has the handle of another. -/
theorem sole (distinct : m.DistinctHandles) {res : Resource} (linked : (m.lock l).link ≠ none)
    (others : ∀ k ∈ res.queues.get .granted, (m.lock k).link ≠ none) : res.Sole m.lock l :=
  fun k member same =>
    distinct k (mem_keys_of_linked (others k member)) l (mem_keys_of_linked linked) same

end DistinctHandles

namespace Indexed

theorem start : Indexed apart ({} : Manager) := by
  have resource : ∀ r, ({} : Manager).resource r = default := by
    intro r
    have space : ({} : Manager).space r.space = default := Store.get_of_size_le _ (Nat.zero_le _)
    unfold Manager.resource
    rw [space]
    exact Store.get_of_size_le _ (Nat.zero_le _)
  refine ⟨fun r => ?_, fun r s q p l here => ?_⟩
  · rw [resource]
    exact Resource.indexed_of_empty rfl rfl rfl rfl
  · unfold Manager.queue at here
    rw [resource] at here
    cases q <;> cases here

theorem link (indexed : m.Indexed apart) (member : l ∈ m.queue r q) : (m.lock l).link = some q :=
  (indexed.each r).link q l member

theorem linked (indexed : m.Indexed apart) (member : l ∈ m.queue r q) :
    (m.lock l).link ≠ none := by
  rw [indexed.link member]
  exact Option.some_ne_none q

theorem not_mem (indexed : m.Indexed apart) (free : (m.lock l).link = none) : l ∉ m.queue r q := by
  intro member
  rw [indexed.link member] at free
  cases free

/-- Resources change as they like, as long as their queues stay and their indices agree. -/
theorem of_queues (indexed : m.Indexed apart)
    (queues : ∀ r, (m'.resource r).queues = (m.resource r).queues)
    (each : ∀ r, (m.resource r).Indexed apart m.lock → (m'.resource r).Indexed apart m'.lock) :
    m'.Indexed apart := by
  have queue : ∀ r q, m'.queue r q = m.queue r q :=
    fun r q => congrArg (LockQueues.get · q) (queues r)
  refine ⟨fun r => each r (indexed.each r), fun r s q p l here there => ?_⟩
  rw [queue] at here there
  exact indexed.alone r s q p l here there

/-- Locks that are on no queue change as they like. -/
theorem of_locks (indexed : m.Indexed apart) (resource : ∀ r, m'.resource r = m.resource r)
    (lock : ∀ r q, ∀ l ∈ m.queue r q, (m'.lock l).entry = (m.lock l).entry) :
    m'.Indexed apart := by
  refine indexed.of_queues (fun r => by rw [resource]) fun r before => ?_
  rw [resource]
  exact before.others (lock r)

/-- A lock that is on no queue joins one. -/
theorem joined (indexed : m.Indexed apart)
    (distinct : apart → (m.joined r l q locks).DistinctHandles) (free : (m.lock l).link = none)
    (order : locks.Perm (l :: m.queue r q)) : (m.joined r l q locks).Indexed apart := by
  have others : ∀ k, k ≠ l → ((m.joined r l q locks).lock k).entry = (m.lock k).entry := by
    intro k other
    rw [lock_joined, if_neg other]
  have linked : ((m.joined r l q locks).lock l).link = some q := by
    rw [lock_joined, if_pos rfl]
  have claimed : ((m.claimed l q).lock l) = { m.lock l with link := some q } := by
    rw [claimed, lock_modifyLock, if_pos rfl]
  -- Whoever is on a queue was there before, or is the lock that has come.
  have origin : ∀ s p k, k ∈ (m.joined r l q locks).queue s p →
      k ∈ m.queue s p ∨ k = l ∧ s = r := by
    intro s p k inside
    rw [queue_joined] at inside
    split at inside
    · rename_i here
      obtain ⟨rfl, rfl⟩ := here
      exact (List.mem_cons.mp (order.mem_iff.mp inside)).symm.imp id fun new => ⟨new, rfl⟩
    · exact Or.inl inside
  have sole (told : apart) : (m.resource r).Sole (m.joined r l q locks).lock l := by
    refine (distinct told).sole (by rw [linked]; exact Option.some_ne_none q) fun k member => ?_
    have other : k ≠ l := by
      rintro rfl
      exact indexed.not_mem free member
    have link : ((m.joined r l q locks).lock k).link = (m.lock k).link :=
      congrArg (·.1) (others k other)
    rw [link]
    exact indexed.linked member
  refine ⟨fun s => ?_, fun s s' p p' k here there => ?_⟩
  · rw [resource_joined]
    split
    · refine (indexed.each r).joined (fun p => indexed.not_mem free) sole order others ?_ ?_
      · rw [lock_joined, if_pos rfl, claimed]
        rfl
      · rw [claimed]
    · refine (indexed.each s).others fun p k member => others k ?_
      rintro rfl
      exact indexed.not_mem free member
  · rcases origin s p k here with old | ⟨rfl, rfl⟩
    · rcases origin s' p' k there with again | ⟨rfl, -⟩
      · exact indexed.alone s s' p p' k old again
      · exact absurd old (indexed.not_mem free)
    · rcases origin s' p' k there with again | ⟨-, rfl⟩
      · exact absurd again (indexed.not_mem free)
      · rfl

/-- A lock on a queue can leave it. -/
theorem departed (indexed : m.Indexed apart) (distinct : apart → m.DistinctHandles)
    (member : l ∈ m.queue r q) :
    ∃ res, (m.resource r).departed l (m.lock l) q = .ok res ∧
      (m.departed r l q res).Indexed apart := by
  have others : ∀ res k, k ≠ l → ((m.departed r l q res).lock k).entry = (m.lock k).entry := by
    intro res k other
    rw [lock_departed, if_neg other]
  have sole (told : apart) : (m.resource r).Sole m.lock l :=
    (distinct told).sole (indexed.linked member) fun k inside => indexed.linked (r := r) inside
  obtain ⟨res, left, -, queues⟩ := (indexed.each r).toLined.departed member fun _ _ => ⟨rfl, rfl⟩
  obtain ⟨same, again, after⟩ := (indexed.each r).departed member sole (others res)
  obtain rfl : res = same := Except.ok.inj (left.symm.trans again)
  have origin : ∀ s p k, k ∈ (m.departed r l q res).queue s p → k ∈ m.queue s p := by
    intro s p k inside
    unfold Manager.queue at inside
    rw [resource_departed] at inside
    split at inside
    · rename_i here
      rw [queues] at inside
      rw [here]
      exact ((indexed.each r).toLined.mem_left member inside).1
    · exact inside
  refine ⟨res, left, fun s => ?_, fun s s' p p' k here there => ?_⟩
  · rw [resource_departed]
    split
    · exact after
    · rename_i elsewhere
      refine (indexed.each s).others fun p k inside => others res k ?_
      rintro rfl
      exact elsewhere (indexed.alone r s q p k member inside)
  · exact indexed.alone s s' p p' k (origin s p k here) (origin s' p' k there)

end Indexed

/-- Where no lock changes, neither do handles. -/
theorem keepsIndices_of_locks (locks : m'.locks = m.locks)
    (keeps : m.Indexed apart → m'.Indexed apart) : KeepsIndices apart m m' :=
  fun distinct => ⟨fun told => (distinct told).of_locks locks, keeps⟩

/-- Another table whose resources have the same locks. -/
theorem keepsIndices_of_alike (n : SpaceKey) {t : Table} (alike : (m.space n).table.Alike t) :
    KeepsIndices apart m (m.setTable n t) := by
  have resource : ∀ r, ∃ count, (m.setTable n t).resource r =
      { m.resource r with refcount := count } := by
    intro r
    rw [resource_setTable]
    split
    · rename_i here
      obtain ⟨count, same⟩ := alike r.key
      exact ⟨count, by rw [same, Manager.resource, here]⟩
    · exact ⟨(m.resource r).refcount, rfl⟩
  refine keepsIndices_of_locks rfl fun indexed => ?_
  refine indexed.of_queues (fun r => ?_) fun r before => ?_
  · obtain ⟨count, same⟩ := resource r
    rw [same]
  · obtain ⟨count, same⟩ := resource r
    rw [same]
    exact before.recounted count

theorem keepsIndices_of_eq (spaces : m'.spaces = m.spaces) (locks : m'.locks = m.locks) :
    KeepsIndices apart m m' := by
  refine keepsIndices_of_locks locks fun indexed => ?_
  refine indexed.of_locks (fun r => ?_) fun r q l _ => ?_
  · simp only [Manager.resource, Manager.space, spaces]
  · simp only [Manager.lock, locks]

theorem keepsIndices_modifySpace (n : SpaceKey) {f : Namespace → Namespace}
    (table : (f (m.space n)).table = (m.space n).table) :
    KeepsIndices apart m (m.modifySpace n f) := by
  refine keepsIndices_of_locks rfl fun indexed => ?_
  refine indexed.of_locks (fun r => ?_) fun r q l _ => rfl
  exact congrArg (·.resource r.key) (view_modifySpace (·.table) table r.space)

theorem keepsIndices_modifyLock (l : LockKey) {f : Lock → Lock}
    (keeps : (f (m.lock l)).entry = (m.lock l).entry) :
    KeepsIndices apart m (m.modifyLock l f) := by
  refine fun distinct => ⟨fun told => (distinct told).of_modifyLock (congrArg (·.2.2.2) keeps),
    fun indexed => ?_⟩
  exact indexed.of_locks (fun _ => rfl) fun r q k _ => view_modifyLock (·.entry) keeps k

theorem keepsIndices_joined (free : (m.lock l).link = none)
    (order : locks.Perm (l :: m.queue r q)) : KeepsIndices apart m (m.joined r l q locks) :=
  fun distinct => ⟨fun told => (distinct told).of_joined,
    fun indexed => indexed.joined distinct free order⟩

theorem keepsIndices_departed {res : Resource} (member : l ∈ m.queue r q)
    (left : (m.resource r).departed l (m.lock l) q = .ok res) :
    KeepsIndices apart m (m.departed r l q res) := by
  refine fun distinct => ⟨fun told => (distinct told).of_departed, fun indexed => ?_⟩
  obtain ⟨same, again, after⟩ := indexed.departed (fun told => (distinct told).of_departed) member
  obtain rfl : res = same := Except.ok.inj (left.symm.trans again)
  exact after

end Manager

open Manager Table

namespace Act

variable {apart : Prop} {n : SpaceKey} {m : Manager} {r : ResourceRef} {l anchor : LockKey}
  {q : Queue}

theorem indices_note (call : Callback) : (note call).Preserves (KeepsIndices apart) :=
  fun _ => keepsIndices_of_eq rfl rfl

theorem indices_log (level : Level) (text : String) : (log level text).Preserves (KeepsIndices apart) :=
  fun _ => keepsIndices_of_eq rfl rfl

theorem indices_emit (event : ResourceEvent) : (emit r event).Preserves (KeepsIndices apart) :=
  preserves_space.bind fun _ => preserves_resource.bind fun _ => indices_note _

theorem indices_signal : (signal n).Preserves (KeepsIndices apart) :=
  fun _ => keepsIndices_modifySpace n rfl

theorem indices_register : (register n).Preserves (KeepsIndices apart) :=
  preserves_register (fun _ _ => keepsIndices_of_eq rfl rfl) fun _ _ =>
    keepsIndices_modifySpace n rfl

theorem indices_moveTo (side : Side) (link : NamespaceLink) :
    (moveTo side n link).Preserves (KeepsIndices apart) :=
  preserves_moveTo (fun _ _ => keepsIndices_of_eq rfl rfl) fun _ _ =>
    keepsIndices_modifySpace n rfl

theorem indices_retain : (retain r).Preserves (KeepsIndices apart) :=
  preserves_retain fun _ _ run => keepsIndices_of_alike r.space (recounted_of_incref run).alike

theorem indices_resources : (Act.resources n).Preserves (KeepsIndices apart) :=
  preserves_resources fun _ _ _ run => keepsIndices_of_alike n (snapshotFrom_cases run).2.alike

theorem indices_lookupLocked (b : BucketKey) (id : ResourceId) :
    (lookupLocked n b id).Preserves (KeepsIndices apart) :=
  preserves_step (·.lookup b id) fun _ _ _ run =>
    keepsIndices_of_alike n (recounted_of_lookup run).alike

/-- A new resource has no locks and empty indices, and there was none in its place. -/
theorem indices_insertLocked (b : BucketKey) (id : ResourceId) (rtype : ResourceType)
    (home : BucketKey) (limit seen : Nat) :
    (insertLocked n b (.new id rtype home limit) seen).Preserves (KeepsIndices apart) := by
  refine preserves_step (·.insert b (.new id rtype home limit) seen) fun m done t run => ?_
  rcases recounted_or_entered_of_insert run with counted | entered
  · exact keepsIndices_of_alike n counted.alike
  have resource : ∀ r, (m.setTable n t).resource r =
      if r = ⟨n, (m.space n).table.resources.nextKey⟩ then .new id rtype home limit
      else m.resource r := by
    rintro ⟨k, key⟩
    rw [resource_setTable, entered, resource_enter]
    by_cases here : k = n
    · subst here
      simp only [if_true, ResourceRef.mk.injEq, true_and]
      rfl
    · simp only [here, if_false, ResourceRef.mk.injEq, false_and]
  have old : m.resource ⟨n, (m.space n).table.resources.nextKey⟩ = default :=
    Store.get_of_size_le _ (Nat.le_refl _)
  refine keepsIndices_of_locks rfl fun indexed => ?_
  refine indexed.of_queues (fun r => ?_) fun r before => ?_
  · rw [resource]
    split
    · rename_i new
      rw [new, old]
      rfl
    · rfl
  · rw [resource]
    split
    · exact Resource.indexed_of_empty rfl rfl rfl rfl
    · exact before

theorem indices_getOrCreate (id : ResourceId) (rtype : ResourceType) (create : Bool) :
    (getOrCreate n id rtype create).Preserves (KeepsIndices apart) :=
  preserves_getOrCreate (fun b => indices_lookupLocked b id)
    (fun b home limit seen => indices_insertLocked b id rtype home limit seen)
    (fun _ => preserves_announce indices_emit (indices_moveTo _ _)) create

theorem indices_release : (release r).Preserves (KeepsIndices apart) := by
  have dumps : (dumpResource .error r).Preserves (KeepsIndices apart) :=
    preserves_get.bind fun _ => preserves_forM fun line _ => indices_log .error line.text
  exact (preserves_releaseLocked (fun _ => keepsIndices_of_alike r.space alike_release) dumps).bind
    (preserves_afterRelease indices_emit indices_signal)

/-- A new namespace has no resources, and no locks were queued in its place. -/
theorem indices_build (setup : Setup) : (build setup).Preserves (KeepsIndices apart) := by
  unfold build
  split
  · exact preserves_pure _
  · rename_i preset given
    refine Preserves.bind (fun _ => keepsIndices_of_eq rfl rfl) fun _ => Preserves.bind ?_ fun _ =>
      indices_register.bind fun _ => preserves_pure _
    refine fun m => keepsIndices_of_locks rfl fun indexed => ?_
    refine indexed.of_locks (fun r => ?_) fun _ _ _ _ => rfl
    exact resource_added (show (setup.toNamespace preset).table = .new .. from rfl) rfl r

/-- A new lock is on no queue, nor was any lock in its place. -/
theorem indices_newLock (handle : LockHandle) (mode : LockMode) (extent : Option Extent) :
    (newLock handle mode extent).Preserves (KeepsIndices apart) := by
  intro m
  have others : ∀ k, k ≠ m.locks.nextKey → ∀ lk,
      (m.locks.set m.locks.nextKey lk).get k = m.lock k :=
    fun k other lk => Store.get_set_of_ne _ other lk
  have unused : m.lock m.locks.nextKey = default := Store.get_of_size_le _ (Nat.le_refl _)
  refine fun distinct => ⟨fun told => (distinct told).of_grown ?_ fun k member => ?_,
    fun indexed => indexed.of_locks (fun _ => rfl) fun r q k member => ?_⟩
  · show _ ≤ (m.locks.set m.locks.nextKey _).size
    rw [Store.size_set]
    exact Nat.le_max_left ..
  · have other : k ≠ m.locks.nextKey := by
      rintro rfl
      exact Nat.lt_irrefl _ (mem_keys.mp member)
    exact congrArg Lock.handle (others k other _)
  · have other : k ≠ m.locks.nextKey := by
      rintro rfl
      exact indexed.not_mem (by rw [unused]; rfl) member
    exact congrArg Lock.entry (others k other _)

/-- A lock that is on no queue may be put onto one, and nothing else happens. -/
theorem indices_addLock : (addLock r q l).Preserves (KeepsIndices apart) := by
  intro m
  cases gone : (m.lock l).isDestroyed with
  | true => exact leaves_of_run (addLock_of_destroyed gone) (refl_of (KeepsIndices apart) m)
  | false =>
    cases link : (m.lock l).link with
    | none =>
      refine leaves_of_run (addLock_of_free gone link) ?_
      exact keepsIndices_joined link (List.perm_append_singleton l _)
    | some on => exact (addLock_of_linked gone link).leaves fun _ => keepsIndices_of_eq

theorem indices_insertAfter : (insertAfter r anchor l).Preserves (KeepsIndices apart) := by
  intro m
  cases there : (m.lock anchor).link with
  | none => exact (insertAfter_of_free_anchor there).leaves fun _ => keepsIndices_of_eq
  | some q =>
    by_cases member : anchor ∈ m.queue r q
    · cases gone : (m.lock l).isDestroyed with
      | true =>
        refine leaves_of_run (insertAfter_of_destroyed there member gone) ?_
        exact refl_of (KeepsIndices apart) m
      | false =>
        cases link : (m.lock l).link with
        | none =>
          refine leaves_of_run (insertAfter_of_free there member gone link) ?_
          exact keepsIndices_joined link (insertBehind_perm member)
        | some on =>
          obtain ⟨fault, refuses⟩ : ∃ fault, (insertAfter r anchor l).Refuses m fault :=
            insertAfter_of_linked gone link
          exact refuses.leaves fun _ => keepsIndices_of_eq
    · exact (insertAfter_of_anchor_elsewhere there member).leaves fun _ => keepsIndices_of_eq

/-- A lock that is taken off a queue has its mode counted where modes are. -/
theorem countsModes_unlink (indexed : m.Indexed apart) :
    (unlink r l).Leaves m fun answer _ => CountsModes answer := by
  cases link : (m.lock l).link with
  | none => exact leaves_of_run (unlink_of_free link) nofun
  | some q =>
    by_cases member : l ∈ m.queue r q
    · obtain ⟨res, left, -⟩ := (indexed.each r).toLined.departed member fun _ _ => ⟨rfl, rfl⟩
      exact leaves_of_run (unlink_of_departed link member left) nofun
    · exact (unlink_of_elsewhere link member).leaves fun _ _ _ => nofun

theorem indices_unlink : (unlink r l).Preserves (KeepsIndices apart) := by
  intro m
  cases link : (m.lock l).link with
  | none => exact leaves_of_run (unlink_of_free link) (refl_of (KeepsIndices apart) m)
  | some q =>
    by_cases member : l ∈ m.queue r q
    · cases left : (m.resource r).departed l (m.lock l) q with
      | ok res =>
        exact leaves_of_run (unlink_of_departed link member left) (keepsIndices_departed member left)
      | error fault => exact (unlink_of_miscounted link member left).leaves fun _ => keepsIndices_of_eq
    · exact (unlink_of_elsewhere link member).leaves fun _ => keepsIndices_of_eq

/-- Every call about resources and locks keeps the indices in agreement with the queues. -/
theorem indices_calls : CallsWithin (KeepsIndices apart) where
  others _ _ spaces locks _ := keepsIndices_of_eq spaces locks
  spaced n _ table _ := keepsIndices_modifySpace n (table _)
  relocked l _ keeps _ := keepsIndices_modifyLock l (keeps _)
  noted call _ := indices_note call
  built := indices_build
  got _ := indices_getOrCreate
  cloned _ := indices_retain
  listed _ := indices_resources
  released _ := indices_release
  made := indices_newLock
  added _ _ _ := indices_addLock
  inserted _ _ _ := indices_insertAfter
  unlinked _ _ := indices_unlink

end Act

end Lockspace
