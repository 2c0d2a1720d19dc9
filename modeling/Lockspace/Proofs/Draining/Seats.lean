import Lockspace.Proofs.LockFrames
import Lockspace.Proofs.Queueing.Destruction

namespace Lockspace

open Manager Act

/-- Whether a call is about a lock, be it to the policy of its namespace or to a peer. -/
def Callback.isAboutLock : Callback → Bool
  | cancelLocal .. | completion .. | peerCancel .. => true
  | _ => false

namespace Manager

/-- The calls about locks so far, in order. -/
def lockCalls (m : Manager) : List Callback :=
  m.trace.toList.filter (·.isAboutLock)

/-- Every namespace has as many owners as before, the same side and a peer or none as before. -/
structure Alike (m m' : Manager) : Prop where
  owners : ∀ n, (m'.space n).owners = (m.space n).owners
  side : ∀ n, (m'.space n).side = (m.space n).side
  hasPeer : ∀ n, (m'.space n).hasPeer = (m.space n).hasPeer

/-- Besides, no call about a lock is made. -/
structure Discreet (m m' : Manager) : Prop extends Alike m m' where
  calls : m'.lockCalls = m.lockCalls

instance : IsPreorder Manager Alike where
  refl _ := ⟨fun _ => rfl, fun _ => rfl, fun _ => rfl⟩
  trans _ _ _ first second :=
    ⟨fun n => (second.owners n).trans (first.owners n), fun n => (second.side n).trans (first.side n),
      fun n => (second.hasPeer n).trans (first.hasPeer n)⟩

instance : IsPreorder Manager Discreet where
  refl m := ⟨refl_of Alike m, rfl⟩
  trans _ _ _ first second :=
    ⟨trans_of Alike first.toAlike second.toAlike, second.calls.trans first.calls⟩

variable {m m' m'' : Manager} {n : SpaceKey} {l k : LockKey} {r s : ResourceRef} {q p : Queue}

theorem Alike.of_spaces (spaces : m'.spaces = m.spaces) : Alike m m' := by
  have space : ∀ n, m'.space n = m.space n := fun n => by simp only [Manager.space, spaces]
  refine ⟨fun n => ?_, fun n => ?_, fun n => ?_⟩
  all_goals rw [space]

theorem alike_modifySpace {f : Namespace → Namespace} (owners : ∀ s, (f s).owners = s.owners)
    (side : ∀ s, (f s).side = s.side) (hasPeer : ∀ s, (f s).hasPeer = s.hasPeer) :
    Alike m (m.modifySpace n f) :=
  ⟨view_modifySpace (·.owners) (owners _), view_modifySpace (·.side) (side _),
    view_modifySpace (·.hasPeer) (hasPeer _)⟩

theorem lockCalls_note (call : Callback) :
    ({ m with trace := m.trace.push call } : Manager).lockCalls =
      m.lockCalls ++ if call.isAboutLock then [call] else [] := by
  unfold lockCalls
  simp only [Array.toList_push, List.filter_append, List.filter_cons, List.filter_nil]

end Manager

namespace Act

variable {n : SpaceKey} {r : ResourceRef}

theorem discreet_emit (event : ResourceEvent) : (emit r event).Preserves Discreet := by
  refine preserves_space.bind fun _ => preserves_resource.bind fun _ m => ?_
  exact ⟨.of_spaces rfl, (lockCalls_note _).trans (List.append_nil _)⟩

theorem discreet_modifySpace {f : Namespace → Namespace} (owners : ∀ s, (f s).owners = s.owners)
    (side : ∀ s, (f s).side = s.side) (hasPeer : ∀ s, (f s).hasPeer = s.hasPeer) :
    (modifySpace n f).Preserves Discreet :=
  fun _ => ⟨alike_modifySpace owners side hasPeer, rfl⟩

theorem discreet_drops : DropsWithin Discreet where
  release r := by
    have logs : ∀ level text, (log level text).Preserves Discreet :=
      fun _ _ _ => ⟨.of_spaces rfl, rfl⟩
    have changes : ∀ t, (setTable r.space t).Preserves Discreet := fun t => by
      refine discreet_modifySpace ?_ ?_ ?_ <;> exact fun _ => rfl
    refine (preserves_releaseLocked (fun m => changes _ m) ?_).bind fun answer =>
      preserves_afterRelease discreet_emit ?_ answer
    · exact preserves_get.bind fun _ => preserves_forM fun line _ => logs .error line.text
    · refine discreet_modifySpace ?_ ?_ ?_ <;> exact fun _ => rfl
  unbound _ _ := ⟨.of_spaces rfl, rfl⟩
  owners _ _ _ := ⟨.of_spaces rfl, rfl⟩
  unused _ _ := by refine discreet_modifySpace ?_ ?_ ?_ <;> exact fun _ => rfl

theorem discreet_locks : LocksWithin Discreet where
  lock _ _ _ := ⟨.of_spaces rfl, rfl⟩
  resource _ _ := by refine discreet_modifySpace ?_ ?_ ?_ <;> exact fun _ => rfl
  stats _ _ := by refine discreet_modifySpace ?_ ?_ ?_ <;> exact fun _ => rfl
  logged _ _ _ := ⟨.of_spaces rfl, rfl⟩

end Act

namespace Manager

variable {m m' m'' : Manager} {n : SpaceKey} {l k : LockKey} {r s : ResourceRef} {q p : Queue}

/-- The state with one reference fewer on a resource. -/
def released (m : Manager) (r : ResourceRef) : Manager :=
  m.setTable r.space ((m.space r.space).table.recount r.key ((m.resource r).refcount - 1))

theorem steady_released : Steady m (m.released r) :=
  steady_of_alike r.space (Table.alike_recount _ _ _)

theorem lock_released : (m.released r).lock l = m.lock l :=
  rfl

theorem lru_released : ((m.released r).space n).lru = (m.space n).lru := by
  unfold released setTable
  rw [space_modifySpace]
  split
  · rename_i here
    rw [here]
  · rfl

theorem refcount_released : ((m.released r).resource s).refcount =
    if s = r then (m.resource r).refcount - 1 else (m.resource s).refcount := by
  obtain ⟨n, key⟩ := s
  obtain ⟨home, other⟩ := r
  unfold released
  rw [resource_setTable, Table.resource_recount]
  by_cases here : n = home
  · subst here
    by_cases same : key = other
    · subst same
      simp
    · simp [same, Manager.resource]
  · simp [here]

/-- The reference that a lock owns is not the last one on its resource, and the namespace of that is
in use. -/
def Shares (m : Manager) (l : LockKey) : Prop :=
  ∀ s, (m.lock l).bound = some s → 0 < (m.space s.space).owners ∧ 2 ≤ (m.resource s).refcount

/-- The state once a lock has dropped its reference. -/
def unbound (m : Manager) (l : LockKey) : Manager :=
  match (m.lock l).bound with
  | none => m
  | some s => (m.modifyLock l fun lk => { lk with bound := none }).released s

theorem run_put_shared (owned : 0 < (m.space r.space).owners)
    (shared : 2 ≤ (m.resource r).refcount) : put r m = .ok false (m.released r) := by
  have released : releaseLocked r m = .ok .kept (m.released r) := by
    unfold releaseLocked
    rw [run_bind (run_space r.space m), Table.release_of_shared shared]
    rfl
  have still : 0 < ((m.released r).space r.space).owners := by
    rw [steady_released.owners]
    exact owned
  unfold put
  rw [run_bind (show release r m = .ok false (m.released r) from run_bind released),
    run_bind (run_dropIfDeserted still)]
  rfl

theorem run_dropBound_shared (shares : m.Shares l) : dropBound l m = .ok () (m.unbound l) := by
  unfold dropBound unbound
  rw [run_bind (run_lock l m)]
  cases bound : (m.lock l).bound with
  | none => rfl
  | some s =>
    obtain ⟨owned, shared⟩ := shares s bound
    have drops : put s (m.modifyLock l fun lk => { lk with bound := none }) = _ :=
      run_put_shared owned shared
    exact run_discard drops

theorem unbound_of_none (bound : (m.lock l).bound = none) : m.unbound l = m := by
  unfold unbound
  rw [bound]

theorem unbound_of_some (bound : (m.lock l).bound = some s) :
    m.unbound l = (m.modifyLock l fun lk => { lk with bound := none }).released s := by
  unfold unbound
  rw [bound]

theorem lock_unbound : (m.unbound l).lock k =
    if k = l then { m.lock l with bound := none } else m.lock k := by
  cases bound : (m.lock l).bound with
  | none =>
    rw [unbound_of_none bound]
    split
    · rename_i same
      rw [same, ← bound]
    · rfl
  | some s =>
    rw [unbound_of_some bound, lock_released, lock_modifyLock]

theorem lru_unbound (n : SpaceKey) : ((m.unbound l).space n).lru = (m.space n).lru := by
  cases bound : (m.lock l).bound with
  | none => rw [unbound_of_none bound]
  | some s =>
    rw [unbound_of_some bound, lru_released, space_modifyLock]

/-- Who shared a resource leaves somebody who references it. -/
theorem referenced_unbound (shares : m.Shares l) (referenced : (m.resource r).refcount ≠ 0) :
    ((m.unbound l).resource r).refcount ≠ 0 := by
  cases bound : (m.lock l).bound with
  | none =>
    rw [unbound_of_none bound]
    exact referenced
  | some s =>
    have shared := (shares s bound).2
    rw [unbound_of_some bound, refcount_released]
    split
    · show (m.resource s).refcount - 1 ≠ 0
      omega
    · exact referenced

theorem lru_departed {res : Resource} :
    ((m.departed r l q res).space n).lru = (m.space n).lru := by
  have moved := view_modifySpace (m := m) (n := r.space)
    (f := fun s => { s with table := s.table.modifyResource r.key fun _ => res }) (·.lru) rfl n
  unfold Manager.departed
  rw [space_modifySpace]
  split
  · rename_i here
    rw [← here]
    exact moved
  · exact moved

/-- What ties the locks and the queues of one namespace together. A lock on a queue has the resource
of that queue for its home, and every queue is in order. -/
structure SeatedIn (n : SpaceKey) (m : Manager) : Prop where
  home : ∀ r q, r.space = n → ∀ l ∈ m.queue r q, (m.lock l).home = some r
  lined : ∀ r, r.space = n → (m.resource r).Lined m.lock

theorem Seated.seatedIn (seated : Seated m) (n : SpaceKey) : SeatedIn n m :=
  ⟨fun r q _ => seated.home r q, fun r _ => seated.lined r⟩

namespace SeatedIn

theorem link (seated : SeatedIn n m) (here : r.space = n) (member : l ∈ m.queue r q) :
    (m.lock l).link = some q :=
  (seated.lined r here).link q l member

theorem not_mem (seated : SeatedIn n m) (here : r.space = n) (free : (m.lock l).link = none) :
    l ∉ m.queue r q := by
  intro member
  rw [seated.link here member] at free
  cases free

/-- A lock is on one queue of the namespace at most. -/
theorem eq_of_mem (seated : SeatedIn n m) (here : r.space = n) (there : s.space = n)
    (member : l ∈ m.queue r q) (again : l ∈ m.queue s p) : s = r ∧ p = q := by
  have home := (seated.home s p there l again).symm.trans (seated.home r q here l member)
  have link := (seated.link there again).symm.trans (seated.link here member)
  exact ⟨Option.some.inj home, Option.some.inj link⟩

theorem unmoved (seated : SeatedIn n m) (still : Unmoved m m') : SeatedIn n m' := by
  refine ⟨fun r q here l member => ?_, fun r here => still.lined r (seated.lined r here)⟩
  rw [queue, still.queues] at member
  rw [still.home l (by rw [seated.link here member]; exact Option.some_ne_none q)]
  exact seated.home r q here l member

theorem of_same (seated : SeatedIn n m) (spaces : m'.spaces = m.spaces)
    (locks : m'.locks = m.locks) : SeatedIn n m' := by
  have space : ∀ n, m'.space n = m.space n := fun n => by simp only [Manager.space, spaces]
  refine seated.unmoved (.of_eq locks (fun r => ?_) (fun n => ?_) fun n => ?_)
  · simp only [Manager.resource, space]
  · rw [space]
  · rw [space]

/-- A lock may change in all that queues do not depend on. -/
theorem modifyLock (seated : SeatedIn n m) {f : Lock → Lock}
    (standing : (f (m.lock l)).standing = (m.lock l).standing) : SeatedIn n (m.modifyLock l f) := by
  have same := view_modifyLock Lock.standing standing
  refine ⟨fun r q here k member => ?_, fun r here => (seated.lined r here).others fun q k _ => ?_⟩
  · rw [← seated.home r q here k member]
    exact congrArg (·.2.1) (same k)
  · exact ⟨congrArg (·.1) (same k), congrArg (·.2.2.2) (same k)⟩

/-- A lock on a queue of the namespace can leave it. -/
theorem departed (seated : SeatedIn n m) (here : r.space = n) (member : l ∈ m.queue r q) :
    ∃ res, (m.resource r).departed l (m.lock l) q = .ok res ∧ SeatedIn n (m.departed r l q res) ∧
      ∀ s p, s.space = n → (m.departed r l q res).queue s p = (m.queue s p).filter (· != l) := by
  have others : ∀ res k, k ≠ l → ((m.departed r l q res).lock k).link = (m.lock k).link ∧
      ((m.departed r l q res).lock k).mode = (m.lock k).mode := by
    intro res k other
    rw [lock_departed, if_neg other]
    exact ⟨rfl, rfl⟩
  obtain ⟨res, left, -, queues⟩ := (seated.lined r here).departed member fun _ _ => ⟨rfl, rfl⟩
  obtain ⟨same, again, lined, -⟩ := (seated.lined r here).departed member (others res)
  obtain rfl : res = same := Except.ok.inj (left.symm.trans again)
  have queue : ∀ s p, s.space = n →
      (m.departed r l q res).queue s p = (m.queue s p).filter (· != l) := by
    intro s p there
    by_cases same : s = r ∧ p = q
    · obtain ⟨rfl, rfl⟩ := same
      rw [Manager.queue, resource_departed, if_pos rfl, queues, LockQueues.get_set, if_pos rfl]
      exact ((seated.lined s here).nodup p).erase_eq_filter l
    · have apart : l ∉ m.queue s p := fun again => same (seated.eq_of_mem here there member again)
      have kept : (m.departed r l q res).queue s p = m.queue s p := by
        unfold Manager.queue
        rw [resource_departed]
        split
        · rename_i at_home
          subst at_home
          rw [queues, LockQueues.get_set, if_neg fun there => same ⟨rfl, there⟩]
        · rfl
      rw [kept, List.filter_eq_self.mpr]
      intro k inside
      exact bne_iff_ne.mpr fun same => apart (same ▸ inside)
  refine ⟨res, left, ⟨fun s p there k inside => ?_, fun s there => ?_⟩, queue⟩
  · rw [queue s p there] at inside
    obtain ⟨inside, other⟩ := List.mem_filter.mp inside
    rw [lock_departed, if_neg (bne_iff_ne.mp other)]
    exact seated.home s p there k inside
  · rw [resource_departed]
    split
    · exact lined
    · rename_i elsewhere
      refine (seated.lined s there).others fun p k inside => others res k ?_
      rintro rfl
      exact elsewhere (seated.eq_of_mem here there member inside).1

end SeatedIn

end Manager

end Lockspace
