import Lockspace.Proofs.Draining.Forced
import Lockspace.Proofs.Draining.Turns

namespace Lockspace

open Manager Act

namespace Manager

variable {wanted : ResourceRef → Option ResourceRef → Prop} {n : SpaceKey} {held : List ResourceRef}
  {covered : SpaceKey → Prop} {hands : Multiset ResourceRef} {holds : SpaceKey → Nat}
  {m m₀ m₁ m' : Manager} {flags : LockFlags} {order : List LockKey} {r : ResourceRef}

/-- What comes before the visits and after them may neither change a lock nor tell anybody of one. -/
theorem Swept.widen (swept : Swept n flags order m₀ m₁) (before : SameLocks m m₀)
    (calm : Discreet m m₀) (still : ∀ r q, m₀.queue r q = m.queue r q) (after : SameLocks m₁ m')
    (calmly : Discreet m₁ m') (yet : ∀ r q, m'.queue r q = m₁.queue r q) :
    Swept n flags order m m' where
  others k outside := by rw [after.lock, swept.others k outside, before.lock]
  marked l member := by
    rw [after.lock, ← before.lock]
    exact swept.marked l member
  queue r q here l member := by
    rw [yet] at member
    rw [← still]
    exact swept.queue r q here l member
  calls := by
    rw [calmly.calls, swept.calls, calm.calls]
    refine congrArg _ (List.flatMap_congr fun l _ => ?_)
    exact callsAbout_congr calm.toAlike (before.lock l) (after.lock l).symm
  alike := trans_of Alike calm.toAlike (trans_of Alike swept.alike calmly.toAlike)

/-- After the visits of all locks to visit, only visited locks are left. -/
theorem Swept.cleaned (swept : Swept n flags order m m') (here : r.space = n)
    (all : ∀ q, ∀ l ∈ m.pending r q, l ∈ order) {q : Queue} {l : LockKey}
    (member : l ∈ m'.queue r q) : (m'.lock l).flags.contains .cleaned = true := by
  by_cases inside : l ∈ order
  · exact Cleanup.cleaned_of_marked (swept.marked l inside)
  · rw [swept.others l inside]
    by_contra fresh
    refine inside (all q l (List.mem_filter.mpr ⟨swept.queue r q here l member, ?_⟩))
    exact (Bool.not_eq_true' _).mpr (Bool.eq_false_iff.mpr fresh)

/-- Once every lock is visited, a resource with locks is referenced by one of them. -/
theorem Draining.rooted (draining : Draining wanted n held covered hands holds m)
    (visited : ∀ r q, r.space = n → ∀ l ∈ m.queue r q, (m.lock l).flags.contains .cleaned = true)
    (here : r.space = n) (queued : (m.resource r).queued ≠ 0) : r ∈ hands + m.boundRefs := by
  obtain ⟨q, l, member⟩ := (draining.seated.lined r here).queued_ne_zero.mp queued
  have bound := draining.anchored r q here l member (visited r q here l member)
  exact Multiset.mem_add.mpr (.inr (mem_boundRefs.mpr ⟨l, bound⟩))

end Manager

namespace Cleanup

variable {policy : LockPolicy} {wanted : ResourceRef → Option ResourceRef → Prop} {n : SpaceKey}
  {covered : SpaceKey → Prop} {hands : Multiset ResourceRef} {holds : SpaceKey → Nat}
  {m m₀ : Manager} {flags : LockFlags} {r : ResourceRef}

/-- A drain that has found these resources and has visited none of their queues. -/
def begun (n : SpaceKey) (flags : LockFlags) (held : List ResourceRef) : Cleanup :=
  { space := n, flags, held, todo := held.flatMap fun r => Queue.all.map (r, ·) }

/-- A drain starts with a reference on every resource of the namespace. -/
theorem returns_start (booked : BookedIn covered m hands holds) (known : covered n)
    (flags : LockFlags) : ∃ t,
      start n flags m = .ok (begun n flags (m.listing n)) (m.setTable n t) ∧
      BookedIn covered (m.setTable n t) (↑(m.listing n) + hands) holds ∧
      Steady m (m.setTable n t) := by
  obtain ⟨refs, m₀, run, after⟩ := (booked.ends_resources known).exists_run
  have steady := (steady_resources m).of_ok run
  obtain ⟨rfl, t, rfl⟩ := resources_cases run
  exact ⟨t, run_bind run, after, steady⟩

section

variable (seated : SeatedIn n m) (booked : BookedIn covered m hands holds) (known : covered n)
  (owned : 0 < (m.space n).owners)
  (wants : ∀ r q, r.space = n → ∀ l ∈ m.queue r q, wanted r (m.lock l).bound ∧
    ∀ s, (m.lock l).bound = some s → s.space = n)
  (fresh : ∀ r q, r.space = n → ∀ l ∈ m.queue r q, (m.lock l).flags.contains .cleaned = false)

include fresh

/-- Where no lock was visited before, all are to be visited. -/
theorem pending_of_fresh (same : SameLocks m m₀) (queue : ∀ r q, m₀.queue r q = m.queue r q)
    (here : r.space = n) (q : Queue) : m₀.pending r q = m.queue r q := by
  rw [pending, queue, List.filter_eq_self]
  intro l member
  rw [same.lock, fresh r q here l member]
  rfl

theorem left_begun (same : SameLocks m m₀) (queue : ∀ r q, m₀.queue r q = m.queue r q) :
    (begun n flags (m.listing n)).left m₀ = m.queuedIn n := by
  unfold left begun queuedIn
  rw [List.flatMap_assoc]
  refine List.flatMap_congr fun r member => ?_
  rw [List.flatMap_map]
  exact List.flatMap_congr fun q _ => pending_of_fresh fresh same queue (mem_listing.mp member).1 q

include seated booked known owned wants

theorem draining_begun (books : BookedIn covered m₀ (↑(m.listing n) + hands) holds)
    (steady : Steady m m₀) (same : SameLocks m m₀) :
    Draining wanted n (m.listing n) covered hands holds m₀ where
  seated := seated.unmoved steady.toUnmoved
  owned := by
    rw [steady.owners]
    exact owned
  booked := books
  within r member := (mem_listing.mp member).1
  wanted r q here l member _ := by
    rw [queue, steady.queues] at member
    rw [same.lock]
    refine ⟨(wants r q here l member).1, fun s bound => mem_listing.mpr ?_⟩
    have there := (wants r q here l member).2 s bound
    refine ⟨there, (booked.hashes_iff (there ▸ known)).mpr ?_⟩
    exact Multiset.mem_add.mpr (.inr (mem_boundRefs.mpr ⟨l, bound⟩))
  anchored r q here l member visited := by
    rw [queue, steady.queues] at member
    rw [same.lock, fresh r q here l member] at visited
    cases visited

/-- A drain of a namespace in use, none of whose locks was visited before, visits every lock that is
on a queue, in order, and finishes. -/
theorem drains (treats : policy.Treats wanted n) (flags : LockFlags) :
    ∃ c m₀ m₁ m', start n flags m = .ok c m₀ ∧ SameLocks m m₀ ∧
      Draining wanted n (m.listing n) covered hands holds m₀ ∧
      (∀ l ∈ m.queuedIn n, ∃ r q, r.space = n ∧ l ∈ m₀.pending r q) ∧
      (m.queuedIn n).forM (visit policy n flags) m₀ = .ok () m₁ ∧
      SameLocks m₁ m' ∧ Swept n flags (m.queuedIn n) m m' ∧ SeatedIn n m' ∧
      BookedIn covered m' hands holds ∧
      c.Finishes policy (fun count m₂ => count = (m.queuedIn n).length ∧
        ∃ log, m₂ = m'.relog log) m₀ := by
  obtain ⟨t, started, books, steady⟩ := returns_start booked known flags
  have same : SameLocks m (m.setTable n t) := sameLocks_modifySpace fun _ => rfl
  have calm : Discreet m (m.setTable n t) := by
    refine ⟨alike_modifySpace ?_ ?_ ?_, rfl⟩ <;> exact fun _ => rfl
  generalize m.setTable n t = m₀ at started books steady same calm
  have queue : ∀ r q, m₀.queue r q = m.queue r q := fun r q => by
    rw [Manager.queue, steady.queues, Manager.queue]
  have draining := draining_begun seated booked known owned wants fresh books steady same
  have distinct := nodup_queuedIn seated booked known
  have queued : ∀ l ∈ m.queuedIn n, ∃ r q, r.space = n ∧ l ∈ m₀.pending r q := fun l member => by
    obtain ⟨r, q, here, inside⟩ := (mem_queuedIn seated booked known).mp member
    exact ⟨r, q, here, by rwa [pending_of_fresh fresh same queue here]⟩
  obtain ⟨m₁, run, draining₁, swept⟩ := draining.visits treats flags distinct queued
  have cleaned : ∀ r q, r.space = n → ∀ l ∈ m₁.queue r q,
      (m₁.lock l).flags.contains .cleaned = true := fun r q here l member => by
    refine swept.cleaned here (fun q l inside => ?_) member
    rw [pending_of_fresh fresh same queue here] at inside
    exact (mem_queuedIn seated booked known).mpr ⟨r, q, here, inside⟩
  obtain ⟨m', drops, last, after⟩ := draining₁.booked.returns_putAll
    (fun r member => by
      rw [draining₁.within r member]
      exact draining₁.owned)
    fun r member => draining₁.rooted cleaned (draining₁.within r member)
  have still := (steady_putAll (m.listing n) m₁).of_ok drops
  have calmly := (discreet_drops.putAll (m.listing n) m₁).of_ok drops
  refine ⟨_, m₀, m₁, m', started, same, draining, queued, run, after,
    swept.widen same calm queue after calmly fun r q => ?_,
    draining₁.seated.unmoved still.toUnmoved, last, ?_⟩
  · rw [Manager.queue, still.queues, Manager.queue]
  · have left : (begun n flags (m.listing n)).left m₀ = m.queuedIn n := left_begun fresh same queue
    rw [← left] at distinct run
    refine (finishes treats draining rfl ?_ distinct run drops).imp ?_
    · intro next member
      obtain ⟨r, inside, again⟩ := List.mem_flatMap.mp member
      obtain ⟨q, -, rfl⟩ := List.mem_map.mp again
      exact draining.within r inside
    · rintro count m₂ ⟨rfl, log, rfl⟩
      rw [left]
      exact ⟨Nat.zero_add _, log, rfl⟩

end

end Cleanup

namespace LockPolicy

variable {policy : LockPolicy} {n : SpaceKey} {covered : SpaceKey → Prop}
  {hands : Multiset ResourceRef} {holds : SpaceKey → Nat} {m : Manager}

theorem tame_default (n : SpaceKey) : LockPolicy.default.Tame n where
  completion shown := by
    obtain ⟨m', run, -⟩ := shown.destroyLock
    exact ⟨m', run, .destroys run .done⟩
  cancelLocal shown := by
    obtain ⟨m', run, -⟩ := shown.destroyLock
    exact ⟨m', run, .destroys run .done⟩
  completionBlind _ := blind_destroyLock
  cancelBlind _ := blind_destroyLock

theorem tame_keep (n : SpaceKey) : keep.Tame n where
  completion _ := ⟨_, rfl, .done⟩
  cancelLocal _ := ⟨_, rfl, .done⟩
  completionBlind _ := blind_pure ()
  cancelBlind _ := blind_pure ()

/-- A drain of a namespace all of whose queued locks are bound to the resource that they are queued on,
and were not visited before, finishes whatever the peer answers. It makes its calls about every lock
that was on a queue, about one after another in the order of the queues, and about no other lock. It
returns their number. The answers make a difference to the log only. -/
theorem Tame.traces (tame : policy.Tame n) (flags : LockFlags) (seated : SeatedIn n m)
    (booked : BookedIn covered m hands holds) (known : covered n)
    (owned : 0 < (m.space n).owners)
    (bound : ∀ r q, r.space = n → ∀ l ∈ m.queue r q, (m.lock l).bound = some r)
    (fresh : ∀ r q, r.space = n → ∀ l ∈ m.queue r q,
      (m.lock l).flags.contains .cleaned = false) :
    (m.queuedIn n).Nodup ∧ (∀ l, l ∈ m.queuedIn n ↔ ∃ r q, r.space = n ∧ l ∈ m.queue r q) ∧
      ∃ c m₁ m', Cleanup.start n flags m = .ok c m₁ ∧
        c.Finishes policy (fun count m₂ => count = (m.queuedIn n).length ∧
          ∃ log, m₂ = m'.relog log) m₁ ∧
        m'.lockCalls = m.lockCalls ++ (m.queuedIn n).flatMap (m.callsAbout m' n flags) := by
  have wants : ∀ r q, r.space = n → ∀ l ∈ m.queue r q, (m.lock l).bound = some r ∧
      ∀ s, (m.lock l).bound = some s → s.space = n := by
    intro r q here l member
    have own := bound r q here l member
    refine ⟨own, fun s other => ?_⟩
    rw [← Option.some.inj (own.symm.trans other)]
    exact here
  obtain ⟨c, m₁, _, m', started, -, -, -, -, -, swept, -, -, finishes⟩ :=
    Cleanup.drains seated booked known owned wants fresh tame.treats flags
  exact ⟨nodup_queuedIn seated booked known, fun l => mem_queuedIn seated booked known,
    c, m₁, m', started, finishes, swept.calls⟩

/-- Three locks of a client are drained, the last of which the peer must not hear of. -/
theorem traces_of_silent_lock : ∃ m hands, Queueing m hands ∧
    m.queuedIn ⟨0⟩ = [⟨0⟩, ⟨2⟩, ⟨1⟩] ∧ ∃ c m₁ m', Cleanup.start ⟨0⟩ .none m = .ok c m₁ ∧
      c.Finishes .default (fun count m₂ => count = 3 ∧ ∃ log, m₂ = m'.relog log) m₁ ∧
      m'.lockCalls = m.lockCalls ++ (m.queuedIn ⟨0⟩).flatMap (m.callsAbout m' ⟨0⟩ .none) := by
  let r : ResourceRef := ⟨⟨0⟩, ⟨0⟩⟩
  let s : ResourceRef := ⟨⟨0⟩, ⟨1⟩⟩
  obtain ⟨m, hands, reach, order, owned, each⟩ := Queueing.exists_of_calls
    [.build .peered, .get ⟨0⟩ ⟨1, 2, 0, 0⟩ .plain true, .clone r,
      .get ⟨0⟩ ⟨2, 2, 0, 0⟩ .plain true, .newLock ⟨1⟩ .pr none, .newLock ⟨2⟩ .pr none,
      .newLock ⟨3⟩ .cr none, .bind ⟨0⟩ r, .bind ⟨1⟩ s, .bind ⟨2⟩ r, .add r .granted ⟨0⟩,
      .add s .converting ⟨1⟩, .add r .waiting ⟨2⟩, .alter ⟨1⟩ (·.setFlags .localOnly)]
    (fun m => m.queuedIn ⟨0⟩ = [⟨0⟩, ⟨2⟩, ⟨1⟩] ∧ 0 < (m.space ⟨0⟩).owners ∧
      ∀ l ∈ m.queuedIn ⟨0⟩, (m.lock l).bound = (m.lock l).home ∧
        (m.lock l).flags.contains .cleaned = false)
    (by decide +kernel)
  have seated := reach.settled.seated.seatedIn ⟨0⟩
  have listed : ∀ r q, r.space = ⟨0⟩ → ∀ l ∈ m.queue r q, l ∈ m.queuedIn ⟨0⟩ :=
    fun r q here l member => (mem_queuedIn seated reach.settled.booked owned).mpr ⟨r, q, here, member⟩
  obtain ⟨-, -, c, m₁, m', started, finishes, calls⟩ := (tame_default ⟨0⟩).traces .none seated
    reach.settled.booked owned owned
    (fun r q here l member => (each l (listed r q here l member)).1.trans
      (seated.home r q here l member))
    fun r q here l member => (each l (listed r q here l member)).2
  rw [order] at finishes
  exact ⟨m, hands, reach, order, c, m₁, m', started, finishes, calls⟩

end LockPolicy

end Lockspace
