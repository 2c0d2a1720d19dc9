import Lockspace.Proofs.Draining.Visits

namespace Lockspace

open Manager Act

theorem Queue.mem_all (q : Queue) : q ∈ all := by
  cases q <;> decide

namespace Manager

/-- The locks of a queue that no drain has visited, in order. -/
def pending (m : Manager) (r : ResourceRef) (q : Queue) : List LockKey :=
  (m.queue r q).filter fun l => !(m.lock l).flags.contains .cleaned

/-- The locks on the queues of a namespace, resource by resource and queue by queue. -/
def queuedIn (m : Manager) (n : SpaceKey) : List LockKey :=
  (m.listing n).flatMap fun r => Queue.all.flatMap (m.queue r)

/-- What there is to say after some locks of a namespace were visited one after another. No other lock
has changed and none has joined a queue, the locks have their flags, and the calls about them are in
the order of the visits. -/
structure Swept (n : SpaceKey) (flags : LockFlags) (order : List LockKey) (m m' : Manager) :
    Prop where
  others : ∀ k, k ∉ order → m'.lock k = m.lock k
  marked : ∀ l ∈ order, (m'.lock l).flags.contains ((m.lock l).flags ||| Cleanup.visitFlags flags)
  queue : ∀ r q, r.space = n → ∀ l ∈ m'.queue r q, l ∈ m.queue r q
  calls : m'.lockCalls = m.lockCalls ++ order.flatMap (m.callsAbout m' n flags)
  alike : Alike m m'

variable {wanted : ResourceRef → Option ResourceRef → Prop} {n : SpaceKey} {held : List ResourceRef}
  {covered : SpaceKey → Prop} {hands : Multiset ResourceRef} {holds : SpaceKey → Nat}
  {m m' m₁ m₂ : Manager} {policy : LockPolicy} {flags : LockFlags} {l k : LockKey}
  {r s : ResourceRef} {q p : Queue} {calls : List Callback} {order rest : List LockKey}

theorem mem_queuedIn (seated : SeatedIn n m) (booked : BookedIn covered m hands holds)
    (known : covered n) : l ∈ m.queuedIn n ↔ ∃ r q, r.space = n ∧ l ∈ m.queue r q := by
  simp only [queuedIn, List.mem_flatMap, mem_listing]
  constructor
  · rintro ⟨r, ⟨here, -⟩, q, -, member⟩
    exact ⟨r, q, here, member⟩
  · rintro ⟨r, q, rfl, member⟩
    refine ⟨r, ⟨rfl, ?_⟩, q, q.mem_all, member⟩
    have queued := (seated.lined r rfl).queued_ne_zero.mpr ⟨q, l, member⟩
    rw [booked.hashes_iff known]
    exact mem_refKeys.mp (booked.mem_of_referenced (booked.alive r queued))

/-- A lock of the namespace is on one queue, once. -/
theorem nodup_queuedIn (seated : SeatedIn n m) (booked : BookedIn covered m hands holds)
    (known : covered n) : (m.queuedIn n).Nodup := by
  have home : ∀ r ∈ m.listing n, r.space = n := fun r member => (mem_listing.mp member).1
  refine List.nodup_flatMap.mpr ⟨fun r member => List.nodup_flatMap.mpr ⟨fun q _ => ?_, ?_⟩, ?_⟩
  · exact (seated.lined r (home r member)).nodup q
  · refine (show Queue.all.Nodup by decide).imp fun {p q} apart l inside again => apart ?_
    exact (seated.eq_of_mem (home r member) (home r member) again inside).2
  · refine (booked.nodup_listing known).imp_of_mem fun {r s} one other apart l inside again => ?_
    obtain ⟨q, -, first⟩ := List.mem_flatMap.mp inside
    obtain ⟨p, -, second⟩ := List.mem_flatMap.mp again
    exact apart (seated.eq_of_mem (home s other) (home r one) second first).1

/-- The calls about a lock depend on nothing else than that lock, before and after, and on the side
and the peer of the namespace. -/
theorem callsAbout_congr (alike : Alike m m₁) (before : m₁.lock l = m.lock l)
    (after : m₂.lock l = m'.lock l) :
    m₁.callsAbout m₂ n flags l = m.callsAbout m' n flags l := by
  unfold callsAbout
  rw [before, after, alike.isClient, alike.hasPeer]

theorem firstUncleaned_eq (m : Manager) (r : ResourceRef) (q : Queue) :
    (m.resource r).firstUncleaned m.lock q = (m.pending r q).head? :=
  List.head?_filter.symm

/-- A visited lock is not pending any more, and the others are as before. -/
theorem Handled.pending (handled : Handled n l calls m m') (here : r.space = n)
    (visited : (m'.lock l).flags.contains .cleaned = true) (q : Queue) :
    m'.pending r q = (m.pending r q).filter (· != l) := by
  have same : ∀ k, (!(m'.lock k).flags.contains .cleaned) =
      (!(m.lock k).flags.contains .cleaned && k != l) := by
    intro k
    by_cases other : k = l
    · rw [other, visited, bne_self_eq_false, Bool.and_false]
      rfl
    · rw [handled.others k other, bne_iff_ne.mpr other, Bool.and_true]
  unfold Manager.pending
  rw [List.filter_filter]
  rcases handled.placed with stayed | parted
  · rw [stayed.queue]
    exact List.filter_congr fun k _ => (same k).trans (Bool.and_comm ..)
  · rw [parted.queue r q here, List.filter_filter]
    refine List.filter_congr fun k _ => ?_
    rw [same, Bool.and_assoc, Bool.and_self, Bool.and_comm]

namespace Swept

theorem nil : Swept n flags [] m m where
  others _ _ := rfl
  marked _ member := absurd member List.not_mem_nil
  queue _ _ _ _ := id
  calls := (List.append_nil _).symm
  alike := refl_of Alike m

theorem cons (handled : Handled n l (m.callsAbout m₁ n flags l) m m₁)
    (marked : (m₁.lock l).flags.contains ((m.lock l).flags ||| Cleanup.visitFlags flags))
    (apart : l ∉ rest) (later : Swept n flags rest m₁ m') : Swept n flags (l :: rest) m m' where
  others k outside := by
    rw [List.mem_cons, not_or] at outside
    rw [later.others k outside.2, handled.others k outside.1]
  marked k member := by
    rcases List.mem_cons.mp member with rfl | inside
    · rw [later.others k apart]
      exact marked
    · have other : k ≠ l := fun same => apart (same ▸ inside)
      rw [← handled.others k other]
      exact later.marked k inside
  queue r q here k member := handled.mem_of_mem_queue here (later.queue r q here k member)
  calls := by
    have first : m.callsAbout m₁ n flags l = m.callsAbout m' n flags l :=
      callsAbout_congr (refl_of Alike m) rfl (later.others l apart).symm
    have others : rest.flatMap (m₁.callsAbout m' n flags) =
        rest.flatMap (m.callsAbout m' n flags) := by
      refine List.flatMap_congr fun k inside => ?_
      exact callsAbout_congr handled.alike
        (handled.others k fun same => apart (same ▸ inside)) rfl
    rw [later.calls, handled.calls, first, others, List.flatMap_cons, List.append_assoc]
  alike := trans_of Alike handled.alike later.alike

end Swept

namespace Draining

theorem relog (draining : Draining wanted n held covered hands holds m) (log : Array LogLine) :
    Draining wanted n held covered hands holds (m.relog log) where
  seated := draining.seated.of_same rfl rfl
  owned := draining.owned
  booked := draining.booked.same (fun _ => rfl) rfl
  within := draining.within
  wanted := draining.wanted
  anchored := draining.anchored

/-- The visits of locks that the drain has not come to before, in any order. -/
theorem visits (draining : Draining wanted n held covered hands holds m)
    (treats : policy.Treats wanted n) (flags : LockFlags) (distinct : order.Nodup)
    (queued : ∀ l ∈ order, ∃ r q, r.space = n ∧ l ∈ m.pending r q) :
    ∃ m', order.forM (Cleanup.visit policy n flags) m = .ok () m' ∧
      Draining wanted n held covered hands holds m' ∧ Swept n flags order m m' := by
  induction order generalizing m with
  | nil => exact ⟨m, rfl, draining, .nil⟩
  | cons l rest ih =>
    obtain ⟨apart, distinct⟩ := List.nodup_cons.mp distinct
    obtain ⟨r, q, here, member⟩ := queued l (List.mem_cons_self ..)
    obtain ⟨inside, fresh⟩ := List.mem_filter.mp member
    obtain ⟨m₁, run, draining₁, handled, marked⟩ :=
      draining.visit treats flags here inside (Bool.not_eq_true' _ ▸ fresh)
    have visited := Cleanup.cleaned_of_marked marked
    obtain ⟨m', later, draining', swept⟩ := ih draining₁ distinct fun k inside => by
      obtain ⟨s, p, there, member⟩ := queued k (List.mem_cons_of_mem l inside)
      refine ⟨s, p, there, ?_⟩
      rw [handled.pending there visited, List.mem_filter, bne_iff_ne]
      exact ⟨member, fun same => apart (same ▸ inside)⟩
    exact ⟨m', (run_bind run).trans later, draining', .cons handled marked apart swept⟩

end Draining

end Manager

end Lockspace
