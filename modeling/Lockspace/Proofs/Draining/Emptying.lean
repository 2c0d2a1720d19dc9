import Lockspace.Proofs.Draining.Traces
import Lockspace.Proofs.UnusedOrder

namespace Lockspace

open Manager Act

namespace Manager

/-- A lock that is destroyed, is on no queue and has no reference. -/
structure Discarded (l : LockKey) (m : Manager) : Prop where
  link : (m.lock l).link = none
  bound : (m.lock l).bound = none
  destroyed : (m.lock l).isDestroyed

/-- Some locks are not among the unused ones of a namespace any more. Otherwise no list of unused locks
has changed. -/
structure Reused (n : SpaceKey) (locks : List LockKey) (m m' : Manager) : Prop where
  here : (m'.space n).lru = (m.space n).lru.without locks
  elsewhere : ∀ k, k ≠ n → (m'.space k).lru = (m.space k).lru

/-- A namespace whose locks on queues were all destroyed, with the flags of a drain. They have neither a
place among the unused locks any more nor a reference, while no other lock and no other place has
changed. What is left in the table is what callers and other locks reference. -/
structure Emptied (n : SpaceKey) (flags : LockFlags) (hands : Multiset ResourceRef)
    (m m' : Manager) : Prop where
  queues : ∀ r q, r.space = n → m'.queue r q = []
  discarded : ∀ l ∈ m.queuedIn n, Discarded l m' ∧
    (m'.lock l).flags.contains ((m.lock l).flags ||| Cleanup.visitFlags flags)
  others : ∀ l, l ∉ m.queuedIn n → m'.lock l = m.lock l
  reused : Reused n (m.queuedIn n) m m'
  refs : m.boundRefs = m'.boundRefs + ((m.queuedIn n).map fun l => (m.lock l).boundRef).sum
  remains : ∀ r, r.space = n → (m'.Hashes r ↔ r ∈ hands + m'.boundRefs)
  counts : ∀ r, r.space = n → (m'.resource r).refcount = (hands + m'.boundRefs).count r

variable {n : SpaceKey} {held : List ResourceRef} {covered : SpaceKey → Prop}
  {hands : Multiset ResourceRef} {holds : SpaceKey → Nat} {m m' m₁ : Manager} {flags : LockFlags}
  {l : LockKey} {r : ResourceRef} {locks order : List LockKey}

/-- What the locks that dropped their references leave is what the other locks own. -/
theorem boundRefs_eq_add (distinct : order.Nodup)
    (dropped : ∀ l ∈ order, (m'.lock l).bound = none)
    (others : ∀ l, l ∉ order → (m'.lock l).bound = (m.lock l).bound) :
    m.boundRefs = m'.boundRefs + (order.map fun l => (m.lock l).boundRef).sum := by
  induction order generalizing m with
  | nil => rw [List.map_nil, List.sum_nil, add_zero, boundRefs_congr fun l => others l (by simp)]
  | cons l rest ih =>
    obtain ⟨apart, distinct⟩ := List.nodup_cons.mp distinct
    have change := m.boundRefs_modifyLock l fun lk => { lk with bound := none }
    have after : Lock.boundRef { m.lock l with bound := none } = 0 := rfl
    rw [after, add_zero] at change
    have fewer := ih (m := m.modifyLock l fun lk => { lk with bound := none }) distinct
      (fun k inside => dropped k (List.mem_cons_of_mem l inside)) fun k outside => by
        rw [lock_modifyLock]
        split
        · rename_i same
          rw [same]
          exact dropped l (List.mem_cons_self ..)
        · rename_i other
          exact others k fun member => (List.mem_cons.mp member).elim other outside
    have same : rest.map (fun k =>
        ((m.modifyLock l fun lk => { lk with bound := none }).lock k).boundRef) =
          rest.map fun k => (m.lock k).boundRef := by
      refine List.map_congr_left fun k inside => ?_
      rw [lock_modifyLock, if_neg fun same : k = l => apart (same ▸ inside)]
    rw [← change, fewer, same, List.map_cons, List.sum_cons, add_assoc, add_comm (List.sum _)]

theorem Discarded.of_lock (gone : Discarded l m) (same : m'.lock l = m.lock l) : Discarded l m' :=
  ⟨by rw [same]; exact gone.link, by rw [same]; exact gone.bound,
    by rw [same]; exact gone.destroyed⟩

namespace Reused

theorem nil : Reused n [] m m :=
  ⟨(UnusedLru.without_nil _).symm, fun _ _ => rfl⟩

theorem cons (first : Reused n [l] m m₁) (later : Reused n locks m₁ m') :
    Reused n (l :: locks) m m' where
  here := by rw [UnusedLru.without_cons, ← first.here, later.here]
  elsewhere k other := (later.elsewhere k other).trans (first.elsewhere k other)

theorem widen (reused : Reused n locks m m₁) {m₀ : Manager}
    (before : ∀ k, (m.space k).lru = (m₀.space k).lru)
    (after : ∀ k, (m'.space k).lru = (m₁.space k).lru) : Reused n locks m₀ m' where
  here := by rw [after, reused.here, before]
  elsewhere k other := by rw [after, reused.elsewhere k other, before]

end Reused

theorem Given.discards (given : Given n r l m) (whole : (m.lock l).isDestroyed = false)
    (sound : (m.space n).lru.Sound) (run : Act.destroyLock n l m = .ok () m') :
    Given n r l m' ∧ Discarded l m' ∧ Reused n [l] m m' := by
  obtain ⟨_, again, given', -, link, destroyed, first⟩ := given.destroyLock
  cases run.symm.trans again
  obtain ⟨bound, here, elsewhere⟩ := first whole
  exact ⟨given', ⟨link, bound, destroyed⟩, here.trans (sound.remove_eq l), elsewhere⟩

end Manager

namespace Cleanup

variable {n : SpaceKey} {held : List ResourceRef} {covered : SpaceKey → Prop}
  {hands : Multiset ResourceRef} {holds : SpaceKey → Nat} {m m' m₁ : Manager} {flags : LockFlags}
  {l : LockKey} {r : ResourceRef} {locks order : List LockKey} {asks : Bool}

theorem contains_destroyed_visitFlags (flags : LockFlags) :
    (visitFlags flags).contains .destroyed = flags.contains .destroyed := by
  unfold visitFlags
  rw [LockFlags.contains_destroyed_union,
    show (LockFlags.cleaned ||| .cancelPending ||| .failed).contains .destroyed = false by decide,
    Bool.false_or]

/-- The default policy destroys the lock that a drain comes to, in one callback or the other. -/
theorem treat_default (given : Given n r l m) (whole : (m.lock l).isDestroyed = false)
    (sound : (m.space n).lru.Sound) (run : treat .default n flags l m = .ok asks m') :
    Given n r l m' ∧ Discarded l m' ∧ Reused n [l] m m' := by
  have noted : ∀ call : Callback, Given n r l { m with trace := m.trace.push call } :=
    fun call => given.of_same rfl rfl
  unfold treat at run
  rw [run_bind (run_lock l m)] at run
  split at run
  · obtain ⟨_, m₁, completed, rest⟩ := ok_of_bind run
    cases rest
    obtain ⟨given', gone, reused⟩ :=
      (noted (.completion n l .failed (m.lock l).flags)).discards whole sound completed
    exact ⟨given', gone, reused.widen (fun _ => rfl) fun _ => rfl⟩
  · obtain ⟨_, m₁, cancelled, rest⟩ := ok_of_bind run
    cases rest
    obtain ⟨given', gone, reused⟩ :=
      (noted (.cancelLocal n l (m.lock l).flags)).discards whole sound cancelled
    exact ⟨given', gone, reused.widen (fun _ => rfl) fun _ => rfl⟩

theorem visit_default (given : Given n r l m) (whole : (m.lock l).isDestroyed = false)
    (spared : flags.contains .destroyed = false) (sound : (m.space n).lru.Sound)
    (run : visit .default n flags l m = .ok () m') : Discarded l m' ∧ Reused n [l] m m' := by
  let m₀ := (m.modifyLock l (·.setFlags (visitFlags flags))).modifyLock l
    fun lk => { lk with owners := lk.owners + 1 }
  have given₀ : Given n r l m₀ := (given.modifyLock rfl).modifyLock rfl
  have whole₀ : (m₀.lock l).isDestroyed = false := by
    rw [lock_modifyLock, if_pos rfl, lock_modifyLock, if_pos rfl]
    show ((m.lock l).flags ||| visitFlags flags).contains .destroyed = false
    rw [LockFlags.contains_destroyed_union, contains_destroyed_visitFlags, spared, Bool.or_false]
    exact whole
  unfold visit at run
  rw [run_bind (show Act.modifyLock l _ m = .ok () _ from rfl),
    run_bind (show Act.own l _ = .ok () m₀ from rfl)] at run
  obtain ⟨asks, m₁, treated, rest⟩ := ok_of_bind run
  obtain ⟨given₁, gone, reused⟩ := treat_default given₀ whole₀ sound treated
  obtain ⟨m₂, left, given₂, lock, unused⟩ : ∃ m₂, disown l m₂ = .ok () m' ∧ Given n r l m₂ ∧
      m₂.lock l = m₁.lock l ∧ ∀ k, (m₂.space k).lru = (m₁.space k).lru := by
    cases asks with
    | true =>
      obtain ⟨_, m₂, asked, left⟩ := ok_of_bind rest
      cases asked
      exact ⟨_, left, given₁.of_same rfl rfl, rfl, fun _ => rfl⟩
    | false => exact ⟨m₁, rest, given₁, rfl, fun _ => rfl⟩
  obtain ⟨_, again, -, -, own, still⟩ := given₂.disown
  cases left.symm.trans again
  refine ⟨?_, reused.widen (fun _ => rfl) fun k => (still k).trans (unused k)⟩
  rw [lock] at own
  rcases own with kept | ⟨-, dropped⟩
  · refine ⟨?_, ?_, ?_⟩ <;> rw [kept]
    exacts [gone.link, gone.bound, gone.destroyed]
  · refine ⟨?_, ?_, ?_⟩ <;> rw [dropped]
    exacts [gone.link, gone.destroyed]

theorem treats_default (n : SpaceKey) : LockPolicy.default.Treats (fun _ _ => True) n where
  completion l m r q shown := by
    obtain ⟨m', run, given, handled, link, -⟩ := shown.destroyLock
    exact ⟨m', run, given, handled, .inl link⟩
  cancelLocal l m r q shown := by
    obtain ⟨m', run, given, handled, link, -⟩ := shown.destroyLock
    exact ⟨m', run, given, handled, .inl link⟩
  completionBlind _ := blind_destroyLock
  cancelBlind _ := blind_destroyLock

/-- The visits of several locks under the default policy destroy all of them. -/
theorem visits_default (draining : Draining (fun _ _ => True) n held covered hands holds m)
    (spared : flags.contains .destroyed = false) (sound : (m.space n).lru.Sound)
    (distinct : order.Nodup)
    (queued : ∀ l ∈ order, (m.lock l).isDestroyed = false ∧
      ∃ r q, r.space = n ∧ l ∈ m.pending r q)
    (run : order.forM (visit .default n flags) m = .ok () m') :
    (∀ l ∈ order, Discarded l m') ∧ Reused n order m m' := by
  induction order generalizing m with
  | nil =>
    cases run
    exact ⟨nofun, .nil⟩
  | cons l rest ih =>
    obtain ⟨apart, distinct⟩ := List.nodup_cons.mp distinct
    obtain ⟨whole, r, q, here, member⟩ := queued l (List.mem_cons_self ..)
    obtain ⟨inside, fresh⟩ := List.mem_filter.mp member
    rw [Bool.not_eq_true'] at fresh
    obtain ⟨_, m₁, visited, later⟩ := ok_of_bind run
    obtain ⟨_, again, draining₁, handled, marked⟩ :=
      draining.visit (treats_default n) flags here inside fresh
    cases visited.symm.trans again
    obtain ⟨gone, reused⟩ :=
      visit_default (draining.given here inside fresh) whole spared sound visited
    have queued₁ : ∀ k ∈ rest, (m₁.lock k).isDestroyed = false ∧
        ∃ s p, s.space = n ∧ k ∈ m₁.pending s p := by
      intro k inside
      have other : k ≠ l := fun same => apart (same ▸ inside)
      obtain ⟨whole, s, p, there, member⟩ := queued k (List.mem_cons_of_mem l inside)
      rw [handled.others k other]
      refine ⟨whole, s, p, there, ?_⟩
      rw [handled.pending there (cleaned_of_marked marked), List.mem_filter, bne_iff_ne]
      exact ⟨member, other⟩
    have sound₁ : (m₁.space n).lru.Sound := by
      rw [reused.here]
      exact sound.without [l]
    obtain ⟨others, more⟩ := ih draining₁ sound₁ distinct queued₁ later
    obtain ⟨_, anew, -, swept⟩ := draining₁.visits (treats_default n) flags distinct
      fun k inside => (queued₁ k inside).2
    cases later.symm.trans anew
    refine ⟨fun k member => ?_, reused.cons more⟩
    rcases List.mem_cons.mp member with rfl | inside
    · exact gone.of_lock (swept.others k apart)
    · exact others k inside

/-- A drain under the default policy empties a namespace none of whose queued locks was visited or
destroyed before, whatever the peer answers, and returns the number of those locks. -/
theorem empties (flags : LockFlags) (spared : flags.contains .destroyed = false)
    (seated : SeatedIn n m) (booked : BookedIn covered m hands holds) (known : covered n)
    (owned : 0 < (m.space n).owners) (sound : (m.space n).lru.Sound)
    (fresh : ∀ r q, r.space = n → ∀ l ∈ m.queue r q,
      (m.lock l).flags.contains .cleaned = false ∧ (m.lock l).isDestroyed = false)
    (bound : ∀ r q, r.space = n → ∀ l ∈ m.queue r q, ∀ s, (m.lock l).bound = some s →
      s.space = n) :
    (m.queuedIn n).Nodup ∧ (∀ l, l ∈ m.queuedIn n ↔ ∃ r q, r.space = n ∧ l ∈ m.queue r q) ∧
      ∃ c m₁ m', start n flags m = .ok c m₁ ∧
        c.Finishes .default (fun count m₂ => count = (m.queuedIn n).length ∧
          ∃ log, m₂ = m'.relog log) m₁ ∧ Emptied n flags hands m m' := by
  obtain ⟨c, m₁, m₂, m', started, same, draining, queued, run, after, swept, seated', last,
      finishes⟩ := drains seated booked known owned
    (fun r q here l member => ⟨trivial, bound r q here l member⟩)
    (fun r q here l member => (fresh r q here l member).1) (treats_default n) flags
  have listed : ∀ l, l ∈ m.queuedIn n ↔ ∃ r q, r.space = n ∧ l ∈ m.queue r q :=
    fun l => mem_queuedIn seated booked known
  have distinct := nodup_queuedIn seated booked known
  have sound₁ : (m₁.space n).lru.Sound := by
    rw [same.unused]
    exact sound
  obtain ⟨gone, reused⟩ := visits_default draining spared sound₁ distinct (fun l member => by
    obtain ⟨r, q, here, inside⟩ := (listed l).mp member
    rw [same.lock]
    exact ⟨(fresh r q here l inside).2, queued l member⟩) run
  have discarded : ∀ l ∈ m.queuedIn n, Discarded l m' := fun l inside =>
    (gone l inside).of_lock (after.lock l)
  refine ⟨distinct, listed, c, m₁, m', started, finishes, ?_⟩
  refine ⟨fun r q here => ?_, fun l inside => ⟨discarded l inside, swept.marked l inside⟩,
    swept.others, reused.widen same.unused after.unused, ?_, fun r here => ?_, fun r here => ?_⟩
  · refine List.eq_nil_iff_forall_not_mem.mpr fun l member => ?_
    have before := (listed l).mpr ⟨r, q, here, swept.queue r q here l member⟩
    exact seated'.not_mem here (discarded l before).link member
  · refine boundRefs_eq_add distinct (fun l inside => (discarded l inside).bound) fun l outside => ?_
    rw [swept.others l outside]
  · exact last.hashes_iff (here ▸ known)
  · exact last.refcount_eq (here ▸ known)

/-- A namespace with a lock on each queue of a resource is emptied: one that owns a reference and is
among the unused ones, one that owns a reference on another resource, and one that owns none. -/
theorem empties_of_three_queues : ∃ m hands, Queueing m hands ∧
    m.queuedIn ⟨0⟩ = [⟨0⟩, ⟨1⟩, ⟨2⟩] ∧ (m.space ⟨0⟩).lru.toList = [⟨3⟩, ⟨0⟩] ∧
    ∃ c m₁ m', start ⟨0⟩ .none m = .ok c m₁ ∧
      c.Finishes .default (fun count m₂ => count = 3 ∧ ∃ log, m₂ = m'.relog log) m₁ ∧
      Emptied ⟨0⟩ .none hands m m' := by
  let r : ResourceRef := ⟨⟨0⟩, ⟨0⟩⟩
  let s : ResourceRef := ⟨⟨0⟩, ⟨1⟩⟩
  obtain ⟨m, hands, reach, order, unused, owned, sound, each⟩ := Queueing.exists_of_calls
    [.build .peered, .get ⟨0⟩ ⟨1, 2, 0, 0⟩ .plain true, .clone r,
      .get ⟨0⟩ ⟨2, 2, 0, 0⟩ .plain true, .clone s, .newLock ⟨1⟩ .pr none, .newLock ⟨2⟩ .pr none,
      .newLock ⟨3⟩ .cr none, .newLock ⟨4⟩ .cr none, .bind ⟨0⟩ r, .bind ⟨1⟩ s, .bind ⟨3⟩ s,
      .unused ⟨0⟩ ⟨3⟩, .unused ⟨0⟩ ⟨0⟩, .add r .granted ⟨0⟩, .add r .converting ⟨1⟩,
      .add r .waiting ⟨2⟩]
    (fun m => m.queuedIn ⟨0⟩ = [⟨0⟩, ⟨1⟩, ⟨2⟩] ∧ (m.space ⟨0⟩).lru.toList = [⟨3⟩, ⟨0⟩] ∧
      0 < (m.space ⟨0⟩).owners ∧ (m.space ⟨0⟩).lru.Sound ∧ ∀ l ∈ m.queuedIn ⟨0⟩,
        ((m.lock l).flags.contains .cleaned = false ∧ (m.lock l).isDestroyed = false) ∧
          ∀ t ∈ (m.lock l).bound, t.space = ⟨0⟩)
    (by decide +kernel)
  have seated := reach.settled.seated.seatedIn ⟨0⟩
  have listed : ∀ r q, r.space = ⟨0⟩ → ∀ l ∈ m.queue r q, l ∈ m.queuedIn ⟨0⟩ :=
    fun r q here l member => (mem_queuedIn seated reach.settled.booked owned).mpr ⟨r, q, here, member⟩
  obtain ⟨-, -, c, m₁, m', started, finishes, emptied⟩ := empties .none (by decide) seated
    reach.settled.booked owned owned sound
    (fun r q here l member => (each l (listed r q here l member)).1)
    fun r q here l member => (each l (listed r q here l member)).2
  rw [order] at finishes
  exact ⟨m, hands, reach, order, unused, c, m₁, m', started, finishes, emptied⟩

end Cleanup

end Lockspace
