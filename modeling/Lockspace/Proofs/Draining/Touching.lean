import Lockspace.Proofs.Draining.Seats
import Lockspace.Proofs.FlagWords

namespace Lockspace

open Manager Act

namespace Manager

/-- A lock stays where it is, with the reference that it owns. -/
structure Stayed (l : LockKey) (m m' : Manager) : Prop where
  link : (m'.lock l).link = (m.lock l).link
  bound : (m'.lock l).bound = (m.lock l).bound
  queue : ∀ r q, m'.queue r q = m.queue r q

/-- A lock is on no queue of its namespace any more, and may have dropped its reference. -/
structure Parted (n : SpaceKey) (l : LockKey) (m m' : Manager) : Prop where
  link : (m'.lock l).link = none
  bound : ∀ s, (m'.lock l).bound = some s → (m.lock l).bound = some s
  queue : ∀ r q, r.space = n → m'.queue r q = (m.queue r q).filter (· != l)

/-- No lock has changed but one of a namespace, which has its flags and may have more of them. It is
where it was, or on no queue any more. These calls about locks were made. -/
structure Handled (n : SpaceKey) (l : LockKey) (calls : List Callback) (m m' : Manager) : Prop where
  others : ∀ k, k ≠ l → m'.lock k = m.lock k
  flags : (m'.lock l).flags.contains (m.lock l).flags
  placed : Stayed l m m' ∨ Parted n l m m'
  calls : m'.lockCalls = m.lockCalls ++ calls
  alike : Alike m m'
  booked : ∀ {covered hands holds}, BookedIn covered m hands holds → BookedIn covered m' hands holds

/-- A lock that a callback of a namespace is given. It is on a queue of a resource, or has left it,
and others reference that resource and the one that the lock is bound to. -/
structure Given (n : SpaceKey) (r : ResourceRef) (l : LockKey) (m : Manager) : Prop where
  here : r.space = n
  seated : SeatedIn n m
  referenced : (m.resource r).refcount ≠ 0
  placed : (m.lock l).link = none ∨ ∃ q, l ∈ m.queue r q
  shares : m.Shares l

variable {m m' m'' : Manager} {n : SpaceKey} {l k : LockKey} {r s : ResourceRef} {q p : Queue}

theorem Stayed.trans (first : Stayed l m m') (second : Stayed l m' m'') : Stayed l m m'' where
  link := second.link.trans first.link
  bound := second.bound.trans first.bound
  queue r q := (second.queue r q).trans (first.queue r q)

namespace Parted

theorem stayed (first : Parted n l m m') (second : Stayed l m' m'') : Parted n l m m'' where
  link := second.link.trans first.link
  bound s owned := first.bound s (second.bound ▸ owned)
  queue r q here := (second.queue r q).trans (first.queue r q here)

theorem after_stayed (first : Stayed l m m') (second : Parted n l m' m'') : Parted n l m m'' where
  link := second.link
  bound s owned := first.bound ▸ second.bound s owned
  queue r q here := by rw [second.queue r q here, first.queue]

theorem trans (first : Parted n l m m') (second : Parted n l m' m'') : Parted n l m m'' where
  link := second.link
  bound s owned := first.bound s (second.bound s owned)
  queue r q here := by
    rw [second.queue r q here, first.queue r q here, List.filter_filter]
    simp only [Bool.and_self]

end Parted

namespace Handled

theorem refl (n : SpaceKey) (l : LockKey) (m : Manager) : Handled n l [] m m where
  others _ _ := rfl
  flags := LockFlags.contains_refl _
  placed := .inl ⟨rfl, rfl, fun _ _ => rfl⟩
  calls := (List.append_nil _).symm
  alike := refl_of Alike m
  booked := id

theorem trans {calls more : List Callback} (first : Handled n l calls m m')
    (second : Handled n l more m' m'') : Handled n l (calls ++ more) m m'' where
  others k other := (second.others k other).trans (first.others k other)
  flags := LockFlags.contains_trans second.flags first.flags
  placed := by
    rcases first.placed with stayed | parted <;> rcases second.placed with again | gone
    · exact .inl (stayed.trans again)
    · exact .inr (.after_stayed stayed gone)
    · exact .inr (parted.stayed again)
    · exact .inr (parted.trans gone)
  calls := by rw [second.calls, first.calls, List.append_assoc]
  alike := trans_of Alike first.alike second.alike
  booked books := second.booked (first.booked books)

/-- A lock changes in what no queue and no reference depends on. -/
theorem modifyLock {f : Lock → Lock} (standing : (f (m.lock l)).standing = (m.lock l).standing)
    (flags : (f (m.lock l)).flags.contains (m.lock l).flags) : Handled n l [] m (m.modifyLock l f) where
  others k other := by rw [lock_modifyLock, if_neg other]
  flags := by rwa [lock_modifyLock, if_pos rfl]
  placed := by
    refine .inl ⟨?_, ?_, fun _ _ => rfl⟩
    · rw [lock_modifyLock, if_pos rfl]
      exact congrArg (·.1) standing
    · rw [lock_modifyLock, if_pos rfl]
      exact congrArg (·.2.2.1) standing
  calls := (List.append_nil _).symm
  alike := .of_spaces rfl
  booked books := books.relock (congrArg (·.2.2.1) standing)

theorem modifyUnused (f : UnusedLru → UnusedLru) :
    Handled n l [] m (m.modifySpace n fun s => { s with lru := f s.lru }) where
  others _ _ := rfl
  flags := LockFlags.contains_refl _
  placed := by
    refine .inl ⟨rfl, rfl, fun r q => ?_⟩
    have table := view_modifySpace (m := m) (n := n)
      (f := fun s => { s with lru := f s.lru }) (·.table) rfl r.space
    rw [queue, resource, table]
    rfl
  calls := (List.append_nil _).symm
  alike := by refine alike_modifySpace ?_ ?_ ?_ <;> exact fun _ => rfl
  booked books := books.agrees fun k => agrees_modifySpace n rfl

theorem relog (log : Array LogLine) : Handled n l [] m { m with log } where
  others _ _ := rfl
  flags := LockFlags.contains_refl _
  placed := .inl ⟨rfl, rfl, fun _ _ => rfl⟩
  calls := (List.append_nil _).symm
  alike := .of_spaces rfl
  booked books := books.same (fun _ => rfl) rfl

theorem note {call : Callback} (about : call.isAboutLock) :
    Handled n l [call] m { m with trace := m.trace.push call } where
  others _ _ := rfl
  flags := LockFlags.contains_refl _
  placed := .inl ⟨rfl, rfl, fun _ _ => rfl⟩
  calls := by rw [lockCalls_note, if_pos about]
  alike := .of_spaces rfl
  booked books := books.same (fun _ => rfl) rfl

end Handled

namespace Given

theorem of_same (given : Given n r l m) (spaces : m'.spaces = m.spaces)
    (locks : m'.locks = m.locks) : Given n r l m' := by
  have space : ∀ n, m'.space n = m.space n := fun n => by simp only [Manager.space, spaces]
  have lock : m'.lock l = m.lock l := by simp only [Manager.lock, locks]
  have resource : ∀ s, m'.resource s = m.resource s := fun s => by
    simp only [Manager.resource, space]
  refine ⟨given.here, given.seated.of_same spaces locks, ?_, ?_, fun s owned => ?_⟩
  · rw [resource]
    exact given.referenced
  · unfold Manager.queue
    rw [lock, resource]
    exact given.placed
  · rw [lock] at owned
    rw [space, resource]
    exact given.shares s owned

theorem modifyLock (given : Given n r l m) {f : Lock → Lock}
    (standing : (f (m.lock l)).standing = (m.lock l).standing) :
    Given n r l (m.modifyLock l f) where
  here := given.here
  seated := given.seated.modifyLock standing
  referenced := given.referenced
  placed := by
    rw [lock_modifyLock, if_pos rfl, show (f (m.lock l)).link = _ from congrArg (·.1) standing]
    exact given.placed
  shares := by
    unfold Shares
    rw [lock_modifyLock, if_pos rfl,
      show (f (m.lock l)).bound = _ from congrArg (·.2.2.1) standing]
    exact given.shares

theorem modifyUnused (given : Given n r l m) (f : UnusedLru → UnusedLru) :
    Given n r l (m.modifySpace n fun s => { s with lru := f s.lru }) := by
  have table := view_modifySpace (m := m) (n := n)
    (f := fun s => { s with lru := f s.lru }) (·.table) rfl
  have owners := view_modifySpace (m := m) (n := n)
    (f := fun s => { s with lru := f s.lru }) (·.owners) rfl
  have resource : ∀ s, (m.modifySpace n fun s => { s with lru := f s.lru }).resource s =
      m.resource s := fun s => congrArg (·.resource s.key) (table s.space)
  refine ⟨given.here, given.seated.unmoved (unmoved_modifySpace n rfl rfl), ?_, ?_, ?_⟩
  · rw [resource]
    exact given.referenced
  · unfold Manager.queue
    rw [resource]
    exact given.placed
  · intro s owned
    rw [resource, owners]
    exact given.shares s owned

/-- A lock that wants to leave its queue can. -/
theorem leave (given : Given n r l m) : ∃ m', unlink r l m = .ok () m' ∧
    unlinkAndMark l m = markDestroyed l m' ∧ m'.lock l = { m.lock l with link := none } ∧
    Given n r l m' ∧ Handled n l [] m m' ∧ ∀ k, (m'.space k).lru = (m.space k).lru := by
  rcases given.placed with free | ⟨q, member⟩
  · refine ⟨m, unlink_of_free free, unlinkAndMark_of_free free, ?_, given, .refl n l m, fun _ => rfl⟩
    rw [← free]
  · have link := given.seated.link given.here member
    obtain ⟨res, left, seated, queue⟩ := given.seated.departed given.here member
    have run := unlink_of_departed link member left
    obtain ⟨-, -, count⟩ := Resource.departed_keeps left
    have own : (m.departed r l q res).lock l = { m.lock l with link := none } := by
      rw [lock_departed, if_pos rfl]
    have free : ((m.departed r l q res).lock l).link = none := by rw [own]
    have counts : ∀ s, ((m.departed r l q res).resource s).refcount = (m.resource s).refcount := by
      intro s
      rw [resource_departed]
      split
      · rename_i same
        rw [same]
        exact count
      · rfl
    have discreet := (discreet_locks.unlink r l m).of_ok run
    refine ⟨_, run, ?_, own, ⟨given.here, seated, ?_, .inl free, fun s owned => ?_⟩,
      ⟨fun k other => ?_, ?_, .inr ⟨free, fun s owned => ?_, queue⟩, ?_, discreet.toAlike,
        fun books => ?_⟩, fun k => ?_⟩
    · unfold unlinkAndMark
      rw [run_bind (run_homeOf_of_home (given.seated.home r q given.here l member)
        given.referenced)]
      exact run_bind run
    · rw [counts]
      exact given.referenced
    · rw [own] at owned
      rw [counts, discreet.owners]
      exact given.shares s owned
    · rw [lock_departed, if_neg other]
    · rw [own]
      exact LockFlags.contains_refl _
    · rw [own] at owned
      exact owned
    · rw [discreet.calls, List.append_nil]
    · exact books.departed given.referenced left
    · exact lru_departed

/-- A lock that is on no queue drops its reference. -/
theorem unbound (given : Given n r l m) (free : (m.lock l).link = none) :
    dropBound l m = .ok () (m.unbound l) ∧ Given n r l (m.unbound l) ∧
      Handled n l [] m (m.unbound l) := by
  have run := run_dropBound_shared given.shares
  have still := (steady_dropBound m).of_ok run
  have discreet := (discreet_drops.dropBound l m).of_ok run
  have own : (m.unbound l).lock l = { m.lock l with bound := none } := by
    rw [lock_unbound, if_pos rfl]
  refine ⟨run, ⟨given.here, given.seated.unmoved still.toUnmoved,
    referenced_unbound given.shares given.referenced, .inl ?_, fun s owned => ?_⟩,
    ⟨fun k other => ?_, ?_, .inr ⟨?_, fun s owned => ?_, fun s p there => ?_⟩, ?_,
      discreet.toAlike, fun books => (books.ends_dropBound).of_ok run⟩⟩
  · rw [still.link]
    exact free
  · rw [own] at owned
    cases owned
  · rw [lock_unbound, if_neg other]
  · rw [own]
    exact LockFlags.contains_refl _
  · rw [still.link]
    exact free
  · rw [own] at owned
    cases owned
  · rw [Manager.queue, still.queues, List.filter_eq_self.mpr]
    · rfl
    · intro k inside
      refine bne_iff_ne.mpr fun same => ?_
      exact given.seated.not_mem there free (same ▸ inside)
  · rw [discreet.calls, List.append_nil]

/-- The lock is destroyed: off its queue and marked. Where it was not before, it also leaves the
unused locks and drops its reference. -/
theorem destroyLock (given : Given n r l m) : ∃ m', destroyLock n l m = .ok () m' ∧
    Given n r l m' ∧ Handled n l [] m m' ∧ (m'.lock l).link = none ∧ (m'.lock l).isDestroyed ∧
    ((m.lock l).isDestroyed = false → (m'.lock l).bound = none ∧
      (m'.space n).lru = ((m.space n).lru.remove l).2 ∧
      ∀ k, k ≠ n → (m'.space k).lru = (m.space k).lru) := by
  obtain ⟨m₁, -, leaves, own, left, parted, lru⟩ := given.leave
  have marked := left.modifyLock (f := (·.setFlags .destroyed)) rfl
  have flagged : Handled n l [] m (m₁.modifyLock l (·.setFlags .destroyed)) :=
    parted.trans (.modifyLock rfl (LockFlags.contains_union_left _ _))
  have mark : (m₁.modifyLock l (·.setFlags .destroyed)).lock l =
      { m.lock l with link := none, flags := (m.lock l).flags ||| .destroyed } := by
    rw [lock_modifyLock, if_pos rfl, own]
    rfl
  have gone : ((m₁.modifyLock l (·.setFlags .destroyed)).lock l).isDestroyed := by
    rw [mark]
    exact LockFlags.contains_union_right _ _
  have marks : unlinkAndMark l m = .ok (!(m.lock l).isDestroyed)
      (m₁.modifyLock l (·.setFlags .destroyed)) := by
    rw [leaves]
    show EStateM.Result.ok (!(m₁.lock l).isDestroyed) _ = _
    rw [own]
    rfl
  unfold Act.destroyLock
  rw [run_bind marks]
  have free : ((m₁.modifyLock l (·.setFlags .destroyed)).lock l).link = none := by rw [mark]
  have unused : ∀ k, ((m₁.modifyLock l (·.setFlags .destroyed)).space k).lru = (m.space k).lru := lru
  generalize m₁.modifyLock l (·.setFlags .destroyed) = m₂ at marked flagged gone free unused
  cases destroyed : (m.lock l).isDestroyed with
  | true => exact ⟨m₂, rfl, marked, flagged, free, gone, nofun⟩
  | false =>
    have reused : (discard (lockReused n l) : Act Unit) m₂ =
        .ok () (m₂.modifySpace n fun s => { s with lru := (s.lru.remove l).2 }) := rfl
    have out := marked.modifyUnused fun lru => (lru.remove l).2
    have taken : Handled n l [] m₂ _ := .modifyUnused fun lru => (lru.remove l).2
    obtain ⟨drops, given', handled⟩ := out.unbound free
    have own : ((m₂.modifySpace n fun s => { s with lru := (s.lru.remove l).2 }).unbound l).lock l =
        { m₂.lock l with bound := none } := by
      rw [lock_unbound, if_pos rfl]
      rfl
    refine ⟨_, (run_bind reused).trans drops, given', flagged.trans (taken.trans handled), ?_, ?_,
      fun _ => ⟨?_, ?_, fun k other => ?_⟩⟩
    · rw [own]
      exact free
    · rw [own]
      exact gone
    · rw [own]
    · rw [lru_unbound, space_modifySpace, if_pos rfl, unused]
    · rw [lru_unbound, space_modifySpace, if_neg other, unused]

end Given

/-- What a callback may do to the lock that it is given, one thing after another: change what no queue
and no reference depends on but clear no flag, take the lock off its queue and then drop its reference,
take it off the unused ones, destroy it, and log. -/
inductive Touches (n : SpaceKey) (r : ResourceRef) (l : LockKey) : Manager → Manager → Prop
  | done {m : Manager} : Touches n r l m m
  | alters {m m' : Manager} {f : Lock → Lock}
      (standing : (f (m.lock l)).standing = (m.lock l).standing)
      (flags : (f (m.lock l)).flags.contains (m.lock l).flags)
      (rest : Touches n r l (m.modifyLock l f) m') : Touches n r l m m'
  | unlinks {m m₁ m' : Manager} (run : unlink r l m = .ok () m₁) (rest : Touches n r l m₁ m') :
      Touches n r l m m'
  | unbinds {m m₁ m' : Manager} (free : (m.lock l).link = none) (run : dropBound l m = .ok () m₁)
      (rest : Touches n r l m₁ m') : Touches n r l m m'
  | reuses {m m' : Manager}
      (rest : Touches n r l (m.modifySpace n fun s => { s with lru := (s.lru.remove l).2 }) m') :
      Touches n r l m m'
  | destroys {m m₁ m' : Manager} (run : destroyLock n l m = .ok () m₁)
      (rest : Touches n r l m₁ m') : Touches n r l m m'
  | logs {m m' : Manager} {log : Array LogLine} (rest : Touches n r l { m with log } m') :
      Touches n r l m m'

/-- Whatever a callback does to the lock that it is given, it leaves everything else alone. -/
theorem Touches.handled (touches : Touches n r l m m') (given : Given n r l m) :
    Handled n l [] m m' ∧ Given n r l m' := by
  induction touches with
  | @done m => exact ⟨.refl n l m, given⟩
  | alters standing flags _ ih =>
    obtain ⟨later, last⟩ := ih (given.modifyLock standing)
    exact ⟨(Handled.modifyLock standing flags).trans later, last⟩
  | unlinks run _ ih =>
    obtain ⟨_, again, -, -, left, handled, -⟩ := given.leave
    cases run.symm.trans again
    obtain ⟨later, last⟩ := ih left
    exact ⟨handled.trans later, last⟩
  | unbinds free run _ ih =>
    obtain ⟨again, unbound, handled⟩ := given.unbound free
    cases run.symm.trans again
    obtain ⟨later, last⟩ := ih unbound
    exact ⟨handled.trans later, last⟩
  | reuses _ ih =>
    obtain ⟨later, last⟩ := ih (given.modifyUnused fun lru => (lru.remove l).2)
    exact ⟨(Handled.modifyUnused fun lru => (lru.remove l).2).trans later, last⟩
  | destroys run _ ih =>
    obtain ⟨_, again, gone, handled, -⟩ := given.destroyLock
    cases run.symm.trans again
    obtain ⟨later, last⟩ := ih gone
    exact ⟨handled.trans later, last⟩
  | logs _ ih =>
    obtain ⟨later, last⟩ := ih (given.of_same rfl rfl)
    exact ⟨(Handled.relog _).trans later, last⟩

end Manager

end Lockspace
