import Lockspace.Proofs.Destruction.Fates
import Lockspace.Proofs.Draining.Releases
import Lockspace.Proofs.Quiescence.OwnCalls

namespace Lockspace

open Manager Act

namespace Act

variable {m m' : Manager} {has : Stakes} {l : LockKey} {n : SpaceKey}

/-- A lock that is looked for where it was last queued may leave its queue, and is marked. -/
theorem makes_unlinkAndMark : (unlinkAndMark l).Makes m has fun _ => has := by
  have marks : ∀ m, (markDestroyed l).Makes m has fun _ => has := by
    refine fun m => makes_harmless (preserves_lock.bind fun lk => ?_)
    exact Preserves.bind (harmless_modifyLock fun _ => rfl) fun _ => preserves_pure _
  unfold unlinkAndMark
  refine ends_bind.mpr (ends_of_run (run_homeOf_eq l m) ?_)
  cases home : (m.lock l).home.filter fun r => (m.resource r).refcount > 0 with
  | none => exact marks m
  | some r =>
    have referenced : (m.resource r).refcount ≠ 0 := by
      have positive := (Option.filter_eq_some_iff.mp home).2
      exact (of_decide_eq_true positive).ne'
    have leaves : (unlink r l).Makes m has fun _ => has :=
      makes_call fun _ _ run => .unlink referenced run
    exact leaves.bind fun _ => marks

theorem harmless_lockReused : (lockReused n l).Preserves Harmless :=
  preserves_space.bind fun _ =>
    Preserves.bind (fun _ => .modifySpace rfl rfl rfl rfl) fun _ => preserves_pure _

/-- A lock that drops its reference takes it back and puts it. -/
theorem makes_dropBound : (dropBound l).Makes m has fun _ => has := by
  unfold Makes dropBound
  rw [ends_bind, ends_lock]
  cases bound : (m.lock l).bound with
  | none => exact ends_pure.mpr .refl
  | some r =>
    have taken : Calls (m, has) (m.modifyLock l fun lk => { lk with bound := none },
        { has with hands := r ::ₘ has.hands }) := by
      refine .single (.unbind (l := l) ?_)
      show EStateM.Result.ok (m.lock l).bound _ = _
      rw [bound]
    rw [ends_bind, ends_modifyLock, ends_discard]
    have puts : (put r).Makes (m.modifyLock l fun lk => { lk with bound := none })
        { has with hands := r ::ₘ has.hands } fun _ => has :=
      makes_call fun _ _ run => .put rfl run
    exact Ends.imp puts fun _ _ calls => taken.trans calls

theorem not_mem_of_lockReused {removed : Bool} (sound : (m.space n).lru.Sound)
    (run : lockReused n l m = .ok removed m') : l ∉ (m'.space n).lru.toList := by
  obtain ⟨-, rfl⟩ := EStateM.Result.ok.inj ((run_lockReused_eq n l m).symm.trans run)
  rw [space_modifySpace, if_pos rfl, sound.remove_eq]
  exact fun member => (UnusedLru.mem_without.mp member).2 (List.mem_singleton_self l)

theorem unbound_of_dropBound (run : dropBound l m = .ok () m') : (m'.lock l).bound = none := by
  suffices drops : (dropBound l).Leaves m fun _ m' => (m'.lock l).bound = none from drops.of_ok run
  unfold dropBound
  refine leaves_after (run_lock l m) ?_
  cases bound : (m.lock l).bound with
  | none => exact leaves_pure.mpr bound
  | some r =>
    refine leaves_after (a := ()) rfl (leaves_discard.mpr ?_)
    refine (lightens_put (r := r) (m.modifyLock l fun lk => { lk with bound := none })).imp
      fun answer m' lightens => ?_
    have own : ((m.modifyLock l fun lk => { lk with bound := none }).lock l).bound = none := by
      rw [lock_modifyLock, if_pos rfl]
    have after : (m'.lock l).bound = none := by
      rcases lightens.lock l with same | ⟨-, loses⟩
      · rw [same, own]
      · rw [loses]
    cases answer <;> exact after

end Act

/-- The runs of calls about resources, locks and namespaces, in which whoever destroys a lock may be
interrupted between his steps. Who marks a lock first goes on to take it off the unused ones and to
release its reference; who finds it marked stops there. In the meantime nobody takes the reference
of the lock back, and no call but a destruction marks a lock or takes a mark off. -/
inductive Unmaking : Manager → Stakes → (LockKey → Fate) → Prop
  | start : Unmaking {} {} fun _ => {}
  | call {α : Type} {m m' : Manager} {has has' : Stakes} {fates : LockKey → Fate} {t : Transfer}
      {act : Act α} {a : α} (reach : Unmaking m has fates) (call : Call m has m' has')
      (ordinary : Ordinary t act) (spares : ∀ l, t = .returned l → ¬ (fates l).Open)
      (run : act m = .ok a m') : Unmaking m' has' fun k => (fates k).after t k m m'
  /-- Anything else that concerns no queue, no list of unused locks and no standing of a lock, be it
  a call that is refused. -/
  | aside {m m' : Manager} {has has' : Stakes} {fates : LockKey → Fate}
      (reach : Unmaking m has fates) (call : Call m has m' has') (aside : Incidental m m') :
      Unmaking m' has' fates
  | strip {m m' : Manager} {has : Stakes} {fates : LockKey → Fate} {n : SpaceKey} {l : LockKey}
      {first : Bool} (reach : Unmaking m has fates) (run : unlinkAndMark l m = .ok first m') :
      Unmaking m' has (Fate.struck fates n l first m m')
  | reap {m m' : Manager} {has : Stakes} {fates : LockKey → Fate} {l : LockKey} {e : Ending}
      {removed : Bool} (reach : Unmaking m has fates) (ending : (fates l).ending = some e)
      (marked : e.stage = .marked) (run : lockReused e.space l m = .ok removed m') :
      Unmaking m' has (Fate.advanced fates l .reaped m m')
  | drop {m m' : Manager} {has : Stakes} {fates : LockKey → Fate} {l : LockKey} {e : Ending}
      (reach : Unmaking m has fates) (ending : (fates l).ending = some e)
      (reaped : e.stage = .reaped) (run : dropBound l m = .ok () m') :
      Unmaking m' has (Fate.advanced fates l .ended m m')

namespace Manager

/-- A lock whose first destruction is over. It is on no queue, if it was to be found on its own, and
not among the unused locks of the namespace in which it was destroyed. Nothing puts it back, further
destructions change nothing, and the reference that it owned was dropped once. -/
structure AtRest (m : Manager) (l : LockKey) (fate : Fate) (e : Ending) : Prop where
  free : e.found.AtHome l → (m.lock l).link = none ∧ ∀ r q, l ∉ m.queue r q
  away : l ∉ (m.space e.space).lru.toList ∧ (m.space e.space).lru.contains l = false
  added : ∀ r q, addLock r q l m = .ok () m
  inserted : ∀ r anchor, insertAfter r anchor l m = .ok () m ∨
    ∃ fault, (insertAfter r anchor l).Refuses m fault
  unused : ∀ n, ∃ m', lockUnused n l m = .ok false m' ∧ (∀ k, m'.space k = m.space k) ∧
    m'.locks = m.locks
  again : e.found.AtHome l → ∀ n, ∃ m', destroyLock n l m = .ok () m' ∧ m'.spaces = m.spaces ∧
    ∀ k, m'.lock k = m.lock k
  once : ∀ r, (e.found.lock l).bound = some r → fate.dropped.count e.serial = 1

end Manager

namespace Unmaking

variable {m m' : Manager} {has has' : Stakes} {fates : LockKey → Fate} {l : LockKey} {e : Ending}

/-- The steps of destructions are made of calls. -/
theorem calls (reach : Unmaking m has fates) : Calls ({}, {}) (m, has) := by
  induction reach with
  | start => exact .refl
  | call _ call _ _ _ ih => exact ih.tail call
  | aside _ call _ ih => exact ih.tail call
  | strip _ run ih => exact ih.trans (Ends.of_ok makes_unlinkAndMark run)
  | reap _ _ _ run ih => exact ih.trans (Calls.aside ((harmless_lockReused _).of_ok run))
  | drop _ _ _ run ih => exact ih.trans (Ends.of_ok makes_dropBound run)

theorem upheld (reach : Unmaking m has fates) : Upheld m has :=
  reach.calls.upholds .empty

theorem indexed (reach : Unmaking m has fates) : m.Indexed False := by
  induction reach with
  | start => exact .start
  | call _ _ ordinary _ run ih => exact ((ordinary.indices _).of_ok run).indexed ih
  | aside _ _ aside ih => exact aside.keepsIndices.indexed ih
  | strip _ run ih => exact ((indices_calls.unlinkAndMark _).of_ok run).indexed ih
  | reap _ _ _ run ih => exact ((indices_calls.drops.lockReused _ _ _).of_ok run).indexed ih
  | drop _ _ _ run ih => exact ((indices_calls.drops.dropBound _ _).of_ok run).indexed ih

theorem sound (reach : Unmaking m has fates) (n : SpaceKey) : (m.space n).lru.Sound := by
  induction reach with
  | start => exact .empty
  | call _ _ ordinary _ run ih => exact ((ordinary.wanes _ ⟨0⟩).of_ok run).sound n ih
  | aside _ _ aside ih =>
    rw [aside.lru]
    exact ih
  | strip _ run ih =>
    rw [((ends_unlinkAndMark_stripped _ _).of_ok run).2.lru]
    exact ih
  | reap _ _ _ run ih =>
    have wanes : Wanes False ⟨0⟩ _ _ := (wanes_lockReused _).of_ok run
    exact wanes.sound n ih
  | drop _ _ _ run ih =>
    have wanes : Wanes False ⟨0⟩ _ _ := (wanes_dropBound _).of_ok run
    exact wanes.sound n ih

/-- What became of every lock fits the state that a run has come to. -/
theorem fits (reach : Unmaking m has fates) (l : LockKey) : Fits m l (fates l) := by
  induction reach generalizing l with
  | start =>
    have lock : ({} : Manager).lock l = default := Store.get_of_size_le _ (Nat.zero_le _)
    refine ⟨nofun, .nil, fun _ => List.not_mem_nil, ?_, nofun⟩
    rw [lock]
    exact iff_of_false nofun (not_not_intro rfl)
  | call _ _ ordinary spares run ih =>
    exact (ih l).after ((ordinary.wanes _ l).of_ok run) (spares l)
  | aside _ _ aside ih =>
    refine (ih l).unchanged aside.wanes fun _ owned => ?_
    rwa [show (Manager.lock _ l).bound = _ from congrArg (·.2.2.1) (aside.standing l)]
  | @strip m m' _ fates n k first _ run ih =>
    obtain ⟨told, stripped⟩ := (ends_unlinkAndMark_stripped k m).of_ok run
    unfold Fate.struck
    split
    · rename_i here
      rw [here.1]
      exact (ih k).begun stripped n
    · rename_i elsewhere
      have again : l = k → (m.lock k).isDestroyed := by
        rintro rfl
        by_contra whole
        exact elsewhere ⟨rfl, by simpa [whole] using told⟩
      exact (ih l).after ((wanes_unlinkAndMark again).of_ok run) nofun
  | @reap m m' _ fates k e _ reach ending marked run ih =>
    have after := (ih l).after (t := .none) ((wanes_lockReused _).of_ok run) nofun
    unfold Fate.advanced
    split
    · rename_i here
      subst here
      exact after.reaped ending (not_mem_of_lockReused (reach.sound e.space) run)
    · exact after
  | @drop m m' _ fates k e reach ending reaped run ih =>
    have after := (ih l).after (t := .none) ((wanes_dropBound _).of_ok run) nofun
    unfold Fate.advanced
    split
    · rename_i here
      subst here
      exact after.ended ending (by rw [reaped]; exact nofun) (unbound_of_dropBound run)
    · exact after

/-- Every resource counts the references that callers have and that locks own. -/
theorem refcount_eq (reach : Unmaking m has fates) (r : ResourceRef) :
    (m.resource r).refcount = (has.hands + m.boundRefs).count r := by
  have booked := reach.upheld.booked
  by_cases known : r.space ∈ has.built
  · exact booked.refcount_eq known
  · rw [Multiset.count_eq_zero_of_notMem fun member => known (booked.within r member)]
    by_contra referenced
    exact known (booked.held r referenced)

/-- The first destruction of a lock stays the first one, whoever else comes to destroy the lock. -/
theorem begins_once (reach : Unmaking m has fates) {first : Bool} {n : SpaceKey} {k : LockKey}
    (run : unlinkAndMark k m = .ok first m') (ending : (fates l).ending = some e) :
    (Fate.struck fates n k first m m' l).ending = some e := by
  have told := ((ends_unlinkAndMark_stripped k m).of_ok run).1
  rw [Fate.ending_struck, if_neg, ending]
  rintro ⟨rfl, again⟩
  rw [told, (reach.fits l).gone ending] at again
  cases again

/-- No reference that a lock was given is dropped twice, whoever destroys it. -/
theorem nodup_dropped (reach : Unmaking m has fates) (l : LockKey) : (fates l).dropped.Nodup :=
  (reach.fits l).once

/-- Destruction is complete and final, whatever comes between its steps and after them, and drops
the reference that it found once. -/
theorem final (reach : Unmaking m has fates) (ending : (fates l).ending = some e)
    (ended : e.stage = .ended) : AtRest m l (fates l) e ∧
      ∀ r, (m.resource r).refcount = (has.hands + m.boundRefs).count r := by
  have fits := reach.fits l
  have closing := fits.closing e ending
  have gone := fits.gone ending
  have away : l ∉ (m.space e.space).lru.toList := closing.away (by rw [ended]; exact nofun)
  refine ⟨⟨fun home => ?_, ⟨away, ?_⟩, fun r q => addLock_of_destroyed gone, fun r anchor => ?_,
    fun n => ?_, fun home n => ?_, fun r owned => ?_⟩, reach.refcount_eq⟩
  · exact ⟨closing.free home, fun r q => reach.indexed.not_mem (closing.free home)⟩
  · rw [← Bool.not_eq_true, (reach.sound e.space).contains_iff]
    exact away
  · cases there : (m.lock anchor).link with
    | none => exact Or.inr ⟨_, insertAfter_of_free_anchor there⟩
    | some q =>
      by_cases member : anchor ∈ m.queue r q
      · exact Or.inl (insertAfter_of_destroyed there member gone)
      · exact Or.inr ⟨_, insertAfter_of_anchor_elsewhere there member⟩
  · obtain ⟨m', run, space, locks, -⟩ := lockUnused_of_refused (n := n) (l := l) (m := m)
      (by rw [gone, Bool.or_true])
    exact ⟨m', run, space, locks⟩
  · have run : unlinkAndMark l m = .ok false (m.modifyLock l (·.setFlags .destroyed)) := by
      rw [unlinkAndMark_of_free (closing.free home), run_markDestroyed, gone]
      rfl
    refine ⟨_, run_bind run, rfl, fun k => ?_⟩
    rw [lock_modifyLock]
    split
    · rename_i same
      have flags := LockFlags.contains_iff_union_eq.mp gone
      rw [same, Lock.setFlags, flags]
    · rfl
  · rcases closing.owned r owned with dropped | ⟨further, -⟩
    · exact List.count_eq_one_of_mem fits.once dropped
    · exact absurd ended further

/-- No lock is being destroyed to which nothing has happened. -/
theorem not_open_empty : ¬ ({} : Fate).Open := by
  rintro ⟨e, ending, -⟩
  cases ending

end Unmaking

namespace Act

/-- A namespace is set up, a lock is made, and a caller gets a reference on a new resource. -/
def setUpOne : Act Unit := do
  let _ ← Act.build .oneBucket
  let _ ← Act.newLock ⟨1⟩ .ex none
  let _ ← getOrCreate ⟨0⟩ ⟨1, 0, 0, 0⟩ .plain true

/-- The lock is queued on the resource, takes the reference over and becomes unused. -/
def settleOne : Act Unit := do
  addLock ⟨⟨0⟩, ⟨0⟩⟩ .granted ⟨0⟩
  Act.bind ⟨0⟩ ⟨⟨0⟩, ⟨0⟩⟩
  let _ ← lockUnused ⟨0⟩ ⟨0⟩

/-- The lock is marked, is to become unused once more, is taken off the unused ones, is marked by
somebody else and drops its reference. -/
def destroyInTurns : Act (Bool × Bool) := do
  let first ← unlinkAndMark ⟨0⟩
  let _ ← lockUnused ⟨0⟩ ⟨0⟩
  let _ ← lockReused ⟨0⟩ ⟨0⟩
  let second ← unlinkAndMark ⟨0⟩
  dropBound ⟨0⟩
  return (first, second)

end Act

namespace Unmaking

theorem of_setUpOne (run : setUpOne {} = .ok () m) :
    ∃ fates, Unmaking m { hands := {⟨⟨0⟩, ⟨0⟩⟩}, built := [⟨0⟩] } fates ∧
      ∀ k, ¬ (fates k).Open := by
  obtain ⟨_, m₀, built, rfl, _, m₁, made, _, m₂, got, rfl⟩ :
      (Act.build .oneBucket).Returns {} fun n m₀ => n = .ok ⟨0⟩ ∧
        (Act.newLock ⟨1⟩ .ex none).Returns m₀ fun _ m₁ =>
          (getOrCreate ⟨0⟩ ⟨1, 0, 0, 0⟩ .plain true).Returns m₁ fun on _ => on = .ok ⟨⟨0⟩, ⟨0⟩⟩ := by
    decide +kernel
  obtain rfl : m = m₂ := by
    have again : setUpOne {} = .ok () m₂ :=
      (run_bind built).trans ((run_bind made).trans (run_bind got))
    cases run.symm.trans again
    rfl
  have reach : Unmaking m₀ { built := [⟨0⟩] } _ := start.call (.build built) (.build _) nofun built
  have reach : Unmaking m₁ { built := [⟨0⟩] } _ :=
    reach.call (.newLock made) (.newLock ..) nofun made
  exact ⟨_, reach.call (.get List.mem_cons_self got) (.get ..) nofun got,
    fun k busy => not_open_empty busy⟩

theorem of_settleOne {built : List SpaceKey}
    (reach : Unmaking m { hands := {⟨⟨0⟩, ⟨0⟩⟩}, built } fates) (run : settleOne m = .ok () m') :
    ∃ fates', Unmaking m' { built } fates' := by
  obtain ⟨_, m₁, added, run⟩ := ok_of_bind run
  obtain ⟨_, m₂, handed, run⟩ := ok_of_bind run
  obtain ⟨_, _, unused, ⟨⟩⟩ := ok_of_bind run
  have referenced : (m.resource ⟨⟨0⟩, ⟨0⟩⟩).refcount ≠ 0 :=
    reach.upheld.booked.refcount_ne_zero (Multiset.mem_cons_self ..)
  have reach : Unmaking m₁ { hands := {⟨⟨0⟩, ⟨0⟩⟩}, built } _ :=
    reach.call (.add referenced added) (.add ..) nofun added
  have reach : Unmaking m₂ { built } _ := reach.call (.bind rfl handed) (.bind ..) nofun handed
  exact ⟨_, reach.call (.aside ((harmless_lockUnused m₂).of_ok unused)) (.unused ..) nofun unused⟩

/-- The reference that such a lock drops was the last one on its resource. -/
theorem final_of_interrupted_destruction : ∃ m has fates e, Unmaking m has fates ∧
    (fates ⟨0⟩).ending = some e ∧ e.stage = .ended ∧ e.found.AtHome ⟨0⟩ ∧
    (e.found.lock ⟨0⟩).bound = some ⟨⟨0⟩, ⟨0⟩⟩ ∧ AtRest m ⟨0⟩ (fates ⟨0⟩) e ∧
    (m.resource ⟨⟨0⟩, ⟨0⟩⟩).refcount = 0 := by
  let r : ResourceRef := ⟨⟨0⟩, ⟨0⟩⟩
  obtain ⟨_, m₀, setUp, _, m₁, settled, owned, home, _, m, destroyed, told, none⟩ :
      setUpOne.Returns {} fun _ m =>
        settleOne.Returns m fun _ m => (m.lock ⟨0⟩).bound = some r ∧ m.AtHome ⟨0⟩ ∧
          destroyInTurns.Returns m fun told m => told = (true, false) ∧
            (m.resource r).refcount = 0 := by
    decide +kernel
  obtain ⟨first, m₂, struck, run⟩ := ok_of_bind destroyed
  obtain ⟨_, m₃, refused, run⟩ := ok_of_bind run
  obtain ⟨_, m₄, reused, run⟩ := ok_of_bind run
  obtain ⟨second, m₅, again, run⟩ := ok_of_bind run
  obtain ⟨_, _, dropped, ⟨⟩⟩ := ok_of_bind run
  obtain ⟨rfl, rfl⟩ := Prod.mk.inj told
  let has : Stakes := { built := [⟨0⟩] }
  obtain ⟨fates, reach, -⟩ := of_setUpOne setUp
  obtain ⟨fates, reach⟩ := reach.of_settleOne settled
  have reach : Unmaking m₂ has _ := reach.strip (n := ⟨0⟩) struck
  have reach : Unmaking m₃ has _ :=
    reach.call (.aside ((harmless_lockUnused m₂).of_ok refused)) (.unused ..) nofun refused
  have reach : Unmaking m₄ has _ := reach.reap (l := ⟨0⟩) rfl rfl reused
  have reach : Unmaking m₅ has _ := reach.strip (n := ⟨0⟩) again
  have reach : Unmaking m has _ := reach.drop (l := ⟨0⟩) rfl rfl dropped
  exact ⟨m, _, _, _, reach, rfl, rfl, home, owned, (reach.final rfl rfl).1, none⟩

end Unmaking

end Lockspace
