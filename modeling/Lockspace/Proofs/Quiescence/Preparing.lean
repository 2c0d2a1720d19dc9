import Lockspace.Proofs.Quiescence.Stages
import Lockspace.Proofs.Rolls.Teardowns
import Lockspace.Proofs.Sequential.Discipline

namespace Lockspace

open Manager Act

/-- One step of a first teardown phase. It takes a turn unless it sleeps, its bound passes while it
sleeps, it takes the answer of a peer, or it presses the transport and takes the answer to that. -/
inductive Teardown.Acts (policy : LockPolicy) (t : Teardown) :
    Manager → Stakes → Teardown.Step → Manager → Stakes → Prop
  | turn {m m' : Manager} {has has' : Stakes} {next : Teardown.Step}
      (awake : t.sleeps (m.space t.space) = false) (lawful : t.Lawful policy m has has')
      (run : t.turn policy m = .ok next m') : Acts policy t m has next m' has'
  | expired {m m' : Manager} {has : Stakes} {next : Teardown.Step}
      (asleep : t.sleeps (m.space t.space) = true) (run : t.expired m = .ok next m') :
      Acts policy t m has next m' has
  | answered {m m' : Manager} {has : Stakes} {next : Teardown} {l : LockKey}
      {failure : Option LockError} (run : t.answered l failure m = .ok next m') :
      Acts policy t m has (.goes next) m' has
  | press {m m' : Manager} {has : Stakes} {step : Escalation} (run : t.press step m = .ok () m') :
      Acts policy t m has (.goes t) m' has
  | pressed {m m' : Manager} {has : Stakes} {next : Teardown} {step : Escalation}
      {failure : Option LockError} (wants : t.stage = .escalating step)
      (run : t.pressed step failure m = .ok next m') : Acts policy t m has (.goes next) m' has

/-- A first teardown phase in progress, with the state and with what all others have. It may start
wherever calls lead to, and others may make any calls between two of its steps. -/
inductive Preparing (policy : LockPolicy) (n : SpaceKey) (force hasImport : Bool) :
    Manager → Stakes → Teardown → Prop
  | start {m m' : Manager} {has : Stakes} {t : Teardown} (before : Calls ({}, {}) (m, has))
      (built : n ∈ has.built) (run : Teardown.start n force hasImport m = .ok t m') :
      Preparing policy n force hasImport m' has t
  | others {m m' : Manager} {has has' : Stakes} {t : Teardown}
      (course : Preparing policy n force hasImport m has t) (calls : Calls (m, has) (m', has')) :
      Preparing policy n force hasImport m' has' t
  | step {m m' : Manager} {has has' : Stakes} {t t' : Teardown} {turn : Teardown.Step}
      (course : Preparing policy n force hasImport m has t)
      (acts : t.Acts policy m has turn m' has') (goesOn : turn.next? = some t') :
      Preparing policy n force hasImport m' has' t'

/-- From one state to the other the registry, and what it says of each namespace, changed in
callbacks of a policy at most. -/
def LockPolicy.Confines (policy : LockPolicy) : Manager → Manager → Prop :=
  Relation.ReflTransGen fun m m' => SameRoll m m' ∨
    (∃ n l flags, m' = (policy.completion n l flags).left m) ∨
    ∃ n l, m' = (policy.cancelLocal n l).left m

namespace Manager

/-- Nothing refers to resources of a namespace, its table holds none, and there are no locks on
queues. -/
structure Vacant (m : Manager) (n : SpaceKey) : Prop where
  unreferenced : (m.space n).table.bref = 0
  size : (m.space n).table.size = 0
  queues : ∀ r, r.space = n → ∀ q, m.queue r q = []
  lockCount : (m.space n).snapshot.lockCount = 0

/-- A first phase that starts now succeeds with its first turn. As long as there still are no
references then, the namespace can be freed, unless an unused lock of it owns a reference with which
the last one on a resource with locks goes. -/
def Recovers (m : Manager) (has : Stakes) (n : SpaceKey) : Prop :=
  ∀ (policy : LockPolicy) (force hasImport : Bool), ∃ t m₁,
    Teardown.start n force hasImport m = .ok t m₁ ∧
    t.turn policy m₁ = .ok (.returns (.ok ())) m₁ ∧
    ∀ m₂ has₂, Calls (m₁, has) (m₂, has₂) → (m₂.space n).table.bref = 0 →
      (m₂.space n).freed = false → (freePost n).Ends m₂
        (fun fault => (∃ l ∈ (m₂.space n).lru.toList, (m₂.lock l).bound ≠ none) ∧ m₂.Jams fault)
        fun freed _ => freed = true

end Manager

/-- What a first teardown phase guarantees where it stands. -/
structure Preparing.Guarantees (policy : LockPolicy) (n : SpaceKey) (force hasImport : Bool)
    (m : Manager) (has : Stakes) (t : Teardown) : Prop where
  started : ∀ m₀ t₀ m₁, Teardown.start n force hasImport m₀ = .ok t₀ m₁ → SameRoll m₀ m₁
  confined : ∀ turn m' has', t.Acts policy m has turn m' has' → policy.Confines m m'
  vacant : ∀ m' has', t.Acts policy m has (.returns (.ok ())) m' has' → m'.Vacant n
  failed : ∀ e m' has', t.Acts policy m has (.returns (.error e)) m' has' →
    force = false ∧ hasImport = false ∧ (m'.space n).table.bref ≠ 0 ∧
      e = .drainTimeout (m'.space n).name (m'.space n).table.bref
  recovers : ∀ e m' has' m₂ has₂, t.Acts policy m has (.returns (.error e)) m' has' →
    Calls (m', has') (m₂, has₂) → (m₂.space n).table.bref = 0 → m₂.Recovers has₂ n
  /-- A bound that passes does not end a phase that is forced or has a transport. -/
  patient : (force || hasImport) = true → t.sleeps (m.space n) = true →
    ∃ turn m', t.expired m = .ok turn m' ∧ turn.next? ≠ none
  /-- Whatever the transport answers, the phase goes on. -/
  escalates : ∀ step failure, t.stage = .escalating step →
    ∃ t' m', t.pressed step failure m = .ok t' m' ∧ step.Leads n t'.stage
  /-- Once there are no references, the next turn succeeds if the transport is not being pressed. -/
  ends : (m.space n).table.bref = 0 → t.sleeps (m.space n) = false ∧
    ((∃ step, t.stage = .escalating step) ∨ t.turn policy m = .ok (.returns (.ok ())) m)

variable {policy : LockPolicy} {n : SpaceKey} {force hasImport : Bool} {m m' : Manager}
  {has has' : Stakes} {t : Teardown} {turn : Teardown.Step}

theorem Act.leaves_left {α : Type} (act : Act α) (m : Manager) :
    act.Leaves m fun _ m' => m' = act.left m := by
  unfold Leaves left
  cases act m <;> rfl

namespace LockPolicy

instance : IsPreorder Manager policy.Confines :=
  inferInstanceAs (IsPreorder Manager (Relation.ReflTransGen _))

theorem confines_of_sameRoll (same : SameRoll m m') : policy.Confines m m' :=
  .single (Or.inl same)

theorem keeps_confines : policy.Keeps policy.Confines where
  completion n l flags m := ((policy.completion n l flags).leaves_left m).imp fun _ _ last =>
    .single (Or.inr (Or.inl ⟨n, l, flags, last⟩))
  cancelLocal n l m := ((policy.cancelLocal n l).leaves_left m).imp fun _ _ last =>
    .single (Or.inr (Or.inr ⟨n, l, last⟩))

end LockPolicy

namespace Teardown.Acts

/-- A step of a first phase makes calls, next to those of its policy. -/
theorem calls (acts : t.Acts policy m has turn m' has') (built : t.space ∈ has.built) :
    Calls (m, has.beside ↑t.held) (m', has'.beside ↑(turn.held held)) := by
  cases acts with
  | turn awake lawful run => exact (makes_turn lawful).of_ok run
  | expired asleep run => exact makes_expired.of_ok run
  | answered run => exact (makes_answered _).of_ok run
  | press run => exact (makes_press _).of_ok run
  | pressed wants run =>
    have none : t.held = [] := by rw [Teardown.held, wants]
    rw [none, Stakes.beside_nil]
    exact (makes_pressed built _ _).of_ok run

/-- In its own steps a first phase leaves the registry alone. -/
theorem confined (acts : t.Acts policy m has turn m' has') : policy.Confines m m' := by
  have within : TearsWithin policy.Confines :=
    tearsWithin_of_sameRoll fun _ _ => LockPolicy.confines_of_sameRoll
  cases acts with
  | turn _ _ run => exact (keeps_turn within LockPolicy.keeps_confines m).of_ok run
  | expired _ run => exact (keeps_expired within m).of_ok run
  | answered run => exact (keeps_answered within _ m).of_ok run
  | @press _ _ step run =>
    cases step with
    | disconnect => exact (within.noted _ rfl m).of_ok run
    | invalidate => exact (within.noted _ rfl m).of_ok run
  | pressed _ run => exact (keeps_pressed within _ _ m).of_ok run

end Teardown.Acts

/-- What holds while a first phase is in progress. -/
structure Teardown.Sound (n : SpaceKey) (force hasImport : Bool) (m : Manager) (has : Stakes)
    (t : Teardown) : Prop where
  upheld : m.Upheld (has.beside ↑t.held)
  built : n ∈ has.built
  fits : t.Fits n force hasImport m

namespace Teardown.Sound

theorem others (sound : t.Sound n force hasImport m has) (calls : Calls (m, has) (m', has')) :
    t.Sound n force hasImport m' has' where
  upheld := (calls.beside ↑t.held).upholds sound.upheld
  built := calls.built sound.built
  fits := sound.fits.wakes calls.wakes

/-- The step lemma: what a step leads to fits again, or settles the matter. -/
theorem meets (sound : t.Sound n force hasImport m has) (acts : t.Acts policy m has turn m' has') :
    turn.Meets (Fits n force hasImport m') (m'.Concludes n (force || hasImport)) := by
  obtain ⟨upheld, built, fits⟩ := sound
  have here := fits.1
  cases acts with
  | turn _ _ run => exact (fits_turn fits).of_ok run
  | expired asleep run =>
    rw [here] at asleep
    exact ((fits_expired fits asleep).of_ok run).imp (fun _ => id) fun _ => And.right
  | answered run => exact (fits_answered fits _).of_ok run
  | press run => exact fits.wakes ((@makes_press t m has _).of_ok run).wakes
  | pressed wants run =>
    obtain ⟨-, given, stage⟩ := fits
    rw [wants] at stage
    have after := ((@fits_pressed n m force _ _ _ t upheld.booked built here (given.trans stage)
      _ _).of_ok run).2
    rwa [← show hasImport = true from stage] at after

/-- What holds while the phase is in progress goes on to hold, and when it ends the books are kept
without its references. -/
theorem acts (sound : t.Sound n force hasImport m has) (acts : t.Acts policy m has turn m' has') :
    turn.Meets (Sound n force hasImport m' has') fun result =>
      m'.Upheld has' ∧ n ∈ has'.built ∧ m'.Concludes n (force || hasImport) result := by
  have calls := acts.calls (sound.fits.1 ▸ sound.built)
  have upheld := calls.upholds sound.upheld
  have built := calls.built sound.built
  have meets := sound.meets acts
  cases turn with
  | goes next => exact ⟨upheld, built, meets⟩
  | asks l next => exact ⟨upheld, built, meets⟩
  | parks bound next => exact ⟨upheld, built, meets⟩
  | returns result =>
    rw [Turn.held, Stakes.beside_nil] at upheld
    exact ⟨upheld, built, meets⟩

/-- Where there are no references, the phase itself holds none. -/
theorem held_eq_nil (sound : t.Sound n force hasImport m has)
    (none : (m.space n).table.bref = 0) : t.held = [] := by
  refine List.eq_nil_iff_forall_not_mem.mpr fun r member => ?_
  have within := sound.fits.within r member
  have gone := (sound.upheld.booked.unreferenced sound.built none).1
  have there : r.key ∈ refKeys ((has.beside ↑t.held).hands + m.boundRefs) n := by
    rw [mem_refKeys, ← within]
    exact Multiset.mem_add.mpr (Or.inl (Multiset.mem_add.mpr (Or.inl member)))
  rw [gone] at there
  exact Multiset.notMem_zero _ there

end Teardown.Sound

namespace Manager.Upheld

/-- When no reference is left, nothing is. -/
theorem vacant (upheld : m.Upheld has) (built : n ∈ has.built)
    (none : (m.space n).table.bref = 0) : m.Vacant n := by
  have released : ∀ key, (m.resource ⟨n, key⟩).queued = 0 :=
    fun key => (upheld.booked.released (r := ⟨n, key⟩) built none).2
  refine ⟨none, upheld.booked.size_eq_zero built none, ?_, ?_⟩
  · rintro ⟨k, key⟩ rfl q
    exact upheld.totals.queue_eq_nil (released key) q
  · have total : (m.space n).table.lockTotal = 0 := Store.sum_of_zero _ rfl released
    show (m.space n).stats.locks.toNat = 0
    rw [upheld.totals.locks, total]
    rfl

/-- A first phase that starts holds all resources that there are. -/
theorem starts (upheld : m.Upheld has) (built : n ∈ has.built) (force hasImport : Bool) :
    ∃ t m', Teardown.start n force hasImport m = .ok t m' ∧ (∃ d, t.stage = .draining d) ∧
      t.Sound n force hasImport m' has ∧ (m'.space n).table.bref = (m.space n).table.bref := by
  obtain ⟨t, m', run, stage, fits, same⟩ :=
    (Teardown.fits_start upheld.booked built).exists_run
  have calls := (Teardown.makes_start built force hasImport).of_ok run
  exact ⟨t, m', run, stage, ⟨calls.upholds upheld, built, fits⟩, same⟩

/-- A namespace without references that was not freed yet can be freed, unless that drops the last
reference on a resource with locks. -/
theorem frees (upheld : m.Upheld has) (built : n ∈ has.built)
    (none : (m.space n).table.bref = 0) (unfreed : (m.space n).freed = false) :
    (freePost n).Ends m
      (fun fault => (∃ l ∈ (m.space n).lru.toList, (m.lock l).bound ≠ .none) ∧ m.Jams fault)
      fun freed _ => freed = true := by
  obtain ⟨roll, matched, known⟩ := upheld.enrolled
  refine (upheld.booked.ends_freePost built matched.listed fun unfreed => ?_).imp fun _ _ after =>
    after.2.mpr ⟨none, unfreed⟩
  exact matched.alive_ne_zero (known ▸ built) unfreed

/-- Once there are no references, a first phase succeeds at once. -/
theorem recovers (upheld : m.Upheld has) (built : n ∈ has.built)
    (none : (m.space n).table.bref = 0) : m.Recovers has n := by
  intro policy force hasImport
  obtain ⟨t, m₁, run, ⟨d, stage⟩, sound, same⟩ := upheld.starts built force hasImport
  have idle := sound.held_eq_nil (same.trans none)
  have upheld₁ := sound.upheld
  rw [idle, Stakes.beside_nil] at upheld₁
  obtain ⟨-, ⟨step, other⟩ | done⟩ :=
    @Teardown.awake_of_unused policy _ _ _ _ _ sound.fits idle (same.trans none)
  · cases stage.symm.trans other
  refine ⟨t, m₁, run, done, fun m₂ has₂ calls none unfreed => ?_⟩
  exact (calls.upholds upheld₁).frees (calls.built built) none unfreed

end Manager.Upheld

namespace Preparing

theorem sound (course : Preparing policy n force hasImport m has t) :
    t.Sound n force hasImport m has := by
  induction course with
  | start before built run =>
    obtain ⟨t, m', again, -, sound, -⟩ :=
      (before.upholds .empty).starts built force hasImport
    cases run.symm.trans again
    exact sound
  | others _ calls ih => exact ih.others calls
  | @step _ _ _ _ _ _ turn _ acts goesOn ih =>
    have after := ih.acts acts
    cases turn with
    | returns result => cases goesOn
    | _ =>
      cases goesOn
      exact after

theorem guarantees (course : Preparing policy n force hasImport m has t) :
    Guarantees policy n force hasImport m has t := by
  have sound := course.sound
  obtain ⟨upheld, built, fits⟩ := course.sound
  refine ⟨fun m₀ t₀ m₁ run => ?_, fun turn m' has' acts => acts.confined, fun m' has' acts => ?_,
    fun e m' has' acts => ?_, fun e m' has' m₂ has₂ acts calls none => ?_, fun patient asleep => ?_,
    fun step failure wants => ?_, fun none => ?_⟩
  · have within : TearsWithin SameRoll := tearsWithin_of_sameRoll fun _ _ => id
    exact (Teardown.keeps_start within force hasImport m₀).of_ok run
  · obtain ⟨after, known, none⟩ := sound.acts acts
    exact after.vacant known none
  · obtain ⟨-, -, impatient, used, failed⟩ := sound.acts acts
    rw [Bool.or_eq_false_iff] at impatient
    exact ⟨impatient.1, impatient.2, used, failed⟩
  · obtain ⟨after, known, -⟩ := sound.acts acts
    exact (calls.upholds after).recovers (calls.built known) none
  · obtain ⟨turn, m', run, meets⟩ := (Teardown.fits_expired fits asleep).exists_run
    refine ⟨turn, m', run, fun ended => ?_⟩
    cases turn with
    | returns result =>
      obtain ⟨⟨e, rfl⟩, impatient, -⟩ := meets
      exact Bool.false_ne_true (impatient.symm.trans patient)
    | _ => cases ended
  · obtain ⟨here, given, stage⟩ := fits
    rw [wants] at stage
    obtain ⟨t', m', run, leads, -⟩ := (@Teardown.fits_pressed n m force _ _ _ t upheld.booked
      built here (given.trans stage) step failure).exists_run
    exact ⟨t', m', run, leads⟩
  · exact Teardown.awake_of_unused fits (sound.held_eq_nil none) none

end Preparing

namespace Act

/-- The first phase of a namespace begins and takes a turn. -/
def prepareOnce : Act (Teardown × Teardown.Step) := do
  let t ← Teardown.start ⟨0⟩ false false
  return (t, ← t.turn .default)

/-- It does so while somebody holds the namespace. -/
def prepareHeld : Act Teardown.Step := do
  let _ ← takeHold ⟨0⟩
  return (← prepareOnce).2

/-- Two namespaces are set up, and a caller gets a reference on a new resource of the second one. -/
def setUpTwo : Act Unit := do
  let _ ← Act.build .oneBucket
  let _ ← Act.build .oneBucket
  let _ ← getOrCreate ⟨1⟩ ⟨1, 2, 0, 0⟩ .plain true

/-- Of two new locks one takes over that reference, to become unused in the first namespace and to
be left there. The other one is queued on the resource. -/
def lendAcross : Act Unit := do
  setUpTwo
  let _ ← Act.newLock ⟨1⟩ .ex none
  let _ ← Act.newLock ⟨2⟩ .ex none
  addLock ⟨⟨1⟩, ⟨0⟩⟩ .granted ⟨1⟩
  Act.bind ⟨0⟩ ⟨⟨1⟩, ⟨0⟩⟩
  let _ ← lockUnused ⟨0⟩ ⟨0⟩
  Act.disown ⟨0⟩

end Act

/-- A phase that waits gives up at its bound, and then the last reference goes, which was a hold. -/
def Teardown.GivesUp (t : Teardown) (m : Manager) (later : Manager → Prop) : Prop :=
  t.sleeps (m.space t.space) = true ∧ t.expired.Returns m fun ended m₁ =>
    ended.answer? = some (.error (.drainTimeout "m" 1)) ∧
      (dropHold ⟨0⟩).Returns m₁ fun _ m₂ => (m₂.space ⟨0⟩).table.bref = 0 ∧ later m₂

instance (t : Teardown) (m : Manager) (later : Manager → Prop) [∀ m, Decidable (later m)] :
    Decidable (t.GivesUp m later) := by
  unfold Teardown.GivesUp
  infer_instance

/-- The first phase of a namespace finds nothing to wait for, but the second one fails. -/
def Manager.FailsAfterwards (m : Manager) : Prop :=
  prepareOnce.Returns m fun again m₁ => again.2.answer? = some (.ok ()) ∧
    (freePost ⟨0⟩).Ends m₁ (· = .releasedWithLocks ⟨1, 2, 0, 0⟩ 1) fun _ _ => False

instance : DecidablePred Manager.FailsAfterwards := by
  intro m
  unfold Manager.FailsAfterwards
  infer_instance

/-- A phase that has just started does not sleep. -/
theorem Teardown.awake_of_start {n : SpaceKey} {force hasImport : Bool} {m m' : Manager}
    {t : Teardown} (run : start n force hasImport m = .ok t m') (s : Namespace) :
    t.sleeps s = false := by
  obtain ⟨_, _, _, run⟩ := ok_of_bind run
  obtain ⟨d, _, drains, ⟨⟩⟩ := ok_of_bind run
  obtain ⟨c, _, cleans, ⟨⟩⟩ := ok_of_bind drains
  obtain ⟨held, _, _, ⟨⟩⟩ := ok_of_bind cleans
  rfl

namespace Preparing

variable {m m' : Manager} {has : Stakes} {t : Teardown} {step : Teardown.Step}
  {built : List SpaceKey}

theorem of_prepareHeld (calls : Calls ({}, {}) (m, has)) (known : ⟨0⟩ ∈ has.built)
    (run : prepareHeld m = .ok step m') (next : step.next? = some t) :
    Preparing .default ⟨0⟩ false false m'
      { has with holds := Function.update has.holds ⟨0⟩ (has.holds ⟨0⟩ + 1) } t := by
  obtain ⟨_, m₁, held, run⟩ := ok_of_bind run
  obtain ⟨_, _, prepared, ⟨⟩⟩ := ok_of_bind run
  obtain ⟨t₀, m₂, started, run⟩ := ok_of_bind prepared
  obtain ⟨_, _, turned, ⟨⟩⟩ := ok_of_bind run
  exact (start (calls.tail (.hold known held)) known started).step
    (.turn (Teardown.awake_of_start started _) Teardown.lawful_default turned) next

/-- A phase that finds the namespace held gives up once its bound has passed. When the hold is gone,
the namespace recovers. -/
theorem recovers_of_released_hold : ∃ m has t m₁ m₂ has₂,
    Preparing .default ⟨0⟩ false false m has t ∧
    t.Acts .default m has (.returns (.error (.drainTimeout "m" 1))) m₁ has ∧
    Calls (m₁, has) (m₂, has₂) ∧ m₂.Recovers has₂ ⟨0⟩ := by
  obtain ⟨_, m₀, built, rfl, step, m, prepared, t, next, asleep, _, m₁, expired, ended, _, m₂,
      yielded, none, -⟩ :
      (Act.build .oneBucket).Returns {} fun n m₀ => n = .ok ⟨0⟩ ∧
        prepareHeld.Returns m₀ fun step m => ∃ t ∈ step.next?, t.GivesUp m fun _ => True := by
    decide +kernel
  cases Turn.eq_returns ended
  let has : Stakes := { holds := Function.update (fun _ => 0) ⟨0⟩ 1, built := [⟨0⟩] }
  have course : Preparing .default ⟨0⟩ false false m has t :=
    of_prepareHeld (Calls.single (.build built)) List.mem_cons_self prepared next
  have acts : t.Acts .default m has (.returns (.error (.drainTimeout "m" 1))) m₁ has :=
    .expired asleep expired
  have later : Calls (m₁, has) (m₂, _) := .single (.yield (n := ⟨0⟩) Nat.one_pos yielded)
  exact ⟨m, has, t, m₁, m₂, _, course, acts, later,
    course.guarantees.recovers _ _ _ _ _ acts later none⟩

theorem calls_setUpTwo (run : setUpTwo {} = .ok () m) :
    Calls ({}, {}) (m, { hands := {⟨⟨1⟩, ⟨0⟩⟩}, built := [⟨1⟩, ⟨0⟩] }) := by
  obtain ⟨_, m₀, first, rfl, _, m₁, second, rfl, _, m₂, found, rfl⟩ :
      (Act.build .oneBucket).Returns {} fun n m₀ => n = .ok ⟨0⟩ ∧
        (Act.build .oneBucket).Returns m₀ fun n m₁ => n = .ok ⟨1⟩ ∧
          (getOrCreate ⟨1⟩ ⟨1, 2, 0, 0⟩ .plain true).Returns m₁ fun on _ =>
            on = .ok ⟨⟨1⟩, ⟨0⟩⟩ := by
    decide +kernel
  obtain rfl : m = m₂ := by
    have again : setUpTwo {} = .ok () m₂ :=
      (run_bind first).trans ((run_bind second).trans (run_bind found))
    cases run.symm.trans again
    rfl
  have calls : Calls ({}, {}) (m₁, { built := [⟨1⟩, ⟨0⟩] }) :=
    (Calls.single (.build first)).tail (.build second)
  exact calls.tail (.get List.mem_cons_self found)

theorem calls_lendAcross (run : lendAcross {} = .ok () m) :
    Calls ({}, {}) (m, { built := [⟨1⟩, ⟨0⟩] }) := by
  obtain ⟨_, m₀, setUp, run⟩ := ok_of_bind run
  obtain ⟨_, m₁, made, run⟩ := ok_of_bind run
  obtain ⟨_, m₂, also, run⟩ := ok_of_bind run
  obtain ⟨_, m₃, queued, run⟩ := ok_of_bind run
  obtain ⟨_, m₄, handed, run⟩ := ok_of_bind run
  obtain ⟨_, m₅, cached, left⟩ := ok_of_bind run
  let has (hands : Multiset ResourceRef) : Stakes := { hands, built := [⟨1⟩, ⟨0⟩] }
  have calls : Calls ({}, {}) (m₁, has {⟨⟨1⟩, ⟨0⟩⟩}) := (calls_setUpTwo setUp).tail (.newLock made)
  have calls : Calls ({}, {}) (m₂, has {⟨⟨1⟩, ⟨0⟩⟩}) := calls.tail (.newLock also)
  have referenced : (m₂.resource ⟨⟨1⟩, ⟨0⟩⟩).refcount ≠ 0 :=
    (calls.upholds .empty).booked.refcount_ne_zero (Multiset.mem_cons_self ..)
  have calls : Calls ({}, {}) (m₃, has {⟨⟨1⟩, ⟨0⟩⟩}) := calls.tail (.add referenced queued)
  have calls : Calls ({}, {}) (m₄, has 0) := calls.tail (.bind rfl handed)
  have calls : Calls ({}, {}) (m₅, has 0) :=
    calls.tail (.aside ((harmless_lockUnused m₄).of_ok cached))
  exact calls.tail (.disown left)

/-- An unused lock of the namespace owns a reference on a resource of another one that has a lock on
a queue. With nobody else to refer to that resource, the second phase fails for it. -/
theorem strands_when_freed : ∃ m has t m₁ m₂ has₂ t₂ m₃ m₄ m₅,
    Preparing .default ⟨0⟩ false false m has t ∧
    t.Acts .default m has (.returns (.error (.drainTimeout "m" 1))) m₁ has ∧
    Calls (m₁, has) (m₂, has₂) ∧
    (m₂.space ⟨0⟩).table.bref = 0 ∧ (m₂.space ⟨0⟩).freed = false ∧
    Teardown.start ⟨0⟩ false false m₂ = .ok t₂ m₃ ∧
    t₂.turn .default m₃ = .ok (.returns (.ok ())) m₄ ∧
    freePost ⟨0⟩ m₄ = .error (.releasedWithLocks ⟨1, 2, 0, 0⟩ 1) m₅ := by
  obtain ⟨_, m₀, lent, step, m, prepared, t, next, asleep, _, m₁, expired, ended, _, m₂, yielded,
      none, unfreed, _, m₄, retried, returned, fails⟩ :
      lendAcross.Returns {} fun _ m₀ => prepareHeld.Returns m₀ fun step m =>
        ∃ t ∈ step.next?, t.GivesUp m fun m₂ => (m₂.space ⟨0⟩).freed = false ∧
          m₂.FailsAfterwards := by
    decide +kernel
  obtain ⟨_, m₅, fails, rfl⟩ := fails.exists_error
  obtain ⟨t₂, m₃, again, run⟩ := ok_of_bind retried
  obtain ⟨_, _, done, ⟨⟩⟩ := ok_of_bind run
  cases Turn.eq_returns ended
  cases Turn.eq_returns returned
  have course := of_prepareHeld (calls_lendAcross lent) (List.mem_cons_of_mem _ List.mem_cons_self)
    prepared next
  exact ⟨m, _, t, m₁, m₂, _, t₂, m₃, m₄, m₅, course, .expired asleep expired,
    .single (@Call.yield _ _ _ ⟨0⟩ _ Nat.one_pos yielded), none, unfreed, again, done, fails⟩

end Preparing

end Lockspace
