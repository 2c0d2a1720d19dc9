import Lockspace.Proofs.Quiescence.OwnCalls

namespace Lockspace

open Manager Act

/-- Whether a turn is as expected: the operation that goes on, or the answer that it returns. -/
def Turn.Meets {σ α : Type} (next : σ → Prop) (last : α → Prop) : Turn σ α → Prop
  | goes s | asks _ s | parks _ s => next s
  | returns a => last a

theorem Turn.meets_map {σ τ α : Type} {f : σ → τ} {next : τ → Prop} {last : α → Prop}
    (turn : Turn σ α) : (turn.map f).Meets next last ↔ turn.Meets (next <| f ·) last := by
  cases turn <;> rfl

theorem Turn.Meets.imp {σ α : Type} {next weaker : σ → Prop} {last less : α → Prop}
    {turn : Turn σ α} (meets : turn.Meets next last) (goesOn : ∀ s, next s → weaker s)
    (ends : ∀ a, last a → less a) : turn.Meets weaker less := by
  cases turn with
  | goes s => exact goesOn s meets
  | asks l s => exact goesOn s meets
  | parks bound s => exact goesOn s meets
  | returns a => exact ends a meets

/-- A waiter that went to sleep while there were references. As long as nobody has signalled since,
there are some. -/
def Waiter.Waits (s : Namespace) : Waiter → Prop
  | .parked seen => seen ≤ s.signals ∧ (s.signals = seen → s.table.bref ≠ 0)
  | _ => False

namespace Waiter

variable {s s' : Namespace} {w : Waiter}

/-- Whoever drops the last reference signals that, so no waiter sleeps on. -/
theorem Waits.wakes (waits : w.Waits s) (wakes : s.Wakes s') : w.Waits s' := by
  cases w with
  | parked seen =>
    obtain ⟨noted, used⟩ := waits
    have later := wakes.signals
    refine ⟨by omega, fun same => wakes.woken (by omega) (used (by omega))⟩
  | _ => exact waits.elim

theorem poll_outside (s : Namespace) :
    outside.poll s = if s.table.bref = 0 then finished else parked s.signals := by
  by_cases none : s.table.bref = 0
  · simp [poll, step?, none]
  · simp [poll, step?, none]

theorem poll_parked (s : Namespace) (seen : Nat) :
    (parked seen).poll s = if s.signals = seen then parked seen else outside.poll s := by
  rw [poll_outside]
  by_cases same : s.signals = seen
  · simp [poll, step?, same]
  · simp [poll, step?, same]

theorem waits_parked {s : Namespace} (used : s.table.bref ≠ 0) : (parked s.signals).Waits s :=
  ⟨le_rfl, fun _ => used⟩

/-- A waiter that looks again finishes if no reference is left, and else goes on to wait. -/
theorem Waits.poll (waits : w.Waits s) :
    w.poll s = finished ∧ s.table.bref = 0 ∨ (w.poll s).Waits s ∧ s.table.bref ≠ 0 := by
  cases w with
  | parked seen =>
    rw [poll_parked, poll_outside]
    split
    · rename_i same
      exact Or.inr ⟨waits, waits.2 same⟩
    split
    · rename_i none
      exact Or.inl ⟨rfl, none⟩
    · rename_i used
      exact Or.inr ⟨waits_parked used, used⟩
  | _ => exact waits.elim

theorem Waits.ne_finished (waits : w.Waits s) : w ≠ finished := by
  rintro rfl
  exact waits

/-- A waiter only sleeps while there are references. -/
theorem Waits.bref_ne_zero (waits : w.Waits s) (asleep : w.sleeps s = true) :
    s.table.bref ≠ 0 := by
  cases w with
  | parked seen =>
    by_cases same : s.signals = seen
    · exact waits.2 same
    · simp [sleeps, step?, same] at asleep
  | _ => exact waits.elim

end Waiter

/-- How a wait for the last reference on a namespace may end: with none left, or in vain, unless it
is bound to go on. -/
def Manager.Concludes (m : Manager) (n : SpaceKey) (patient : Bool) : Except LockError Unit → Prop
  | .ok () => (m.space n).table.bref = 0
  | .error e => patient = false ∧ (m.space n).table.bref ≠ 0 ∧
      e = .drainTimeout (m.space n).name (m.space n).table.bref

variable {policy : LockPolicy} {n : SpaceKey} {l : LockKey} {m m' : Manager} {force : Bool}
  {covered : SpaceKey → Prop} {hands : Multiset ResourceRef} {holds : SpaceKey → Nat}

/-- All references that a listing gives are on resources of the namespace. -/
theorem Manager.BookedIn.ends_resources_within (booked : BookedIn covered m hands holds)
    (known : covered n) :
    (Act.resources n).Ends m (fun _ => False) fun refs m' => (∀ r ∈ refs, r.space = n) ∧
      (m'.space n).table.bref = (m.space n).table.bref := by
  obtain ⟨keys, t, run, -⟩ := (booked.tallied n known).snapshot
  unfold Act.resources
  simp only [ends_bind, ends_space, run, ends_ofExcept, ends_setTable, ends_pure]
  refine ⟨fun r member => ?_, ?_⟩
  · obtain ⟨key, -, rfl⟩ := List.mem_map.mp member
    rfl
  · rw [table_setTable]
    exact (Table.snapshotFrom_cases run).2.bref

/-- A drain of the queues of a namespace. It has nothing to do if it found no resources. -/
structure Cleanup.Fits (n : SpaceKey) (c : Cleanup) : Prop where
  within : ∀ r ∈ c.held, r.space = n
  idle : c.held = [] → c.todo = [] ∧ c.asking = none

namespace Cleanup

variable {c : Cleanup}

theorem fits_start (booked : BookedIn covered m hands holds) (known : covered n)
    (flags : LockFlags) : (start n flags).Ends m (fun _ => False) fun c m' => c.Fits n ∧
      (m'.space n).table.bref = (m.space n).table.bref := by
  unfold start
  rw [ends_bind]
  refine (booked.ends_resources_within known).imp fun refs m₁ listed =>
    ends_pure.mpr ⟨⟨listed.1, ?_⟩, listed.2⟩
  rintro rfl
  exact ⟨rfl, rfl⟩

theorem fits_turn (fits : c.Fits n) :
    (c.turn policy).Ends m (fun _ => True) fun turn _ => turn.Meets (Fits n) fun _ => True := by
  cases todo : c.todo with
  | nil =>
    unfold turn
    rw [todo, ends_bind]
    refine ends_always fun _ m₁ => ?_
    rw [ends_bind]
    exact ends_always fun _ m₂ => ends_pure.mpr trivial
  | cons visit rest =>
    obtain ⟨r, q⟩ := visit
    have busy : c.held ≠ [] := fun none => by
      rw [(fits.idle none).1] at todo
      cases todo
    rw [turn_of_cons todo, ends_bind]
    refine ends_always fun visited m₁ => ?_
    cases visited with
    | none => exact ends_pure.mpr ⟨fits.within, fun none => absurd none busy⟩
    | some l =>
      rw [ends_bind]
      refine ends_always fun asks m₂ => ?_
      split
      · rw [ends_bind]
        refine ends_always fun _ m₃ => ends_pure.mpr ?_
        exact ⟨fits.within, fun none => absurd none busy⟩
      · rw [ends_bind]
        refine ends_always fun _ m₃ => ends_pure.mpr ?_
        exact ⟨fits.within, fun none => absurd none busy⟩

theorem fits_answered (fits : c.Fits n) (failure : Option LockError) :
    (c.answered l failure).Ends m (fun _ => True) fun c _ => c.Fits n := by
  have rest : ∀ (u : PUnit) (m₁ : Manager), (do
      Act.disown l
      return { c with asking := none } : Act Cleanup).Ends m₁ (fun _ => True) fun c _ =>
        c.Fits n := by
    intro _ m₁
    rw [ends_bind]
    refine ends_always fun _ m₂ => ends_pure.mpr ⟨fits.within, fun none => ?_⟩
    exact ⟨(fits.idle none).1, rfl⟩
  unfold answered
  cases failure with
  | none => exact rest () m
  | some e =>
    rw [ends_bind, ends_lock, ends_bind, ends_space, ends_bind]
    exact ends_always rest

/-- A drain that found no resources ends in one turn. -/
theorem run_turn_of_idle (fits : c.Fits n) (idle : c.held = []) :
    c.turn policy m = .ok (.returns c.cleaned) m := by
  unfold turn
  rw [(fits.idle idle).1, idle]
  rfl

end Cleanup

/-- A drain of a namespace that waits soundly, if it waits. -/
def Drain.Fits (n : SpaceKey) (force : Bool) (m : Manager) (d : Drain) : Prop :=
  d.space = n ∧ d.force = force ∧
    match d.stage with
    | .cleaning c => c.Fits n
    | .waiting w _ => w.Waits (m.space n)

namespace Drain

variable {d : Drain}

theorem Fits.wakes (fits : d.Fits n force m) (wakes : Wakes m m') : d.Fits n force m' := by
  obtain ⟨n, force, stage⟩ := d
  obtain ⟨rfl, rfl, fits⟩ := fits
  cases stage with
  | cleaning c => exact ⟨rfl, rfl, fits⟩
  | waiting w bound => exact ⟨rfl, rfl, Waiter.Waits.wakes fits (wakes n)⟩

theorem fits_start (booked : BookedIn covered m hands holds) (known : covered n) :
    (start n force).Ends m (fun _ => False) fun d m' => (∃ c, d = ⟨n, force, .cleaning c⟩) ∧
      d.Fits n force m' ∧ (m'.space n).table.bref = (m.space n).table.bref := by
  unfold start
  rw [ends_bind]
  exact (Cleanup.fits_start booked known _).imp fun c m₁ after =>
    ends_pure.mpr ⟨⟨c, rfl⟩, ⟨rfl, rfl, after.1⟩, after.2⟩

/-- Who does not find references is done, and else sleeps soundly. -/
theorem fits_park (bound : Duration) :
    (d.park bound).Ends m (fun _ => False) fun turn m' =>
      m' = m ∧ turn.Meets (Fits d.space d.force m)
        fun result => result = .ok () ∧ (m.space d.space).table.bref = 0 := by
  unfold park
  rw [ends_bind, ends_space, Waiter.poll_outside]
  by_cases none : (m.space d.space).table.bref = 0
  · rw [if_pos none]
    exact ends_pure.mpr ⟨rfl, rfl, none⟩
  · rw [if_neg none]
    exact ends_pure.mpr ⟨rfl, rfl, rfl, Waiter.waits_parked none⟩

theorem fits_turn (fits : d.Fits n force m) :
    (d.turn policy).Ends m (fun _ => True) fun turn m' =>
      turn.Meets (Fits n force m') (m'.Concludes n force) := by
  obtain ⟨n, force, stage⟩ := d
  obtain ⟨rfl, rfl, fits⟩ := fits
  cases stage with
  | cleaning c =>
    unfold turn
    rw [ends_bind]
    refine (Cleanup.fits_turn fits).imp fun turn m₁ after => ?_
    cases turn with
    | returns cleaned =>
      rw [ends_bind, ends_space]
      refine (fits_park _).mono (fun _ fails => fails.elim) fun turn m' parked => ?_
      obtain ⟨rfl, meets⟩ := parked
      refine meets.imp (fun _ => id) fun result done => ?_
      obtain ⟨rfl, none⟩ := done
      exact none
    | _ => exact ends_pure.mpr ⟨rfl, rfl, after⟩
  | waiting w bound =>
    unfold turn
    rw [ends_bind, ends_space]
    rcases Waiter.Waits.poll fits with ⟨finished, none⟩ | ⟨waits, used⟩
    · rw [finished]
      exact ends_pure.mpr none
    · split
      · rename_i finished
        exact absurd finished waits.ne_finished
      · exact ends_pure.mpr ⟨rfl, rfl, waits⟩

/-- A bound that passes while a drain sleeps ends it with an error or not at all. -/
theorem fits_expired (fits : d.Fits n force m) (asleep : d.sleeps (m.space n) = true) :
    d.expired.Ends m (fun _ => False) fun turn m' =>
      turn.Meets (Fits n force m') fun result => (∃ e, result = .error e) ∧
        m'.Concludes n force result := by
  obtain ⟨n, force, stage⟩ := d
  obtain ⟨rfl, rfl, fits⟩ := fits
  cases stage with
  | cleaning c => exact ends_pure.mpr ⟨rfl, rfl, fits⟩
  | waiting w bound =>
    have used := Waiter.Waits.bref_ne_zero fits asleep
    unfold expired
    rw [ends_bind, ends_space]
    cases force with
    | true =>
      simp only [if_true, ends_bind, ends_log]
      refine (fits_park _).imp fun turn m' parked => ?_
      obtain ⟨rfl, meets⟩ := parked
      exact meets.imp (fun _ => id) fun _ done => absurd done.2 used
    | false =>
      simp only [Bool.false_eq_true, if_false, ends_bind, ends_log]
      exact ends_pure.mpr ⟨⟨_, rfl⟩, rfl, used, rfl⟩

theorem fits_answered (fits : d.Fits n force m) (failure : Option LockError) :
    (d.answered l failure).Ends m (fun _ => True) fun d m' => d.Fits n force m' := by
  obtain ⟨n, force, stage⟩ := d
  obtain ⟨rfl, rfl, fits⟩ := fits
  cases stage with
  | cleaning c =>
    unfold answered
    rw [ends_bind]
    exact (Cleanup.fits_answered fits failure).imp fun c m₁ after => ends_pure.mpr ⟨rfl, rfl, after⟩
  | waiting w bound => exact ends_pure.mpr ⟨rfl, rfl, fits⟩

/-- A drain that holds no references finds at once that none are left. -/
theorem awake_of_unused (fits : d.Fits n force m) (idle : d.held = [])
    (none : (m.space n).table.bref = 0) :
    d.sleeps (m.space n) = false ∧ d.turn policy m = .ok (.returns (.ok ())) m := by
  obtain ⟨n, force, stage⟩ := d
  obtain ⟨rfl, rfl, fits⟩ := fits
  cases stage with
  | cleaning c =>
    have awake : c.asking.isSome = false := by
      rw [(Cleanup.Fits.idle fits idle).2]
      rfl
    have done := Waiter.poll_outside (m.space n)
    rw [if_pos none] at done
    refine ⟨awake, ?_⟩
    show (c.turn policy >>= _) m = _
    rw [run_bind (Cleanup.run_turn_of_idle fits idle)]
    show (Act.space n >>= fun s => Act.space n >>= _) m = _
    rw [run_bind (run_space n m), run_bind (run_space n m), done]
    rfl
  | waiting w bound =>
    constructor
    · by_contra asleep
      exact Waiter.Waits.bref_ne_zero fits (Bool.of_not_eq_false asleep) none
    · obtain ⟨finished, -⟩ | ⟨-, used⟩ := Waiter.Waits.poll fits
      · show (Act.space n >>= _) m = _
        rw [run_bind (run_space n m)]
        dsimp only
        rw [finished]
        rfl
      · exact absurd none used

end Drain

/-- Where each step with the transport leads: the first to the second, and that to a forced
drain. -/
def Escalation.Leads (n : SpaceKey) : Escalation → TeardownStage → Prop
  | .disconnect, stage => stage = .escalating .invalidate
  | .invalidate, stage => ∃ c, stage = .retrying ⟨n, true, .cleaning c⟩

/-- A teardown of a namespace that only escalates and retries where it has a transport, and waits
soundly. -/
def Teardown.Fits (n : SpaceKey) (force hasImport : Bool) (m : Manager) (t : Teardown) : Prop :=
  t.space = n ∧ t.hasImport = hasImport ∧
    match t.stage with
    | .draining d => d.Fits n force m
    | .escalating _ => hasImport = true
    | .retrying d => hasImport = true ∧ d.Fits n true m

namespace Teardown

variable {t : Teardown} {hasImport : Bool}

theorem Fits.wakes (fits : t.Fits n force hasImport m) (wakes : Wakes m m') :
    t.Fits n force hasImport m' := by
  obtain ⟨n, hasImport, stage⟩ := t
  obtain ⟨rfl, rfl, fits⟩ := fits
  cases stage with
  | draining d => exact ⟨rfl, rfl, Drain.Fits.wakes fits wakes⟩
  | escalating step => exact ⟨rfl, rfl, fits⟩
  | retrying d => exact ⟨rfl, rfl, fits.1, fits.2.wakes wakes⟩

theorem fits_start (booked : BookedIn covered m hands holds) (known : covered n) :
    (start n force hasImport).Ends m (fun _ => False) fun t m' =>
      (∃ d, t.stage = .draining d) ∧ t.Fits n force hasImport m' ∧
        (m'.space n).table.bref = (m.space n).table.bref := by
  let m₁ := m.modifySpace n fun s => { s with stopping := true }
  have table : ∀ k, (m₁.space k).table = (m.space k).table := view_modifySpace (·.table) rfl
  have stopped : BookedIn covered m₁ hands holds := booked.same table rfl
  unfold start
  rw [ends_bind, ends_modifySpace, ends_bind]
  refine (Drain.fits_start stopped known).imp fun d m' after => ends_pure.mpr ?_
  exact ⟨⟨d, rfl⟩, ⟨rfl, rfl, after.2.1⟩, after.2.2.trans (by rw [table])⟩

/-- A first drain that fails goes on with the transport, if there is one. -/
theorem fits_afterFirst (here : t.space = n) (given : t.hasImport = hasImport)
    {turn : Turn Drain (Except LockError Unit)} {last : Except LockError Unit → Prop}
    (meets : turn.Meets (Drain.Fits n force m) fun result => last result ∧
      m.Concludes n force result) :
    (t.afterFirst turn).Ends m (fun _ => False) fun turn m' =>
      turn.Meets (Fits n force hasImport m') fun result => last result ∧
        m'.Concludes n (force || hasImport) result := by
  subst here given
  unfold afterFirst
  split
  · rename_i e
    obtain ⟨ends, impatient, used, failed⟩ := meets
    split
    · rename_i alone
      refine ends_pure.mpr ⟨ends, ?_, used, failed⟩
      rw [impatient, Bool.false_or]
      simpa using alone
    · rename_i given
      rw [ends_bind, ends_space, ends_bind, ends_log]
      exact ends_pure.mpr ⟨rfl, rfl, by simpa using given⟩
  · rw [ends_pure, Turn.meets_map]
    rename_i other
    cases turn with
    | returns result =>
      cases result with
      | ok _ => exact meets
      | error e => exact absurd rfl (other e)
    | _ => exact ⟨rfl, rfl, meets⟩

theorem meets_afterRetry (here : t.space = n) (given : t.hasImport = hasImport)
    (has : hasImport = true) {turn : Turn Drain (Except LockError Unit)}
    {last : Except LockError Unit → Prop}
    (meets : turn.Meets (Drain.Fits n true m) fun result => last result ∧
      m.Concludes n true result) :
    (t.afterRetry turn).Meets (Fits n force hasImport m) fun result => last result ∧
      m.Concludes n (force || hasImport) result := by
  rw [afterRetry, Turn.meets_map]
  refine meets.imp (fun d fits => ⟨here, given, has, fits⟩) fun result done => ⟨done.1, ?_⟩
  rw [has, Bool.or_true]
  exact done.2

theorem fits_turn (fits : t.Fits n force hasImport m) :
    (t.turn policy).Ends m (fun _ => True) fun turn m' =>
      turn.Meets (Fits n force hasImport m') (m'.Concludes n (force || hasImport)) := by
  obtain ⟨n, hasImport, stage⟩ := t
  obtain ⟨rfl, rfl, fits⟩ := fits
  have drains {d : Drain} {force : Bool} (fits : d.Fits n force m) :
      (d.turn policy).Ends m (fun _ => True) fun turn m' =>
        turn.Meets (Drain.Fits n force m') fun result => True ∧ m'.Concludes n force result :=
    (Drain.fits_turn fits).imp fun _ _ meets => meets.imp (fun _ => id) fun _ => .intro trivial
  cases stage with
  | draining d =>
    unfold turn
    rw [ends_bind]
    refine (drains fits).imp fun turn m₁ meets => ?_
    exact (fits_afterFirst rfl rfl meets).mono (fun _ _ => trivial) fun _ _ after =>
      after.imp (fun _ => id) fun _ => And.right
  | escalating step => exact ends_pure.mpr ⟨rfl, rfl, fits⟩
  | retrying d =>
    unfold turn
    rw [ends_bind]
    refine (drains fits.2).imp fun turn m₁ meets => ends_pure.mpr ?_
    exact (meets_afterRetry rfl rfl fits.1 meets).imp (fun _ => id) fun _ => And.right

theorem fits_expired (fits : t.Fits n force hasImport m) (asleep : t.sleeps (m.space n) = true) :
    t.expired.Ends m (fun _ => False) fun turn m' =>
      turn.Meets (Fits n force hasImport m') fun result => (∃ e, result = .error e) ∧
        m'.Concludes n (force || hasImport) result := by
  obtain ⟨n, hasImport, stage⟩ := t
  obtain ⟨rfl, rfl, fits⟩ := fits
  cases stage with
  | draining d =>
    unfold expired
    rw [ends_bind]
    exact (Drain.fits_expired fits asleep).imp fun turn m₁ meets => fits_afterFirst rfl rfl meets
  | escalating step => exact ends_pure.mpr ⟨rfl, rfl, fits⟩
  | retrying d =>
    unfold expired
    rw [ends_bind]
    exact (Drain.fits_expired fits.2 asleep).imp fun turn m₁ meets =>
      ends_pure.mpr (meets_afterRetry rfl rfl fits.1 meets)

theorem fits_answered (fits : t.Fits n force hasImport m) (failure : Option LockError) :
    (t.answered l failure).Ends m (fun _ => True) fun t m' => t.Fits n force hasImport m' := by
  obtain ⟨n, hasImport, stage⟩ := t
  obtain ⟨rfl, rfl, fits⟩ := fits
  cases stage with
  | draining d =>
    unfold answered
    rw [ends_bind]
    exact (Drain.fits_answered fits failure).imp fun d m' after => ends_pure.mpr ⟨rfl, rfl, after⟩
  | escalating step => exact ends_pure.mpr ⟨rfl, rfl, fits⟩
  | retrying d =>
    unfold answered
    rw [ends_bind]
    exact (Drain.fits_answered fits.2 failure).imp fun d m' after =>
      ends_pure.mpr ⟨rfl, rfl, fits.1, after⟩

/-- Whatever the transport answers, the teardown goes on. -/
theorem fits_pressed (booked : BookedIn covered m hands holds) (known : covered n)
    (here : t.space = n) (given : t.hasImport = true) (step : Escalation)
    (failure : Option LockError) :
    (t.pressed step failure).Ends m (fun _ => False) fun t m' =>
      step.Leads n t.stage ∧ t.Fits n force true m' := by
  subst here
  have retries : ∀ m₁, BookedIn covered m₁ hands holds →
      (return { t with stage := .retrying (← Drain.start t.space true) } : Act Teardown).Ends m₁
        (fun _ => False) fun next m' =>
          Escalation.invalidate.Leads t.space next.stage ∧ next.Fits t.space force true m' := by
    intro m₁ booked
    rw [ends_bind]
    refine (Drain.fits_start booked known).imp fun d m' after => ?_
    obtain ⟨⟨c, rfl⟩, fits, -⟩ := after
    exact ends_pure.mpr ⟨⟨c, rfl⟩, rfl, given, rfl, fits⟩
  unfold pressed
  cases failure with
  | none =>
    cases step with
    | disconnect => exact ends_pure.mpr ⟨rfl, rfl, given, rfl⟩
    | invalidate => exact retries m booked
  | some e =>
    rw [ends_bind, ends_space, ends_bind, ends_log]
    cases step with
    | disconnect => exact ends_pure.mpr ⟨rfl, rfl, given, rfl⟩
    | invalidate => exact retries _ (booked.same (fun _ => rfl) rfl)

theorem Fits.within (fits : t.Fits n force hasImport m) : ∀ r ∈ t.held, r.space = n := by
  have within {d : Drain} {force : Bool} (fits : d.Fits n force m) : ∀ r ∈ d.held, r.space = n := by
    obtain ⟨space, force, stage⟩ := d
    obtain ⟨-, -, fits⟩ := fits
    cases stage with
    | cleaning c => exact Cleanup.Fits.within fits
    | waiting w bound => exact fun r member => absurd member List.not_mem_nil
  obtain ⟨space, hasImport, stage⟩ := t
  obtain ⟨-, -, fits⟩ := fits
  cases stage with
  | draining d => exact within fits
  | escalating step => exact fun r member => absurd member List.not_mem_nil
  | retrying d => exact within fits.2

/-- A teardown that holds no references finds at once that none are left, unless it is busy with the
transport. -/
theorem awake_of_unused (fits : t.Fits n force hasImport m) (idle : t.held = [])
    (none : (m.space n).table.bref = 0) :
    t.sleeps (m.space n) = false ∧
      ((∃ step, t.stage = .escalating step) ∨ t.turn policy m = .ok (.returns (.ok ())) m) := by
  obtain ⟨n, hasImport, stage⟩ := t
  obtain ⟨rfl, rfl, fits⟩ := fits
  cases stage with
  | draining d =>
    obtain ⟨awake, run⟩ := @Drain.awake_of_unused policy _ _ _ _ fits idle none
    refine ⟨awake, Or.inr ?_⟩
    show (d.turn policy >>= _) m = _
    rw [run_bind run]
    rfl
  | escalating step => exact ⟨rfl, Or.inl ⟨step, rfl⟩⟩
  | retrying d =>
    obtain ⟨awake, run⟩ := @Drain.awake_of_unused policy _ _ _ _ fits.2 idle none
    refine ⟨awake, Or.inr ?_⟩
    show (d.turn policy >>= _) m = _
    rw [run_bind run]
    rfl

end Teardown

end Lockspace
