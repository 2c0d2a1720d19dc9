import Lockspace.Proofs.CallFrames
import Lockspace.Proofs.Quiescence.Stages
import Lockspace.Proofs.Retries.Bounds
import Lockspace.Proofs.Sequential.Discipline
import Lockspace.Proofs.Unused.Lightening

namespace Lockspace

open Manager Act

/-- The settings that the wait bounds of a forced teardown come from. -/
def NamespaceConfig.pace (c : NamespaceConfig) : Duration × Duration :=
  (c.forceWaitTimeout, c.forceWaitMax)

/-- A namespace has the same wait bounds in both states. -/
def Manager.SamePace (n : SpaceKey) (m m' : Manager) : Prop :=
  (m'.space n).config.pace = (m.space n).config.pace

variable {n : SpaceKey} {m m' : Manager}

instance : IsPreorder Manager (SamePace n) where
  refl _ := Eq.refl _
  trans _ _ _ first second := Eq.trans second first

theorem Manager.Lightens.samePace (lightens : Lightens m m') : SamePace n m m' := by
  have config : (m'.space n).config = (m.space n).config := congrArg (·.2.1) (lightens.settings n)
  exact congrArg NamespaceConfig.pace config

/-- No setting of a running namespace has to do with its wait bounds. -/
theorem Namespace.pace_tune {s s' : Namespace} {setting : Tunable} (run : s.tune setting = .ok s') :
    s'.config.pace = s.config.pace := by
  cases setting with
  | earlyLockCancel enable =>
    cases run
    unfold setEarlyLockCancel
    split
    · split <;> rfl
    · rfl
  | maxParallelAst ast =>
    change (if ast = 0 then _ else _) = _ at run
    split at run
    · cases run
    · cases run
      rfl
  | _ =>
    cases run
    rfl

namespace Act

variable {k : SpaceKey}

/-- A new namespace has the wait bounds of its setup, whose configuration is valid. -/
theorem paced_of_build {setup : Setup} (run : build setup m = .ok (.ok n) m') :
    setup.config.IsValid ∧ (m'.space n).config.pace = setup.config.pace := by
  obtain ⟨preset, given, settings, -⟩ := settings_of_build run
  have config : (m'.space n).config = setup.config := congrArg (·.2.1) settings
  refine ⟨?_, congrArg NamespaceConfig.pace config⟩
  unfold Setup.preset at given
  split at given
  · cases given
  · assumption

theorem samePace_modifySpace {f : Namespace → Namespace}
    (pace : ∀ s, (f s).config.pace = s.config.pace) : (modifySpace k f).Preserves (SamePace n) :=
  fun _ => view_modifySpace (·.config.pace) (pace _) n

theorem dropsWithin_samePace : DropsWithin (SamePace n) where
  release _ := lightens_release.mono fun _ _ => Lightens.samePace
  unbound _ _ := Eq.refl _
  owners _ _ _ := Eq.refl _
  unused _ _ := samePace_modifySpace fun _ => rfl

theorem tearsWithin_samePace : TearsWithin (SamePace n) where
  drops := dropsWithin_samePace
  lists _ := lightens_resources.mono fun _ _ => Lightens.samePace
  flagged _ _ _ := Eq.refl _
  stopped _ := samePace_modifySpace fun _ => rfl
  noted _ _ _ := Eq.refl _
  logged _ _ _ := Eq.refl _

theorem locksWithin_samePace : LocksWithin (SamePace n) where
  lock _ _ _ := Eq.refl _
  resource _ _ := samePace_modifySpace fun _ => rfl
  stats _ _ := samePace_modifySpace fun _ => rfl
  logged _ _ _ := Eq.refl _

end Act

theorem LockPolicy.samePace_default : LockPolicy.default.Keeps (SamePace n) :=
  keeps_of_destroyLock fun k l => locksWithin_samePace.destroyLock dropsWithin_samePace k l

/-- The bound of the wait that a turn begins. -/
def Turn.bound? {σ α : Type} : Turn σ α → Option Duration
  | parks bound _ => some bound
  | _ => none

theorem Turn.exists_parks {σ α : Type} {turn : Turn σ α} {bound : Duration}
    (sleeps : turn.bound? = some bound) : ∃ next, turn = .parks bound next := by
  cases turn with
  | parks _ next =>
    cases sleeps
    exact ⟨next, rfl⟩
  | _ => cases sleeps

/-- A forced drain of a namespace in progress, with the bounds of its waits so far, in order. It takes
turns and hears from the peer, and goes on in its way when the bound of a wait has passed. Meanwhile
settings of the namespace may change, and whatever else happens leaves its wait bounds alone. -/
inductive Retrying (policy : LockPolicy) (n : SpaceKey) (c : NamespaceConfig) :
    Manager → Drain → List Duration → Prop
  | start {m m' : Manager} {d : Drain} (paced : (m.space n).config.pace = c.pace)
      (run : Drain.start n true m = .ok d m') : Retrying policy n c m' d []
  | turn {m m' : Manager} {d d' : Drain} {waits : List Duration}
      {step : Turn Drain (Except LockError Unit)} (reach : Retrying policy n c m d waits)
      (run : d.turn policy m = .ok step m') (next : step.next? = some d') :
      Retrying policy n c m' d' (waits ++ step.bound?.toList)
  | expired {m m' : Manager} {d d' : Drain} {waits : List Duration}
      {step : Turn Drain (Except LockError Unit)} (reach : Retrying policy n c m d waits)
      (run : d.expired m = .ok step m') (next : step.next? = some d') :
      Retrying policy n c m' d' (waits ++ step.bound?.toList)
  | answered {m m' : Manager} {d d' : Drain} {waits : List Duration} {l : LockKey}
      {failure : Option LockError} (reach : Retrying policy n c m d waits)
      (run : d.answered l failure m = .ok d' m') : Retrying policy n c m' d' waits
  | set {m : Manager} {d : Drain} {waits : List Duration} {setting : Tunable} {s : Namespace}
      (reach : Retrying policy n c m d waits) (run : (m.space n).tune setting = .ok s) :
      Retrying policy n c (m.modifySpace n fun _ => s) d waits
  | other {m m' : Manager} {d : Drain} {waits : List Duration}
      (reach : Retrying policy n c m d waits) (still : SamePace n m m') :
      Retrying policy n c m' d waits

/-- The waits of a forced drain so far have the bounds of a configuration, one after another, and so
have those that may follow. -/
structure Drain.KeepsPace (policy : LockPolicy) (n : SpaceKey) (c : NamespaceConfig) (m : Manager)
    (d : Drain) (waits : List Duration) : Prop where
  bounds : waits = (List.range waits.length).map c.forceWait
  /-- Once the queues are empty and there still are references, the drain waits for the first time. -/
  first : ∀ cleaning count m', d.stage = .cleaning cleaning →
    cleaning.turn policy m = .ok (.returns count) m' → (m'.space n).table.bref ≠ 0 →
      ∃ d', d.turn policy m = .ok (.parks c.forceWaitTimeout d') m'
  /-- While the drain waits, it is for the last one of them. -/
  last : ∀ w bound, d.stage = .waiting w bound → waits.getLast? = some bound
  /-- When that has passed and there still are references, it waits for the next one. -/
  again : ∀ w bound, d.stage = .waiting w bound → (m.space n).table.bref ≠ 0 →
    ∃ d' m', d.expired m = .ok (.parks (c.forceWait waits.length) d') m'
  /-- With references left, any number of waits may follow. -/
  more : waits ≠ [] → (m.space n).table.bref ≠ 0 → ∀ k, waits.length ≤ k →
    ∃ m' d', Retrying policy n c m' d' ((List.range k).map c.forceWait)

/-- While queues are emptied, nobody waits. -/
theorem Cleanup.bound?_of_turn {policy : LockPolicy} {c : Cleanup} {m m' : Manager}
    {step : Turn Cleanup Nat} (run : c.turn policy m = .ok step m') : step.bound? = none := by
  unfold turn at run
  cases todo : c.todo with
  | nil =>
    rw [todo] at run
    obtain ⟨_, _, _, run⟩ := ok_of_bind run
    obtain ⟨_, _, _, ⟨⟩⟩ := ok_of_bind run
    rfl
  | cons next rest =>
    rw [todo] at run
    obtain ⟨picked, _, _, run⟩ := ok_of_bind run
    cases picked with
    | none =>
      cases run
      rfl
    | some l =>
      obtain ⟨_, _, _, run⟩ := ok_of_bind run
      obtain ⟨asks, _, _, run⟩ := ok_of_bind run
      cases asks <;> obtain ⟨_, _, _, ⟨⟩⟩ := ok_of_bind run <;> rfl

namespace Drain

/-- A forced drain of a namespace that has begun so many waits. Before the first one it empties
queues, and then it waits for the last one. -/
structure Stands (n : SpaceKey) (c : NamespaceConfig) (m : Manager) (d : Drain) (k : Nat) : Prop where
  space : d.space = n
  force : d.force = true
  paced : (m.space n).config.pace = c.pace
  stage : match k with
    | 0 => ∃ cleaning, d.stage = .cleaning cleaning
    | k + 1 => ∃ w, d.stage = .waiting w (c.forceWait k)

variable {policy : LockPolicy} {c : NamespaceConfig} {d d' : Drain} {k : Nat}
  {step : Turn Drain (Except LockError Unit)} {l : LockKey} {failure : Option LockError}

/-- Whoever finds references sleeps for the bound that was given. -/
theorem run_park (d : Drain) (bound : Duration) (m : Manager) : d.park bound m =
    if (m.space d.space).table.bref = 0 then .ok (.returns (.ok ())) m
    else .ok (.parks bound
      { d with stage := .waiting (.parked (m.space d.space).signals) bound }) m := by
  unfold park
  rw [run_bind (run_space d.space m), Waiter.poll_outside]
  split <;> rfl

namespace Stands

theorem samePace (stands : d.Stands n c m k) (same : SamePace n m m') : d.Stands n c m' k :=
  ⟨stands.space, stands.force, same.trans stands.paced, stands.stage⟩

/-- Once the queues are empty, the drain tries to wait for the first time. -/
theorem run_turn_of_cleaned (stands : d.Stands n c m 0) (keeps : policy.Keeps (SamePace n))
    {cleaning : Cleanup} {count : Nat} (stage : d.stage = .cleaning cleaning)
    (run : cleaning.turn policy m = .ok (.returns count) m') :
    SamePace n m m' ∧ d.turn policy m = d.park c.forceWaitTimeout m' := by
  obtain ⟨rfl, force, paced, -⟩ := stands
  have same := (Cleanup.keeps_turn tearsWithin_samePace keeps m).of_ok run
  have first : firstBound d.force (m'.space d.space).config = c.forceWaitTimeout := by
    rw [force]
    exact congrArg Prod.fst (same.trans paced)
  unfold Drain.turn
  rw [stage]
  dsimp only
  rw [run_bind run]
  dsimp only
  rw [run_bind (run_space d.space m'), first]
  exact ⟨same, rfl⟩

/-- A drain that goes on with a turn begins no wait, or the next one. -/
theorem turn (stands : d.Stands n c m k) (keeps : policy.Keeps (SamePace n))
    (run : d.turn policy m = .ok step m') (next : step.next? = some d') :
    step.bound? = none ∧ d'.Stands n c m' k ∨
      step.bound? = some (c.forceWait k) ∧ d'.Stands n c m' (k + 1) := by
  cases k with
  | zero =>
    obtain ⟨cleaning, stage⟩ := stands.stage
    have whole := run
    unfold Drain.turn at run
    rw [stage] at run
    obtain ⟨cleans, m₁, cleaned, run⟩ := ok_of_bind run
    cases cleans with
    | returns count =>
      obtain ⟨same, parks⟩ := stands.run_turn_of_cleaned keeps stage cleaned
      rw [parks, run_park] at whole
      split at whole
      · cases whole
        cases next
      · cases whole
        cases next
        exact Or.inr ⟨rfl, stands.space, stands.force, same.trans stands.paced, _, rfl⟩
    | parks bound next => cases Cleanup.bound?_of_turn cleaned
    | _ =>
      cases run
      cases next
      have same := (Cleanup.keeps_turn tearsWithin_samePace keeps m).of_ok cleaned
      exact Or.inl ⟨rfl, stands.space, stands.force, same.trans stands.paced, _, rfl⟩
  | succ k =>
    obtain ⟨w, stage⟩ := stands.stage
    unfold Drain.turn at run
    rw [stage] at run
    obtain ⟨_, _, ⟨⟩, run⟩ := ok_of_bind run
    cases polled : w.poll (m.space d.space) with
    | finished =>
      rw [polled] at run
      cases run
      cases next
    | _ =>
      rw [polled] at run
      cases run
      cases next
      exact Or.inl ⟨rfl, stands.space, stands.force, stands.paced, _, rfl⟩

/-- When the bound of a wait has passed, the drain tries to wait for the next one. -/
theorem exists_park_of_expired (stands : d.Stands n c m (k + 1)) :
    ∃ m₁, (∀ j, m₁.space j = m.space j) ∧
      d.expired m = d.park (c.forceWait (k + 1)) m₁ := by
  obtain ⟨rfl, force, paced, w, stage⟩ := stands
  have bound : (m.space d.space).config.nextForceWait (c.forceWait k) = c.forceWait (k + 1) :=
    congrArg (fun pace : Duration × Duration => (c.forceWait k).double.shorter pace.2) paced
  unfold Drain.expired
  rw [stage]
  dsimp only
  rw [run_bind (run_space d.space m), force, if_pos rfl, bound]
  exact ⟨{ m with log := m.log.push _ }, fun _ => rfl, run_bind (run_log _ _ m)⟩

/-- With references left, the drain waits for the next bound. -/
theorem exists_expired_of_used (stands : d.Stands n c m (k + 1))
    (used : (m.space n).table.bref ≠ 0) :
    ∃ d' m', d.expired m = .ok (.parks (c.forceWait (k + 1)) d') m' ∧
      (m'.space n).table.bref ≠ 0 := by
  obtain ⟨m₁, spaces, parks⟩ := stands.exists_park_of_expired
  rw [← spaces n] at used
  rw [run_park, stands.space, if_neg used] at parks
  exact ⟨_, m₁, parks, used⟩

theorem expired (stands : d.Stands n c m k) (run : d.expired m = .ok step m')
    (next : step.next? = some d') :
    step.bound? = none ∧ d'.Stands n c m' k ∨
      step.bound? = some (c.forceWait k) ∧ d'.Stands n c m' (k + 1) := by
  cases k with
  | zero =>
    obtain ⟨cleaning, stage⟩ := stands.stage
    unfold Drain.expired at run
    rw [stage] at run
    cases run
    cases next
    exact Or.inl ⟨rfl, stands⟩
  | succ k =>
    obtain ⟨m₁, spaces, parks⟩ := stands.exists_park_of_expired
    rw [parks, run_park] at run
    split at run
    · cases run
      cases next
    · cases run
      cases next
      have still : SamePace n m m' := by rw [SamePace, spaces]
      exact Or.inr ⟨rfl, stands.space, stands.force, still.trans stands.paced, _, rfl⟩

theorem answered (stands : d.Stands n c m k) (run : d.answered l failure m = .ok d' m') :
    d'.Stands n c m' k := by
  unfold Drain.answered at run
  cases k with
  | zero =>
    obtain ⟨cleaning, stage⟩ := stands.stage
    rw [stage] at run
    obtain ⟨cleaning', m₁, heard, ⟨⟩⟩ := ok_of_bind run
    have same : SamePace n m m' := (Cleanup.keeps_answered tearsWithin_samePace failure m).of_ok heard
    exact ⟨stands.space, stands.force, same.trans stands.paced, cleaning', rfl⟩
  | succ k =>
    obtain ⟨w, stage⟩ := stands.stage
    rw [stage] at run
    cases run
    exact stands

end Stands

end Drain

namespace Retrying

variable {policy : LockPolicy} {c : NamespaceConfig} {d : Drain} {waits : List Duration} {k : Nat}

theorem waits_succ (c : NamespaceConfig) (k : Nat) : (List.range (k + 1)).map c.forceWait =
    (List.range k).map c.forceWait ++ [c.forceWait k] := by
  rw [List.range_succ, List.map_append]
  rfl

/-- After so many waits a drain has had the first bounds of the configuration. -/
theorem stands (keeps : policy.Keeps (SamePace n)) (reach : Retrying policy n c m d waits) :
    ∃ k, waits = (List.range k).map c.forceWait ∧ d.Stands n c m k := by
  -- A step begins no wait or the next one.
  have onward {m' : Manager} {d' : Drain} {k : Nat} {step : Turn Drain (Except LockError Unit)}
      (leads : step.bound? = none ∧ d'.Stands n c m' k ∨
        step.bound? = some (c.forceWait k) ∧ d'.Stands n c m' (k + 1)) :
      ∃ j, (List.range k).map c.forceWait ++ step.bound?.toList = (List.range j).map c.forceWait ∧
        d'.Stands n c m' j := by
    rcases leads with ⟨none, stands⟩ | ⟨next, stands⟩
    · refine ⟨k, ?_, stands⟩
      rw [none]
      exact List.append_nil _
    · refine ⟨k + 1, ?_, stands⟩
      rw [next, waits_succ]
      rfl
  induction reach with
  | @start m m' d paced run =>
    obtain ⟨cleaning, m₁, cleans, ⟨⟩⟩ := ok_of_bind run
    have same : SamePace n m m' := (Cleanup.keeps_start tearsWithin_samePace _ m).of_ok cleans
    exact ⟨0, rfl, rfl, rfl, same.trans paced, cleaning, rfl⟩
  | turn _ run next ih =>
    obtain ⟨k, rfl, stands⟩ := ih
    exact onward (stands.turn keeps run next)
  | expired _ run next ih =>
    obtain ⟨k, rfl, stands⟩ := ih
    exact onward (stands.expired run next)
  | answered _ run ih =>
    obtain ⟨k, same, stands⟩ := ih
    exact ⟨k, same, stands.answered run⟩
  | @set m d waits setting s _ run ih =>
    obtain ⟨k, same, stands⟩ := ih
    refine ⟨k, same, stands.samePace ?_⟩
    exact view_modifySpace (·.config.pace) (Namespace.pace_tune run) n
  | other _ still ih =>
    obtain ⟨k, same, stands⟩ := ih
    exact ⟨k, same, stands.samePace still⟩

/-- With references left, a drain that waits may come to any later wait. -/
theorem exists_later (reach : Retrying policy n c m d ((List.range (k + 1)).map c.forceWait))
    (stands : d.Stands n c m (k + 1)) (used : (m.space n).table.bref ≠ 0) (j : Nat) :
    ∃ m' d', Retrying policy n c m' d' ((List.range (k + 1 + j)).map c.forceWait) := by
  induction j generalizing m d k with
  | zero => exact ⟨m, d, reach⟩
  | succ j ih =>
    obtain ⟨d', m', run, still⟩ := stands.exists_expired_of_used used
    have later := reach.expired run rfl
    rcases stands.expired run rfl with ⟨none, -⟩ | ⟨-, next⟩
    · cases none
    · rw [show k + 1 + (j + 1) = k + 1 + 1 + j by omega]
      refine ih ?_ next still
      rw [waits_succ c (k + 1)]
      exact later

theorem keepsPace (keeps : policy.Keeps (SamePace n)) (reach : Retrying policy n c m d waits) :
    d.KeepsPace policy n c m waits := by
  obtain ⟨k, rfl, stands⟩ := reach.stands keeps
  have begun {w : Waiter} {bound : Duration} (waiting : d.stage = .waiting w bound) :
      ∃ j, k = j + 1 ∧ bound = c.forceWait j := by
    cases k with
    | zero =>
      obtain ⟨cleaning, stage⟩ := stands.stage
      cases stage.symm.trans waiting
    | succ j =>
      obtain ⟨w, stage⟩ := stands.stage
      cases stage.symm.trans waiting
      exact ⟨j, rfl, rfl⟩
  refine ⟨?_, fun cleaning count m' stage run used => ?_, fun w bound waiting => ?_,
    fun w bound waiting used => ?_, fun some used j later => ?_⟩
  · rw [List.length_map, List.length_range]
  · cases k with
    | zero =>
      obtain ⟨-, parks⟩ := stands.run_turn_of_cleaned keeps stage run
      rw [Drain.run_park, stands.space, if_neg used] at parks
      exact ⟨_, parks⟩
    | succ k =>
      obtain ⟨w, waiting⟩ := stands.stage
      cases stage.symm.trans waiting
  · obtain ⟨j, rfl, rfl⟩ := begun waiting
    rw [waits_succ, List.getLast?_append]
    rfl
  · obtain ⟨j, rfl, -⟩ := begun waiting
    obtain ⟨d', m', run, -⟩ := stands.exists_expired_of_used used
    rw [List.length_map, List.length_range]
    exact ⟨d', m', run⟩
  · rw [List.length_map, List.length_range] at later
    cases k with
    | zero => exact absurd rfl some
    | succ k =>
      obtain ⟨rest, rfl⟩ := Nat.exists_eq_add_of_le later
      exact reach.exists_later stands used rest

end Retrying

/-- A forced drain starts, and somebody holds the namespace before it goes on. -/
def Act.drainHeld : Act Drain := do
  let d ← Drain.start ⟨0⟩ true
  let _ ← takeHold ⟨0⟩
  return d

theorem Retrying.of_drainHeld {policy : LockPolicy} {c : NamespaceConfig} {d : Drain}
    (paced : (m.space ⟨0⟩).config.pace = c.pace) (run : drainHeld m = .ok d m') :
    Retrying policy ⟨0⟩ c m' d [] := by
  obtain ⟨d, m₁, started, run⟩ := ok_of_bind run
  obtain ⟨_, m₂, held, ⟨⟩⟩ := ok_of_bind run
  refine (start paced started).other ?_
  cases held
  exact view_modifySpace (·.config.pace) rfl _

namespace NamespaceConfig

/-- The waits of a forced drain take twice as long each time, up to the cap. -/
theorem backs_off {c : NamespaceConfig} (valid : c.IsValid) : c.BacksOff ∧
    ∀ {policy : LockPolicy} {n : SpaceKey} {m : Manager} {d : Drain} {waits : List Duration},
      policy.Keeps (SamePace n) → Retrying policy n c m d waits →
        d.KeepsPace policy n c m waits :=
  ⟨valid.backsOff, fun keeps reach => reach.keepsPace keeps⟩

/-- The cap is the longest span, and the first bound is a little above a quarter of it. Twice that
carries a second, and twice the second bound would pass the longest span. -/
theorem backs_off_of_long_waits :
    let c : NamespaceConfig := { initial 1 with
      forceWaitTimeout := .ofNanos 4611686018427387904700000000, forceWaitMax := .ofNanos maxNanos }
    c.IsValid ∧ c.BacksOff ∧ ∃ m d waits, Retrying .default ⟨0⟩ c m d waits ∧
      d.KeepsPace .default ⟨0⟩ c m waits ∧ waits.map (·.words) =
        [⟨4611686018427387904, 700000000⟩, ⟨9223372036854775809, 400000000⟩, .longest, .longest] := by
  intro c
  obtain ⟨_, m₀, built, rfl, d, m₁, started, step, m₂, parked, sleeps, used⟩ :
      (Act.build { Setup.oneBucket with config := c }).Returns {} fun n m => n = .ok ⟨0⟩ ∧
        drainHeld.Returns m fun d m => (d.turn .default).Returns m fun step m =>
          step.bound?.isSome ∧ (m.space ⟨0⟩).table.bref ≠ 0 := by
    decide +kernel
  obtain ⟨bound, sleeps⟩ := Option.isSome_iff_exists.mp sleeps
  obtain ⟨d', rfl⟩ := Turn.exists_parks sleeps
  obtain ⟨valid, paced⟩ := paced_of_build built
  have waits : Retrying .default ⟨0⟩ c m₂ d' [bound] :=
    (Retrying.of_drainHeld paced started).turn parked rfl
  -- While the drain waits, another setting of the namespace changes.
  have tuned : (m₂.space ⟨0⟩).tune (.contendedLocks 8) = .ok _ := rfl
  replace waits := waits.set tuned
  obtain ⟨backs, keepsPace⟩ := backs_off valid
  obtain ⟨m, d, reach⟩ := (keepsPace LockPolicy.samePace_default waits).more (List.cons_ne_nil _ _)
    (by rwa [space_modifySpace, if_pos rfl]) 4 (by simp)
  refine ⟨valid, backs, m, d, _, reach, keepsPace LockPolicy.samePace_default reach, ?_⟩
  decide +kernel

end NamespaceConfig

end Lockspace
