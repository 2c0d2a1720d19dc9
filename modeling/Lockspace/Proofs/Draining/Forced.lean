import Lockspace.Proofs.Queueing.Runs
import Lockspace.Proofs.Sequential.Discipline
import Lockspace.Proofs.TableListing
import Lockspace.Proofs.TeardownFrames

namespace Lockspace

open Manager Act

namespace Manager

/-- All that was told by the first state was told by the second, which may have told more. -/
def Recorded (m m' : Manager) : Prop :=
  m.trace.toList <+: m'.trace.toList

instance : IsPreorder Manager Recorded where
  refl _ := List.prefix_rfl
  trans _ _ _ := List.IsPrefix.trans

theorem Recorded.of_same {m m' : Manager} (same : m'.trace = m.trace) : Recorded m m' := by
  unfold Recorded
  rw [same]

/-- A lock on a queue that no drain has visited, and that somebody still holds. -/
structure Blocks (m : Manager) (r : ResourceRef) (q : Queue) (l : LockKey) : Prop where
  queued : l ∈ m.queue r q
  unvisited : (m.lock l).flags.contains .cleaned = false
  held : (m.lock l).hasHolders

/-- Since so much was told, a lock was completed as failed, and was flagged as a local matter by
then. -/
def FailedSince (m : Manager) (told : Nat) (n : SpaceKey) (l : LockKey) : Prop :=
  ∃ flags, .completion n l .failed flags ∈ m.trace.toList.drop told ∧ flags.contains .localOnly

variable {m m' : Manager} {n : SpaceKey} {l : LockKey} {r : ResourceRef} {q : Queue} {told : Nat}

theorem FailedSince.recorded (failed : m.FailedSince told n l) (recorded : Recorded m m') :
    m'.FailedSince told n l := by
  obtain ⟨flags, member, flagged⟩ := failed
  exact ⟨flags, (recorded.drop told).subset member, flagged⟩

theorem FailedSince.earlier {before : Nat} (failed : m.FailedSince told n l) (le : before ≤ told) :
    m.FailedSince before n l := by
  obtain ⟨flags, member, flagged⟩ := failed
  exact ⟨flags, (List.drop_suffix_drop_left _ le).subset member, flagged⟩

theorem Recorded.size_le (recorded : Recorded m m') : m.trace.size ≤ m'.trace.size :=
  recorded.length_le

/-- Where a lock blocks, its queue has a lock to visit. -/
theorem Blocks.firstUncleaned_ne_none (blocks : m.Blocks r q l) :
    (m.resource r).firstUncleaned m.lock q ≠ none := by
  intro none
  have visited := List.find?_eq_none.mp none l blocks.queued
  rw [blocks.unvisited] at visited
  exact visited rfl

end Manager

namespace Act

variable {n : SpaceKey} {l : LockKey} {r : ResourceRef}

theorem recorded_note (call : Callback) : (note call).Preserves Recorded := by
  intro m
  show m.trace.toList <+: (m.trace.push call).toList
  rw [Array.toList_push]
  exact List.prefix_append ..

theorem recorded_modifySpace (f : Namespace → Namespace) : (modifySpace n f).Preserves Recorded :=
  fun _ => .of_same rfl

theorem recorded_emit (event : ResourceEvent) : (emit r event).Preserves Recorded :=
  preserves_space.bind fun _ => preserves_resource.bind fun _ => recorded_note _

theorem recorded_drops : DropsWithin Recorded where
  release r := by
    refine (preserves_releaseLocked (fun _ => .of_same rfl) ?_).bind fun answer =>
      preserves_afterRelease recorded_emit (recorded_modifySpace _) answer
    exact preserves_get.bind fun _ => preserves_forM fun _ _ _ => .of_same rfl
  unbound _ _ := .of_same rfl
  owners _ _ _ := .of_same rfl
  unused _ _ := recorded_modifySpace _

theorem recorded_locks : LocksWithin Recorded where
  lock _ _ _ := .of_same rfl
  resource _ _ _ := .of_same rfl
  stats _ _ := recorded_modifySpace _
  logged _ _ _ := .of_same rfl

end Act

/-- The policy that leaves every lock where it is. -/
def LockPolicy.keep : LockPolicy where
  completion _ _ _ := pure ()
  cancelLocal _ _ := pure ()

theorem LockPolicy.recorded_default : LockPolicy.default.Keeps Recorded where
  completion n l flags := by
    show (if _ then _ else _ : Act Unit).Preserves Recorded
    split
    · exact recorded_locks.destroyLock recorded_drops n l
    · exact preserves_pure _
  cancelLocal n l := recorded_locks.destroyLock recorded_drops n l

theorem tearsWithin_recorded : TearsWithin Recorded where
  drops := recorded_drops
  lists n := by
    refine preserves_space.bind fun s => (preserves_ofExcept _).bind fun answer => ?_
    exact (recorded_modifySpace _).bind fun _ => preserves_pure _
  flagged _ _ _ := .of_same rfl
  stopped _ := recorded_modifySpace _
  noted call _ := recorded_note call
  logged _ _ _ := .of_same rfl

namespace Cleanup

variable {policy : LockPolicy} {c : Cleanup} {m : Manager} {r : ResourceRef} {q : Queue}
  {l : LockKey}

/-- The lock that a drain visits in its next turn, if there is one. -/
def visit? (c : Cleanup) (m : Manager) : Option LockKey :=
  match c.todo with
  | [] => none
  | (r, q) :: _ => (m.resource r).firstUncleaned m.lock q

theorem visit?_of_todo {rest : List (ResourceRef × Queue)} (todo : c.todo = (r, q) :: rest) :
    c.visit? m = (m.resource r).firstUncleaned m.lock q := by
  unfold visit?
  rw [todo]

/-- A drain that works locally and still has to go to a queue where a lock blocks. -/
structure Awaits (c : Cleanup) (m : Manager) (r : ResourceRef) (q : Queue) (l : LockKey) : Prop where
  space : c.space = r.space
  flags : c.flags = .localOnly
  todo : (r, q) ∈ c.todo
  blocks : m.Blocks r q l

variable {m' : Manager} {asks : Bool} {step : Turn Cleanup Nat} {n : SpaceKey}

/-- Locally a lock that is held is completed as failed, and its peer hears nothing. -/
theorem failedSince_of_treat (keeps : policy.Keeps Recorded) (held : (m.lock l).hasHolders = true)
    (flagged : (m.lock l).flags.contains .localOnly = true)
    (run : treat policy n .localOnly l m = .ok asks m') :
    asks = false ∧ m'.FailedSince m.trace.size n l := by
  unfold treat at run
  obtain ⟨_, _, ⟨⟩, run⟩ := ok_of_bind run
  rw [held] at run
  obtain ⟨_, m₁, completes, ⟨⟩⟩ := ok_of_bind run
  unfold complete at completes
  obtain ⟨_, _, ⟨⟩, completes⟩ := ok_of_bind completes
  obtain ⟨_, m₀, noted, completes⟩ := ok_of_bind completes
  refine ⟨rfl, FailedSince.recorded ?_ ((keeps.completion n l .failed m₀).of_ok completes)⟩
  cases noted
  refine ⟨(m.lock l).flags, ?_, flagged⟩
  show _ ∈ (m.trace.push _).toList.drop m.trace.size
  rw [Array.toList_push, ← Array.length_toList, List.drop_left]
  exact List.mem_singleton_self _

/-- A turn that visits the lock completes it as failed. Any other leaves its queue to do. -/
theorem Awaits.turn (keeps : policy.Keeps Recorded) (awaits : c.Awaits m r q l)
    (run : c.turn policy m = .ok step m') : ∃ c', step.next? = some c' ∧
      (m'.FailedSince m.trace.size r.space l ∨ l ∉ c.visit? m ∧ c'.space = r.space ∧
        c'.flags = .localOnly ∧ (r, q) ∈ c'.todo) := by
  obtain ⟨space, flags, todo, blocks⟩ := awaits
  cases left : c.todo with
  | nil =>
    rw [left] at todo
    cases todo
  | cons next rest =>
    obtain ⟨s, p⟩ := next
    rw [left] at todo
    unfold Cleanup.turn at run
    rw [left] at run
    obtain ⟨picked, m₁, picks, run⟩ := ok_of_bind run
    have first := run_pick? (r := s) (q := p) c.flags m
    cases visits : (m.resource s).firstUncleaned m.lock p with
    | none =>
      rw [visits] at first
      cases first.symm.trans picks
      cases run
      refine ⟨_, rfl, Or.inr ⟨?_, space, flags, ?_⟩⟩
      · rw [visit?_of_todo left, visits]
        exact nofun
      · rcases List.mem_cons.mp todo with here | later
        · cases here
          exact absurd visits blocks.firstUncleaned_ne_none
        · exact later
    | some k =>
      rw [visits] at first
      cases first.symm.trans picks
      obtain ⟨_, m₂, owns, run⟩ := ok_of_bind run
      obtain ⟨asks, m₃, treats, run⟩ := ok_of_bind run
      by_cases same : k = l
      · subst same
        have owned : ((m.modifyLock k (·.setFlags (visitFlags c.flags))).modifyLock k
            fun lk => { lk with owners := lk.owners + 1 }).lock k =
            { (m.lock k).setFlags (visitFlags c.flags) with owners := (m.lock k).owners + 1 } := by
          rw [lock_modifyLock, if_pos rfl, lock_modifyLock, if_pos rfl]
          rfl
        cases owns
        rw [flags] at treats owned
        obtain ⟨rfl, failed⟩ := failedSince_of_treat keeps (by rw [owned]; exact blocks.held)
          (by
          rw [owned]
          exact LockFlags.contains_trans (LockFlags.contains_union_right _ _)
            (LockFlags.contains_union_right _ _)) treats
        obtain ⟨_, m₄, disowns, ⟨⟩⟩ := ok_of_bind run
        refine ⟨_, rfl, Or.inl ?_⟩
        rw [← space]
        exact failed.recorded ((recorded_drops.disown k m₃).of_ok disowns)
      · have passes : l ∉ c.visit? m := by
          rw [visit?_of_todo left, visits]
          exact fun here => same (Option.some.inj here)
        cases asks with
        | true =>
          obtain ⟨_, m₄, asked, ⟨⟩⟩ := ok_of_bind run
          exact ⟨_, rfl, Or.inr ⟨passes, space, flags, todo⟩⟩
        | false =>
          obtain ⟨_, m₄, disowns, ⟨⟩⟩ := ok_of_bind run
          exact ⟨_, rfl, Or.inr ⟨passes, space, flags, todo⟩⟩

end Cleanup

namespace Teardown

variable {policy : LockPolicy} {t t' : Teardown} {m m' : Manager} {r : ResourceRef} {q : Queue}
  {l : LockKey} {told : Nat} {step : Step}

/-- Some turns of a teardown, unless it returns before. -/
def advance (policy : LockPolicy) : Nat → Teardown → Act Teardown
  | 0, t => return t
  | turns + 1, t => do
    match (← t.turn policy).next? with
    | some t => advance policy turns t
    | none => return t

/-- The drain of the forced retry of a teardown, while it goes through the queues. -/
def forced? (t : Teardown) : Option Cleanup :=
  match t.stage with
  | .retrying ⟨_, _, .cleaning c⟩ => some c
  | _ => none

theorem mem_forced? {c : Cleanup} :
    c ∈ t.forced? ↔ ∃ d, t.stage = .retrying d ∧ d.stage = .cleaning c := by
  unfold forced?
  constructor
  · intro forced
    split at forced
    · rename_i stage
      cases forced
      exact ⟨_, stage, rfl⟩
    · cases forced
  · rintro ⟨⟨n, force, _⟩, retrying, rfl⟩
    rw [retrying]
    rfl

/-- A turn of the forced retry is one of its drain, as long as that goes through the queues. -/
theorem exists_turn_of_forced {c : Cleanup} (forced : c ∈ t.forced?)
    (run : t.turn policy m = .ok step m') : ∃ turn m₁, c.turn policy m = .ok turn m₁ ∧
      ∀ c', turn.next? = some c' → m' = m₁ ∧ ∃ t', step.next? = some t' ∧ c' ∈ t'.forced? := by
  obtain ⟨d, retrying, cleaning⟩ := mem_forced?.mp forced
  unfold Teardown.turn at run
  rw [retrying] at run
  obtain ⟨turn, m₁, turns, ⟨⟩⟩ := ok_of_bind run
  unfold Drain.turn at turns
  rw [cleaning] at turns
  obtain ⟨cleans, m₂, ran, turns⟩ := ok_of_bind turns
  refine ⟨cleans, m₂, ran, ?_⟩
  cases cleans with
  | returns n => exact nofun
  | _ =>
    cases turns
    rintro c' ⟨⟩
    exact ⟨rfl, _, rfl, rfl⟩

/-- The forced retry starts once the transport was invalidated, whether that worked or not. -/
theorem exists_start_of_pressed {failure : Option LockError}
    (run : t.pressed .invalidate failure m = .ok t' m') : ∃ c m₀ log, c ∈ t'.forced? ∧
      m₀ = { m with log } ∧ Cleanup.start t.space .localOnly m₀ = .ok c m' := by
  have starts : ∀ m₀, (do
      return { t with stage := .retrying (← Drain.start t.space true) } : Act Teardown) m₀ =
        .ok t' m' → ∃ c, c ∈ t'.forced? ∧ Cleanup.start t.space .localOnly m₀ = .ok c m' := by
    intro m₀ run
    obtain ⟨d, _, started, ⟨⟩⟩ := ok_of_bind run
    obtain ⟨c, _, listed, ⟨⟩⟩ := ok_of_bind started
    exact ⟨c, rfl, listed⟩
  unfold pressed at run
  cases failure with
  | none =>
    obtain ⟨c, forced, listed⟩ := starts m run
    exact ⟨c, m, m.log, forced, rfl, listed⟩
  | some e =>
    obtain ⟨_, _, ⟨⟩, run⟩ := ok_of_bind run
    obtain ⟨_, _, ⟨⟩, run⟩ := ok_of_bind run
    obtain ⟨c, forced, listed⟩ := starts _ run
    exact ⟨c, _, _, forced, rfl, listed⟩

end Teardown

namespace Cleanup

variable {c : Cleanup} {m m' : Manager} {r : ResourceRef} {q : Queue} {l : LockKey}

theorem fields_of_answered {k : LockKey} {failure : Option LockError} {c' : Cleanup}
    (run : c.answered k failure m = .ok c' m') : c' = { c with asking := none } := by
  unfold answered at run
  cases failure with
  | none =>
    obtain ⟨_, _, disowned, ⟨⟩⟩ := ok_of_bind run
    rfl
  | some e =>
    obtain ⟨_, _, ⟨⟩, run⟩ := ok_of_bind run
    obtain ⟨_, _, ⟨⟩, run⟩ := ok_of_bind run
    obtain ⟨_, _, logged, run⟩ := ok_of_bind run
    obtain ⟨_, _, disowned, ⟨⟩⟩ := ok_of_bind run
    rfl

/-- A drain goes through the queues of all resources that the table holds when it starts. -/
theorem awaits_of_start (hashed : m.Hashes r) (blocks : m.Blocks r q l)
    (run : start r.space .localOnly m = .ok c m') : c.Awaits m' r q l := by
  obtain ⟨held, m₁, listed, ⟨⟩⟩ := ok_of_bind run
  have still := (steady_resources m).of_ok listed
  obtain ⟨rfl, t, rfl⟩ := resources_cases listed
  refine ⟨rfl, rfl, ?_, ?_, blocks.unvisited, blocks.held⟩
  · refine List.mem_flatMap.mpr ⟨r, mem_listing.mpr ⟨rfl, hashed⟩, ?_⟩
    exact List.mem_map.mpr ⟨q, by cases q <;> decide, rfl⟩
  · rw [Manager.queue, still.queues]
    exact blocks.queued

end Cleanup

/-- The forced retry of a teardown that has pressed the transport, from where a lock blocks and so
much was told. Turns of it come with anything in between, as long as nothing but a visit of the drain
takes the lock off its queue, marks it visited or ends the last hold on it. -/
inductive Forced (policy : LockPolicy) (r : ResourceRef) (q : Queue) (l : LockKey) (told : Nat) :
    Teardown → Manager → Prop
  | start {t t' : Teardown} {m m' : Manager} {failure : Option LockError}
      (wants : t.stage = .escalating .invalidate) (here : t.space = r.space) (hashed : m.Hashes r)
      (blocks : m.Blocks r q l) (since : m.trace.size = told)
      (run : t.pressed .invalidate failure m = .ok t' m') : Forced policy r q l told t' m'
  | turn {t t' : Teardown} {m m' : Manager} {step : Teardown.Step}
      (reach : Forced policy r q l told t m) (run : t.turn policy m = .ok step m')
      (next : step.next? = some t')
      (stays : (∀ c, c ∈ t.forced? → l ∉ c.visit? m) → m.Blocks r q l → m'.Blocks r q l) :
      Forced policy r q l told t' m'
  | expired {t t' : Teardown} {m m' : Manager} {step : Teardown.Step}
      (reach : Forced policy r q l told t m) (run : t.expired m = .ok step m')
      (next : step.next? = some t') : Forced policy r q l told t' m'
  | answered {t t' : Teardown} {m m' : Manager} {k : LockKey} {failure : Option LockError}
      (reach : Forced policy r q l told t m) (run : t.answered k failure m = .ok t' m')
      (stays : m.Blocks r q l → m'.Blocks r q l) : Forced policy r q l told t' m'
  | other {t : Teardown} {m m' : Manager} (reach : Forced policy r q l told t m)
      (recorded : Recorded m m') (stays : m.Blocks r q l → m'.Blocks r q l) :
      Forced policy r q l told t m'

namespace Forced

variable {policy : LockPolicy} {t : Teardown} {m : Manager} {r : ResourceRef} {q : Queue}
  {l : LockKey} {told : Nat}

/-- As long as the drain has not come to the lock it still has to, and then the lock has failed. -/
theorem awaits_or_failed (keeps : policy.Keeps Recorded) (reach : Forced policy r q l told t m) :
    told ≤ m.trace.size ∧
      ((∃ c, c ∈ t.forced? ∧ c.Awaits m r q l) ∨ m.FailedSince told r.space l) := by
  induction reach with
  | @start t t' m m' failure _ here hashed blocks since run =>
    have recorded := (Teardown.keeps_pressed tearsWithin_recorded _ _ m).of_ok run
    obtain ⟨c, m₀, log, forced, rfl, listed⟩ := Teardown.exists_start_of_pressed run
    rw [here] at listed
    refine ⟨since ▸ recorded.size_le, Or.inl ⟨c, forced, ?_⟩⟩
    have hashed : Hashes { m with log } r := hashed
    exact Cleanup.awaits_of_start hashed ⟨blocks.queued, blocks.unvisited, blocks.held⟩ listed
  | @turn t t' m m' step _ run next stays ih =>
    obtain ⟨le, ih⟩ := ih
    have recorded := (Teardown.keeps_turn tearsWithin_recorded keeps m).of_ok run
    refine ⟨le.trans recorded.size_le, ?_⟩
    rcases ih with ⟨c, forced, awaits⟩ | failed
    · obtain ⟨turn, m₁, turns, goesOn⟩ := Teardown.exists_turn_of_forced forced run
      obtain ⟨c', goes, how⟩ := awaits.turn keeps turns
      obtain ⟨rfl, t₁, leads, later⟩ := goesOn c' goes
      cases next.symm.trans leads
      rcases how with failed | ⟨passes, space, flags, todo⟩
      · exact Or.inr (failed.earlier le)
      · refine Or.inl ⟨c', later, space, flags, todo, stays (fun c₂ again => ?_) awaits.blocks⟩
        rwa [Option.mem_unique again forced]
    · exact Or.inr (failed.recorded recorded)
  | @expired t t' m m' step _ run next ih =>
    obtain ⟨le, ih⟩ := ih
    have recorded := (Teardown.keeps_expired tearsWithin_recorded m).of_ok run
    refine ⟨le.trans recorded.size_le, ?_⟩
    rcases ih with ⟨c, forced, awaits⟩ | failed
    · obtain ⟨d, retrying, cleaning⟩ := Teardown.mem_forced?.mp forced
      unfold Teardown.expired Drain.expired at run
      rw [retrying] at run
      obtain ⟨_, _, waits, ⟨⟩⟩ := ok_of_bind run
      rw [cleaning] at waits
      cases waits
      cases next
      exact Or.inl ⟨c, Teardown.mem_forced?.mpr ⟨d, rfl, cleaning⟩, awaits⟩
    · exact Or.inr (failed.recorded recorded)
  | @answered t t' m m' k failure _ run stays ih =>
    obtain ⟨le, ih⟩ := ih
    have recorded := (Teardown.keeps_answered tearsWithin_recorded failure m).of_ok run
    refine ⟨le.trans recorded.size_le, ?_⟩
    rcases ih with ⟨c, forced, awaits⟩ | failed
    · obtain ⟨d, retrying, cleaning⟩ := Teardown.mem_forced?.mp forced
      unfold Teardown.answered Drain.answered at run
      rw [retrying] at run
      obtain ⟨_, _, hears, ⟨⟩⟩ := ok_of_bind run
      rw [cleaning] at hears
      obtain ⟨c', _, answers, ⟨⟩⟩ := ok_of_bind hears
      have same := Cleanup.fields_of_answered answers
      refine Or.inl ⟨c', rfl, ?_, ?_, ?_, stays awaits.blocks⟩
      · rw [same]
        exact awaits.space
      · rw [same]
        exact awaits.flags
      · rw [same]
        exact awaits.todo
    · exact Or.inr (failed.recorded recorded)
  | @other t m m' _ recorded stays ih =>
    obtain ⟨le, ih⟩ := ih
    refine ⟨le.trans recorded.size_le, ?_⟩
    rcases ih with ⟨c, forced, awaits⟩ | failed
    · exact Or.inl ⟨c, forced, awaits.space, awaits.flags, awaits.todo, stays awaits.blocks⟩
    · exact Or.inr (failed.recorded recorded)

/-- Once the forced retry has gone through all queues, the lock was completed as failed, and flagged
as a local matter. -/
theorem fails_blocking (keeps : policy.Keeps Recorded) (reach : Forced policy r q l told t m)
    (through : ∀ c, c ∈ t.forced? → c.todo = []) : m.FailedSince told r.space l := by
  rcases (reach.awaits_or_failed keeps).2 with ⟨c, forced, awaits⟩ | failed
  · have left := awaits.todo
    rw [through c forced] at left
    cases left
  · exact failed

end Forced

namespace QueueCall

/-- A lock is queued and held. -/
def heldLock : List QueueCall :=
  [.build .oneBucket, .get ⟨0⟩ ⟨1, 0, 0, 0⟩ .plain true, .newLock ⟨1⟩ .ex none,
    .alter ⟨0⟩ (·.addHold .ex), .add ⟨⟨0⟩, ⟨0⟩⟩ .granted ⟨0⟩]

end QueueCall

namespace Teardown

/-- Some turns of the forced retry pass by a lock that was visited before them, and then the queues
are through. -/
def PassesBy (l : LockKey) : Nat → Teardown → Manager → Prop
  | 0, t, _ => ∀ c ∈ t.forced?, c.todo = []
  | turns + 1, t, m => (m.lock l).flags.contains .cleaned = true ∧
      (t.turn .default).Returns m fun step m' => ∃ t' ∈ step.next?, PassesBy l turns t' m'

instance decidablePassesBy (l : LockKey) :
    ∀ (turns : Nat) (t : Teardown) (m : Manager), Decidable (PassesBy l turns t m)
  | 0, t, _ => inferInstanceAs (Decidable (∀ c ∈ t.forced?, c.todo = []))
  | turns + 1, t, m =>
    have : ∀ t m, Decidable (PassesBy l turns t m) := decidablePassesBy l turns
    inferInstanceAs (Decidable ((m.lock l).flags.contains .cleaned = true ∧
      (t.turn .default).Returns m fun step m' => ∃ t' ∈ step.next?, PassesBy l turns t' m'))

/-- The transport is pressed while a lock is queued and held. The forced retry goes through all
queues, and nothing is told of it. -/
def RetriesSilently (t : Teardown) (m : Manager) : Prop :=
  (t.pressed .disconnect none).Returns m fun t m =>
    (m.queue ⟨⟨0⟩, ⟨0⟩⟩ .granted = [⟨0⟩] ∧ (m.lock ⟨0⟩).hasHolders) ∧
      (t.pressed .invalidate none).Returns m fun t m₁ => (t.advance .keep 3).Returns m₁ fun t m₂ =>
        (∃ c ∈ t.forced?, c.todo = []) ∧ m₂.trace.toList.drop m.trace.size = []

instance (t : Teardown) (m : Manager) : Decidable (t.RetriesSilently m) := by
  unfold RetriesSilently
  infer_instance

end Teardown

namespace Forced

variable {t : Teardown} {m : Manager} {r : ResourceRef} {q : Queue} {l : LockKey} {told : Nat}

/-- A lock that was visited does not block, so nothing is asked of the turns that pass it by. -/
theorem exists_through {turns : Nat} (reach : Forced .default r q l told t m)
    (passes : t.PassesBy l turns m) :
    ∃ t' m', Forced .default r q l told t' m' ∧ ∀ c ∈ t'.forced?, c.todo = [] := by
  induction turns generalizing t m with
  | zero => exact ⟨t, m, reach, passes⟩
  | succ turns ih =>
    obtain ⟨visited, step, m', run, t', next, later⟩ := passes
    refine ih (reach.turn run next fun _ blocks => ?_) later
    cases blocks.unvisited.symm.trans visited

/-- A lock is queued and held by the time that the transport is invalidated. -/
theorem fails_blocking_late_lock : ∃ t m told,
    Forced .default ⟨⟨0⟩, ⟨0⟩⟩ .granted ⟨0⟩ told t m ∧ (∀ c ∈ t.forced?, c.todo = []) ∧
      m.FailedSince told ⟨0⟩ ⟨0⟩ := by
  let wants : Teardown := ⟨⟨0⟩, true, .escalating .invalidate⟩
  let r : ResourceRef := ⟨⟨0⟩, ⟨0⟩⟩
  obtain ⟨_, m, -, ⟨listed, queued, unvisited, held⟩, t, m₀, pressed, comes, step, m₁, visited, t₁,
      next, passes⟩ :
      (QueueCall.performEach QueueCall.heldLock).Returns {} fun _ m =>
        (r ∈ m.listing ⟨0⟩ ∧ ⟨0⟩ ∈ m.queue r .granted ∧
          (m.lock ⟨0⟩).flags.contains .cleaned = false ∧ (m.lock ⟨0⟩).hasHolders) ∧
          (wants.pressed .invalidate none).Returns m fun t m₀ =>
            (∃ c ∈ t.forced?, c.visit? m₀ = some ⟨0⟩) ∧ (t.turn .default).Returns m₀ fun step m₁ =>
              ∃ t₁ ∈ step.next?, t₁.PassesBy ⟨0⟩ 3 m₁ := by
    decide +kernel
  have hashed : m.Hashes r := (mem_listing.mp listed).2
  have reach : Forced .default r .granted ⟨0⟩ m.trace.size t m₀ :=
    .start rfl rfl hashed ⟨queued, unvisited, held⟩ rfl pressed
  have reach : Forced .default r .granted ⟨0⟩ m.trace.size t₁ m₁ := by
    obtain ⟨c, forced, here⟩ := comes
    exact reach.turn visited next fun passes => absurd here (passes c forced)
  obtain ⟨t', m', reach, through⟩ := reach.exists_through passes
  exact ⟨t', m', _, reach, through, reach.fails_blocking LockPolicy.recorded_default through⟩

/-- A lock that the policy leaves where it is has been visited by the first drain, so the forced
retry passes it by: it is queued and held when that starts, and is never completed. -/
theorem passes_visited : ∃ hands m₀ t₁ m₁ t₂ m₂ step t₃ m₃ t₄ m₄ t₅ m₅ t₆ m₆,
    QueueCall.performEach [.build .oneBucket, .get ⟨0⟩ ⟨1, 0, 0, 0⟩ .plain true,
      .newLock ⟨1⟩ .ex none, .alter ⟨0⟩ (·.addHold .ex), .add ⟨⟨0⟩, ⟨0⟩⟩ .granted ⟨0⟩] {} =
        .ok hands m₀ ∧
    Teardown.start ⟨0⟩ false true m₀ = .ok t₁ m₁ ∧ t₁.advance .keep 5 m₁ = .ok t₂ m₂ ∧
    t₂.expired m₂ = .ok step m₃ ∧ step.next? = some t₃ ∧ t₃.pressed .disconnect none m₃ = .ok t₄ m₄ ∧
    t₄.pressed .invalidate none m₄ = .ok t₅ m₅ ∧ t₅.advance .keep 3 m₅ = .ok t₆ m₆ ∧
    (∃ q, ⟨0⟩ ∈ m₄.queue ⟨⟨0⟩, ⟨0⟩⟩ q) ∧ (m₄.lock ⟨0⟩).hasHolders ∧
    (∃ c ∈ t₆.forced?, c.todo = []) ∧ ¬ m₆.FailedSince m₄.trace.size ⟨0⟩ ⟨0⟩ := by
  obtain ⟨hands, m₀, performed, t₁, m₁, started, t₂, m₂, drained, step, m₃, expired, t₃, next, t₄, m₄,
      disconnected, ⟨queue, held⟩, t₅, m₅, invalidated, t₆, m₆, passed, through, silent⟩ :
      (QueueCall.performEach QueueCall.heldLock).Returns {} fun _ m =>
        (Teardown.start ⟨0⟩ false true).Returns m fun t m => (t.advance .keep 5).Returns m fun t m =>
          t.expired.Returns m fun step m => ∃ t ∈ step.next?, t.RetriesSilently m := by
    decide +kernel
  refine ⟨hands, m₀, t₁, m₁, t₂, m₂, step, t₃, m₃, t₄, m₄, t₅, m₅, t₆, m₆, performed, started, drained,
    expired, next, disconnected, invalidated, passed, ⟨.granted, ?_⟩, held, through, ?_⟩
  · rw [queue]
    exact List.mem_singleton_self _
  · rintro ⟨flags, told, -⟩
    rw [silent] at told
    cases told

end Forced

end Lockspace
