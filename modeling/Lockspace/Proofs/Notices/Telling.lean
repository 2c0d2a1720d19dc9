import Lockspace.Proofs.Notices.Minding
import Lockspace.Proofs.Queueing.Runs

namespace Lockspace

open Manager Act

/-- A waiting operation that may be started on a namespace. -/
inductive Undertaking where
  | cleanup (n : SpaceKey) (flags : LockFlags)
  | freePrior (n : SpaceKey) (force hasImport : Bool)
  | free (n : SpaceKey) (force hasImport : Bool)
  | cancelLru (n : SpaceKey) (count : Nat) (flags : LockFlags)
  | setLruSize (n : SpaceKey) (size : LruSize)

/-- What a waiting operation meets with next. -/
inductive Happening where
  | turn
  | expired
  | answered (l : LockKey) (failure : Option LockError)
  | pressed (step : Escalation) (failure : Option LockError)
  | abandoned

def Undertaking.begin (policy : LockPolicy) : Undertaking → Act Task
  | cleanup n flags => return .cleanup (← Cleanup.start n flags)
  | freePrior n force hasImport => return .prior (← Teardown.start n force hasImport)
  | free n force hasImport => return .free (← Teardown.start n force hasImport)
  | cancelLru n count flags => return .cancel (← Act.cancelLru policy n count flags) .keep
  | setLruSize n size => do
    let (cancel, last) ← Act.setLruSize policy n size
    return .cancel cancel last

namespace Task

/-- What becomes of an operation, if it goes on. -/
def meet (policy : LockPolicy) (t : Task) : Happening → Act (Option Task)
  | .turn => return (← t.turn policy).next?
  | .expired => return (← t.expired).next?
  | .answered l failure => return some (← t.answered l failure)
  | .pressed step failure => return some (← t.pressed step failure)
  | .abandoned => do
    t.abandon
    return none

/-- The locks whose cancellation an operation is. -/
def victims : Task → List LockKey
  | cancel v _ => v.victims
  | _ => []

end Task

/-- The runs of any number of waiting operations on any namespaces, with a policy, and of all locks
that were victims of a cancellation of unused ones. Whatever asks no peer may happen in between,
and an operation may end in a fault. -/
inductive Telling (policy : LockPolicy) : Manager → Multiset Task → List LockKey → Prop
  | start {m : Manager} (silent : m.peerCalls = #[]) : Telling policy m 0 []
  | begun {m m' : Manager} {tasks : Multiset Task} {victims : List LockKey} {u : Undertaking}
      {t : Task} (reach : Telling policy m tasks victims) (run : u.begin policy m = .ok t m') :
      Telling policy m' (t ::ₘ tasks) (t.victims ++ victims)
  | refused {m m' : Manager} {tasks : Multiset Task} {victims : List LockKey} {u : Undertaking}
      {fault : Fault} (reach : Telling policy m tasks victims)
      (run : u.begin policy m = .error fault m') : Telling policy m' tasks victims
  | met {m m' : Manager} {tasks : Multiset Task} {victims : List LockKey} {h : Happening}
      {t : Task} {next : Option Task} (reach : Telling policy m (t ::ₘ tasks) victims)
      (run : t.meet policy h m = .ok next m') : Telling policy m' (↑next.toList + tasks) victims
  | failed {m m' : Manager} {tasks : Multiset Task} {victims : List LockKey} {h : Happening}
      {t : Task} {fault : Fault} (reach : Telling policy m (t ::ₘ tasks) victims)
      (run : t.meet policy h m = .error fault m') : Telling policy m' tasks victims
  | other {m m' : Manager} {tasks : Multiset Task} {victims : List LockKey}
      (reach : Telling policy m tasks victims) (unheard : Unheard m m') :
      Telling policy m' tasks victims

variable {policy : LockPolicy} {victims : List LockKey} {m m' : Manager} {n : SpaceKey}
  {l : LockKey}

namespace Task

variable {t : Task}

theorem minds_meet (discreet : policy.Discreet) (may : t.MayAsk m victims) (h : Happening) :
    (t.meet policy h).Minds m victims fun next m' => ∀ t ∈ next, t.MayAsk m' victims := by
  have goes : ∀ (t : Task) (m : Manager), t.MayAsk m victims → ∀ s ∈ some t, s.MayAsk m victims := by
    rintro t m may s ⟨⟩
    exact may
  cases h with
  | turn =>
    exact (minds_turn discreet may).bind fun turn m' _ leads => minds_pure (mayAsk_next leads)
  | expired => exact (minds_expired may).bind fun turn m' _ leads => minds_pure (mayAsk_next leads)
  | answered l failure =>
    exact (minds_answered may l failure).bind fun t m' _ later => minds_pure (goes t m' later)
  | pressed step failure =>
    exact (minds_pressed may step failure).bind fun t m' _ later => minds_pure (goes t m' later)
  | abandoned => exact minds_after heeds_abandon fun _ m' _ => minds_pure nofun

end Task

theorem Undertaking.minds_begin (discreet : policy.Discreet) (u : Undertaking) :
    (u.begin policy).Minds m victims fun t m' => t.MayAsk m' t.victims := by
  cases u with
  | cleanup n flags => exact minds_after (Cleanup.heeds_start flags) fun _ m' _ => minds_pure trivial
  | freePrior n force hasImport =>
    exact minds_after (Teardown.heeds_start force hasImport) fun _ m' _ => minds_pure trivial
  | free n force hasImport =>
    exact minds_after (Teardown.heeds_start force hasImport) fun _ m' _ => minds_pure trivial
  | cancelLru n count flags =>
    refine (VictimCancel.minds_cancelLru discreet count flags).bind fun v m' _ may => ?_
    exact minds_pure may
  | setLruSize n size =>
    exact (VictimCancel.minds_setLruSize discreet size).bind fun v m' _ may => minds_pure may

namespace Telling

variable {tasks : Multiset Task}

/-- What the peers have heard by then, and what the operations in progress may still ask. -/
theorem spared_and_mayAsk (discreet : policy.Discreet) (reach : Telling policy m tasks victims) :
    (∀ call ∈ m.peerCalls, call.Spares m victims) ∧ ∀ t ∈ tasks, t.MayAsk m victims := by
  -- A cancellation decides long before it asks, so the induction carries what may still be asked.
  induction reach with
  | start silent => simp [silent]
  | @begun m m' tasks victims u t _ run ih =>
    obtain ⟨heeds, may⟩ := (u.minds_begin discreet).of_ok run
    refine ⟨fun call member => ?_, fun s member => ?_⟩
    · exact (heeds.spared ih.1 call member).mono (List.subset_append_right ..)
    · rcases Multiset.mem_cons.mp member with rfl | before
      · exact (may s rfl).mono (fun _ => rfl) (List.subset_append_left ..)
      · exact (ih.2 s before).mono heeds.side (List.subset_append_right ..)
  | @refused m m' tasks victims u fault _ run ih =>
    have heeds : Heeds victims m m' := ((u.minds_begin discreet).of_error run).1
    exact ⟨heeds.spared ih.1, fun s before => (ih.2 s before).mono heeds.side (List.Subset.refl _)⟩
  | @met m m' tasks victims h t next _ run ih =>
    have fits := ih.2 t (Multiset.mem_cons_self ..)
    obtain ⟨heeds, may⟩ := (Task.minds_meet discreet fits h).of_ok run
    refine ⟨heeds.spared ih.1, fun s member => ?_⟩
    rcases Multiset.mem_add.mp member with goes | before
    · exact may next rfl s (by simpa using goes)
    · exact (ih.2 s (Multiset.mem_cons_of_mem before)).mono heeds.side (List.Subset.refl _)
  | @failed m m' tasks victims h t fault _ run ih =>
    have fits := ih.2 t (Multiset.mem_cons_self ..)
    have heeds := ((Task.minds_meet discreet fits h).of_error run).1
    refine ⟨heeds.spared ih.1, fun s before => ?_⟩
    exact (ih.2 s (Multiset.mem_cons_of_mem before)).mono heeds.side (List.Subset.refl _)
  | @other m m' tasks victims _ unheard ih =>
    refine ⟨unheard.heeds.spared ih.1, fun s before => ?_⟩
    exact (ih.2 s before).mono unheard.side (List.Subset.refl _)

/-- A peer only ever hears of the locks of clients. It hears of no lock that is flagged as a local
matter, unless the lock was a victim of a cancellation of unused ones that is not flagged so. -/
theorem spares (discreet : policy.Discreet) (reach : Telling policy m tasks victims)
    {arg flags : LockFlags} {inflight : Nat}
    (told : .peerCancel n l arg flags inflight ∈ m.trace) : (m.space n).side = .client ∧
      (flags.contains .localOnly = false ∨ l ∈ victims ∧ arg.contains .localOnly = false) := by
  have heard : .peerCancel n l arg flags inflight ∈ m.peerCalls :=
    Array.mem_filter.mpr ⟨told, rfl⟩
  obtain ⟨client, flagged⟩ := (reach.spared_and_mayAsk discreet).1 _ heard
  refine ⟨?_, flagged⟩
  cases side : (m.space n).side with
  | server => exact absurd client (by simp [Namespace.isClient, side, Side.isClient])
  | client => rfl

/-- After some calls that tell no peer anything, the first turn of an operation may tell one. -/
theorem exists_told (calls : List QueueCall) (u : Undertaking) (call : Callback)
    (silent : (QueueCall.performEach calls).Leaves {} fun _ m => m.peerCalls = #[])
    (tells : (QueueCall.performEach calls >>= fun _ =>
      u.begin .default >>= (·.meet .default .turn)).Leaves {} fun answer m =>
        answer.isOk ∧ call ∈ m.trace) :
    ∃ m tasks victims, Telling .default m tasks victims ∧ call ∈ m.trace := by
  obtain ⟨next, m, run, told⟩ := tells.exists_run
  obtain ⟨_, m₀, prepared, run⟩ := ok_of_bind run
  obtain ⟨t, m₁, begun, met⟩ := ok_of_bind run
  exact ⟨m, _, _, ((Telling.start (silent.of_ok prepared)).begun begun).met met, told⟩

/-- The drain of a client tells its peer about a lock. -/
theorem spares_in_drain : ∃ m tasks victims, Telling .default m tasks victims ∧
    .peerCancel ⟨0⟩ ⟨0⟩ .none ⟨23⟩ 1 ∈ m.trace ∧ (m.space ⟨0⟩).side = .client ∧
      ((⟨23⟩ : LockFlags).contains .localOnly = false ∨
        ⟨0⟩ ∈ victims ∧ LockFlags.none.contains .localOnly = false) := by
  obtain ⟨m, tasks, victims, reach, told⟩ := exists_told
    [.build .peered, .get ⟨0⟩ ⟨1, 0, 0, 0⟩ .plain true, .newLock ⟨1⟩ .ex none,
      .add ⟨⟨0⟩, ⟨0⟩⟩ .granted ⟨0⟩]
    (.cleanup ⟨0⟩ .none) (.peerCancel ⟨0⟩ ⟨0⟩ .none ⟨23⟩ 1) (by decide +kernel) (by decide +kernel)
  exact ⟨m, tasks, victims, reach, told, reach.spares LockPolicy.discreet_default told⟩

/-- A cancellation of unused locks does not look at the flags of its victims: a peer hears of a lock
that is flagged as a local matter. -/
theorem tells_of_flagged_victim : ∃ m tasks victims, Telling .default m tasks victims ∧
    .peerCancel ⟨0⟩ ⟨0⟩ .none ⟨26⟩ 1 ∈ m.trace ∧
      (⟨26⟩ : LockFlags).contains .localOnly := by
  obtain ⟨m, tasks, victims, reach, told⟩ := exists_told
    [.build .peered, .newLock ⟨1⟩ .ex none, .alter ⟨0⟩ (·.setFlags .localOnly), .unused ⟨0⟩ ⟨0⟩]
    (.cancelLru ⟨0⟩ 1 .none) (.peerCancel ⟨0⟩ ⟨0⟩ .none ⟨26⟩ 1) (by decide +kernel)
    (by decide +kernel)
  exact ⟨m, tasks, victims, reach, told, rfl⟩

end Telling

end Lockspace
