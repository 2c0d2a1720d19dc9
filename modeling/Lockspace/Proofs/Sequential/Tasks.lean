import Lockspace.Proofs.Sequential.Draining
import Lockspace.Proofs.Sequential.Freeing
import Lockspace.Waiting.Task

namespace Lockspace

open Manager Act

namespace Teardown

/-- The references of a teardown, which are those of its drain. -/
def held (t : Teardown) : List ResourceRef :=
  match t.stage with
  | .draining d | .retrying d => d.held
  | .escalating _ => []

end Teardown

/-- A teardown of a namespace in progress. -/
def Teardown.Underway (t : Teardown) (n : SpaceKey) (m : Manager) (hands : Multiset ResourceKey)
    (holds : Nat) : Prop :=
  t.space = n ∧ Lockspace.Underway n m t.held hands holds

/-- An operation on a namespace in progress, with the references that it holds. -/
def Task.Underway (n : SpaceKey) (m : Manager) (hands : Multiset ResourceKey) (holds : Nat) :
    Task → Prop
  | .cleanup c => Lockspace.Underway n m c.held hands holds
  | .prior t | .free t => t.Underway n m hands holds
  | .waitIdle .. | .cancel .. => Orderly n m hands holds

variable {n k : SpaceKey} {m : Manager} {hands : Multiset ResourceKey} {holds : Nat} {l : LockKey}

namespace Teardown

variable {t : Teardown}

theorem ends_start (orderly : Orderly n m hands holds) (force hasImport : Bool) :
    (start n force hasImport).Ends m (·.isDisorder = false) fun t m' =>
      t.Underway n m' hands holds := by
  have stopping : (modifySpace n fun s => { s with stopping := true }).Quiet n := by
    exact quiet_modifySpace fun _ => rfl
  unfold start
  rw [ends_bind]
  refine (stopping.tidy m _ _ orderly).imp fun _ m₁ after => ?_
  rw [ends_bind]
  exact (Drain.ends_start after force).imp fun d m' underway => ends_pure.mpr ⟨rfl, underway⟩

theorem ends_afterFirst (here : t.space = n) {turn : Turn Drain (Except LockError Unit)}
    (leads : turn.Leads (fun d => Lockspace.Underway n m d.held hands holds)
      (Orderly n m hands holds)) :
    (t.afterFirst turn).Ends m (·.isDisorder = false) fun turn m' =>
      turn.Leads (·.Underway n m' hands holds) (Orderly n m' hands holds) := by
  unfold afterFirst
  split
  · split
    · exact ends_pure.mpr leads
    · rw [ends_bind, ends_space, ends_bind]
      refine ((quiet_log _ _).tidy m _ _ leads).imp fun _ m' after => ends_pure.mpr ?_
      exact ⟨here, Underway.nil.mpr after⟩
  · rw [ends_pure, Turn.leads_map]
    exact leads.imp fun d inner => ⟨here, inner⟩

theorem leads_afterRetry (here : t.space = n) {turn : Turn Drain (Except LockError Unit)}
    (leads : turn.Leads (fun d => Lockspace.Underway n m d.held hands holds)
      (Orderly n m hands holds)) :
    (t.afterRetry turn).Leads (·.Underway n m hands holds) (Orderly n m hands holds) := by
  rw [afterRetry, Turn.leads_map]
  exact leads.imp fun d inner => ⟨here, inner⟩

theorem ends_turn (underway : t.Underway n m hands holds) :
    (t.turn .default).Ends m (·.isDisorder = false) fun turn m' =>
      turn.Leads (·.Underway n m' hands holds) (Orderly n m' hands holds) := by
  obtain ⟨here, inner⟩ := underway
  obtain ⟨space, hasImport, stage⟩ := t
  unfold turn
  cases stage with
  | draining d =>
    rw [ends_bind]
    exact (Drain.ends_turn inner).imp fun turn m₁ leads => ends_afterFirst here leads
  | escalating step => exact ends_pure.mpr ⟨here, inner⟩
  | retrying d =>
    rw [ends_bind]
    refine (Drain.ends_turn inner).imp fun turn m' leads => ends_pure.mpr ?_
    exact leads_afterRetry here leads

theorem ends_expired (underway : t.Underway n m hands holds) :
    t.expired.Ends m (·.isDisorder = false) fun turn m' =>
      turn.Leads (·.Underway n m' hands holds) (Orderly n m' hands holds) := by
  obtain ⟨here, inner⟩ := underway
  obtain ⟨space, hasImport, stage⟩ := t
  unfold expired
  cases stage with
  | draining d =>
    rw [ends_bind]
    exact (Drain.ends_expired inner).imp fun turn m₁ leads => ends_afterFirst here leads
  | escalating step => exact ends_pure.mpr ⟨here, inner⟩
  | retrying d =>
    rw [ends_bind]
    refine (Drain.ends_expired inner).imp fun turn m' leads => ends_pure.mpr ?_
    exact leads_afterRetry here leads

theorem ends_answered (underway : t.Underway n m hands holds) (failure : Option LockError) :
    (t.answered l failure).Ends m (·.isDisorder = false) fun t m' =>
      t.Underway n m' hands holds := by
  obtain ⟨here, inner⟩ := underway
  obtain ⟨space, hasImport, stage⟩ := t
  unfold answered
  cases stage with
  | draining d =>
    rw [ends_bind]
    exact (Drain.ends_answered inner failure).imp fun d m' after => ends_pure.mpr ⟨here, after⟩
  | escalating step => exact ends_pure.mpr ⟨here, inner⟩
  | retrying d =>
    rw [ends_bind]
    exact (Drain.ends_answered inner failure).imp fun d m' after => ends_pure.mpr ⟨here, after⟩

theorem ends_abandon (underway : t.Underway n m hands holds) :
    t.abandon.Ends m (·.isDisorder = false) fun _ m' => Orderly n m' hands holds := by
  obtain ⟨-, inner⟩ := underway
  obtain ⟨space, hasImport, stage⟩ := t
  cases stage with
  | draining d => exact Drain.ends_abandon inner
  | escalating step => exact ends_pure.mpr (Underway.nil.mp inner)
  | retrying d => exact Drain.ends_abandon inner

/-- After the second step with the transport the forced drain starts. The first one leads to the
second. -/
theorem ends_pressed {pressing : Escalation} (underway : t.Underway n m hands holds)
    (stage : t.stage = .escalating pressing) (step : Escalation) (failure : Option LockError) :
    (t.pressed step failure).Ends m (·.isDisorder = false) fun t m' =>
      t.Underway n m' hands holds := by
  obtain ⟨rfl, inner⟩ := underway
  have orderly : Orderly t.space m hands holds := by
    simp only [held, stage] at inner
    exact Underway.nil.mp inner
  unfold pressed
  cases step with
  | disconnect =>
    cases failure with
    | none => exact ends_pure.mpr ⟨rfl, Underway.nil.mpr orderly⟩
    | some e =>
      simp only [ends_bind, ends_space]
      refine ((quiet_log _ _).tidy m _ _ orderly).imp fun _ m' after => ends_pure.mpr ?_
      exact ⟨rfl, Underway.nil.mpr after⟩
  | invalidate =>
    have forced : ∀ m₁, Orderly t.space m₁ hands holds →
        (do return { t with stage := .retrying (← Drain.start t.space true) } : Act Teardown).Ends
          m₁ (·.isDisorder = false) fun t' m' => t'.Underway t.space m' hands holds := by
      intro m₁ after
      rw [ends_bind]
      exact (Drain.ends_start after true).imp fun d m' underway => ends_pure.mpr ⟨rfl, underway⟩
    cases failure with
    | none => exact forced m orderly
    | some e =>
      simp only [ends_bind, ends_space]
      refine ((quiet_log _ _).tidy m _ _ orderly).imp fun _ m₁ after => ?_
      simpa only [ends_bind] using forced m₁ after

theorem tidy_free : (free n).Tidy n := by
  unfold free
  refine tidy_freePost.bind fun gone => ?_
  split
  · exact tidy_pure _
  · refine quiet_space.tidy.bind fun s => ?_
    split
    · exact tidy_pure _
    · exact tidy_pure _

end Teardown

namespace VictimCancel

theorem tidy_start (victims : List LockKey) (flags : LockFlags) :
    (start .default k victims flags).Tidy n := by
  have flagged : ∀ l, (modifyLock l (·.setFlags (LockFlags.cancelPending ||| flags))).Quiet n := by
    intro l
    refine quiet_modifyLock ?_
    exact fun _ => rfl
  unfold start
  refine (tidy_forM fun l => quiet_own.tidy).bind fun _ => ?_
  refine (tidy_forM fun l => ?_).bind fun _ => ?_
  · exact (flagged l).tidy.bind fun _ => tidy_cancelLocal
  · exact quiet_space.tidy.bind fun s => tidy_pure _

theorem tidy_turn (v : VictimCancel) : v.turn.Tidy n := by
  unfold turn
  split
  · split
    · exact (Cleanup.quiet_askPeer _ _).tidy.bind fun _ => tidy_pure _
    · exact tidy_pure _
  · split
    · exact (tidy_forM fun l => tidy_disown).bind fun _ => tidy_pure _
    · exact tidy_pure _

theorem tidy_answered (v : VictimCancel) (failure : Option LockError) :
    (v.answered l failure).Tidy n := by
  unfold answered
  cases failure with
  | none => exact tidy_pure _
  | some e =>
    refine quiet_lock.tidy.bind fun lk => ?_
    refine quiet_space.tidy.bind fun s => ?_
    exact (quiet_log _ _).tidy.bind fun _ => tidy_pure _

theorem tidy_abandon (v : VictimCancel) : v.abandon.Tidy n :=
  tidy_forM fun _ => tidy_disown

end VictimCancel

namespace Act

theorem quiet_takeVictims (limits : VictimLimits) : (takeVictims k limits).Quiet n := by
  unfold takeVictims
  refine quiet_tick.bind fun now => ?_
  refine quiet_get.bind fun m => ?_
  split
  refine (quiet_modifySpace ?_).bind fun _ => quiet_pure _
  exact fun _ => rfl

theorem tidy_cancelLru (count : Nat) (flags : LockFlags) :
    (cancelLru .default k count flags).Tidy n := by
  unfold cancelLru
  refine quiet_space.tidy.bind fun s => ?_
  exact (quiet_takeVictims _).tidy.bind fun victims => VictimCancel.tidy_start victims flags

theorem quiet_takeAllUnused : (takeAllUnused k).Quiet n := by
  unfold takeAllUnused
  refine quiet_space.bind fun s => ?_
  split
  refine (quiet_modifySpace ?_).bind fun _ => quiet_pure _
  exact fun _ => rfl

theorem tidy_setLruSize (size : LruSize) : (setLruSize .default k size).Tidy n := by
  have stored : ∀ value, (modifySpace k fun s =>
      { s with config := { s.config with lruSize := value } }).Quiet n := by
    intro value
    exact quiet_modifySpace fun _ => rfl
  unfold setLruSize
  cases size with
  | clear =>
    refine quiet_takeAllUnused.tidy.bind fun victims => ?_
    exact (VictimCancel.tidy_start victims _).bind fun v => tidy_pure _
  | value value =>
    refine quiet_space.tidy.bind fun s => ?_
    have resized : ∀ count last, (do
        let cancel ← cancelLru .default k count .none
        return (cancel, last) : Act (VictimCancel × ResizeEnd)).Tidy n :=
      fun count last => (tidy_cancelLru count _).bind fun v => tidy_pure _
    split
    · show (if value ≠ 0 then modifySpace k _ >>= _ else _ : Act _).Tidy n
      split
      · exact (stored value).tidy.bind fun _ => resized _ _
      · exact resized _ _
    · exact (stored value).tidy.bind fun _ => resized _ _

theorem quiet_endResize (last : ResizeEnd) : (endResize k last).Quiet n := by
  cases last with
  | keep => exact quiet_pure ()
  | disable => exact quiet_modifySpace fun _ => rfl
  | enable => exact quiet_modifySpace fun _ => rfl

end Act

namespace Task

variable {t : Task}

theorem leads_afterPrior {turn : Turn Teardown (Except LockError Unit)}
    (leads : turn.Leads (·.Underway n m hands holds) (Orderly n m hands holds)) :
    (afterPrior turn).Leads (Task.Underway n m hands holds) (Orderly n m hands holds) := by
  cases turn with
  | goes t => exact leads
  | asks l t => exact leads
  | parks bound t => exact leads
  | returns answer => exact leads

/-- A whole teardown frees the namespace once the first phase has succeeded. -/
theorem ends_afterFree {turn : Turn Teardown (Except LockError Unit)}
    (leads : turn.Leads (·.Underway n m hands holds) (Orderly n m hands holds)) :
    (afterFree n turn).Ends m (·.isDisorder = false) fun turn m' =>
      turn.Leads (Task.Underway n m' hands holds) (Orderly n m' hands holds) := by
  cases turn with
  | goes t => exact ends_pure.mpr leads
  | asks l t => exact ends_pure.mpr leads
  | parks bound t => exact ends_pure.mpr leads
  | returns answer =>
    cases answer with
    | error e => exact ends_pure.mpr leads
    | ok done =>
      show (Teardown.free n >>= _).Ends m _ _
      rw [ends_bind]
      exact (Teardown.tidy_free m _ _ leads).imp fun _ m' after => ends_pure.mpr after

theorem ends_turn (underway : t.Underway n m hands holds) :
    (t.turn .default).Ends m (·.isDisorder = false) fun turn m' =>
      turn.Leads (Task.Underway n m' hands holds) (Orderly n m' hands holds) := by
  unfold turn
  cases t with
  | cleanup c =>
    rw [ends_bind]
    refine (Cleanup.ends_turn underway).imp fun turn m' leads => ?_
    cases turn with
    | goes c => exact ends_pure.mpr leads
    | asks l c => exact ends_pure.mpr leads
    | parks bound c => exact ends_pure.mpr leads
    | returns count => exact ends_pure.mpr leads
  | waitIdle k w =>
    rw [ends_bind, ends_space]
    split
    · exact ends_pure.mpr underway
    · exact ends_pure.mpr underway
  | prior t =>
    rw [ends_bind]
    refine (Teardown.ends_turn underway).imp fun turn m' leads => ends_pure.mpr ?_
    exact leads_afterPrior leads
  | free t =>
    obtain rfl : t.space = n := underway.1
    rw [ends_bind]
    exact (Teardown.ends_turn underway).imp fun turn m₁ leads => ends_afterFree leads
  | cancel v last =>
    rw [ends_bind]
    refine (VictimCancel.tidy_turn v m _ _ underway).imp fun turn m₁ after => ?_
    cases turn with
    | goes v => exact ends_pure.mpr after
    | asks l v => exact ends_pure.mpr after
    | parks bound v => exact ends_pure.mpr after
    | returns count =>
      rw [ends_bind]
      exact ((quiet_endResize last).tidy m₁ _ _ after).imp fun _ m' done => ends_pure.mpr done

theorem ends_expired (underway : t.Underway n m hands holds) :
    t.expired.Ends m (·.isDisorder = false) fun turn m' =>
      turn.Leads (Task.Underway n m' hands holds) (Orderly n m' hands holds) := by
  unfold expired
  cases t with
  | prior t =>
    rw [ends_bind]
    refine (Teardown.ends_expired underway).imp fun turn m' leads => ends_pure.mpr ?_
    exact leads_afterPrior leads
  | free t =>
    obtain rfl : t.space = n := underway.1
    rw [ends_bind]
    exact (Teardown.ends_expired underway).imp fun turn m₁ leads => ends_afterFree leads
  | cleanup c => exact ends_pure.mpr underway
  | waitIdle k w => exact ends_pure.mpr underway
  | cancel v last => exact ends_pure.mpr underway

theorem ends_answered (underway : t.Underway n m hands holds) (failure : Option LockError) :
    (t.answered l failure).Ends m (·.isDisorder = false) fun t m' =>
      t.Underway n m' hands holds := by
  unfold answered
  cases t with
  | cleanup c =>
    rw [ends_bind]
    exact (Cleanup.ends_answered underway failure).imp fun c m' after => ends_pure.mpr after
  | waitIdle k w => exact ends_pure.mpr underway
  | prior t =>
    rw [ends_bind]
    exact (Teardown.ends_answered underway failure).imp fun t m' after => ends_pure.mpr after
  | free t =>
    rw [ends_bind]
    exact (Teardown.ends_answered underway failure).imp fun t m' after => ends_pure.mpr after
  | cancel v last =>
    rw [ends_bind]
    refine (VictimCancel.tidy_answered v failure m _ _ underway).imp fun v m' after => ?_
    exact ends_pure.mpr after

/-- The transport only answers a teardown that has asked it. -/
theorem ends_pressed (underway : t.Underway n m hands holds) (asked : t.escalation?.isSome)
    (step : Escalation) (failure : Option LockError) :
    (t.pressed step failure).Ends m (·.isDisorder = false) fun t m' =>
      t.Underway n m' hands holds := by
  have stage : ∀ t : Teardown, (Task.prior t).escalation?.isSome →
      ∃ pressing, t.stage = .escalating pressing := by
    intro t some
    simp only [escalation?] at some
    split at some
    · exact ⟨_, ‹_›⟩
    · cases some
  unfold pressed
  cases t with
  | prior t =>
    obtain ⟨pressing, stage⟩ := stage t asked
    rw [ends_bind]
    refine (Teardown.ends_pressed underway stage step failure).imp fun t m' after => ?_
    exact ends_pure.mpr after
  | free t =>
    obtain ⟨pressing, stage⟩ := stage t asked
    rw [ends_bind]
    refine (Teardown.ends_pressed underway stage step failure).imp fun t m' after => ?_
    exact ends_pure.mpr after
  | cleanup c => exact ends_pure.mpr underway
  | waitIdle k w => exact ends_pure.mpr underway
  | cancel v last => exact ends_pure.mpr underway

theorem ends_abandon (underway : t.Underway n m hands holds) :
    t.abandon.Ends m (·.isDisorder = false) fun _ m' => Orderly n m' hands holds := by
  unfold abandon
  cases t with
  | cleanup c => exact Cleanup.ends_abandon underway
  | waitIdle k w => exact ends_pure.mpr underway
  | prior t => exact Teardown.ends_abandon underway
  | free t => exact Teardown.ends_abandon underway
  | cancel v last => exact VictimCancel.tidy_abandon v m _ _ underway

end Task

end Lockspace
