import Lockspace.Proofs.Notices.Spared
import Lockspace.Proofs.Sequential.Discipline
import Lockspace.Proofs.Sequential.Draining

namespace Lockspace

open Manager Act

/-- A cancellation that may ask about the victims that it still has to ask about. -/
def VictimCancel.MayAsk (m : Manager) (victims : List LockKey) (v : VictimCancel) : Prop :=
  ∀ l ∈ v.toAsk, l ∈ victims ∧ (m.space v.space).isClient ∧ v.flags.contains .localOnly = false

/-- Only a cancellation of unused locks decides long before it asks. -/
def Task.MayAsk (m : Manager) (victims : List LockKey) : Task → Prop
  | cancel v _ => v.MayAsk m victims
  | _ => True

variable {policy : LockPolicy} {victims more : List LockKey} {m m' : Manager} {n : SpaceKey}
  {l : LockKey}

theorem VictimCancel.MayAsk.mono {v : VictimCancel} (may : v.MayAsk m victims)
    (side : ∀ n, (m'.space n).side = (m.space n).side) (wider : victims ⊆ more) :
    v.MayAsk m' more := by
  intro l member
  obtain ⟨victim, client, flags⟩ := may l member
  rw [isClient_congr side]
  exact ⟨wider victim, client, flags⟩

theorem Task.MayAsk.mono {t : Task} (may : t.MayAsk m victims)
    (side : ∀ n, (m'.space n).side = (m.space n).side) (wider : victims ⊆ more) :
    t.MayAsk m' more := by
  cases t with
  | cancel v last => exact VictimCancel.MayAsk.mono may side wider
  | _ => trivial

namespace Act

variable {α : Type} {act : Act α}

/-- An action that asks nothing it may not ask, and what holds of its answer. -/
def Minds (act : Act α) (m : Manager) (victims : List LockKey) (may : α → Manager → Prop) : Prop :=
  act.Leaves m fun answer m' => Heeds victims m m' ∧ ∀ a, answer = .ok a → may a m'

variable {β : Type} {next : α → Act β} {may : β → Manager → Prop}

theorem minds_pure {a : β} (fits : may a m) : (pure a : Act β).Minds m victims may := by
  refine ⟨Unheard.rfl.heeds, fun b ok => ?_⟩
  cases ok
  exact fits

theorem Minds.bind {before : α → Manager → Prop} (minds : act.Minds m victims before)
    (rest : ∀ a m', Heeds victims m m' → before a m' → (next a).Minds m' victims may) :
    (act >>= next).Minds m victims may := by
  refine Leaves.bind minds (fun a m₁ after => ?_) fun fault m' after => ⟨after.1, nofun⟩
  refine Leaves.imp (rest a m₁ after.1 (after.2 a rfl)) fun answer m' last => ?_
  exact ⟨after.1.trans last.1, last.2⟩

/-- After an action whose answer does not matter. -/
theorem minds_after (heeds : act.Preserves (Heeds victims))
    (rest : ∀ a m', Heeds victims m m' → (next a).Minds m' victims may) :
    (act >>= next).Minds m victims may := by
  refine (heeds m).bind (fun a m₁ after => ?_) fun fault m' after => ⟨after, nofun⟩
  refine Leaves.imp (rest a m₁ after) fun answer m' last => ?_
  exact ⟨after.trans last.1, last.2⟩

theorem minds_askPeer {arg : LockFlags} {others : Nat} (client : (m.space n).isClient)
    (may : (m.lock l).flags.contains .localOnly = false ∨
      l ∈ victims ∧ arg.contains .localOnly = false) :
    (askPeer n l arg others).Minds m victims fun _ _ => True :=
  (heeds_askPeer client may).imp fun _ _ after => ⟨after, fun _ _ => trivial⟩

end Act

namespace VictimCancel

variable {v : VictimCancel}

/-- A cancellation of unused locks asks about all of its victims or about none. -/
theorem minds_start (discreet : policy.Discreet) (locks : List LockKey) (flags : LockFlags) :
    (start policy n locks flags).Minds m victims fun v m' => v.MayAsk m' v.victims := by
  have owns : (locks.forM own).Preserves (Heeds victims) :=
    preserves_forM fun l _ => heeds_of_steady steady_own
  have cancels : (locks.forM fun l => do
      modifyLock l (·.setFlags (LockFlags.cancelPending ||| flags))
      cancelLocal policy n l : Act Unit).Preserves (Heeds victims) := by
    refine heeds_of_unheard (preserves_forM fun l _ => ?_)
    exact (unheard_modifyLock _).bind fun _ => discreet.unheard_cancelLocal
  refine minds_after owns fun _ m₁ _ => minds_after cancels fun _ m₂ _ => ?_
  refine leaves_after (run_space n m₂) (minds_pure fun l asked => ?_)
  simp only [List.mem_ite_nil_right, Bool.and_eq_true, Bool.not_eq_true'] at asked
  exact ⟨asked.2, asked.1.1.1, asked.1.1.2⟩

theorem heeds_takeVictims (limits : VictimLimits) :
    (takeVictims n limits).Preserves (Heeds victims) := by
  refine (heeds_of_steady steady_tick).bind fun now => preserves_get.bind fun m => ?_
  split
  refine (heeds_of_unheard (unheard_modifySpace ?_)).bind fun _ => preserves_pure _
  exact fun _ => rfl

theorem heeds_takeAllUnused : (takeAllUnused n).Preserves (Heeds victims) := by
  refine preserves_space.bind fun s => ?_
  split
  refine (heeds_of_unheard (unheard_modifySpace ?_)).bind fun _ => preserves_pure _
  exact fun _ => rfl

theorem minds_cancelLru (discreet : policy.Discreet) (count : Nat) (flags : LockFlags) :
    (cancelLru policy n count flags).Minds m victims fun v m' => v.MayAsk m' v.victims := by
  refine minds_after preserves_space fun s m₁ _ => ?_
  exact minds_after (heeds_takeVictims _) fun locks m₂ _ => minds_start discreet locks flags

theorem minds_setLruSize (discreet : policy.Discreet) (size : LruSize) :
    (setLruSize policy n size).Minds m victims fun started m' =>
      started.1.MayAsk m' started.1.victims := by
  cases size with
  | clear =>
    refine minds_after heeds_takeAllUnused fun locks m₁ _ => ?_
    exact (minds_start discreet locks .none).bind fun v m' _ may => minds_pure may
  | value value =>
    have stores : (modifySpace n fun s =>
        { s with config := { s.config with lruSize := value } }).Preserves (Heeds victims) :=
      heeds_of_unheard (unheard_modifySpace fun _ => rfl)
    have cancels : ∀ (last : ResizeEnd) (count : Nat) (m : Manager), (do
        let cancel ← cancelLru policy n count .none
        return (cancel, last) : Act _).Minds m victims fun started m' =>
          started.1.MayAsk m' started.1.victims := fun last count m =>
      (minds_cancelLru discreet count .none).bind fun v m' _ may => minds_pure may
    unfold setLruSize
    refine minds_after preserves_space fun s m₁ _ => ?_
    split
    · dsimp only
      split
      · exact minds_after stores fun _ m₂ _ => cancels _ _ m₂
      · exact cancels _ _ m₁
    · exact minds_after stores fun _ m₂ _ => cancels _ _ m₂

theorem heeds_endResize (last : ResizeEnd) : (endResize n last).Preserves (Heeds victims) := by
  cases last with
  | keep => exact preserves_pure _
  | disable => exact heeds_of_unheard (unheard_modifySpace fun _ => rfl)
  | enable => exact heeds_of_unheard (unheard_modifySpace fun _ => rfl)

theorem minds_turn (may : v.MayAsk m victims) :
    v.turn.Minds m victims fun turn m' => turn.Leads (·.MayAsk m' victims) True := by
  unfold turn
  split
  · rename_i l rest asks
    split
    -- What the start decided still holds: victims stay victims, and sides do not change.
    · obtain ⟨victim, client, flags⟩ := may l (asks ▸ List.mem_cons_self ..)
      have later : ({ v with toAsk := rest, asking := v.asking ++ [l] } : VictimCancel).MayAsk m
          victims := fun k waits => may k (asks ▸ List.mem_cons_of_mem l waits)
      refine Minds.bind (minds_askPeer client (Or.inr ⟨victim, flags⟩)) fun _ m' after _ => ?_
      exact minds_pure (later.mono after.side (List.Subset.refl _))
    · exact minds_pure may
  · split
    · refine minds_after (preserves_forM fun l _ => heeds_of_steady steady_disown) fun _ m' _ => ?_
      exact minds_pure trivial
    · exact minds_pure may

theorem minds_answered (may : v.MayAsk m victims) (failure : Option LockError) :
    (v.answered l failure).Minds m victims fun v m' => v.MayAsk m' victims := by
  unfold answered
  cases failure with
  | none => exact minds_pure may
  | some e =>
    refine leaves_after (run_lock l m) (leaves_after (run_space v.space m) ?_)
    refine minds_after (heeds_of_steady (steady_log _ _)) fun _ m' after => ?_
    exact minds_pure (may.mono after.side (List.Subset.refl _))

theorem heeds_abandon : v.abandon.Preserves (Heeds victims) :=
  preserves_forM fun _ _ => heeds_of_steady steady_disown

end VictimCancel

namespace Task

variable {t : Task}

theorem mayAsk_afterPrior (turn : Turn Teardown (Except LockError Unit)) :
    (afterPrior turn).Leads (·.MayAsk m victims) True := by
  cases turn <;> trivial

theorem minds_afterFree (turn : Turn Teardown (Except LockError Unit)) :
    (afterFree n turn).Minds m victims fun turn m' => turn.Leads (·.MayAsk m' victims) True := by
  unfold afterFree
  split
  · exact minds_after Teardown.heeds_free fun _ m' _ => minds_pure trivial
  all_goals exact minds_pure trivial

/-- No turn of an operation asks what it may not ask, and none makes the next do so. -/
theorem minds_turn (discreet : policy.Discreet) (may : t.MayAsk m victims) :
    (t.turn policy).Minds m victims fun turn m' => turn.Leads (·.MayAsk m' victims) True := by
  unfold turn
  cases t with
  | cleanup c =>
    refine minds_after (Cleanup.heeds_turn discreet) fun turn m' _ => ?_
    cases turn <;> exact minds_pure trivial
  | waitIdle n w =>
    refine minds_after preserves_space fun s m' _ => ?_
    split
    · exact minds_pure trivial
    · exact minds_pure trivial
  | prior t =>
    refine minds_after (Teardown.heeds_turn discreet) fun turn m' _ => ?_
    exact minds_pure (mayAsk_afterPrior turn)
  | free t =>
    exact minds_after (Teardown.heeds_turn discreet) fun turn m' _ => minds_afterFree turn
  | cancel v last =>
    refine (VictimCancel.minds_turn may).bind fun turn m' _ leads => ?_
    cases turn with
    | returns count =>
      exact minds_after (VictimCancel.heeds_endResize last) fun _ m' _ => minds_pure trivial
    | _ => exact minds_pure leads

theorem minds_expired (may : t.MayAsk m victims) :
    t.expired.Minds m victims fun turn m' => turn.Leads (·.MayAsk m' victims) True := by
  unfold expired
  cases t with
  | prior t =>
    refine minds_after Teardown.heeds_expired fun turn m' _ => ?_
    exact minds_pure (mayAsk_afterPrior turn)
  | free t => exact minds_after Teardown.heeds_expired fun turn m' _ => minds_afterFree turn
  | _ => exact minds_pure may

theorem minds_answered (may : t.MayAsk m victims) (l : LockKey) (failure : Option LockError) :
    (t.answered l failure).Minds m victims fun t m' => t.MayAsk m' victims := by
  unfold answered
  cases t with
  | cleanup c => exact minds_after (Cleanup.heeds_answered failure) fun _ m' _ => minds_pure trivial
  | waitIdle n w => exact minds_pure trivial
  | prior t => exact minds_after (Teardown.heeds_answered failure) fun _ m' _ => minds_pure trivial
  | free t => exact minds_after (Teardown.heeds_answered failure) fun _ m' _ => minds_pure trivial
  | cancel v last =>
    exact (VictimCancel.minds_answered may failure).bind fun v m' _ later => minds_pure later

theorem minds_pressed (may : t.MayAsk m victims) (step : Escalation) (failure : Option LockError) :
    (t.pressed step failure).Minds m victims fun t m' => t.MayAsk m' victims := by
  unfold pressed
  cases t with
  | prior t =>
    exact minds_after (Teardown.heeds_pressed step failure) fun _ m' _ => minds_pure trivial
  | free t =>
    exact minds_after (Teardown.heeds_pressed step failure) fun _ m' _ => minds_pure trivial
  | _ => exact minds_pure may

theorem heeds_abandon : t.abandon.Preserves (Heeds victims) := by
  unfold abandon
  cases t with
  | cleanup c => exact Cleanup.heeds_abandon
  | waitIdle n w => exact preserves_pure _
  | prior t => exact Teardown.heeds_abandon
  | free t => exact Teardown.heeds_abandon
  | cancel v last => exact VictimCancel.heeds_abandon

theorem mayAsk_next {turn : Step} (leads : turn.Leads (·.MayAsk m victims) True) :
    ∀ t ∈ turn.next?, t.MayAsk m victims := by
  cases turn with
  | returns answer => exact nofun
  | _ =>
    rintro t ⟨⟩
    exact leads

end Task

end Lockspace
