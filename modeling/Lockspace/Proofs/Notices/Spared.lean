import Lockspace.Proofs.InwardActs
import Lockspace.Proofs.TeardownFrames
import Lockspace.Waiting.Task

namespace Lockspace

open Manager Act

/-- A policy that asks no peer about locks on its own, nor changes sides. -/
structure LockPolicy.Discreet (policy : LockPolicy) : Prop where
  completion : ∀ n l flags, (policy.completion n l flags).Preserves Unheard
  cancelLocal : ∀ n l, (policy.cancelLocal n l).Preserves Unheard

theorem LockPolicy.discreet_default : LockPolicy.default.Discreet where
  completion n l flags := by
    show (if _ then _ else _ : Act Unit).Preserves Unheard
    split
    · exact inward_destroyLock.mono fun _ _ => Inward.toUnheard
    · exact preserves_pure ()
  cancelLocal _ _ := inward_destroyLock.mono fun _ _ => Inward.toUnheard

/-- Whether a peer may hear of a lock. Only clients ask, and the lock is not flagged as a local
matter, unless it is one of some victims whose cancellation is not flagged so. -/
def Callback.Spares (m : Manager) (victims : List LockKey) : Callback → Prop
  | peerCancel n l arg flags _ => (m.space n).isClient ∧
      (flags.contains .localOnly = false ∨ l ∈ victims ∧ arg.contains .localOnly = false)
  | _ => True

theorem Callback.Spares.mono {m : Manager} {victims more : List LockKey} {call : Callback}
    (spares : call.Spares m victims) (wider : victims ⊆ more) : call.Spares m more := by
  cases call with
  | peerCancel n l arg flags inflight =>
    exact ⟨spares.1, spares.2.imp id fun ⟨victim, told⟩ => ⟨wider victim, told⟩⟩
  | _ => trivial

namespace Manager

/-- No namespace changes its side, and every new question to a peer is one that may be asked. -/
structure Heeds (victims : List LockKey) (m m' : Manager) : Prop where
  side : ∀ n, (m'.space n).side = (m.space n).side
  calls : ∀ call ∈ m'.peerCalls, call ∈ m.peerCalls ∨ call.Spares m victims

variable {victims : List LockKey} {m m' m'' : Manager}

theorem isClient_congr (side : ∀ n, (m'.space n).side = (m.space n).side) (n : SpaceKey) :
    (m'.space n).isClient = (m.space n).isClient :=
  congrArg Side.isClient (side n)

theorem spares_congr (side : ∀ n, (m'.space n).side = (m.space n).side) {call : Callback} :
    call.Spares m' victims ↔ call.Spares m victims := by
  cases call with
  | peerCancel n l arg flags inflight =>
    simp only [Callback.Spares, isClient_congr side]
  | _ => rfl

theorem Unheard.heeds (unheard : Unheard m m') : Heeds victims m m' where
  side := unheard.side
  calls call member := by
    rw [unheard.calls] at member
    exact Or.inl member

/-- What the peers have heard stays something that they may hear. -/
theorem Heeds.spared (heeds : Heeds victims m m')
    (spared : ∀ call ∈ m.peerCalls, call.Spares m victims) :
    ∀ call ∈ m'.peerCalls, call.Spares m' victims := by
  intro call member
  rw [spares_congr heeds.side]
  exact (heeds.calls call member).elim (spared call) id

theorem Heeds.trans (first : Heeds victims m m') (second : Heeds victims m' m'') :
    Heeds victims m m'' where
  side n := (second.side n).trans (first.side n)
  calls call member := by
    rcases second.calls call member with old | may
    · exact first.calls call old
    · exact Or.inr ((spares_congr first.side).mp may)

instance : IsPreorder Manager (Heeds victims) where
  refl _ := Unheard.rfl.heeds
  trans _ _ _ := .trans

end Manager

namespace Act

variable {α : Type} {n : SpaceKey} {l : LockKey} {victims : List LockKey} {m : Manager}

theorem heeds_of_unheard {act : Act α} (unheard : act.Preserves Unheard) :
    act.Preserves (Heeds victims) :=
  unheard.mono fun _ _ => Unheard.heeds

theorem heeds_of_steady {act : Act α} (steady : act.Preserves Steady) :
    act.Preserves (Heeds victims) :=
  heeds_of_unheard (unheard_of_steady steady)

theorem unheard_modifyLock (f : Lock → Lock) : (modifyLock l f).Preserves Unheard :=
  (inward_modifyLock f).mono fun _ _ => Inward.toUnheard

/-- A question that may be asked. -/
theorem heeds_askPeer {arg : LockFlags} {others : Nat} (client : (m.space n).isClient)
    (may : (m.lock l).flags.contains .localOnly = false ∨
      l ∈ victims ∧ arg.contains .localOnly = false) :
    (askPeer n l arg others).Leaves m fun _ m' => Heeds victims m m' := by
  refine leaves_after (run_lock l m) ⟨fun _ => rfl, fun call member => ?_⟩
  rw [peerCalls, Array.filter_push] at member
  rcases Array.mem_push.mp member with old | rfl
  · exact Or.inl old
  · exact Or.inr ⟨client, may⟩

end Act

variable {policy : LockPolicy} {victims : List LockKey} {m : Manager} {n : SpaceKey} {l : LockKey}

theorem LockPolicy.Discreet.unheard_complete (discreet : policy.Discreet) (flags : LockFlags) :
    (complete policy n l flags).Preserves Unheard := by
  refine preserves_lock.bind fun lk => Preserves.bind ?_ fun _ => discreet.completion n l flags
  exact unheard_of_steady (steady_note rfl)

theorem LockPolicy.Discreet.unheard_cancelLocal (discreet : policy.Discreet) :
    (Act.cancelLocal policy n l).Preserves Unheard := by
  refine preserves_lock.bind fun lk => Preserves.bind ?_ fun _ => discreet.cancelLocal n l
  exact unheard_of_steady (steady_note rfl)

namespace Cleanup

variable {c : Cleanup}

theorem heeds_start (flags : LockFlags) : (start n flags).Preserves (Heeds victims) :=
  (heeds_of_steady steady_resources).bind fun _ => preserves_pure _

theorem unheard_pick? (r : ResourceRef) (q : Queue) (flags : LockFlags) :
    (pick? r q flags).Preserves Unheard := by
  refine preserves_get.bind fun m => ?_
  split
  · exact preserves_pure _
  · exact (unheard_modifyLock _).bind fun _ => preserves_pure _

/-- The peer only has to hear of a lock that is not flagged as a local matter, from a client. -/
theorem leaves_treat_of_discreet (discreet : policy.Discreet) (flags : LockFlags) :
    (treat policy n flags l).Leaves m fun answer m' => Unheard m m' ∧
      (answer = .ok true → (m'.space n).isClient ∧
        (m'.lock l).flags.contains .localOnly = false) := by
  unfold treat
  refine leaves_after (run_lock l m) ?_
  split
  · exact (discreet.unheard_complete .failed m).bind (fun _ _ still => ⟨still, nofun⟩)
      fun _ _ still => ⟨still, nofun⟩
  · refine (discreet.unheard_cancelLocal m).bind (fun _ m' still => ?_)
      fun _ _ still => ⟨still, nofun⟩
    refine leaves_after (run_space n m') (leaves_after (run_lock l m') ⟨still, fun told => ?_⟩)
    simp only [Except.ok.injEq, Bool.and_eq_true, Bool.not_eq_true'] at told
    exact ⟨told.1.1, told.2⟩

theorem heeds_turn (discreet : policy.Discreet) : (c.turn policy).Preserves (Heeds victims) := by
  unfold turn
  split
  · have complains (r : ResourceRef) : (complain c.space r).Preserves Steady :=
      preserves_complain steady_log r
    refine Preserves.bind (preserves_forM fun r _ => heeds_of_steady (complains r)) fun _ => ?_
    exact (heeds_of_steady (steady_putAll _)).bind fun _ => preserves_pure _
  · rename_i r q rest _
    refine (heeds_of_unheard (unheard_pick? r q c.flags)).bind fun picked => ?_
    cases picked with
    | none => exact preserves_pure _
    | some l =>
      refine (heeds_of_steady steady_own).bind fun _ => fun m => ?_
      refine (leaves_treat_of_discreet discreet c.flags).bind (fun asks m₁ after => ?_)
        fun _ _ after => after.1.heeds
      obtain ⟨still, tells⟩ := after
      cases asks with
      | true =>
        obtain ⟨client, flagged⟩ := tells rfl
        exact (heeds_askPeer client (Or.inl flagged)).bind
          (fun _ _ after => still.heeds.trans after) fun _ _ after => still.heeds.trans after
      | false =>
        have disowned : (disown l).Preserves (Heeds victims) := heeds_of_steady steady_disown
        exact (disowned m₁).bind (fun _ _ after => still.heeds.trans after)
          fun _ _ after => still.heeds.trans after

theorem heeds_answered (failure : Option LockError) :
    (c.answered l failure).Preserves (Heeds victims) := by
  have rest : ∀ u : PUnit, (do
      disown l
      return { c with asking := none } : Act Cleanup).Preserves (Heeds victims) :=
    fun _ => (heeds_of_steady steady_disown).bind fun _ => preserves_pure _
  unfold answered
  cases failure with
  | none => exact rest ()
  | some e =>
    refine preserves_lock.bind fun lk => preserves_space.bind fun s => ?_
    exact (heeds_of_steady (steady_log _ _)).bind rest

theorem heeds_abandon : c.abandon.Preserves (Heeds victims) := by
  unfold abandon
  cases c.asking with
  | none => exact heeds_of_steady (steady_putAll _)
  | some l =>
    exact (heeds_of_steady steady_disown).bind fun _ => heeds_of_steady (steady_putAll _)

end Cleanup

theorem Act.heeds_log (level : Level) (text : String) :
    (log level text).Preserves (Heeds victims) :=
  heeds_of_steady (steady_log level text)

namespace Teardown

variable {t : Teardown}

theorem heeds_start (force hasImport : Bool) :
    (start n force hasImport).Preserves (Heeds victims) := by
  refine inherits_start law_preserves (heeds_of_unheard (unheard_modifySpace ?_))
    Cleanup.heeds_start force hasImport
  exact fun _ => rfl

theorem heeds_turn (discreet : policy.Discreet) : (t.turn policy).Preserves (Heeds victims) :=
  inherits_turn law_preserves heeds_log fun _ => Cleanup.heeds_turn discreet

theorem heeds_expired : t.expired.Preserves (Heeds victims) :=
  inherits_expired law_preserves heeds_log

theorem heeds_pressed (step : Escalation) (failure : Option LockError) :
    (t.pressed step failure).Preserves (Heeds victims) :=
  inherits_pressed law_preserves heeds_log Cleanup.heeds_start step

theorem heeds_answered (failure : Option LockError) :
    (t.answered l failure).Preserves (Heeds victims) :=
  inherits_answered law_preserves fun _ => Cleanup.heeds_answered failure

theorem heeds_abandon : t.abandon.Preserves (Heeds victims) :=
  inherits_abandon law_preserves fun _ => Cleanup.heeds_abandon

theorem heeds_free : (Teardown.free n).Preserves (Heeds victims) := by
  refine (heeds_of_unheard unheard_freePost).bind fun freed => ?_
  split
  · exact preserves_pure _
  · refine preserves_space.bind fun s => ?_
    split
    · exact preserves_pure _
    · exact preserves_pure _

end Teardown

end Lockspace
