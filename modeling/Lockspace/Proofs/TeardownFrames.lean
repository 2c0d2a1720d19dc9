import Lockspace.Proofs.LockFrames
import Lockspace.Waiting.Teardown

namespace Lockspace

open Act

/-- A property of actions that a sequence inherits from its parts, and that an action has which only
looks at a namespace. -/
structure Act.Law (P : (α : Type) → Act α → Prop) : Prop where
  pure : ∀ {α : Type} (a : α), P α (pure a)
  bind : ∀ {α β : Type} {act : Act α} {next : α → Act β}, P α act → (∀ a, P β (next a)) →
    P β (act >>= next)
  space : ∀ n, P Namespace (space n)

theorem Act.law_preserves {R : Manager → Manager → Prop} [IsPreorder Manager R] :
    Law fun _ act => act.Preserves R :=
  ⟨preserves_pure, Preserves.bind, fun _ => preserves_space⟩

section Parts

variable {P : (α : Type) → Act α → Prop} (law : Law P) {policy : LockPolicy} {n : SpaceKey}
  {l : LockKey} {failure : Option LockError}

include law

namespace Drain

variable {d : Drain}

theorem inherits_start (lists : ∀ flags, P _ (Cleanup.start n flags)) (force : Bool) :
    P _ (start n force) :=
  law.bind (lists _) fun _ => law.pure _

theorem inherits_park (bound : Duration) : P _ (d.park bound) := by
  refine law.bind (law.space _) fun s => ?_
  split
  · exact law.pure _
  · exact law.pure _

/-- A drain does nothing but what the emptying of the queues does. -/
theorem inherits_turn (cleans : ∀ c : Cleanup, P _ (c.turn policy)) : P _ (d.turn policy) := by
  unfold turn
  split
  · refine law.bind (cleans _) fun turn => ?_
    cases turn with
    | returns cleaned => exact law.bind (law.space _) fun s => inherits_park law _
    | _ => exact law.pure _
  · refine law.bind (law.space _) fun s => ?_
    split
    · exact law.pure _
    · exact law.pure _

theorem inherits_expired (logs : ∀ level text, P _ (log level text)) : P _ d.expired := by
  unfold expired
  split
  · exact law.pure _
  · refine law.bind (law.space _) fun s => ?_
    dsimp only
    split
    · exact law.bind (logs _ _) fun _ => inherits_park law _
    · exact law.bind (logs _ _) fun _ => law.pure _

theorem inherits_answered (hears : ∀ c : Cleanup, P _ (c.answered l failure)) :
    P _ (d.answered l failure) := by
  unfold answered
  split
  · exact law.bind (hears _) fun _ => law.pure _
  · exact law.pure _

theorem inherits_abandon (abandons : ∀ c : Cleanup, P _ c.abandon) : P _ d.abandon := by
  unfold abandon
  split
  · exact abandons _
  · exact law.pure _

end Drain

namespace Teardown

variable {t : Teardown}

theorem inherits_start (stops : P _ (modifySpace n fun s => { s with stopping := true }))
    (lists : ∀ flags, P _ (Cleanup.start n flags)) (force hasImport : Bool) :
    P _ (start n force hasImport) :=
  law.bind stops fun _ => law.bind (Drain.inherits_start law lists force) fun _ => law.pure _

theorem inherits_afterFirst (logs : ∀ level text, P _ (log level text))
    (turn : Turn Drain (Except LockError Unit)) : P _ (t.afterFirst turn) := by
  unfold afterFirst
  split
  · split
    · exact law.pure _
    · refine law.bind (law.space _) fun s => ?_
      exact law.bind (logs _ _) fun _ => law.pure _
  · exact law.pure _

/-- A teardown does what its drains do, and logs. -/
theorem inherits_turn (logs : ∀ level text, P _ (log level text))
    (cleans : ∀ c : Cleanup, P _ (c.turn policy)) : P _ (t.turn policy) := by
  unfold turn
  split
  · exact law.bind (Drain.inherits_turn law cleans) fun turn => inherits_afterFirst law logs turn
  · exact law.pure _
  · exact law.bind (Drain.inherits_turn law cleans) fun _ => law.pure _

theorem inherits_expired (logs : ∀ level text, P _ (log level text)) : P _ t.expired := by
  unfold expired
  split
  · exact law.bind (Drain.inherits_expired law logs) fun turn => inherits_afterFirst law logs turn
  · exact law.pure _
  · exact law.bind (Drain.inherits_expired law logs) fun _ => law.pure _

theorem inherits_pressed (logs : ∀ level text, P _ (log level text))
    (lists : ∀ flags, P _ (Cleanup.start t.space flags)) (step : Escalation) :
    P _ (t.pressed step failure) := by
  unfold pressed
  cases step with
  | disconnect =>
    cases failure with
    | none => exact law.pure _
    | some e => exact law.bind (law.space _) fun s => law.bind (logs _ _) fun _ => law.pure _
  | invalidate =>
    have forced : P _ (do
        return { t with stage := .retrying (← Drain.start t.space true) } : Act Teardown) :=
      law.bind (Drain.inherits_start law lists true) fun _ => law.pure _
    cases failure with
    | none => exact forced
    | some e => exact law.bind (law.space _) fun s => law.bind (logs _ _) fun _ => forced

theorem inherits_answered (hears : ∀ c : Cleanup, P _ (c.answered l failure)) :
    P _ (t.answered l failure) := by
  unfold answered
  split
  · exact law.bind (Drain.inherits_answered law hears) fun _ => law.pure _
  · exact law.pure _
  · exact law.bind (Drain.inherits_answered law hears) fun _ => law.pure _

theorem inherits_abandon (abandons : ∀ c : Cleanup, P _ c.abandon) : P _ t.abandon := by
  unfold abandon
  split
  · exact Drain.inherits_abandon law abandons
  · exact Drain.inherits_abandon law abandons
  · exact law.pure _

end Teardown

end Parts

/-- A policy whose callbacks keep to a relation between states. -/
structure LockPolicy.Keeps (policy : LockPolicy) (R : Manager → Manager → Prop) : Prop where
  completion : ∀ n l flags, (policy.completion n l flags).Preserves R
  cancelLocal : ∀ n l, (policy.cancelLocal n l).Preserves R

theorem LockPolicy.Keeps.mono {policy : LockPolicy} {R S : Manager → Manager → Prop}
    (keeps : policy.Keeps R) (weaker : ∀ m m', R m m' → S m m') : policy.Keeps S where
  completion n l flags := (keeps.completion n l flags).mono weaker
  cancelLocal n l := (keeps.cancelLocal n l).mono weaker

/-- Whether a call tells of a resource or its bucket. -/
def Callback.isResource : Callback → Bool
  | resource .. => true
  | _ => false

/-- The parts of the teardown of a namespace, but for the callbacks, keep to a relation between
states. -/
structure TearsWithin (R : Manager → Manager → Prop) : Prop where
  drops : DropsWithin R
  lists : ∀ n, (Act.resources n).Preserves R
  flagged : ∀ l flags, (modifyLock l (·.setFlags flags)).Preserves R
  stopped : ∀ n, (modifySpace n fun s => { s with stopping := true }).Preserves R
  noted : ∀ call : Callback, call.isResource = false → (note call).Preserves R
  logged : ∀ level text, (log level text).Preserves R

/-- A complaint about a resource only logs. -/
theorem Cleanup.preserves_complain {R : Manager → Manager → Prop} [IsPreorder Manager R]
    {n : SpaceKey} (logged : ∀ level text, (log level text).Preserves R) (r : ResourceRef) :
    (complain n r).Preserves R := by
  refine preserves_resource.bind fun res => ?_
  split
  · refine preserves_space.bind fun s => (logged _ _).bind fun _ => ?_
    exact preserves_get.bind fun _ => preserves_forM fun line _ => logged .error line.text
  · exact preserves_pure _

section Frames

variable {R : Manager → Manager → Prop} [IsPreorder Manager R] {policy : LockPolicy} {n : SpaceKey}
  {l : LockKey} (within : TearsWithin R)

namespace Cleanup

variable {c : Cleanup}

include within

theorem keeps_start (flags : LockFlags) : (start n flags).Preserves R :=
  (within.lists n).bind fun _ => preserves_pure _

theorem keeps_pick? (r : ResourceRef) (q : Queue) (flags : LockFlags) :
    (pick? r q flags).Preserves R := by
  refine preserves_get.bind fun m => ?_
  split
  · exact preserves_pure _
  · exact (within.flagged _ _).bind fun _ => preserves_pure _

theorem keeps_complete (keeps : policy.Keeps R) (flags : LockFlags) :
    (complete policy n l flags).Preserves R :=
  preserves_lock.bind fun _ => (within.noted _ rfl).bind fun _ => keeps.completion n l flags

theorem keeps_cancelLocal (keeps : policy.Keeps R) : (cancelLocal policy n l).Preserves R :=
  preserves_lock.bind fun _ => (within.noted _ rfl).bind fun _ => keeps.cancelLocal n l

theorem keeps_treat (keeps : policy.Keeps R) (flags : LockFlags) :
    (treat policy n flags l).Preserves R := by
  refine preserves_lock.bind fun lk => ?_
  split
  · exact (keeps_complete within keeps _).bind fun _ => preserves_pure _
  · exact (keeps_cancelLocal within keeps).bind fun _ => preserves_space.bind fun s =>
      preserves_lock.bind fun lk => preserves_pure _

/-- A drain of the queues keeps to what the callbacks keep to. -/
theorem keeps_turn (keeps : policy.Keeps R) : (c.turn policy).Preserves R := by
  unfold turn
  split
  · refine Preserves.bind (preserves_forM fun r _ => preserves_complain within.logged r) fun _ => ?_
    exact (within.drops.putAll _).bind fun _ => preserves_pure _
  · rename_i r q rest _
    refine (keeps_pick? within r q c.flags).bind fun picked => ?_
    cases picked with
    | none => exact preserves_pure _
    | some l =>
      refine (within.drops.own l).bind fun _ => (keeps_treat within keeps _).bind fun asks => ?_
      split
      · refine Preserves.bind ?_ fun _ => preserves_pure _
        exact preserves_lock.bind fun lk => within.noted _ rfl
      · exact (within.drops.disown l).bind fun _ => preserves_pure _

theorem keeps_abandon : c.abandon.Preserves R := by
  unfold abandon
  cases c.asking with
  | none => exact within.drops.putAll _
  | some l => exact (within.drops.disown l).bind fun _ => within.drops.putAll _

theorem keeps_answered (failure : Option LockError) : (c.answered l failure).Preserves R := by
  have rest : ∀ u : PUnit, (do
      disown l
      return { c with asking := none } : Act Cleanup).Preserves R :=
    fun _ => (within.drops.disown l).bind fun _ => preserves_pure _
  unfold answered
  cases failure with
  | none => exact rest ()
  | some e =>
    exact preserves_lock.bind fun lk => preserves_space.bind fun s =>
      (within.logged _ _).bind rest

end Cleanup

namespace Teardown

variable {t : Teardown}

include within

theorem keeps_start (force hasImport : Bool) : (start n force hasImport).Preserves R :=
  inherits_start law_preserves (within.stopped n) (Cleanup.keeps_start within) force hasImport

theorem keeps_turn (keeps : policy.Keeps R) : (t.turn policy).Preserves R :=
  inherits_turn law_preserves within.logged fun _ => Cleanup.keeps_turn within keeps

theorem keeps_expired : t.expired.Preserves R :=
  inherits_expired law_preserves within.logged

theorem keeps_pressed (step : Escalation) (failure : Option LockError) :
    (t.pressed step failure).Preserves R :=
  inherits_pressed law_preserves within.logged (Cleanup.keeps_start within) step

theorem keeps_answered (failure : Option LockError) : (t.answered l failure).Preserves R :=
  inherits_answered law_preserves fun _ => Cleanup.keeps_answered within failure

end Teardown

end Frames

end Lockspace
