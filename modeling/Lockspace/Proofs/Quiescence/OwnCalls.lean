import Lockspace.Proofs.Quiescence.Calls
import Lockspace.Proofs.Sequential.Tasks
import Lockspace.Proofs.TeardownFrames

namespace Lockspace

open Manager Act

/-- What an operation holds on to after a turn. Once it has returned, that is nothing. -/
def Turn.held {σ α : Type} (held : σ → List ResourceRef) : Turn σ α → List ResourceRef
  | goes next => held next
  | asks _ next => held next
  | parks _ next => held next
  | returns _ => []

theorem Turn.held_map {σ τ α : Type} (f : σ → τ) (held : τ → List ResourceRef) (turn : Turn σ α) :
    (turn.map f).held held = turn.held fun next => held (f next) := by
  cases turn <;> rfl

theorem Stakes.beside_nil (has : Stakes) : has.beside ↑([] : List ResourceRef) = has := by
  rw [beside, Multiset.coe_nil, zero_add]

namespace Act

variable {α β : Type} {m : Manager} {has has' : Stakes} {l : LockKey} {n : SpaceKey}

/-- What an action does, if it returns, are calls, and its answer tells what its callers then
have. -/
def Makes (act : Act α) (m : Manager) (has : Stakes) (has' : α → Stakes) : Prop :=
  act.Ends m (fun _ => True) fun a m' => Calls (m, has) (m', has' a)

theorem makes_pure {a : α} {after : α → Stakes} (same : after a = has) :
    (pure a : Act α).Makes m has after := by
  unfold Makes
  rw [ends_pure, same]
  exact .refl

theorem Makes.bind {act : Act α} {next : α → Act β} {mid : α → Stakes} {after : β → Stakes}
    (first : act.Makes m has mid) (rest : ∀ a m', (next a).Makes m' (mid a) after) :
    (act >>= next).Makes m has after := by
  unfold Makes
  rw [ends_bind]
  exact Ends.imp first fun a m₁ calls => (rest a m₁).imp fun _ _ more => calls.trans more

theorem makes_call {act : Act α} {after : α → Stakes}
    (call : ∀ a m', act m = .ok a m' → Call m has m' (after a)) : act.Makes m has after := by
  unfold Makes
  cases run : act m with
  | ok a m' => exact ends_of_run run (.single (call a m' run))
  | error fault m' =>
    unfold Ends
    rw [run]
    trivial

theorem makes_harmless {act : Act α} (harmless : act.Preserves Harmless) :
    act.Makes m has fun _ => has :=
  (harmless m).ends.imp fun _ _ same => .aside same

theorem makes_space {next : Namespace → Act β} {after : β → Stakes}
    (rest : (next (m.space n)).Makes m has after) : (Act.space n >>= next).Makes m has after :=
  ends_bind.mpr (ends_space.mpr rest)

theorem harmless_log (level : Level) (text : String) : (log level text).Preserves Harmless :=
  fun _ => .of_eq rfl rfl fun _ => rfl

theorem harmless_note (call : Callback) : (note call).Preserves Harmless :=
  fun _ => .of_eq rfl rfl fun _ => rfl

theorem harmless_modifyLock {f : Lock → Lock} (bound : ∀ lk, (f lk).bound = lk.bound) :
    (modifyLock l f).Preserves Harmless :=
  fun _ => .modifyLock (bound _)

theorem makes_disown : (disown l).Makes m has fun _ => has :=
  makes_call fun _ _ run => .disown run

theorem harmless_lockUnused {n : SpaceKey} {l : LockKey} :
    (lockUnused n l).Preserves Harmless :=
  preserves_lockUnused (fun _ _ => .modifySpace rfl rfl rfl rfl)
    (fun _ => .of_eq rfl rfl fun _ => rfl) fun _ _ => .modifyLock rfl

/-- Who drops references has them no longer. -/
theorem makes_putAll (refs : List ResourceRef) :
    (putAll refs).Makes m (has.beside ↑refs) fun _ => has := by
  induction refs generalizing m with
  | nil =>
    refine makes_pure ?_
    exact has.beside_nil.symm
  | cons r rest ih =>
    have drop : (discard (Act.put r) : Act Unit).Makes m (has.beside ↑(r :: rest)) fun _ =>
        has.beside ↑rest := by
      have put : (Act.put r).Makes m (has.beside ↑(r :: rest)) fun _ => has.beside ↑rest :=
        makes_call fun gone m' run => .put (Multiset.cons_add r ↑rest has.hands) run
      unfold Makes at put ⊢
      rwa [ends_discard]
    show (discard (Act.put r) >>= fun _ => putAll rest : Act Unit).Makes m _ _
    exact drop.bind fun _ m' => ih

end Act

namespace Cleanup

variable {policy : LockPolicy} {n : SpaceKey} {l : LockKey} {r : ResourceRef} {q : Queue}
  {c : Cleanup} {m : Manager} {has has' : Stakes}

/-- The lock that the next turn visits, if it visits one, marked and held. -/
def next? (c : Cleanup) : Act (Option LockKey) := do
  match c.todo with
  | [] => return none
  | (r, q) :: _ =>
    match ← pick? r q c.flags with
    | none => return none
    | some l =>
      Act.own l
      return some l

/-- What the policy is told to do about a lock that is visited. -/
def consult (policy : LockPolicy) (n : SpaceKey) (flags : LockFlags) (l : LockKey) : Act Unit := do
  if flags.contains .localOnly && (← Act.lock l).hasHolders then
    Act.complete policy n l .failed
  else
    Act.cancelLocal policy n l

/-- What the policy does about the lock that the next turn visits are calls, which lead its callers
from what they have to what they then have. A turn without such a lock gives and takes nothing. -/
def Lawful (c : Cleanup) (policy : LockPolicy) (m : Manager) (has has' : Stakes) : Prop :=
  c.next?.Ends m (fun _ => True) fun visited m₁ =>
    match visited with
    | none => has' = has
    | some l => (consult policy c.space c.flags l).Makes m₁ has fun _ => has'

theorem turn_of_cons {rest : List (ResourceRef × Queue)} (todo : c.todo = (r, q) :: rest) :
    c.turn policy = (do
      match ← c.next? with
      | none => return .goes { c with todo := rest }
      | some l =>
        if ← treat policy c.space c.flags l then
          Act.askPeer c.space l c.flags 0
          return .asks l { c with cleaned := c.cleaned + 1, asking := some l }
        Act.disown l
        return .goes { c with cleaned := c.cleaned + 1 }) := by
  unfold turn next?
  simp only [todo, bind_assoc]
  congr 1
  funext picked
  cases picked with
  | none => rfl
  | some l => simp only [bind_assoc, pure_bind]

theorem harmless_next? : c.next?.Preserves Harmless := by
  have marks : ∀ l, (modifyLock l (·.setFlags (visitFlags c.flags))).Preserves Harmless :=
    fun _ => harmless_modifyLock fun _ => rfl
  have owns : ∀ l, (Act.own l).Preserves Harmless := fun _ => harmless_modifyLock fun _ => rfl
  unfold next?
  split
  · exact preserves_pure _
  · refine Preserves.bind (preserves_get.bind fun m => ?_) fun picked => ?_
    · split
      · exact preserves_pure _
      · exact (marks _).bind fun _ => preserves_pure _
    · split
      · exact preserves_pure _
      · exact (owns _).bind fun _ => preserves_pure _

/-- A drain takes a reference on every resource of a namespace. -/
theorem makes_start (built : n ∈ has.built) (flags : LockFlags) :
    (start n flags).Makes m has fun c => has.beside ↑c.held := by
  have lists : (Act.resources n).Makes m has fun refs => has.beside ↑refs :=
    makes_call fun _ _ run => .list built run
  exact lists.bind fun _ _ => makes_pure rfl

/-- Apart from what it asks of the policy, the treatment of a lock only notes something. -/
theorem makes_treat {flags : LockFlags}
    (consulted : (consult policy n flags l).Makes m has fun _ => has') :
    (treat policy n flags l).Makes m has fun _ => has' := by
  unfold consult at consulted
  unfold treat
  unfold Makes at consulted ⊢
  rw [ends_bind, ends_lock] at consulted ⊢
  split
  · rename_i spared
    rw [if_pos spared] at consulted
    rw [ends_bind]
    exact consulted.imp fun _ _ calls => ends_pure.mpr calls
  · rename_i taken
    rw [if_neg taken] at consulted
    rw [ends_bind]
    refine consulted.imp fun _ _ calls => ?_
    rwa [ends_bind, ends_space, ends_bind, ends_lock, ends_pure]

/-- Next to the calls of the policy, a turn makes calls of its own on what it holds on to. -/
theorem makes_turn (lawful : c.Lawful policy m has has') :
    (c.turn policy).Makes m (has.beside ↑c.held) fun turn =>
      has'.beside ↑(turn.held Cleanup.held) := by
  unfold Lawful at lawful
  cases todo : c.todo with
  | nil =>
    have same : has' = has := by
      rw [next?, todo, ends_pure] at lawful
      exact lawful
    subst same
    unfold turn
    rw [todo]
    have complains : (c.held.forM (complain c.space)).Preserves Harmless :=
      preserves_forM fun r _ => preserves_complain harmless_log r
    refine (makes_harmless complains).bind fun _ m₁ => ?_
    exact (makes_putAll c.held).bind fun _ m₂ => makes_pure (Stakes.beside_nil _)
  | cons visit rest =>
    obtain ⟨r, q⟩ := visit
    rw [turn_of_cons todo]
    unfold Makes
    rw [ends_bind]
    refine (lawful.and_leaves (harmless_next? m)).imp fun visited m₁ after => ?_
    obtain ⟨consulted, marked⟩ := after
    have before : Calls (m, has.beside ↑c.held) (m₁, has.beside ↑c.held) := .aside marked
    cases visited with
    | none =>
      cases consulted
      exact ends_pure.mpr before
    | some l =>
      rw [ends_bind]
      refine (makes_treat consulted).imp fun asks m₂ calls => ?_
      replace before := before.trans (calls.beside ↑c.held)
      split
      · rw [askPeer, ends_bind, ends_bind, ends_lock, ends_note]
        exact ends_pure.mpr (before.trans (Calls.aside (.of_eq rfl rfl fun _ => rfl)))
      · rw [ends_bind]
        exact (makes_disown (l := l)).imp fun _ _ more => ends_pure.mpr (before.trans more)

/-- The policy that destroys locks gives and takes nothing. -/
theorem lawful_default : c.Lawful .default m has has := by
  refine ends_always fun visited m₁ => ?_
  cases visited with
  | none => rfl
  | some l =>
    have destroys : ∀ m, (destroyLock c.space l).Makes m has fun _ => has :=
      fun _ => makes_call fun _ _ run => .destroy run
    show (consult .default c.space c.flags l).Makes m₁ has fun _ => has
    refine ends_bind.mpr (ends_lock.mpr ?_)
    split
    · exact ends_bind.mpr (ends_lock.mpr ((makes_harmless (harmless_note _)).bind fun _ => destroys))
    · exact ends_bind.mpr (ends_lock.mpr ((makes_harmless (harmless_note _)).bind fun _ => destroys))

theorem makes_answered (failure : Option LockError) :
    (c.answered l failure).Makes m (has.beside ↑c.held) fun next => has.beside ↑next.held := by
  have rest : ∀ (u : PUnit) (m₁ : Manager), (do
      Act.disown l
      return { c with asking := none } : Act Cleanup).Makes m₁ (has.beside ↑c.held) fun next =>
        has.beside ↑next.held :=
    fun _ _ => makes_disown.bind fun _ _ => makes_pure rfl
  unfold answered
  cases failure with
  | none => exact rest () m
  | some e =>
    refine ends_bind.mpr (ends_lock.mpr (makes_space ?_))
    exact (makes_harmless (harmless_log _ _)).bind rest

end Cleanup

namespace Drain

variable {policy : LockPolicy} {n : SpaceKey} {l : LockKey} {d : Drain} {m : Manager}
  {has has' : Stakes}

/-- What the policy is asked for in the next turn of a drain are calls. -/
def Lawful (d : Drain) (policy : LockPolicy) (m : Manager) (has has' : Stakes) : Prop :=
  match d.stage with
  | .cleaning c => c.Lawful policy m has has'
  | .waiting .. => has' = has

theorem lawful_default : d.Lawful .default m has has := by
  unfold Lawful
  split
  · exact Cleanup.lawful_default
  · rfl

theorem makes_start (built : n ∈ has.built) (force : Bool) :
    (start n force).Makes m has fun d => has.beside ↑d.held :=
  (Cleanup.makes_start built _).bind fun _ _ => makes_pure rfl

theorem makes_park (bound : Duration) :
    (d.park bound).Makes m has fun turn => has.beside ↑(turn.held held) := by
  refine makes_space ?_
  split
  · exact makes_pure has.beside_nil
  · exact makes_pure has.beside_nil

theorem makes_turn (lawful : d.Lawful policy m has has') :
    (d.turn policy).Makes m (has.beside ↑d.held) fun turn => has'.beside ↑(turn.held held) := by
  obtain ⟨n, force, stage⟩ := d
  cases stage with
  | cleaning c =>
    refine Makes.bind (Cleanup.makes_turn lawful) fun turn m₁ => ?_
    cases turn with
    | returns cleaned =>
      rw [Turn.held, Stakes.beside_nil]
      exact makes_space (makes_park _)
    | _ => exact makes_pure rfl
  | waiting w bound =>
    have same : has' = has := lawful
    subst same
    refine makes_space ?_
    split
    · exact makes_pure rfl
    · exact makes_pure rfl

theorem makes_expired :
    d.expired.Makes m (has.beside ↑d.held) fun turn => has.beside ↑(turn.held held) := by
  obtain ⟨n, force, stage⟩ := d
  cases stage with
  | cleaning c => exact makes_pure rfl
  | waiting w bound =>
    show Act.Makes _ m (has.beside ↑([] : List ResourceRef)) _
    rw [Stakes.beside_nil]
    refine makes_space ?_
    dsimp only
    split
    · exact (makes_harmless (harmless_log _ _)).bind fun _ m₁ => makes_park _
    · exact (makes_harmless (harmless_log _ _)).bind fun _ m₁ => makes_pure has.beside_nil

theorem makes_answered (failure : Option LockError) :
    (d.answered l failure).Makes m (has.beside ↑d.held) fun next => has.beside ↑next.held := by
  obtain ⟨n, force, stage⟩ := d
  cases stage with
  | cleaning c => exact Makes.bind (Cleanup.makes_answered failure) fun _ _ => makes_pure rfl
  | waiting w bound => exact makes_pure rfl

end Drain

namespace Teardown

variable {policy : LockPolicy} {n : SpaceKey} {l : LockKey} {t : Teardown} {m : Manager}
  {has has' : Stakes}

/-- What the policy is asked for in the next turn of a teardown are calls. -/
def Lawful (t : Teardown) (policy : LockPolicy) (m : Manager) (has has' : Stakes) : Prop :=
  match t.stage with
  | .draining d => d.Lawful policy m has has'
  | .escalating _ => has' = has
  | .retrying d => d.Lawful policy m has has'

theorem lawful_default : t.Lawful .default m has has := by
  unfold Lawful
  split
  · exact Drain.lawful_default
  · rfl
  · exact Drain.lawful_default

theorem makes_start (built : n ∈ has.built) (force hasImport : Bool) :
    (start n force hasImport).Makes m has fun t => has.beside ↑t.held := by
  have stops : (modifySpace n fun s => { s with stopping := true }).Preserves Harmless :=
    fun _ => .modifySpace rfl rfl rfl rfl
  exact (makes_harmless stops).bind fun _ m₁ => (Drain.makes_start built force).bind fun _ _ =>
    makes_pure rfl

theorem makes_afterFirst (turn : Turn Drain (Except LockError Unit)) :
    (t.afterFirst turn).Makes m (has.beside ↑(turn.held Drain.held)) fun turn =>
      has.beside ↑(turn.held held) := by
  unfold afterFirst
  split
  · rw [Turn.held, Stakes.beside_nil]
    split
    · exact makes_pure has.beside_nil
    · refine makes_space ((makes_harmless (harmless_log _ _)).bind fun _ m₁ => ?_)
      exact makes_pure has.beside_nil
  · refine makes_pure ?_
    rw [Turn.held_map]
    rfl

theorem makes_afterRetry (turn : Turn Drain (Except LockError Unit)) :
    (pure (t.afterRetry turn) : Act Step).Makes m (has.beside ↑(turn.held Drain.held)) fun turn =>
      has.beside ↑(turn.held held) := by
  refine makes_pure ?_
  rw [afterRetry, Turn.held_map]
  rfl

theorem makes_turn (lawful : t.Lawful policy m has has') :
    (t.turn policy).Makes m (has.beside ↑t.held) fun turn => has'.beside ↑(turn.held held) := by
  obtain ⟨n, hasImport, stage⟩ := t
  cases stage with
  | draining d => exact Makes.bind (Drain.makes_turn lawful) fun turn _ => makes_afterFirst turn
  | escalating step =>
    have same : has' = has := lawful
    subst same
    exact makes_pure rfl
  | retrying d => exact Makes.bind (Drain.makes_turn lawful) fun turn _ => makes_afterRetry turn

theorem makes_expired :
    t.expired.Makes m (has.beside ↑t.held) fun turn => has.beside ↑(turn.held held) := by
  obtain ⟨n, hasImport, stage⟩ := t
  cases stage with
  | draining d => exact Makes.bind Drain.makes_expired fun turn _ => makes_afterFirst turn
  | escalating step => exact makes_pure rfl
  | retrying d => exact Makes.bind Drain.makes_expired fun turn _ => makes_afterRetry turn

theorem makes_answered (failure : Option LockError) :
    (t.answered l failure).Makes m (has.beside ↑t.held) fun next => has.beside ↑next.held := by
  obtain ⟨n, hasImport, stage⟩ := t
  cases stage with
  | draining d => exact Makes.bind (Drain.makes_answered failure) fun _ _ => makes_pure rfl
  | escalating step => exact makes_pure rfl
  | retrying d => exact Makes.bind (Drain.makes_answered failure) fun _ _ => makes_pure rfl

theorem makes_press (step : Escalation) : (t.press step).Makes m has fun _ => has := by
  cases step with
  | disconnect => exact makes_harmless (harmless_note _)
  | invalidate => exact makes_harmless (harmless_note _)

theorem makes_pressed (built : t.space ∈ has.built) (step : Escalation)
    (failure : Option LockError) :
    (t.pressed step failure).Makes m has fun next => has.beside ↑next.held := by
  unfold pressed
  cases failure with
  | none =>
    cases step with
    | disconnect => exact makes_pure has.beside_nil
    | invalidate => exact (Drain.makes_start built true).bind fun _ _ => makes_pure rfl
  | some e =>
    refine makes_space ((makes_harmless (harmless_log _ _)).bind fun _ m₁ => ?_)
    cases step with
    | disconnect => exact makes_pure has.beside_nil
    | invalidate => exact (Drain.makes_start built true).bind fun _ _ => makes_pure rfl

end Teardown

end Lockspace
