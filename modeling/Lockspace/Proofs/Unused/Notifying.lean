import Lockspace.Proofs.Unused.ConnectFlags
import Lockspace.Proofs.Unused.Marking

namespace Lockspace

open Manager Act

/-- A call to the peer of a namespace to cancel a lock, one of so many in progress at most. -/
def Callback.Asks (n : SpaceKey) (flags : LockFlags) (bound : Nat) (l : LockKey) (call : Callback) :
    Prop :=
  ∃ word inflight, call = .peerCancel n l flags word inflight ∧ inflight ≤ bound

/-- The locks that the peer has been asked about and that it has not answered yet. -/
def Task.asking : Task → List LockKey
  | .cancel v _ => v.asking
  | _ => []

/-- The runs of a namespace from its setup, in which its settings change and locks become unused.
Whatever else happens leaves the number of calls in progress as it is set, and only takes locks off
the unused ones. -/
inductive Configured (n : SpaceKey) : Manager → Prop
  | built {setup : Setup} {m₀ m : Manager} (run : build setup m₀ = .ok (.ok n) m) : Configured n m
  | set {m : Manager} {setting : Tunable} {s : Namespace} (reach : Configured n m)
      (run : (m.space n).tune setting = .ok s) : Configured n (m.modifySpace n fun _ => s)
  | unused {m m' : Manager} {l : LockKey} {added : Bool} (reach : Configured n m)
      (run : lockUnused n l m = .ok added m') : Configured n m'
  | other {m m' : Manager} (reach : Configured n m)
      (same : (m'.space n).config.maxParallelAst = (m.space n).config.maxParallelAst)
      (unused : UnusedLru.Thins (fun _ => True) (m.space n).lru (m'.space n).lru) :
      Configured n m'

/-- The runs of a cancellation of unused locks from its start, with the number of calls that the
settings allowed when the calls could start, the calls about locks that it has made, and the locks
about which the peer has answered, in whatever order and with whatever result. Anything may happen in
between. -/
inductive Notifying (policy : LockPolicy) (n : SpaceKey) (flags : LockFlags) (before : Manager) :
    Nat → Manager → Task → List Callback → List LockKey → Prop
  | begun {m : Manager} {u : Undertaking} {t : Task} {made : List Callback}
      (cancels : u.Cancels n flags) (run : u.begin policy before = .ok t m)
      (calls : m.lockCalls = before.lockCalls ++ made) :
      Notifying policy n flags before (m.space n).config.maxParallelAst.toNat m t made []
  | turned {bound : Nat} {m m' : Manager} {t t' : Task} {turn : Task.Step} {made more : List Callback}
      {ended : List LockKey} (reach : Notifying policy n flags before bound m t made ended)
      (run : t.turn policy m = .ok turn m') (goes : turn.next? = some t')
      (calls : m'.lockCalls = m.lockCalls ++ more) :
      Notifying policy n flags before bound m' t' (made ++ more) ended
  | answered {bound : Nat} {m m' : Manager} {t t' : Task} {made more : List Callback}
      {ended : List LockKey} {l : LockKey} {failure : Option LockError}
      (reach : Notifying policy n flags before bound m t made ended) (asked : l ∈ t.asking)
      (run : t.answered l failure m = .ok t' m') (calls : m'.lockCalls = m.lockCalls ++ more) :
      Notifying policy n flags before bound m' t' (made ++ more) (ended ++ [l])
  | other {bound : Nat} {m m' : Manager} {t : Task} {made : List Callback} {ended : List LockKey}
      (reach : Notifying policy n flags before bound m t made ended) :
      Notifying policy n flags before bound m' t made ended

theorem Setup.parallel_of_preset {setup : Setup} {preset : HashPreset}
    (given : setup.preset = .ok preset) : setup.config.maxParallelAst ≠ 0 := by
  intro none
  have problem : setup.config.problem? = some .noParallelAst := if_pos none
  rw [Setup.preset, problem] at given
  cases given

theorem Namespace.parallel_tune {s s' : Namespace} {setting : Tunable}
    (may : s.config.maxParallelAst ≠ 0) (run : s.tune setting = .ok s') :
    s'.config.maxParallelAst ≠ 0 := by
  cases setting with
  | earlyLockCancel enable =>
    cases run
    unfold setEarlyLockCancel
    split
    · split <;> exact may
    · exact may
  | maxParallelAst ast =>
    change (if ast = 0 then _ else _) = _ at run
    split at run
    · cases run
    · rename_i some
      cases run
      exact some
  | _ =>
    cases run
    exact may

namespace Configured

variable {n : SpaceKey} {m : Manager}

/-- No way of setting a namespace up or of tuning it forbids all calls, and no lock is unused twice. -/
theorem sound (reach : Configured n m) :
    (m.space n).config.maxParallelAst ≠ 0 ∧ (m.space n).lru.Sound := by
  induction reach with
  | @built setup m₀ m run =>
    obtain ⟨preset, given, settings, lru⟩ := settings_of_build run
    have config : (m.space n).config = setup.config := congrArg (·.2.1) settings
    rw [config, lru]
    exact ⟨Setup.parallel_of_preset given, .empty⟩
  | @set m setting s _ run ih =>
    rw [space_modifySpace, if_pos rfl, (Namespace.tune_keeps run).1]
    exact ⟨Namespace.parallel_tune ih.1 run, ih.2⟩
  | @unused m m' l added _ run ih =>
    obtain ⟨lru, sound, space⟩ := exists_lru_of_lockUnused ih.2 run
    rw [space]
    exact ⟨ih.1, sound⟩
  | other _ same unused ih =>
    rw [same]
    exact ⟨ih.1, ih.2.of_thins unused⟩

end Configured

namespace VictimCancel

variable {n : SpaceKey} {flags : LockFlags} {bound : Nat} {locks ended : List LockKey}
  {asks : List Callback} {v : VictimCancel} {m m' : Manager}

/-- A cancellation that has asked the peer about the first of its victims, each once, and in order. It
has been answered about all of these but those that it is still asking about. -/
structure Notified (n : SpaceKey) (flags : LockFlags) (bound : Nat) (locks : List LockKey)
    (v : VictimCancel) (asks : List Callback) (ended : List LockKey) : Prop where
  space : v.space = n
  carries : v.flags = flags
  first : v.victims <+: locks
  parallel : v.parallel = bound
  positive : 0 < bound
  told : List.Forall₂ (Callback.Asks n flags bound) (v.victims.take asks.length) asks
  toAsk : v.toAsk = v.victims.drop asks.length
  progress : (ended ++ v.asking).Perm (v.victims.take asks.length)
  room : v.asking.length ≤ bound

theorem take_of_drop {victims rest : List LockKey} {k : Nat} {l : LockKey}
    (left : victims.drop k = l :: rest) :
    victims.take (k + 1) = victims.take k ++ [l] ∧ victims.drop (k + 1) = rest := by
  constructor
  · rw [List.take_add_one, ← List.head?_drop, left]
    rfl
  · rw [← List.tail_drop, left]
    rfl

theorem Notified.asked (notified : Notified n flags bound locks v asks ended) {l : LockKey}
    {rest : List LockKey} (toAsk : v.toAsk = l :: rest) (room : v.asking.length < v.parallel)
    (word : LockFlags) :
    Notified n flags bound locks { v with toAsk := rest, asking := v.asking ++ [l] }
      (asks ++ [.peerCancel v.space l v.flags word (v.asking.length + 1)]) ended := by
  obtain ⟨taken, left⟩ := take_of_drop (notified.toAsk.symm.trans toAsk)
  have within : v.asking.length + 1 ≤ bound := notified.parallel ▸ room
  have call : Callback.Asks n flags bound l
      (.peerCancel v.space l v.flags word (v.asking.length + 1)) :=
    ⟨word, _, by rw [notified.space, notified.carries], within⟩
  refine { notified with told := ?_, toAsk := ?_, progress := ?_, room := ?_ }
  · rw [List.length_append, List.length_singleton, taken]
    exact List.rel_append notified.told (.cons call .nil)
  · rw [List.length_append, List.length_singleton, left]
  · rw [List.length_append, List.length_singleton, taken, ← List.append_assoc]
    exact notified.progress.append_right [l]
  · rw [List.length_append, List.length_singleton]
    exact within

theorem Notified.answered (notified : Notified n flags bound locks v asks ended) {l : LockKey}
    (asked : l ∈ v.asking) :
    Notified n flags bound locks { v with asking := v.asking.erase l } asks (ended ++ [l]) := by
  refine { notified with progress := ?_, room := ?_ }
  · rw [List.append_assoc, List.singleton_append]
    exact ((List.perm_cons_erase asked).symm.append_left ended).trans notified.progress
  · exact (List.length_erase_le ..).trans notified.room

/-- With room for another call, the next victim is asked about. -/
theorem run_turn_of_room {l : LockKey} {rest : List LockKey} (toAsk : v.toAsk = l :: rest)
    (room : v.asking.length < v.parallel) (m : Manager) :
    ∃ m', v.turn m = .ok (.asks l { v with toAsk := rest, asking := v.asking ++ [l] }) m' ∧
      m'.lockCalls = m.lockCalls ++
        [.peerCancel v.space l v.flags (m.lock l).flags (v.asking.length + 1)] := by
  unfold turn
  rw [toAsk]
  simp only [if_pos room]
  exact ⟨_, rfl, lockCalls_note _⟩

/-- Without room, or while the last calls are in progress, nothing happens. -/
theorem run_turn_of_sleeps (sleeps : v.sleeps = true) (m : Manager) : v.turn m = .ok (.goes v) m := by
  unfold VictimCancel.sleeps at sleeps
  unfold turn
  split at sleeps
  · rename_i toAsk
    rw [toAsk]
    exact congrFun (if_neg (Nat.not_lt.mpr (of_decide_eq_true sleeps))) m
  · rename_i none
    have waits : ¬v.asking.isEmpty = true := by
      rwa [Bool.not_eq_true, ← Bool.not_eq_true']
    rw [none]
    exact congrFun (if_neg waits) m

/-- Once all victims have been asked about and all calls have ended, a cancellation returns. -/
theorem turn_of_idle (none : v.toAsk = []) (idle : v.asking = []) : v.turn.Leaves m fun answer m' =>
    m'.lockCalls = m.lockCalls ∧ ∀ turn, answer = .ok turn → turn = .returns v.victims.length := by
  have drops : (v.victims.forM Act.disown).Preserves Discreet :=
    preserves_forM fun l _ => discreet_drops.disown l
  unfold turn
  rw [none, idle]
  refine (drops m).bind (fun _ m₁ discreet => ?_) fun fault m₁ discreet => ⟨discreet.calls, nofun⟩
  refine ⟨discreet.calls, fun turn ends => ?_⟩
  cases ends
  rfl

/-- An answer makes room for another call, be it a failure or not. -/
theorem run_answered (v : VictimCancel) (l : LockKey) (failure : Option LockError) (m : Manager) :
    ∃ m', v.answered l failure m = .ok { v with asking := v.asking.erase l } m' ∧
      m'.lockCalls = m.lockCalls := by
  cases failure with
  | none => exact ⟨m, rfl, rfl⟩
  | some e => exact ⟨_, rfl, rfl⟩

theorem Begins.notified {before : Manager} (begins : Begins n flags locks before m v) :
    Notified n flags (m.space n).config.maxParallelAst.toNat locks v [] [] where
  space := begins.space
  carries := begins.carries
  first := begins.first
  parallel := begins.parallel
  positive := begins.parallel ▸ begins.positive
  told := .nil
  toAsk := begins.toAsk
  progress := by
    rw [begins.asking]
    exact .nil
  room := by
    rw [begins.asking]
    exact Nat.zero_le _

/-- A cancellation waits, has room for another call, or is through with all of its victims. -/
theorem sleeps_or_room_or_idle (v : VictimCancel) : v.sleeps = true ∨
    (∃ l rest, v.toAsk = l :: rest ∧ v.asking.length < v.parallel) ∨ v.toAsk = [] ∧ v.asking = [] := by
  unfold sleeps
  cases toAsk : v.toAsk with
  | nil =>
    cases asking : v.asking with
    | nil => exact .inr (.inr ⟨rfl, rfl⟩)
    | cons l rest => exact .inl rfl
  | cons l rest =>
    rcases Nat.lt_or_ge v.asking.length v.parallel with room | full
    · exact .inr (.inl ⟨l, rest, rfl, room⟩)
    · exact .inl (decide_eq_true full)

/-- A turn of a cancellation may ask about another victim. Otherwise the cancellation stays as it is,
or all of its victims are through and it returns their number. -/
theorem Notified.turned {policy : LockPolicy} {last : ResizeEnd} {turn : Task.Step}
    (notified : Notified n flags bound locks v asks ended)
    (run : (Task.cancel v last).turn policy m = .ok turn m') :
    (turn = .returns (.count v.victims.length) ∧ v.toAsk = [] ∧ v.asking = [] ∧
        m'.lockCalls = m.lockCalls) ∨
      ∃ w more, turn.next? = some (.cancel w last) ∧ w.victims = v.victims ∧
        m'.lockCalls = m.lockCalls ++ more ∧ Notified n flags bound locks w (asks ++ more) ended ∧
        ¬(v.toAsk = [] ∧ v.asking = []) := by
  obtain ⟨step, m₁, turns, run⟩ := ok_of_bind run
  rcases v.sleeps_or_room_or_idle with sleeps | ⟨l, rest, toAsk, room⟩ | ⟨none, idle⟩
  · obtain ⟨rfl, rfl⟩ := EStateM.Result.ok.inj ((run_turn_of_sleeps sleeps m).symm.trans turns)
    cases run
    refine .inr ⟨v, [], rfl, rfl, (List.append_nil _).symm, ?_, ?_⟩
    · rwa [List.append_nil]
    · rintro ⟨none, idle⟩
      rw [VictimCancel.sleeps, none, idle] at sleeps
      cases sleeps
  · obtain ⟨m₂, asking, calls⟩ := run_turn_of_room toAsk room m
    obtain ⟨rfl, rfl⟩ := EStateM.Result.ok.inj (asking.symm.trans turns)
    cases run
    refine .inr ⟨_, _, rfl, rfl, calls, notified.asked toAsk room _, fun idle => ?_⟩
    cases toAsk.symm.trans idle.1
  · obtain ⟨calls, returns⟩ := (turn_of_idle none idle).of_ok turns
    obtain rfl := returns step rfl
    obtain ⟨_, _, ends, done⟩ := ok_of_bind run
    cases done
    refine .inl ⟨rfl, none, idle, ?_⟩
    have silent : m'.lockCalls = m₁.lockCalls := by
      cases last with
      | keep =>
        cases ends
        rfl
      | disable | enable =>
        cases ends
        rfl
    rw [silent, calls]

theorem Notified.asks_length (notified : Notified n flags bound locks v asks ended) :
    asks.length ≤ v.victims.length := by
  have length := notified.told.length_eq
  rw [List.length_take] at length
  omega

theorem Notified.through_iff (notified : Notified n flags bound locks v asks ended) :
    v.toAsk = [] ↔ asks.length = v.victims.length := by
  rw [notified.toAsk, List.drop_eq_nil_iff]
  exact ⟨fun all => Nat.le_antisymm notified.asks_length all, Eq.ge⟩

/-- What a cancellation of unused locks has done, and what its next turn does. The first calls were
about its victims, one to the policy for each, and the others to the peer. With room for another call
the next victim is asked about, and the cancellation ends exactly when the peer has answered about
all victims. -/
structure Informs (policy : LockPolicy) (n : SpaceKey) (flags : LockFlags) (bound : Nat)
    (locks : List LockKey) (m : Manager) (v : VictimCancel) (last : ResizeEnd)
    (marks asks : List Callback) (ended : List LockKey) : Prop
    extends Notified n flags bound locks v asks ended where
  distinct : v.victims.Nodup
  marked : List.Forall₂ (Callback.Marks n flags) v.victims marks
  next : ∀ l, v.victims[asks.length]? = some l → v.asking.length < bound →
    ∃ t m', (Task.cancel v last).turn policy m = .ok (.asks l t) m'
  ends : ∀ turn m', (Task.cancel v last).turn policy m = .ok turn m' →
    (turn.next? = none ↔ asks.length = v.victims.length ∧ v.asking = [])
  returns : ∀ outcome m', (Task.cancel v last).turn policy m = .ok (.returns outcome) m' →
    outcome = .count v.victims.length ∧ ended.Perm v.victims ∧ m'.lockCalls = m.lockCalls

theorem Notified.toInforms {policy : LockPolicy} {marks : List Callback}
    (notified : Notified n flags bound locks v asks ended) (distinct : locks.Nodup)
    (marked : List.Forall₂ (Callback.Marks n flags) v.victims marks) (last : ResizeEnd)
    (m : Manager) : Informs policy n flags bound locks m v last marks asks ended := by
  refine { notified with distinct := ?_, marked, next := ?_, ends := ?_, returns := ?_ }
  · exact distinct.sublist notified.first.sublist
  · intro l next room
    have toAsk : v.toAsk = l :: v.victims.drop (asks.length + 1) := by
      rw [notified.toAsk, List.drop_eq_getElem?_toList_append, next]
      rfl
    rw [← notified.parallel] at room
    obtain ⟨m', asking, -⟩ := run_turn_of_room toAsk room m
    exact ⟨_, m', run_bind asking⟩
  · intro turn m' run
    rw [← notified.through_iff]
    rcases notified.turned run with ⟨rfl, none, idle, -⟩ | ⟨w, more, goes, -, -, -, going⟩
    · exact iff_of_true rfl ⟨none, idle⟩
    · exact iff_of_false (by rw [goes]; nofun) going
  · intro outcome m' run
    rcases notified.turned run with ⟨same, none, idle, calls⟩ | ⟨w, more, goes, -⟩
    · have all := notified.progress
      rw [idle, List.append_nil, notified.through_iff.mp none, List.take_length] at all
      exact ⟨Turn.returns.inj same, all, calls⟩
    · cases goes

end VictimCancel

namespace Notifying

variable {policy : LockPolicy} {n : SpaceKey} {flags : LockFlags} {before m : Manager} {bound : Nat}
  {t : Task} {made : List Callback} {ended : List LockKey}

theorem asks_next {v : VictimCancel} {last : ResizeEnd} {l : LockKey} {rest : List LockKey}
    (reach : Notifying policy n flags before bound m (.cancel v last) made ended)
    (toAsk : v.toAsk = l :: rest) (room : v.asking.length < v.parallel) : ∃ m' call,
      Notifying policy n flags before bound m'
        (.cancel { v with toAsk := rest, asking := v.asking ++ [l] } last) (made ++ [call]) ended := by
  obtain ⟨m', asks, calls⟩ := VictimCancel.run_turn_of_room toAsk room m
  exact ⟨m', _, reach.turned (run_bind asks) rfl calls⟩

theorem hears {v : VictimCancel} {last : ResizeEnd} {l : LockKey}
    (reach : Notifying policy n flags before bound m (.cancel v last) made ended)
    (asked : l ∈ v.asking) (failure : Option LockError) : ∃ m',
      Notifying policy n flags before bound m'
        (.cancel { v with asking := v.asking.erase l } last) made (ended ++ [l]) := by
  obtain ⟨m', answers, silent⟩ := v.run_answered l failure m
  have calls : m'.lockCalls = m.lockCalls ++ [] := by rw [silent, List.append_nil]
  have later := reach.answered asked (run_bind answers) calls
  rw [List.append_nil] at later
  exact ⟨m', later⟩

/-- The calls of a cancellation to the policy come first, and the peer knows of the first victims. -/
theorem notified (modest : ∀ k l, (policy.cancelLocal k l).Preserves Modest)
    (tells : VictimCancel.Tells n flags before)
    (reach : Notifying policy n flags before bound m t made ended) :
    ∃ v last marks asks, t = .cancel v last ∧ made = marks ++ asks ∧
      List.Forall₂ (Callback.Marks n flags) v.victims marks ∧
      v.Notified n flags bound (before.space n).lru.toList asks ended := by
  -- All marks are made before the first turn, so that turns and answers only add to the other calls.
  induction reach with
  | @begun m u t made cancels run calls =>
    obtain ⟨v, last, rfl, begins⟩ := u.begins modest tells cancels run
    obtain ⟨marks, told, marked⟩ := begins.marks
    refine ⟨v, last, marks, [], rfl, ?_, marked, begins.notified⟩
    rw [List.append_nil]
    exact List.append_cancel_left (calls.symm.trans told)
  | @turned bound m m' t t' turn made more ended _ run goes calls ih =>
    obtain ⟨v, last, marks, asks, rfl, rfl, marked, notified⟩ := ih
    rcases notified.turned run with ⟨rfl, -⟩ | ⟨w, others, leads, victims, told, notified, -⟩
    · cases goes
    · cases leads.symm.trans goes
      obtain rfl := List.append_cancel_left (calls.symm.trans told)
      refine ⟨w, last, marks, asks ++ more, rfl, List.append_assoc .., ?_, notified⟩
      rwa [victims]
  | @answered bound m m' t t' made more ended l failure _ asked run calls ih =>
    obtain ⟨v, last, marks, asks, rfl, rfl, marked, notified⟩ := ih
    obtain ⟨w, m₁, answers, goes⟩ := ok_of_bind run
    cases goes
    obtain ⟨m₂, erases, silent⟩ := v.run_answered l failure m
    obtain ⟨rfl, rfl⟩ := EStateM.Result.ok.inj (erases.symm.trans answers)
    obtain rfl : more = [] := List.append_right_eq_self.mp (calls.symm.trans silent)
    exact ⟨_, last, marks, asks, rfl, List.append_nil _, marked, notified.answered asked⟩
  | other _ ih => exact ih

/-- In a client with a peer, whatever the order and the results of the answers of the peer, a
cancellation of unused locks that are no local matter tells it of every victim once. -/
theorem informs (modest : ∀ k l, (policy.cancelLocal k l).Preserves Modest)
    (configured : Configured n before) (client : (before.space n).side = .client)
    (peer : (before.space n).hasPeer = true) (remote : flags.contains .localOnly = false)
    (reach : Notifying policy n flags before bound m t made ended) :
    ∃ v last marks asks, t = .cancel v last ∧ made = marks ++ asks ∧
      v.Informs policy n flags bound (before.space n).lru.toList m last marks asks ended := by
  obtain ⟨several, sound⟩ := configured.sound
  obtain ⟨v, last, marks, asks, cancels, calls, marked, notified⟩ :=
    reach.notified modest ⟨client, peer, several, remote⟩
  exact ⟨v, last, marks, asks, cancels, calls, notified.toInforms sound.locks marked last m⟩

/-- Of three unused locks, two are asked about at a time. The call about the second fails before the one
about the first ends, and makes room for the third. -/
theorem informs_of_failing_call : ∃ before m t made,
    Notifying .default ⟨0⟩ .none before 2 m t made [⟨1⟩] ∧ made.length = 6 ∧
      t.asking = [⟨0⟩, ⟨2⟩] ∧ ∃ v last marks asks, t = .cancel v last ∧ made = marks ++ asks ∧
        v.Informs .default ⟨0⟩ .none 2 (before.space ⟨0⟩).lru.toList m last marks asks [⟨1⟩] := by
  let twoCalls : NamespaceConfig := { (default : NamespaceConfig) with maxParallelAst := 2 }
  let u : Undertaking := .cancelLru ⟨0⟩ 3 .none
  obtain ⟨_, m₀, built, rfl, _, before, cached, ⟨client, peer⟩, t, m, begun, victims, two⟩ :
      (build { Setup.peered with config := twoCalls }).Returns {} fun n m₀ => n = .ok ⟨0⟩ ∧
        (cacheNew ⟨0⟩ [⟨1⟩, ⟨2⟩, ⟨3⟩]).Returns m₀ fun _ before =>
          ((before.space ⟨0⟩).side = .client ∧ (before.space ⟨0⟩).hasPeer = true) ∧
            (u.begin .default).Returns before fun t m => t.victims = [⟨0⟩, ⟨1⟩, ⟨2⟩] ∧
              (m.space ⟨0⟩).config.maxParallelAst.toNat = 2 := by
    decide +kernel
  have configured : Configured ⟨0⟩ before := by
    refine holds_of_cacheNew (I := Configured ⟨0⟩) (fun m m' spaces reach => ?_)
      (fun _ _ _ _ run reach => reach.unused run) (.built built) cached
    have space : m'.space ⟨0⟩ = m.space ⟨0⟩ := congrArg (·.get ⟨0⟩) spaces
    exact reach.other (by rw [space]) (by rw [space]; exact .rfl)
  have modest : ∀ k l, (LockPolicy.default.cancelLocal k l).Preserves Modest :=
    fun _ _ => modest_destroyLock
  obtain ⟨v, last, rfl, begins⟩ :=
    u.begins modest ⟨client, peer, configured.sound.1, rfl⟩ ⟨rfl, rfl⟩ begun
  obtain ⟨marks, calls, marked⟩ := begins.marks
  have reach := Notifying.begun (u := u) ⟨rfl, rfl⟩ begun calls
  rw [two] at reach
  obtain ⟨_, _, all, toAsk, asking, parallel⟩ := v
  obtain rfl : all = [⟨0⟩, ⟨1⟩, ⟨2⟩] := victims
  obtain rfl : toAsk = [⟨0⟩, ⟨1⟩, ⟨2⟩] := begins.toAsk
  obtain rfl : asking = [] := begins.asking
  obtain rfl : parallel = 2 := begins.parallel.trans two
  obtain ⟨m₁, first, reach⟩ := reach.asks_next rfl Nat.two_pos
  obtain ⟨m₂, second, reach⟩ := reach.asks_next rfl Nat.one_lt_two
  have asked : (⟨1⟩ : LockKey) ∈ [⟨0⟩, ⟨1⟩] := by decide
  obtain ⟨m₃, reach⟩ := reach.hears asked (some (.internal "lost"))
  obtain ⟨m₄, third, reach⟩ := reach.asks_next rfl Nat.one_lt_two
  refine ⟨before, m₄, _, _, reach, ?_, rfl, reach.informs modest configured client peer rfl⟩
  simp only [List.length_append, ← marked.length_eq, List.length_cons, List.length_nil]

end Notifying

end Lockspace
