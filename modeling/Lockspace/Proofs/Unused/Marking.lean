import Lockspace.Proofs.Draining.Seats
import Lockspace.Proofs.FlagWords
import Lockspace.Proofs.Unused.Trimming

namespace Lockspace

open Manager Act

/-- A call to the policy to cancel a lock that has been marked with flags. -/
def Callback.Marks (n : SpaceKey) (flags : LockFlags) (l : LockKey) (call : Callback) : Prop :=
  ∃ word, call = .cancelLocal n l word ∧ word.contains (.cancelPending ||| flags) = true

namespace Manager

/-- Sides and peers stay as they are, and who may call peers at all still may. -/
structure Mild (m m' : Manager) : Prop where
  side : ∀ n, (m'.space n).side = (m.space n).side
  hasPeer : ∀ n, (m'.space n).hasPeer = (m.space n).hasPeer
  parallel : ∀ n, (m.space n).config.maxParallelAst ≠ 0 → (m'.space n).config.maxParallelAst ≠ 0

/-- Besides, no call about a lock is made. -/
structure Modest (m m' : Manager) : Prop extends Mild m m' where
  calls : m'.lockCalls = m.lockCalls

instance : IsPreorder Manager Mild where
  refl _ := ⟨fun _ => rfl, fun _ => rfl, fun _ may => may⟩
  trans _ _ _ first second :=
    ⟨fun n => (second.side n).trans (first.side n),
      fun n => (second.hasPeer n).trans (first.hasPeer n),
      fun n may => second.parallel n (first.parallel n may)⟩

instance : IsPreorder Manager Modest where
  refl m := ⟨refl_of Mild m, rfl⟩
  trans _ _ _ first second :=
    ⟨trans_of Mild first.toMild second.toMild, second.calls.trans first.calls⟩

variable {m m' : Manager}

theorem Mild.of_spaces (spaces : m'.spaces = m.spaces) : Mild m m' := by
  have space (n : SpaceKey) : m'.space n = m.space n := by simp only [Manager.space, spaces]
  refine ⟨fun n => ?_, fun n => ?_, fun n may => ?_⟩
  · rw [space]
  · rw [space]
  · rwa [space]

theorem mild_modifySpace {n : SpaceKey} {f : Namespace → Namespace}
    (side : ∀ s, (f s).side = s.side) (hasPeer : ∀ s, (f s).hasPeer = s.hasPeer)
    (parallel : ∀ s, (f s).config.maxParallelAst = s.config.maxParallelAst) :
    Mild m (m.modifySpace n f) := by
  refine ⟨view_modifySpace (·.side) (side _), view_modifySpace (·.hasPeer) (hasPeer _),
    fun k may => ?_⟩
  rwa [view_modifySpace (·.config.maxParallelAst) (parallel _)]

end Manager

namespace Act

variable {n : SpaceKey} {l : LockKey}

theorem modest_modifyLock (f : Lock → Lock) : (modifyLock l f).Preserves Modest :=
  fun _ => ⟨.of_spaces rfl, rfl⟩

theorem modest_modifySpace {f : Namespace → Namespace} (side : ∀ s, (f s).side = s.side)
    (hasPeer : ∀ s, (f s).hasPeer = s.hasPeer)
    (parallel : ∀ s, (f s).config.maxParallelAst = s.config.maxParallelAst) :
    (modifySpace n f).Preserves Modest :=
  fun _ => ⟨mild_modifySpace side hasPeer parallel, rfl⟩

theorem modest_tick : tick.Preserves Modest :=
  fun _ => ⟨.of_spaces rfl, rfl⟩

theorem leaves_destroyLock_settings (m : Manager) :
    (destroyLock n l).Leaves m fun _ m' => ∀ k, (m'.space k).settings = (m.space k).settings := by
  have beside (k : SpaceKey) : (destroyLock n l).Preserves (Beside k fun _ => True) :=
    beside_destroyLock trivial
  unfold Leaves
  cases run : destroyLock n l m with
  | ok _ m' => exact fun k => ((beside k m).of_ok run).settings
  | error fault m' => exact fun k => ((beside k m).of_error run).settings

theorem modest_destroyLock : (destroyLock n l).Preserves Modest := by
  intro m
  refine ((discreet_locks.destroyLock discreet_drops n l m).and
    (leaves_destroyLock_settings m)).imp fun _ m' after => ?_
  obtain ⟨discreet, same⟩ := after
  refine ⟨⟨discreet.side, discreet.hasPeer, fun k may => ?_⟩, discreet.calls⟩
  rwa [show (m'.space k).config = (m.space k).config from congrArg (·.2.1) (same k)]

theorem modest_takeVictims (limits : VictimLimits) : (takeVictims n limits).Preserves Modest := by
  refine modest_tick.bind fun now => preserves_get.bind fun m => ?_
  split
  refine (modest_modifySpace ?_ ?_ ?_).bind fun _ => preserves_pure _
  all_goals exact fun _ => rfl

theorem modest_takeAllUnused : (takeAllUnused n).Preserves Modest := by
  refine preserves_space.bind fun s => ?_
  split
  refine (modest_modifySpace ?_ ?_ ?_).bind fun _ => preserves_pure _
  all_goals exact fun _ => rfl

end Act

theorem UnusedLru.victimsFrom_prefix (limits : VictimLimits) (total : Nat) (age : LockKey → Nat)
    (pos : Nat) (locks : List LockKey) : victimsFrom limits total age pos locks <+: locks := by
  induction locks generalizing pos with
  | nil => exact List.nil_prefix
  | cons l rest ih =>
    unfold victimsFrom
    split
    · exact List.cons_prefix_cons.mpr ⟨rfl, ih (pos + 1)⟩
    · exact List.nil_prefix

namespace VictimCancel

variable {policy : LockPolicy} {m m' : Manager} {n : SpaceKey} {flags : LockFlags} {v : VictimCancel}

/-- Marks a victim and leaves its cancellation to the policy. -/
def mark (policy : LockPolicy) (n : SpaceKey) (flags : LockFlags) (l : LockKey) : Act Unit := do
  modifyLock l (·.setFlags (LockFlags.cancelPending ||| flags))
  Act.cancelLocal policy n l

theorem mark_calls (modest : ∀ k l, (policy.cancelLocal k l).Preserves Modest) {l : LockKey}
    (run : mark policy n flags l m = .ok () m') :
    Mild m m' ∧ ∃ call, m'.lockCalls = m.lockCalls ++ [call] ∧ call.Marks n flags l := by
  let marked := m.modifyLock l (·.setFlags (LockFlags.cancelPending ||| flags))
  let call := Callback.cancelLocal n l (marked.lock l).flags
  have told : Mild m { marked with trace := marked.trace.push call } := .of_spaces rfl
  have cancelled := (modest n l { marked with trace := marked.trace.push call }).of_ok run
  refine ⟨trans_of Mild told cancelled.toMild, call, ?_, _, rfl, ?_⟩
  · rw [cancelled.calls, lockCalls_note]
    rfl
  · show ((m.modifyLock l _).lock l).flags.contains _ = true
    rw [lock_modifyLock, if_pos rfl]
    exact LockFlags.contains_union_right _ _

/-- Victims are marked one after another, each with one call to the policy. -/
theorem marks_each (modest : ∀ k l, (policy.cancelLocal k l).Preserves Modest)
    {victims : List LockKey} (run : victims.forM (mark policy n flags) m = .ok () m') :
    Mild m m' ∧ ∃ calls, m'.lockCalls = m.lockCalls ++ calls ∧
      List.Forall₂ (Callback.Marks n flags) victims calls := by
  induction victims generalizing m with
  | nil =>
    cases run
    exact ⟨refl_of Mild _, [], (List.append_nil _).symm, .nil⟩
  | cons l rest ih =>
    obtain ⟨_, m₁, first, run⟩ := ok_of_bind run
    obtain ⟨once, call, told, marks⟩ := mark_calls modest first
    obtain ⟨mild, calls, rest, each⟩ := ih run
    refine ⟨trans_of Mild once mild, call :: calls, ?_, .cons marks each⟩
    rw [rest, told, List.append_assoc, List.singleton_append]

/-- A cancellation that has begun in a client with a peer. Its victims are the first of some locks,
each marked with one call to the policy. The peer knows of none of them yet. -/
structure Begins (n : SpaceKey) (flags : LockFlags) (locks : List LockKey) (m m' : Manager)
    (v : VictimCancel) : Prop where
  space : v.space = n
  carries : v.flags = flags
  first : v.victims <+: locks
  toAsk : v.toAsk = v.victims
  asking : v.asking = []
  parallel : v.parallel = (m'.space n).config.maxParallelAst.toNat
  positive : 0 < v.parallel
  marks : ∃ calls, m'.lockCalls = m.lockCalls ++ calls ∧
    List.Forall₂ (Callback.Marks n flags) v.victims calls

/-- A client namespace with a peer, which may call it, and flags that are no local matter. -/
structure Tells (n : SpaceKey) (flags : LockFlags) (m : Manager) : Prop where
  client : (m.space n).side = .client
  peer : (m.space n).hasPeer = true
  parallel : (m.space n).config.maxParallelAst ≠ 0
  remote : flags.contains .localOnly = false

theorem Tells.mild (tells : Tells n flags m) (mild : Mild m m') : Tells n flags m' where
  client := (mild.side n).trans tells.client
  peer := (mild.hasPeer n).trans tells.peer
  parallel := mild.parallel n tells.parallel
  remote := tells.remote

theorem Begins.after {m₀ : Manager} {locks : List LockKey} (begins : Begins n flags locks m m' v)
    (modest : Modest m₀ m) : Begins n flags locks m₀ m' v :=
  { begins with
    marks := by
      rw [← modest.calls]
      exact begins.marks }

theorem begins_start (modest : ∀ k l, (policy.cancelLocal k l).Preserves Modest)
    (tells : Tells n flags m) {victims locks : List LockKey} (first : victims <+: locks)
    (run : start policy n victims flags m = .ok v m') : Begins n flags locks m m' v := by
  obtain ⟨_, m₁, owned, run⟩ := ok_of_bind run
  obtain ⟨_, m₂, marked, run⟩ := ok_of_bind run
  obtain ⟨_, _, found, run⟩ := ok_of_bind run
  cases found
  cases run
  have owns : (victims.forM own).Preserves Modest := preserves_forM fun l _ => modest_modifyLock _
  have still := (owns m).of_ok owned
  obtain ⟨mild, calls, told, marks⟩ := marks_each modest marked
  have later := tells.mild (trans_of Mild still.toMild mild)
  have client : (m'.space n).isClient = true := congrArg Side.isClient later.client
  have several : 0 < (m'.space n).config.maxParallelAst.toNat :=
    UInt32.lt_iff_toNat_lt.mp (UInt32.pos_iff_ne_zero.mpr later.parallel)
  refine ⟨rfl, rfl, first, ?_, rfl, ?_, ?_, calls, ?_, marks⟩
  · exact if_pos (by rw [client, tells.remote, later.peer]; rfl)
  · exact Nat.max_eq_left several
  · exact Nat.lt_of_lt_of_le several (Nat.le_max_left ..)
  · rw [told, still.calls]

theorem begins_cancelLru (modest : ∀ k l, (policy.cancelLocal k l).Preserves Modest)
    (tells : Tells n flags m) {count : Nat} (run : cancelLru policy n count flags m = .ok v m') :
    Begins n flags (m.space n).lru.toList m m' v := by
  obtain ⟨_, _, found, run⟩ := ok_of_bind run
  cases found
  obtain ⟨victims, m₁, taken, run⟩ := ok_of_bind run
  have takes := (modest_takeVictims _ m).of_ok taken
  have first : victims <+: (m.space n).lru.toList := by
    obtain ⟨_, same, -⟩ := exists_takeVictims n ((m.space n).victimLimits count) m
    obtain ⟨rfl, rfl⟩ := EStateM.Result.ok.inj (same.symm.trans taken)
    exact UnusedLru.victimsFrom_prefix ..
  exact (begins_start modest (tells.mild takes.toMild) first run).after takes

/-- A new LRU size in store makes no difference to the unused locks. -/
theorem begins_stored (modest : ∀ k l, (policy.cancelLocal k l).Preserves Modest)
    (tells : Tells n flags m) {value : UInt32} {count : Nat} (run : cancelLru policy n count flags
      (m.modifySpace n fun s => { s with config := { s.config with lruSize := value } }) = .ok v m') :
    Begins n flags (m.space n).lru.toList m m' v := by
  have stored : Modest m
      (m.modifySpace n fun s => { s with config := { s.config with lruSize := value } }) :=
    ⟨mild_modifySpace (fun _ => rfl) (fun _ => rfl) fun _ => rfl, rfl⟩
  have begins := (begins_cancelLru modest (tells.mild stored.toMild) run).after stored
  rwa [space_modifySpace, if_pos rfl] at begins

theorem begins_setLruSize (modest : ∀ k l, (policy.cancelLocal k l).Preserves Modest)
    (tells : Tells n .none m) {size : LruSize} {last : ResizeEnd}
    (run : setLruSize policy n size m = .ok (v, last) m') :
    Begins n .none (m.space n).lru.toList m m' v := by
  cases size with
  | clear =>
    obtain ⟨victims, m₁, taken, run⟩ := ok_of_bind run
    obtain ⟨_, _, begun, ends⟩ := ok_of_bind run
    cases ends
    have takes := (modest_takeAllUnused m).of_ok taken
    have first : victims <+: (m.space n).lru.toList := by
      cases taken
      exact List.prefix_refl _
    exact (begins_start modest (tells.mild takes.toMild) first begun).after takes
  | value value =>
    -- Where the size is stored first, that is no change for the unused locks.
    unfold setLruSize at run
    obtain ⟨_, _, found, run⟩ := ok_of_bind run
    cases found
    dsimp only at run
    split at run
    · split at run
      · obtain ⟨_, _, stored, run⟩ := ok_of_bind run
        cases stored
        obtain ⟨_, _, begun, ends⟩ := ok_of_bind run
        cases ends
        exact begins_stored modest tells begun
      · obtain ⟨_, _, begun, ends⟩ := ok_of_bind run
        cases ends
        exact begins_cancelLru modest tells begun
    · obtain ⟨_, _, stored, run⟩ := ok_of_bind run
      cases stored
      obtain ⟨_, _, begun, ends⟩ := ok_of_bind run
      cases ends
      exact begins_stored modest tells begun

end VictimCancel

/-- An operation that cancels unused locks of a namespace with flags. -/
def Undertaking.Cancels (n : SpaceKey) (flags : LockFlags) : Undertaking → Prop
  | cancelLru k _ given => k = n ∧ given = flags
  | setLruSize k _ => k = n ∧ flags = .none
  | _ => False

theorem Undertaking.begins {policy : LockPolicy} {m m' : Manager} {n : SpaceKey} {flags : LockFlags}
    {u : Undertaking} {t : Task} (modest : ∀ k l, (policy.cancelLocal k l).Preserves Modest)
    (tells : VictimCancel.Tells n flags m) (cancels : u.Cancels n flags)
    (run : u.begin policy m = .ok t m') : ∃ v last, t = .cancel v last ∧
      VictimCancel.Begins n flags (m.space n).lru.toList m m' v := by
  cases u with
  | cancelLru k count given =>
    obtain ⟨rfl, rfl⟩ := cancels
    obtain ⟨v, _, begun, ends⟩ := ok_of_bind run
    cases ends
    exact ⟨v, .keep, rfl, VictimCancel.begins_cancelLru modest tells begun⟩
  | setLruSize k size =>
    obtain ⟨rfl, rfl⟩ := cancels
    obtain ⟨started, _, begun, ends⟩ := ok_of_bind run
    cases ends
    exact ⟨started.1, started.2, rfl, VictimCancel.begins_setLruSize modest tells begun⟩
  | _ => exact absurd cancels id

end Lockspace
