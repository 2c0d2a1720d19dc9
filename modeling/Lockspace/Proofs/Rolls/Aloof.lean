import Lockspace.Proofs.Notices.Telling
import Lockspace.Proofs.Rolls.RollCalls

namespace Lockspace

open Manager Act

/-- An assertion of the registry. -/
def Fault.isRegistry : Fault → Bool
  | registeredTwice _ | wrongSide .. | notRegistered _ | missingFromRegistry .. | stillLinked _ => true
  | _ => false

/-- An outcome in which no assertion of the registry failed. -/
def Calm {α : Type} (outcome : Except Fault α) : Prop :=
  ∀ fault, outcome = .error fault → fault.isRegistry = false

namespace Calm

variable {α β : Type} {fault : Fault}

theorem ok (a : α) : Calm (.ok a) :=
  nofun

theorem error (other : fault.isRegistry = false) : Calm (.error fault : Except Fault α) := by
  rintro _ ⟨⟩
  exact other

theorem bind {first : Except Fault α} {next : α → Except Fault β} (calm : Calm first)
    (goes : ∀ a, Calm (next a)) : Calm (first >>= next) := by
  cases first with
  | ok a => exact goes a
  | error fault => exact error (calm fault rfl)

theorem map {f : α → β} {outcome : Except Fault α} (calm : Calm outcome) : Calm (outcome.map f) := by
  cases outcome with
  | ok a => exact ok _
  | error fault => exact error (calm fault rfl)

theorem foldlM {step : β → α → Except Fault β} (each : ∀ b a, Calm (step b a)) (items : List α) :
    ∀ b, Calm (items.foldlM step b) := by
  induction items with
  | nil => exact ok
  | cons a rest ih => exact fun b => (each b a).bind ih

end Calm

namespace Table

/-- No step of a table is an affair of the registry, however it fails. -/
theorem calm_incref (t : Table) (key : ResourceKey) : Calm (t.incref key) := by
  unfold incref
  split
  · exact .error rfl
  · exact .ok _

theorem calm_snapshotFrom (t : Table) (buckets : List BucketKey) : Calm (t.snapshotFrom buckets) := by
  induction buckets generalizing t with
  | nil => exact .ok _
  | cons b rest ih =>
    have bucket : Calm (t.snapshotBucket b) :=
      (Calm.foldlM calm_incref _ t).bind fun _ => .ok _
    exact bucket.bind fun found => (ih found.2).bind fun _ => .ok _

theorem calm_evict (t : Table) (key : ResourceKey) : Calm (t.evict key).2 := by
  unfold evict
  dsimp only
  split
  · exact .error rfl
  split
  · exact .error rfl
  split
  · exact .ok _
  split
  · exact .error rfl
  · exact .ok _

theorem calm_release (t : Table) (key : ResourceKey) : Calm (t.release key).2 := by
  rcases t.release_cases key with run | run | run <;> rw [run]
  · exact .error rfl
  · exact .ok _
  · exact calm_evict _ key

end Table

theorem Resource.calm_departed (res : Resource) (l : LockKey) (lk : Lock) (q : Queue) :
    Calm (res.departed l lk q) := by
  have unindexes : Calm (res.unindexGranted l lk) := by
    unfold unindexGranted
    split
    · exact .ok _
    split
    · split
      · exact .error rfl
      · exact .ok _
    · exact .ok _
  unfold departed
  dsimp only
  split
  · exact unindexes.bind fun _ => .ok _
  · exact .ok _

namespace Act

variable {α β : Type} {n : SpaceKey} {l : LockKey} {r : ResourceRef}

/-- An action that keeps aloof from the registry: no namespace comes there or leaves it, and none of
its assertions fails. -/
def Aloof (act : Act α) : Prop :=
  ∀ m, act.Leaves m fun answer m' => Shuffled m m' ∧ Calm answer

/-- A step that never fails is aloof if it leaves the registry as it is. -/
theorem aloof_of_sameRoll {act : Act α} (same : act.Preserves SameRoll)
    (returns : ∀ m, ∃ a m', act m = .ok a m') : act.Aloof := by
  intro m
  obtain ⟨a, m', run⟩ := returns m
  exact leaves_of_run run ⟨((same m).of_ok run).shuffled, .ok a⟩

theorem aloof_pure (a : α) : (pure a : Act α).Aloof :=
  aloof_of_sameRoll (preserves_pure a) fun _ => ⟨_, _, rfl⟩

theorem aloof_throw {fault : Fault} (other : fault.isRegistry = false) :
    (throw fault : Act α).Aloof :=
  fun _ => ⟨SameRoll.rfl.shuffled, .error other⟩

theorem Aloof.bind {act : Act α} {next : α → Act β} (first : act.Aloof)
    (second : ∀ a, (next a).Aloof) : (act >>= next).Aloof := by
  intro m
  refine (first m).bind (fun a m₁ before => ?_) fun fault m₁ before => ?_
  · exact (second a m₁).imp fun _ m' after => ⟨before.1.trans after.1, after.2⟩
  · exact ⟨before.1, .error (before.2 fault rfl)⟩

theorem Aloof.discard {act : Act α} (aloof : act.Aloof) : (discard act : Act Unit).Aloof := by
  show (act >>= fun _ => pure ()).Aloof
  exact aloof.bind fun _ => aloof_pure _

theorem aloof_guard {condition : Prop} [Decidable condition] {fault : Fault} {next : PUnit → Act β}
    (other : fault.isRegistry = false) (pass : (next ()).Aloof) :
    (if condition then throw fault >>= next else next ()).Aloof := by
  split
  · exact (aloof_throw other).bind fun _ => pass
  · exact pass

theorem aloof_forM {items : List α} {step : α → Act Unit} (each : ∀ a, (step a).Aloof) :
    (items.forM step).Aloof := by
  induction items with
  | nil => exact aloof_pure _
  | cons a rest ih => exact (each a).bind fun _ => ih

theorem aloof_ofExcept {outcome : Except Fault α} (calm : Calm outcome) :
    (ofExcept outcome).Aloof := by
  cases outcome with
  | ok a => exact aloof_pure a
  | error fault => exact aloof_throw (calm fault rfl)

theorem aloof_get : (get : Act Manager).Aloof :=
  aloof_of_sameRoll preserves_get fun _ => ⟨_, _, rfl⟩

theorem aloof_space : (space n).Aloof :=
  aloof_of_sameRoll preserves_space fun _ => ⟨_, _, rfl⟩

theorem aloof_lock : (lock l).Aloof :=
  aloof_of_sameRoll preserves_lock fun _ => ⟨_, _, rfl⟩

theorem aloof_resource : (resource r).Aloof :=
  aloof_of_sameRoll preserves_resource fun _ => ⟨_, _, rfl⟩

theorem aloof_tick : tick.Aloof :=
  aloof_of_sameRoll (fun _ => .of_eq rfl rfl) fun _ => ⟨_, _, rfl⟩

theorem aloof_note (call : Callback) : (note call).Aloof :=
  aloof_of_sameRoll (sameRoll_note call) fun _ => ⟨_, _, rfl⟩

theorem aloof_log (level : Level) (text : String) : (log level text).Aloof :=
  aloof_of_sameRoll (sameRoll_log level text) fun _ => ⟨_, _, rfl⟩

theorem aloof_modifyLock (f : Lock → Lock) : (modifyLock l f).Aloof :=
  aloof_of_sameRoll (sameRoll_modifyLock f) fun _ => ⟨_, _, rfl⟩

theorem aloof_modifyResource (f : Resource → Resource) : (modifyResource r f).Aloof :=
  aloof_of_sameRoll (sameRoll_locks.resource r f) fun _ => ⟨_, _, rfl⟩

theorem aloof_modifySpace {f : Namespace → Namespace} (keeps : ∀ s, (f s).place = s.place) :
    (modifySpace n f).Aloof :=
  aloof_of_sameRoll (sameRoll_modifySpace keeps) fun _ => ⟨_, _, rfl⟩

theorem aloof_setTable (t : Table) : (setTable n t).Aloof :=
  aloof_modifySpace fun _ => rfl

theorem aloof_dumpResource (level : Level) : (dumpResource level r).Aloof :=
  aloof_get.bind fun _ => aloof_forM fun line => aloof_log level line.text

theorem aloof_emit (event : ResourceEvent) : (emit r event).Aloof :=
  aloof_space.bind fun _ => aloof_resource.bind fun _ => aloof_note _

theorem aloof_signal : (signal n).Aloof :=
  aloof_modifySpace fun _ => rfl

theorem aloof_releaseLocked : (releaseLocked r).Aloof := by
  intro m
  unfold releaseLocked
  simp only [leaves_bind, leaves_space, leaves_setTable]
  have calm := (m.space r.space).table.calm_release r.key
  generalize (m.space r.space).table.release r.key = released at calm
  obtain ⟨t, answer⟩ := released
  have dropped : Shuffled m (m.setTable r.space t) :=
    (Manager.sameRoll_modifySpace r.space rfl).shuffled
  cases answer with
  | ok answer => exact ⟨dropped, .ok answer⟩
  | error fault =>
    have onward (act : Act Release) (aloof : act.Aloof) :
        act.Leaves (m.setTable r.space t) fun answer m' => Shuffled m m' ∧ Calm answer :=
      (aloof _).imp fun _ _ after => ⟨dropped.trans after.1, after.2⟩
    apply onward
    have throws : (throw fault : Act Release).Aloof := aloof_throw (calm fault rfl)
    dsimp only
    split
    · exact (aloof_dumpResource .error).bind fun _ => throws
    · exact throws

theorem aloof_afterRelease (answer : Release) : (afterRelease r answer).Aloof := by
  cases answer with
  | kept => exact aloof_pure _
  | freed emptied bref =>
    have told : (do
        emit r .freed
        if emptied then emit r .bucketEmptied
        return true : Act Bool).Aloof := by
      refine (aloof_emit _).bind fun _ => ?_
      split
      · exact (aloof_emit _).bind fun _ => aloof_pure _
      · exact aloof_pure _
    show (if _ then _ else _ : Act Bool).Aloof
    split
    · exact aloof_signal.bind fun _ => told
    · exact told

theorem aloof_release : (release r).Aloof :=
  aloof_releaseLocked.bind aloof_afterRelease

theorem aloof_dropUnused : (dropUnused l).Aloof := by
  refine aloof_get.bind fun m => ?_
  split
  · exact aloof_pure _
  · split
    · exact aloof_pure _
    · exact (aloof_modifyLock _).bind fun _ => aloof_release.discard.bind fun _ => aloof_pure _

theorem aloof_dropDesertedUpTo (depth : Nat) : ∀ n, (dropDesertedUpTo depth n).Aloof := by
  induction depth with
  | zero => exact fun _ => aloof_pure _
  | succ depth ih =>
    intro n
    unfold dropDesertedUpTo
    refine aloof_space.bind fun s => ?_
    split
    · exact aloof_pure _
    · refine aloof_forM fun l => (aloof_modifySpace ?_).bind fun _ => aloof_dropUnused.bind ?_
      · exact fun _ => rfl
      · intro next
        cases next with
        | none => exact aloof_pure _
        | some next => exact ih next

theorem aloof_dropIfDeserted : (dropIfDeserted n).Aloof :=
  aloof_get.bind fun _ => aloof_dropDesertedUpTo _ n

theorem aloof_put : (put r).Aloof :=
  aloof_release.bind fun _ => aloof_dropIfDeserted.bind fun _ => aloof_pure _

theorem aloof_putAll (refs : List ResourceRef) : (putAll refs).Aloof :=
  aloof_forM fun _ => aloof_put.discard

theorem aloof_resources : (Act.resources n).Aloof := by
  refine aloof_space.bind fun s => (aloof_ofExcept (s.table.calm_snapshotFrom _)).bind fun _ => ?_
  exact (aloof_setTable _).bind fun _ => aloof_pure _

theorem aloof_ownSpace : (ownSpace n).Aloof :=
  aloof_modifySpace fun _ => rfl

theorem aloof_disownSpace : (disownSpace n).Aloof := by
  refine (aloof_modifySpace ?_).bind fun _ => aloof_dropIfDeserted
  exact fun _ => rfl

theorem aloof_own : (own l).Aloof :=
  aloof_modifyLock _

theorem aloof_dropBound : (dropBound l).Aloof := by
  refine aloof_lock.bind fun lk => ?_
  split
  · exact aloof_pure _
  · exact (aloof_modifyLock _).bind fun _ => aloof_put.discard

theorem aloof_disown : (disown l).Aloof := by
  refine (aloof_modifyLock _).bind fun _ => aloof_get.bind fun m => ?_
  split
  · exact aloof_dropBound
  · exact aloof_pure _

theorem aloof_unlink : (unlink r l).Aloof := by
  refine aloof_lock.bind fun lk => ?_
  split
  · exact aloof_pure _
  · rename_i q _
    refine aloof_resource.bind fun res => aloof_guard rfl ?_
    refine (aloof_ofExcept (res.calm_departed l lk q)).bind fun _ => ?_
    refine (aloof_modifyResource _).bind fun _ => (aloof_modifyLock _).bind fun _ => ?_
    refine aloof_modifySpace ?_
    exact fun _ => rfl

theorem aloof_destroyLock : (destroyLock n l).Aloof := by
  have marks : (markDestroyed l).Aloof :=
    aloof_lock.bind fun _ => (aloof_modifyLock _).bind fun _ => aloof_pure _
  have leaves : (unlinkAndMark l).Aloof := by
    refine Aloof.bind (aloof_get.bind fun m => aloof_pure _) fun home => ?_
    cases home with
    | none => exact marks
    | some r => exact aloof_unlink.bind fun _ => marks
  have forgets : (lockReused n l).Aloof := by
    refine aloof_space.bind fun s => (aloof_modifySpace ?_).bind fun _ => aloof_pure _
    exact fun _ => rfl
  refine leaves.bind fun first => ?_
  split
  · exact forgets.discard.bind fun _ => aloof_dropBound
  · exact aloof_pure _

theorem aloof_finalizeUnused : (finalizeUnused n).Aloof := by
  refine aloof_space.bind fun s => (aloof_forM fun _ => aloof_own).bind fun _ => ?_
  refine (aloof_modifySpace ?_).bind fun _ => aloof_forM fun _ => aloof_disown
  exact fun _ => rfl

theorem aloof_askPeer (arg : LockFlags) (others : Nat) : (askPeer n l arg others).Aloof :=
  aloof_lock.bind fun _ => aloof_note _

end Act

/-- A policy whose callbacks keep aloof from the registry. -/
structure LockPolicy.Aloof (policy : LockPolicy) : Prop where
  completion : ∀ n l flags, (policy.completion n l flags).Aloof
  cancelLocal : ∀ n l, (policy.cancelLocal n l).Aloof

theorem LockPolicy.aloof_default : LockPolicy.default.Aloof where
  completion n l flags := by
    show (if _ then _ else _ : Act Unit).Aloof
    split
    · exact aloof_destroyLock
    · exact aloof_pure _
  cancelLocal n l := aloof_destroyLock

variable {policy : LockPolicy} {n : SpaceKey} {l : LockKey}

namespace Cleanup

variable {c : Cleanup}

theorem aloof_start (flags : LockFlags) : (start n flags).Aloof :=
  aloof_resources.bind fun _ => aloof_pure _

theorem aloof_pick? (r : ResourceRef) (q : Queue) (flags : LockFlags) :
    (pick? r q flags).Aloof := by
  refine aloof_get.bind fun m => ?_
  split
  · exact aloof_pure _
  · exact (aloof_modifyLock _).bind fun _ => aloof_pure _

theorem aloof_treat (aloof : policy.Aloof) (flags : LockFlags) : (treat policy n flags l).Aloof := by
  refine aloof_lock.bind fun lk => ?_
  split
  · refine Aloof.bind ?_ fun _ => aloof_pure _
    exact aloof_lock.bind fun _ => (aloof_note _).bind fun _ => aloof.completion n l .failed
  · refine Aloof.bind ?_ fun _ => aloof_space.bind fun _ => aloof_lock.bind fun _ => aloof_pure _
    exact aloof_lock.bind fun _ => (aloof_note _).bind fun _ => aloof.cancelLocal n l

theorem aloof_complain (r : ResourceRef) : (complain n r).Aloof := by
  refine aloof_resource.bind fun res => ?_
  split
  · exact aloof_space.bind fun s => (aloof_log _ _).bind fun _ => aloof_dumpResource .error
  · exact aloof_pure _

/-- A turn of a drain is aloof if the callbacks are. -/
theorem aloof_turn (aloof : policy.Aloof) : (c.turn policy).Aloof := by
  unfold turn
  split
  · refine (aloof_forM aloof_complain).bind fun _ => ?_
    exact (aloof_putAll c.held).bind fun _ => aloof_pure _
  · rename_i r q rest _
    refine (aloof_pick? r q c.flags).bind fun picked => ?_
    cases picked with
    | none => exact aloof_pure _
    | some l =>
      refine aloof_own.bind fun _ => (aloof_treat aloof _).bind fun asks => ?_
      split
      · exact (aloof_askPeer _ _).bind fun _ => aloof_pure _
      · exact aloof_disown.bind fun _ => aloof_pure _

theorem aloof_answered (failure : Option LockError) : (c.answered l failure).Aloof := by
  have rest : ∀ u : PUnit, (do
      disown l
      return { c with asking := none } : Act Cleanup).Aloof :=
    fun _ => aloof_disown.bind fun _ => aloof_pure _
  unfold answered
  cases failure with
  | none => exact rest ()
  | some e => exact aloof_lock.bind fun lk => aloof_space.bind fun s => (aloof_log _ _).bind rest

theorem aloof_abandon : c.abandon.Aloof := by
  unfold abandon
  cases c.asking with
  | none => exact aloof_putAll c.held
  | some l => exact aloof_disown.bind fun _ => aloof_putAll c.held

end Cleanup

theorem Act.law_aloof : Law fun _ act => act.Aloof :=
  ⟨aloof_pure, Aloof.bind, fun _ => aloof_space⟩

namespace Teardown

variable {t : Teardown}

theorem aloof_start (force hasImport : Bool) : (start n force hasImport).Aloof := by
  refine inherits_start law_aloof (aloof_modifySpace ?_) Cleanup.aloof_start force hasImport
  exact fun _ => rfl

theorem aloof_turn (aloof : policy.Aloof) : (t.turn policy).Aloof :=
  inherits_turn law_aloof aloof_log fun _ => Cleanup.aloof_turn aloof

theorem aloof_expired : t.expired.Aloof :=
  inherits_expired law_aloof aloof_log

theorem aloof_pressed (step : Escalation) (failure : Option LockError) :
    (t.pressed step failure).Aloof :=
  inherits_pressed law_aloof aloof_log Cleanup.aloof_start step

theorem aloof_answered (failure : Option LockError) : (t.answered l failure).Aloof :=
  inherits_answered law_aloof fun _ => Cleanup.aloof_answered failure

theorem aloof_abandon : t.abandon.Aloof :=
  inherits_abandon law_aloof fun _ => Cleanup.aloof_abandon

end Teardown

namespace VictimCancel

variable {v : VictimCancel}

theorem aloof_start (aloof : policy.Aloof) (victims : List LockKey) (flags : LockFlags) :
    (start policy n victims flags).Aloof := by
  refine (aloof_forM fun _ => aloof_own).bind fun _ => Aloof.bind (aloof_forM fun l => ?_) fun _ =>
    aloof_space.bind fun s => aloof_pure _
  exact (aloof_modifyLock _).bind fun _ => aloof_lock.bind fun _ => (aloof_note _).bind fun _ =>
    aloof.cancelLocal n l

theorem aloof_turn : v.turn.Aloof := by
  unfold turn
  split
  · split
    · exact (aloof_askPeer _ _).bind fun _ => aloof_pure _
    · exact aloof_pure _
  · split
    · exact (aloof_forM fun _ => aloof_disown).bind fun _ => aloof_pure _
    · exact aloof_pure _

theorem aloof_answered (failure : Option LockError) : (v.answered l failure).Aloof := by
  unfold answered
  cases failure with
  | none => exact aloof_pure _
  | some e =>
    exact aloof_lock.bind fun lk => aloof_space.bind fun s => (aloof_log _ _).bind fun _ =>
      aloof_pure _

theorem aloof_abandon : v.abandon.Aloof :=
  aloof_forM fun _ => aloof_disown

end VictimCancel

namespace Act

theorem aloof_cancelLru (aloof : policy.Aloof) (count : Nat) (flags : LockFlags) :
    (cancelLru policy n count flags).Aloof := by
  refine aloof_space.bind fun s => Aloof.bind ?_ fun _ => VictimCancel.aloof_start aloof _ flags
  refine aloof_tick.bind fun now => aloof_get.bind fun m => ?_
  refine (aloof_modifySpace ?_).bind fun _ => aloof_pure _
  exact fun _ => rfl

theorem aloof_setLruSize (aloof : policy.Aloof) (size : LruSize) :
    (setLruSize policy n size).Aloof := by
  have cancels (count : Nat) (last : ResizeEnd) : (do
      let cancel ← cancelLru policy n count .none
      return (cancel, last) : Act (VictimCancel × ResizeEnd)).Aloof :=
    (aloof_cancelLru aloof count .none).bind fun _ => aloof_pure _
  have stores (value : UInt32) : (modifySpace n fun s =>
      { s with config := { s.config with lruSize := value } }).Aloof :=
    aloof_modifySpace fun _ => rfl
  cases size with
  | clear =>
    refine Aloof.bind ?_ fun victims => (VictimCancel.aloof_start aloof _ _).bind fun _ =>
      aloof_pure _
    refine aloof_space.bind fun s => (aloof_modifySpace ?_).bind fun _ => aloof_pure _
    exact fun _ => rfl
  | value value =>
    refine aloof_space.bind fun s => ?_
    split
    · split
      · exact (stores value).bind fun _ => cancels _ _
      · exact cancels _ _
    · exact (stores value).bind fun _ => cancels _ _

theorem aloof_endResize (last : ResizeEnd) : (endResize n last).Aloof := by
  cases last with
  | keep => exact aloof_pure _
  | _ => exact aloof_modifySpace fun _ => rfl

end Act

end Lockspace
