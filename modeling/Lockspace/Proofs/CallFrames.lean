import Lockspace.Proofs.Queueing.Runs
import Lockspace.Proofs.TeardownFrames

namespace Lockspace

open Act

/-- The default policy keeps to what the destruction of a lock keeps to. -/
theorem LockPolicy.keeps_of_destroyLock {R : Manager → Manager → Prop} [IsPreorder Manager R]
    (destroys : ∀ n l, (destroyLock n l).Preserves R) : LockPolicy.default.Keeps R where
  completion n l flags := by
    show (if _ then _ else _ : Act Unit).Preserves R
    split
    · exact destroys n l
    · exact preserves_pure _
  cancelLocal := destroys

/-- The parts of calls about resources and locks keep to a relation between states, in which a lock
may change as long as its entries in queues and indices stay. Then so do the calls, and drains and
cancellations with the default policy. -/
structure CallsWithin (R : Manager → Manager → Prop) : Prop where
  others : ∀ m m' : Manager, m'.spaces = m.spaces → m'.locks = m.locks → m'.trace = m.trace → R m m'
  spaced : ∀ n (f : Namespace → Namespace), (∀ s, (f s).table = s.table) →
    (modifySpace n f).Preserves R
  relocked : ∀ l (f : Lock → Lock), (∀ lk, (f lk).entry = lk.entry) → (modifyLock l f).Preserves R
  noted : ∀ call : Callback, call.isResource = false → (note call).Preserves R
  built : ∀ setup, (build setup).Preserves R
  got : ∀ n id rtype create, (getOrCreate n id rtype create).Preserves R
  cloned : ∀ r, (retain r).Preserves R
  listed : ∀ n, (Act.resources n).Preserves R
  released : ∀ r, (release r).Preserves R
  made : ∀ handle mode extent, (newLock handle mode extent).Preserves R
  added : ∀ r q l, (addLock r q l).Preserves R
  inserted : ∀ r anchor l, (insertAfter r anchor l).Preserves R
  unlinked : ∀ r l, (unlink r l).Preserves R

namespace CallsWithin

variable {R : Manager → Manager → Prop} [IsPreorder Manager R] (within : CallsWithin R)
  {n : SpaceKey} {l : LockKey} {r : ResourceRef}

include within

omit [IsPreorder Manager R] in
theorem logged (level : Level) (text : String) : (log level text).Preserves R :=
  fun _ => within.others _ _ rfl rfl rfl

omit [IsPreorder Manager R] in
theorem ticked : tick.Preserves R :=
  fun _ => within.others _ _ rfl rfl rfl

omit [IsPreorder Manager R] in
theorem drops : DropsWithin R where
  release := within.released
  unbound l := within.relocked l _ fun _ => rfl
  owners l _ := within.relocked l _ fun _ => rfl
  unused n _ := within.spaced n _ fun _ => rfl

omit [IsPreorder Manager R] in
theorem tears : TearsWithin R where
  drops := within.drops
  lists := within.listed
  flagged l _ := within.relocked l _ fun _ => rfl
  stopped n := within.spaced n _ fun _ => rfl
  noted := within.noted
  logged := within.logged

theorem lockUnused : (lockUnused n l).Preserves R :=
  preserves_lockUnused (fun _ => within.spaced n _ fun _ => rfl) within.ticked
    fun _ => within.relocked l _ fun _ => rfl

theorem bind : (Act.bind l r).Preserves R := by
  refine preserves_bind ?_ ?_ (within.logged .warn) within.drops.put
  all_goals exact within.relocked l _ fun _ => rfl

theorem unlinkAndMark : (unlinkAndMark l).Preserves R :=
  preserves_unlinkAndMark (within.unlinked · l) (within.relocked l _ fun _ => rfl)

theorem destroyLock (n : SpaceKey) (l : LockKey) : (destroyLock n l).Preserves R :=
  preserves_destroyLock within.unlinkAndMark (within.drops.lockReused n l)
    (within.drops.dropBound l)

theorem keeps_default : LockPolicy.default.Keeps R :=
  LockPolicy.keeps_of_destroyLock within.destroyLock

theorem start (victims : List LockKey) (flags : LockFlags) :
    (VictimCancel.start .default n victims flags).Preserves R := by
  refine (preserves_forM fun l _ => within.drops.own l).bind fun _ => Preserves.bind ?_ fun _ => ?_
  · refine preserves_forM fun l _ => ?_
    refine Preserves.bind (within.relocked l _ fun _ => rfl) fun _ => ?_
    exact Cleanup.keeps_cancelLocal within.tears within.keeps_default
  · exact preserves_space.bind fun s => preserves_pure _

theorem cancelLru (count : Nat) (flags : LockFlags) :
    (cancelLru .default n count flags).Preserves R := by
  refine preserves_space.bind fun s => Preserves.bind ?_ fun victims => within.start victims flags
  refine within.ticked.bind fun now => preserves_get.bind fun m => ?_
  split
  refine Preserves.bind ?_ fun _ => preserves_pure _
  exact within.spaced n _ fun _ => rfl

theorem proceed (v : VictimCancel) : v.turn.Preserves R := by
  unfold VictimCancel.turn
  split
  · split
    · refine Preserves.bind ?_ fun _ => preserves_pure _
      exact preserves_lock.bind fun lk => within.noted _ rfl
    · exact preserves_pure _
  · split
    · exact (preserves_forM fun l _ => within.drops.disown l).bind fun _ => preserves_pure _
    · exact preserves_pure _

theorem told (v : VictimCancel) (failure : Option LockError) :
    (v.answered l failure).Preserves R := by
  unfold VictimCancel.answered
  cases failure with
  | none => exact preserves_pure _
  | some e =>
    exact preserves_lock.bind fun lk => preserves_space.bind fun s =>
      (within.logged _ _).bind fun _ => preserves_pure _

/-- Whatever a call does, however it ends. -/
theorem perform {m : Manager} {hands : Multiset ResourceRef} (c : QueueCall)
    (alters : ∀ l f, c = .alter l f → R m (m.modifyLock l f)) :
    (c.perform hands).Leaves m fun _ m' => R m m' := by
  have drops := within.drops
  cases c with
  | build setup => exact (within.built setup).discard.bind (fun _ => preserves_pure _) m
  | get n id rtype create =>
    refine (within.got n id rtype create).bind (fun answer => ?_) m
    cases answer with
    | ok r => exact preserves_pure _
    | error e => exact preserves_pure _
  | clone r => exact (within.cloned r).bind (fun _ => preserves_pure _) m
  | put r => exact (drops.put r).discard.bind (fun _ => preserves_pure _) m
  | newLock handle mode extent =>
    exact (within.made handle mode extent).discard.bind (fun _ => preserves_pure _) m
  | alter l f => exact alters l f rfl
  | disown l => exact (drops.disown l).bind (fun _ => preserves_pure _) m
  | bind l r => exact within.bind.bind (fun _ => preserves_pure _) m
  | unbind l =>
    refine (drops.unbind l).bind (fun answer => ?_) m
    cases answer with
    | some r => exact preserves_pure _
    | none => exact preserves_pure _
  | unused n l => exact within.lockUnused.discard.bind (fun _ => preserves_pure _) m
  | reused n l => exact (drops.lockReused n l).discard.bind (fun _ => preserves_pure _) m
  | add r q l => exact (within.added r q l).bind (fun _ => preserves_pure _) m
  | insertAfter r anchor l =>
    exact (within.inserted r anchor l).bind (fun _ => preserves_pure _) m
  | unlink r l => exact (within.unlinked r l).bind (fun _ => preserves_pure _) m
  | destroy n l => exact (within.destroyLock n l).bind (fun _ => preserves_pure _) m
  | drain n flags =>
    exact (Cleanup.keeps_start within.tears flags).bind (fun _ => preserves_pure _) m
  | visit c =>
    refine (Cleanup.keeps_turn within.tears within.keeps_default).bind (fun turn => ?_) m
    cases turn with
    | returns cleaned => exact preserves_pure _
    | goes c => exact preserves_pure _
    | asks l c => exact preserves_pure _
    | parks bound c => exact preserves_pure _
  | heard c l failure =>
    exact (Cleanup.keeps_answered within.tears failure).discard.bind (fun _ => preserves_pure _) m
  | quit c => exact (Cleanup.keeps_abandon within.tears).bind (fun _ => preserves_pure _) m
  | cancelLru n count flags =>
    exact (within.cancelLru count flags).discard.bind (fun _ => preserves_pure _) m
  | proceed v => exact (within.proceed v).discard.bind (fun _ => preserves_pure _) m
  | told v l failure => exact (within.told v failure).discard.bind (fun _ => preserves_pure _) m
  | giveUp v =>
    refine Preserves.bind ?_ (fun _ => preserves_pure _) m
    exact preserves_forM fun l _ => drops.disown l

end CallsWithin

end Lockspace
