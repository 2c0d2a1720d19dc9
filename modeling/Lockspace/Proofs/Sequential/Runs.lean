import Lockspace.Proofs.Sequential.Discipline
import Lockspace.Proofs.Sequential.Tasks

namespace Lockspace

open Manager Act

variable {n : SpaceKey} {m m' : Manager} {hands hands' : Multiset ResourceKey} {holds holds' : Nat}

namespace Task

/-- The references that an operation holds. -/
def keys : Task → Multiset ResourceKey
  | cleanup c => ↑(c.held.map (·.key))
  | prior t | free t => ↑(t.held.map (·.key))
  | waitIdle .. | cancel .. => 0

variable {t : Task}

theorem Underway.orderly (underway : t.Underway n m hands holds) :
    Orderly n m (t.keys + hands) holds := by
  cases t with
  | cleanup c => exact Lockspace.Underway.orderly underway
  | prior t => exact underway.2.orderly
  | free t => exact underway.2.orderly
  | waitIdle k w => exact (zero_add hands).symm ▸ underway
  | cancel v last => exact (zero_add hands).symm ▸ underway

/-- Callers may get and give what they like while an operation is in progress. -/
theorem Underway.beside (underway : t.Underway n m hands holds)
    (orderly : Orderly n m' (t.keys + hands') holds') : t.Underway n m' hands' holds' := by
  cases t with
  | cleanup c => exact ⟨Lockspace.Underway.within underway, orderly⟩
  | prior t => exact ⟨underway.1, underway.2.within, orderly⟩
  | free t => exact ⟨underway.1, underway.2.within, orderly⟩
  | waitIdle k w => exact zero_add hands' ▸ orderly
  | cancel v last => exact zero_add hands' ▸ orderly

end Task

theorem Turn.Leads.next {σ α : Type} {next : σ → Prop} {done : Prop} {turn : Turn σ α}
    (leads : turn.Leads next done) : turn.next?.elim done next := by
  cases turn with
  | goes s => exact leads
  | asks l s => exact leads
  | parks bound s => exact leads
  | returns answer => exact leads

namespace Caller

variable {caller : Caller} {key : ResourceKey}

/-- Whether a namespace is in order with all that its caller has. -/
def Fits (n : SpaceKey) (m : Manager) (caller : Caller) : Prop :=
  caller.busy.elim (Orderly n m caller.hands caller.holds)
    (Task.Underway n m caller.hands caller.holds)

/-- The references of the waiting operation of a caller. -/
def held (caller : Caller) : Multiset ResourceKey :=
  caller.busy.elim 0 Task.keys

namespace Fits

theorem orderly (fits : caller.Fits n m) :
    Orderly n m (caller.held + caller.hands) caller.holds := by
  obtain ⟨hands, holds, busy⟩ := caller
  cases busy with
  | none => exact (zero_add hands).symm ▸ fits
  | some t => exact Task.Underway.orderly fits

theorem beside (fits : caller.Fits n m) (orderly : Orderly n m' (caller.held + hands') holds') :
    Fits n m' { caller with hands := hands', holds := holds' } := by
  obtain ⟨hands, holds, busy⟩ := caller
  cases busy with
  | none => exact zero_add hands' ▸ orderly
  | some t => exact Task.Underway.beside fits orderly

theorem ends_tidy {α : Type} (fits : caller.Fits n m) {act : Act α} (tidy : act.Tidy n) :
    act.Ends m (·.isDisorder = false) fun _ m' => caller.Fits n m' :=
  (tidy m _ _ fits.orderly).imp fun _ _ after => fits.beside after

theorem idle (fits : caller.Fits n m) (none : caller.busy = .none) :
    Orderly n m caller.hands caller.holds := by
  rw [Fits, none] at fits
  exact fits

theorem underway (fits : caller.Fits n m) {t : Task} (busy : caller.busy = some t) :
    t.Underway n m caller.hands caller.holds := by
  rw [Fits, busy] at fits
  exact fits

/-- A caller may give away a reference that it has. -/
theorem given (fits : caller.Fits n m) (held : key ∈ caller.hands) :
    Orderly n m (key ::ₘ (caller.held + caller.hands.erase key)) caller.holds := by
  rw [← Multiset.add_cons, Multiset.cons_erase held]
  exact fits.orderly

theorem taken (fits : caller.Fits n m)
    (orderly : Orderly n m' (key ::ₘ (caller.held + caller.hands)) caller.holds) :
    Fits n m' { caller with hands := key ::ₘ caller.hands } := by
  rw [← Multiset.add_cons] at orderly
  exact fits.beside orderly

end Fits

end Caller

namespace Command

variable {caller : Caller} {c : Command}

/-- Whatever call the discipline allows, it leaves everything in order and ends in no fault about
references, tables or queues. -/
theorem ends_perform (fits : caller.Fits n m) (allowed : c.Allowed n m caller) :
    (c.perform n caller).Ends m (·.isDisorder = false) fun caller m' => caller.Fits n m' := by
  have orderly := fits.orderly
  cases c with
  | get id rtype create =>
    rw [perform, ends_bind]
    refine (orderly.ends_getOrCreate id rtype create).imp fun answer m' after => ?_
    cases answer with
    | ok r => exact ends_pure.mpr (fits.taken after.2)
    | error e => exact ends_pure.mpr (fits.beside after)
  | clone key =>
    rw [perform, ends_bind]
    have held : key ∈ caller.held + caller.hands := Multiset.mem_add.mpr (Or.inr allowed)
    exact (orderly.ends_retain held).imp fun _ m' after => ends_pure.mpr (fits.taken after)
  | put key =>
    rw [perform, ends_bind, ends_discard]
    exact (fits.given allowed).ends_put.imp fun _ m' after => ends_pure.mpr (fits.beside after)
  | newLock handle mode extent =>
    rw [perform, ends_bind, ends_discard]
    exact (fits.ends_tidy (tidy_newLock handle mode extent)).imp fun _ m' after =>
      ends_pure.mpr after
  | alter l f =>
    rw [perform, ends_bind, ends_modifyLock]
    exact ends_pure.mpr (fits.beside (orderly.agrees (agrees_modifyLock l allowed)))
  | disown l =>
    rw [perform, ends_bind]
    exact (fits.ends_tidy tidy_disown).imp fun _ m' after => ends_pure.mpr after
  | bind l key =>
    rw [perform, ends_bind]
    refine ((fits.given allowed.1).ends_bindTo allowed.2).imp fun _ m' after => ?_
    exact ends_pure.mpr (fits.beside after)
  | unbind l =>
    rw [perform, ends_bind]
    refine (orderly.ends_unbind allowed).imp fun answer m' after => ?_
    cases answer with
    | some r => exact ends_pure.mpr (fits.taken after.2)
    | none => exact ends_pure.mpr (fits.beside after)
  | add key q l =>
    rw [perform, ends_bind]
    refine (orderly.ends_addLock allowed.1 allowed.2).imp fun _ m' after => ?_
    exact ends_pure.mpr (fits.beside after)
  | insertAfter key anchor l =>
    obtain ⟨free, bound, q, -, queued⟩ := allowed
    rw [perform, ends_bind]
    refine (orderly.ends_insertAfter free bound queued).imp fun _ m' after => ?_
    exact ends_pure.mpr (fits.beside after)
  | unlink key l =>
    rw [perform, ends_bind]
    exact (orderly.ends_unlink allowed).imp fun _ m' after => ends_pure.mpr (fits.beside after.1)
  | destroy l =>
    rw [perform, ends_bind]
    exact (fits.ends_tidy tidy_destroyLock).imp fun _ m' after => ends_pure.mpr after
  | unused l =>
    rw [perform, ends_bind, ends_discard]
    exact (fits.ends_tidy quiet_lockUnused.tidy).imp fun _ m' after => ends_pure.mpr after
  | reused l =>
    rw [perform, ends_bind, ends_discard]
    exact (fits.ends_tidy quiet_lockReused.tidy).imp fun _ m' after => ends_pure.mpr after
  | hold =>
    rw [perform, ends_bind, ends_discard]
    exact orderly.ends_takeHold.imp fun _ m' after => ends_pure.mpr (fits.beside after)
  | yield =>
    obtain ⟨holds, more⟩ : ∃ holds, caller.holds = holds + 1 := Nat.exists_eq_add_one.mpr allowed
    rw [more] at orderly
    rw [perform, ends_bind, ends_discard, more]
    exact orderly.ends_dropHold.imp fun _ m' after => ends_pure.mpr (fits.beside after)
  | cleanup flags =>
    rw [perform, ends_bind]
    refine (Cleanup.ends_start (fits.idle allowed) flags).imp fun c m' underway => ?_
    exact ends_pure.mpr underway
  | cancelLru count flags =>
    rw [perform, ends_bind]
    refine (tidy_cancelLru count flags m _ _ (fits.idle allowed)).imp fun v m' after => ?_
    exact ends_pure.mpr after
  | setLruSize size =>
    rw [perform, ends_bind]
    refine (tidy_setLruSize size m _ _ (fits.idle allowed)).imp fun answer m' after => ?_
    exact ends_pure.mpr after
  | freePrior force hasImport =>
    rw [perform, ends_bind]
    refine (Teardown.ends_start (fits.idle allowed) force hasImport).imp fun t m' underway => ?_
    exact ends_pure.mpr underway
  | free force hasImport =>
    rw [perform, ends_bind]
    refine (Teardown.ends_start (fits.idle allowed) force hasImport).imp fun t m' underway => ?_
    exact ends_pure.mpr underway
  | turn =>
    rw [perform]
    split
    · exact ends_pure.mpr fits
    · rename_i t busy
      rw [ends_bind]
      refine (Task.ends_turn (fits.underway busy)).imp fun turn m' leads => ?_
      exact ends_pure.mpr leads.next
  | expired =>
    rw [perform]
    split
    · exact ends_pure.mpr fits
    · rename_i t busy
      rw [ends_bind]
      refine (Task.ends_expired (fits.underway busy)).imp fun turn m' leads => ?_
      exact ends_pure.mpr leads.next
  | answered l failure =>
    rw [perform]
    split
    · exact ends_pure.mpr fits
    · rename_i t busy
      rw [ends_bind]
      refine (Task.ends_answered (fits.underway busy) failure).imp fun t m' after => ?_
      exact ends_pure.mpr after
  | pressed step failure =>
    rw [perform]
    split
    · exact ends_pure.mpr fits
    · rename_i t busy
      rw [ends_bind]
      refine (Task.ends_pressed (fits.underway busy) (allowed t busy) step failure).imp
        fun t m' after => ends_pure.mpr after
  | abandon =>
    rw [perform]
    split
    · exact ends_pure.mpr fits
    · rename_i t busy
      rw [ends_bind]
      exact (Task.ends_abandon (fits.underway busy)).imp fun _ m' after => ends_pure.mpr after
  | freePost =>
    rw [perform, ends_bind, ends_discard]
    exact (fits.ends_tidy tidy_freePost).imp fun _ m' after => ends_pure.mpr after

end Command

namespace Sequential

variable {setup : Setup} {caller : Caller}

theorem fits (reach : Sequential setup n m caller) : caller.Fits n m := by
  induction reach with
  | built run => exact .of_fresh (fresh_of_build run)
  | call _ allowed run ih => exact (Command.ends_perform ih allowed).of_ok run

/-- No run of calls that keep to the discipline reaches an assertion about references, entries of
tables, counts of modes or queues. -/
theorem calm (reach : Sequential setup n m caller) {c : Command} (allowed : c.Allowed n m caller)
    {fault : Fault} (run : c.perform n caller m = .error fault m') : fault.isDisorder = false :=
  (Command.ends_perform reach.fits allowed).of_error run

/-- A granted lock, bound to its resource, and the first turn of a drain. -/
def drainGranted : List Command :=
  [.get ⟨1, 2, 0, 0⟩ .plain true, .newLock ⟨1⟩ .ex none, .bind ⟨0⟩ ⟨0⟩, .add ⟨0⟩ .granted ⟨0⟩,
    .cleanup .none, .turn]

/-- A drain has just destroyed a granted lock when a call with a bad id fails. -/
theorem calm_of_drained_lock : ∃ m caller, Sequential .oneBucket ⟨0⟩ m caller ∧
    (m.lock ⟨0⟩).isDestroyed = true ∧ caller.busy.isSome = true ∧ ∃ fault m',
      (Command.get ⟨0, 0, 0, 0⟩ .plain true).perform ⟨0⟩ caller m = .error fault m' ∧
        fault.isDisorder = false := by
  obtain ⟨m₀, built, drained⟩ : ∃ m₀, Act.build .oneBucket {} = .ok (.ok ⟨0⟩) m₀ ∧
      (Command.performAll? ⟨0⟩ drainGranted {} m₀).any (fun s =>
        (s.2.lock ⟨0⟩).isDestroyed && s.1.busy.isSome) = true :=
    ⟨_, rfl, by decide +kernel⟩
  obtain ⟨⟨caller, m⟩, run, seen⟩ := (Option.any_eq_true _ _).mp drained
  obtain ⟨destroyed, busy⟩ := Bool.and_eq_true_iff.mp seen
  have reach := (Sequential.built built).all run
  let bad : Command := .get ⟨0, 0, 0, 0⟩ .plain true
  have fails : bad.perform ⟨0⟩ caller m = .error (.emptyFirstWord ⟨0, 0, 0, 0⟩) m := rfl
  exact ⟨m, caller, reach, destroyed, busy, _, m, fails, reach.calm (c := bad) trivial fails⟩

end Sequential

end Lockspace
