import Lockspace.Proofs.Unused.Lightening
import Lockspace.Waiting.Victims

namespace Lockspace

open Manager Act

namespace Manager

/-- A namespace that somebody holds keeps its settings and loses only such locks from the unused
ones, and no lock has become unused. -/
structure Beside (n : SpaceKey) (among : LockKey → Prop) (m m' : Manager) : Prop where
  settings : (m'.space n).settings = (m.space n).settings
  unused : 0 < (m.space n).owners → UnusedLru.Thins among (m.space n).lru (m'.space n).lru
  times : ∀ l, (m'.lock l).lastUsed = (m.lock l).lastUsed
  clock : m'.clock = m.clock

variable {n k : SpaceKey} {among : LockKey → Prop} {m m' m'' : Manager} {l : LockKey}

theorem Beside.owners (beside : Beside n among m m') :
    (m'.space n).owners = (m.space n).owners :=
  congrArg (·.1) beside.settings

theorem Beside.rfl : Beside n among m m :=
  ⟨Eq.refl _, fun _ => .rfl, fun _ => Eq.refl _, Eq.refl _⟩

theorem Beside.trans (first : Beside n among m m') (second : Beside n among m' m'') :
    Beside n among m m'' where
  settings := second.settings.trans first.settings
  unused held := (first.unused held).trans (second.unused (by rwa [first.owners]))
  times l := (second.times l).trans (first.times l)
  clock := second.clock.trans first.clock

instance : IsPreorder Manager (Beside n among) where
  refl _ := .rfl
  trans _ _ _ := .trans

theorem Lightens.beside (lightens : Lightens m m') : Beside n among m m' where
  settings := lightens.settings n
  unused held := by
    rw [lightens.kept n held]
    exact .rfl
  times l := by
    rcases lightens.lock l with same | ⟨-, loses⟩
    · rw [same]
    · rw [loses]
  clock := lightens.clock

theorem beside_modifyLock {f : Lock → Lock}
    (times : (f (m.lock l)).lastUsed = (m.lock l).lastUsed) : Beside n among m (m.modifyLock l f) :=
  ⟨Eq.refl _, fun _ => .rfl, view_modifyLock (·.lastUsed) times, Eq.refl _⟩

end Manager

namespace Act

variable {n k : SpaceKey} {among : LockKey → Prop} {l : LockKey} {r : ResourceRef}

theorem beside_of_lightens {α : Type} {act : Act α} (lightens : act.Preserves Lightens) :
    act.Preserves (Beside n among) :=
  lightens.mono fun _ _ => Lightens.beside

theorem beside_modifyLock {f : Lock → Lock} (times : ∀ lk, (f lk).lastUsed = lk.lastUsed) :
    (modifyLock l f).Preserves (Beside n among) :=
  fun _ => Manager.beside_modifyLock (times _)

theorem beside_modifySpace {f : Namespace → Namespace} (settings : ∀ s, (f s).settings = s.settings)
    (lru : ∀ s, (f s).lru = s.lru) : (modifySpace k f).Preserves (Beside n among) :=
  beside_of_lightens fun _ => lightens_modifySpace (settings _) (lru _)

/-- A lock that is taken off the unused ones of any namespace. -/
theorem beside_lockReused (may : among l) : (lockReused k l).Preserves (Beside n among) := by
  intro m
  refine leaves_of_run (show lockReused k l m = .ok _ (m.modifySpace k fun s =>
    { s with lru := ((m.space k).lru.remove l).2 }) from rfl) ?_
  refine ⟨view_modifySpace (·.settings) rfl n, fun _ => ?_, fun _ => rfl, rfl⟩
  rw [space_modifySpace]
  split
  · rename_i here
    rw [here]
    exact .remove may
  · exact .rfl

theorem beside_unlink : (unlink r l).Preserves (Beside n among) := by
  refine preserves_unlink (fun _ _ _ _ => ?_) (beside_modifyLock fun _ => rfl) fun _ => ?_
  · exact Lightens.beside (lightens_modifySpace rfl rfl)
  · exact beside_modifySpace (fun _ => rfl) fun _ => rfl

theorem beside_unlinkAndMark : (unlinkAndMark l).Preserves (Beside n among) :=
  preserves_unlinkAndMark (fun _ => beside_unlink) (beside_modifyLock fun _ => rfl)

theorem beside_dropBound : (dropBound l).Preserves (Beside n among) := by
  refine preserves_lock.bind fun lk => ?_
  split
  · exact preserves_pure _
  · exact Preserves.bind (beside_modifyLock fun _ => rfl) fun _ =>
      (beside_of_lightens lightens_put).discard

theorem beside_own : (own l).Preserves (Beside n among) :=
  beside_modifyLock fun _ => rfl

theorem beside_disown : (disown l).Preserves (Beside n among) := by
  refine Preserves.bind (beside_modifyLock fun _ => rfl) fun _ => preserves_get.bind fun m => ?_
  split
  · exact beside_dropBound
  · exact preserves_pure _

/-- A lock that is destroyed leaves the unused ones. -/
theorem beside_destroyLock (may : among l) : (destroyLock k l).Preserves (Beside n among) :=
  preserves_destroyLock beside_unlinkAndMark (beside_lockReused may) beside_dropBound

theorem beside_cancelLocal (may : among l) :
    (cancelLocal .default k l).Preserves (Beside n among) :=
  preserves_lock.bind fun _ => (beside_of_lightens (lightens_note _)).bind fun _ =>
    beside_destroyLock may

theorem beside_askPeer (arg : LockFlags) (others : Nat) :
    (askPeer k l arg others).Preserves (Beside n among) :=
  preserves_lock.bind fun _ => beside_of_lightens (lightens_note _)

end Act

namespace Act

variable {n : SpaceKey} {l : LockKey} {m : Manager}

/-- A destroyed lock does not become unused, and neither does any lock once the list is final. -/
theorem lockUnused_of_refused
    (refused : ((m.space n).lru.finalized || (m.lock l).isDestroyed) = true) :
    ∃ m', lockUnused n l m = .ok false m' ∧ (∀ k, m'.space k = m.space k) ∧
      m'.locks = m.locks ∧ m'.clock = m.clock := by
  refine ⟨m.modifySpace n fun s => { s with lru := (m.space n).lru }, ?_, fun k => ?_, rfl, rfl⟩
  · unfold lockUnused
    rw [run_bind (run_space n m), run_bind (run_lock l m)]
    unfold UnusedLru.add
    rw [if_pos refused]
    rfl
  · exact view_modifySpace (fun s => s) rfl k

/-- Any other lock gets to the young end, at the time that the clock shows. -/
theorem lockUnused_of_added
    (may : ((m.space n).lru.finalized || (m.lock l).isDestroyed) = false) :
    ∃ m', lockUnused n l m = .ok true m' ∧ m'.clock = m.clock + 1 ∧
      (∀ k, m'.space k = if k = n then
        { m.space n with lru := ((m.space n).lru.erase l).append l } else m.space k) ∧
      ∀ k, m'.lock k = if k = l then { m.lock l with lastUsed := m.clock + 1 } else m.lock k := by
  let listed := m.modifySpace n fun s => { s with lru := ((m.space n).lru.erase l).append l }
  let timed : Manager := { listed with clock := m.clock + 1 }
  refine ⟨timed.modifyLock l fun lk => { lk with lastUsed := m.clock + 1 }, ?_, rfl, fun k => ?_,
    fun k => ?_⟩
  · unfold lockUnused
    rw [run_bind (run_space n m), run_bind (run_lock l m)]
    unfold UnusedLru.add
    rw [if_neg (by simp [may])]
    rfl
  · show listed.space k = _
    exact space_modifySpace m n k _
  · exact lock_modifyLock timed l k _

/-- Nothing but the unused locks of the namespace changes there, and these stay sound. -/
theorem exists_lru_of_lockUnused {m' : Manager} {added : Bool} (sound : (m.space n).lru.Sound)
    (run : lockUnused n l m = .ok added m') :
    ∃ lru : UnusedLru, lru.Sound ∧ m'.space n = { m.space n with lru } := by
  cases refused : (m.space n).lru.finalized || (m.lock l).isDestroyed with
  | true =>
    obtain ⟨m₁, refuses, space, -⟩ := lockUnused_of_refused refused
    obtain ⟨rfl, rfl⟩ := EStateM.Result.ok.inj (refuses.symm.trans run)
    exact ⟨(m.space n).lru, sound, space n⟩
  | false =>
    obtain ⟨m₁, adds, -, space, -⟩ := lockUnused_of_added refused
    obtain ⟨rfl, rfl⟩ := EStateM.Result.ok.inj (adds.symm.trans run)
    exact ⟨_, sound.append_erase l, (space n).trans (if_pos rfl)⟩

/-- Victims are taken by their age at the time that the clock shows. -/
theorem exists_takeVictims (n : SpaceKey) (limits : VictimLimits) (m : Manager) :
    let answer := (m.space n).lru.takeVictims limits fun l => m.clock + 1 - (m.lock l).lastUsed
    ∃ m', takeVictims n limits m = .ok answer.1 m' ∧ m'.clock = m.clock + 1 ∧ m'.locks = m.locks ∧
      ∀ k, m'.space k = if k = n then { m.space n with lru := answer.2 } else m.space k := by
  intro answer
  refine ⟨({ m with clock := m.clock + 1 } : Manager).modifySpace n fun s =>
    { s with lru := answer.2 }, rfl, rfl, rfl, fun k => ?_⟩
  exact space_modifySpace _ n k _

theorem exists_takeAllUnused (n : SpaceKey) (m : Manager) :
    let answer := (m.space n).lru.takeAll
    ∃ m', takeAllUnused n m = .ok answer.1 m' ∧ m'.clock = m.clock ∧ m'.locks = m.locks ∧
      ∀ k, m'.space k = if k = n then { m.space n with lru := answer.2 } else m.space k := by
  intro answer
  refine ⟨m.modifySpace n fun s => { s with lru := answer.2 }, rfl, rfl, rfl, fun k => ?_⟩
  exact space_modifySpace m n k _

end Act

namespace VictimCancel

variable {n k : SpaceKey} {among : LockKey → Prop} {l : LockKey} {v : VictimCancel}

/-- A cancellation touches no unused locks but its victims. -/
theorem beside_start (among : LockKey → Prop) {victims : List LockKey}
    (may : ∀ l ∈ victims, among l) (flags : LockFlags) :
    (start .default k victims flags).Preserves (Beside n among) := by
  refine (preserves_forM fun l _ => beside_own).bind fun _ => Preserves.bind ?_ fun _ => ?_
  · refine preserves_forM fun l member => ?_
    exact Preserves.bind (beside_modifyLock fun _ => rfl) fun _ => beside_cancelLocal (may l member)
  · exact preserves_space.bind fun s => preserves_pure _

theorem beside_turn : v.turn.Preserves (Beside n among) := by
  unfold turn
  split
  · split
    · exact (beside_askPeer _ _).bind fun _ => preserves_pure _
    · exact preserves_pure _
  · split
    · exact (preserves_forM fun l _ => beside_disown).bind fun _ => preserves_pure _
    · exact preserves_pure _

theorem beside_answered (failure : Option LockError) :
    (v.answered l failure).Preserves (Beside n among) := by
  unfold answered
  cases failure with
  | none => exact preserves_pure _
  | some e =>
    exact preserves_lock.bind fun _ => preserves_space.bind fun _ =>
      (beside_of_lightens (lightens_log _ _)).bind fun _ => preserves_pure _

theorem beside_abandon : v.abandon.Preserves (Beside n among) :=
  preserves_forM fun _ _ => beside_disown

end VictimCancel

end Lockspace
