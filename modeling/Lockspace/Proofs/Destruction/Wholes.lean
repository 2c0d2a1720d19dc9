import Lockspace.Proofs.Destruction.Unmaking
import Lockspace.Proofs.Draining.Emptying

namespace Lockspace

open Manager Act

/-- No lock has been given a reference, every destruction that was begun is over, and those that
were over are what they were. -/
structure Completes (fates fates' : LockKey → Fate) : Prop where
  given : ∀ l, (fates' l).given = (fates l).given
  ended : ∀ l, (fates' l).Open → (fates l).Open
  stays : ∀ l e, (fates l).ending = some e → e.stage = .ended → (fates' l).ending = some e

theorem Completes.rfl {fates : LockKey → Fate} : Completes fates fates :=
  ⟨fun _ => Eq.refl _, fun _ => id, fun _ _ ending _ => ending⟩

theorem Completes.trans {fates fates' fates'' : LockKey → Fate} (first : Completes fates fates')
    (second : Completes fates' fates'') : Completes fates fates'' where
  given l := (second.given l).trans (first.given l)
  ended l := first.ended l ∘ second.ended l
  stays l e ending ended := second.stays l e (first.stays l e ending ended) ended

namespace Fate

variable {fates : LockKey → Fate} {n : SpaceKey} {l k : LockKey} {m m₁ m₂ m₃ : Manager}

/-- What becomes of locks in a first destruction that nothing interrupts. -/
def unmade (fates : LockKey → Fate) (n : SpaceKey) (l : LockKey) (m m₁ m₂ m₃ : Manager) :
    LockKey → Fate :=
  advanced (advanced (struck fates n l true m m₁) l .reaped m₁ m₂) l .ended m₂ m₃

theorem given_unmade : (unmade fates n l m m₁ m₂ m₃ k).given = (fates k).given := by
  unfold unmade
  rw [given_advanced, given_advanced, given_struck]

theorem ending_unmade : (unmade fates n l m m₁ m₂ m₃ k).ending = if k = l then
    some { space := n, found := m, serial := (fates l).given, stage := .ended }
    else (fates k).ending := by
  unfold unmade
  by_cases here : k = l
  · rw [here, ending_advanced, if_pos rfl, ending_advanced, if_pos rfl, ending_struck,
      if_pos ⟨rfl, rfl⟩, if_pos rfl]
    rfl
  · rw [ending_advanced, if_neg here, ending_advanced, if_neg here, ending_struck,
      if_neg fun both => here both.1, if_neg here]

theorem completes_unmade (fresh : (fates l).ending = none) :
    Completes fates (unmade fates n l m m₁ m₂ m₃) := by
  refine ⟨fun k => given_unmade, fun k busy => ?_, fun k e ending _ => ?_⟩
  · obtain ⟨e, ending, further⟩ := busy
    rw [ending_unmade] at ending
    split at ending
    · obtain rfl := Option.some.inj ending
      exact absurd rfl further
    · exact ⟨e, ending, further⟩
  · rw [ending_unmade, if_neg, ending]
    rintro rfl
    rw [fresh] at ending
    cases ending

/-- Whoever finds a lock marked begins no destruction. -/
theorem completes_struck : Completes fates (struck fates n l false m m₁) := by
  have same : ∀ k, (struck fates n l false m m₁ k).ending = (fates k).ending := fun k => by
    rw [ending_struck, if_neg fun both => Bool.false_ne_true both.2]
  refine ⟨fun k => given_struck, fun k busy => ?_, fun k e ending _ => (same k).trans ending⟩
  unfold Open at busy
  rwa [same] at busy

end Fate

namespace Unmaking

variable {m m' : Manager} {has : Stakes} {fates : LockKey → Fate} {n : SpaceKey} {l : LockKey}

/-- A destruction that nothing interrupts. It is over afterwards if it was the first one. -/
theorem destroyLock (reach : Unmaking m has fates) (run : destroyLock n l m = .ok () m') :
    ∃ fates', Unmaking m' has fates' ∧ Completes fates fates' ∧ ((m.lock l).isDestroyed = false →
      (fates' l).ending =
        some { space := n, found := m, serial := (fates l).given, stage := .ended }) := by
  obtain ⟨first, m₁, strips, rest⟩ := ok_of_bind run
  have told := ((ends_unlinkAndMark_stripped l m).of_ok strips).1
  have struck := reach.strip (n := n) strips
  cases first with
  | false =>
    obtain ⟨-, rfl⟩ := EStateM.Result.ok.inj rest
    refine ⟨_, struck, Fate.completes_struck, fun whole => ?_⟩
    rw [whole] at told
    cases told
  | true =>
    obtain ⟨_, m₂, reused, drops⟩ := ok_of_bind (show (discard (lockReused n l) >>= fun _ =>
      dropBound l : Act Unit) m₁ = .ok () m' from rest)
    obtain ⟨removed, m₃, reaps, last⟩ := ok_of_bind (show (lockReused n l >>= fun _ => pure () :
      Act Unit) m₁ = .ok _ m₂ from reused)
    obtain ⟨-, rfl⟩ := EStateM.Result.ok.inj last
    have fresh : (fates l).ending = none := by
      by_contra begun
      rw [(reach.fits l).destroyed.mpr begun] at told
      cases told
    let e : Ending := { space := n, found := m, serial := (fates l).given }
    have marked : (Fate.struck fates n l true m m₁ l).ending = some e := by
      rw [Fate.ending_struck, if_pos ⟨rfl, rfl⟩]
    have away : (Fate.advanced (Fate.struck fates n l true m m₁) l .reaped m₁ m₃ l).ending =
        some { e with stage := .reaped } := by
      rw [Fate.ending_advanced, if_pos rfl, marked]
      rfl
    have unmade := (struck.reap marked rfl reaps).drop away rfl drops
    exact ⟨_, unmade, Fate.completes_unmade fresh, fun _ =>
      Fate.ending_unmade.trans (if_pos rfl)⟩

end Unmaking

namespace Manager

variable {m m' m'' : Manager} {l : LockKey}

namespace Incidental

theorem trans (first : Incidental m m') (second : Incidental m' m'') : Incidental m m'' where
  standing l := (second.standing l).trans (first.standing l)
  extent l := (second.extent l).trans (first.extent l)
  destroyed l := (second.destroyed l).trans (first.destroyed l)
  resource r := by
    obtain ⟨_, _, once⟩ := first.resource r
    obtain ⟨count, lvb, again⟩ := second.resource r
    exact ⟨count, lvb, by rw [again, once]⟩
  lru n := (second.lru n).trans (first.lru n)

theorem of_spaces (spaces : m'.spaces = m.spaces)
    (standing : ∀ l, (m'.lock l).standing = (m.lock l).standing)
    (extent : ∀ l, (m'.lock l).extent = (m.lock l).extent)
    (destroyed : ∀ l, (m'.lock l).isDestroyed = (m.lock l).isDestroyed) : Incidental m m' := by
  have space : ∀ n, m'.space n = m.space n := fun n => by simp only [Manager.space, spaces]
  refine ⟨standing, extent, destroyed, fun r => ⟨(m.resource r).refcount, (m.resource r).lvb, ?_⟩,
    fun n => by rw [space]⟩
  simp only [Manager.resource, space]

theorem of_same (spaces : m'.spaces = m.spaces) (locks : m'.locks = m.locks) : Incidental m m' := by
  have lock : ∀ l, m'.lock l = m.lock l := fun l => by simp only [Manager.lock, locks]
  exact of_spaces spaces (fun l => by rw [lock]) (fun l => by rw [lock]) fun l => by rw [lock]

theorem modifyLock {f : Lock → Lock} (standing : (f (m.lock l)).standing = (m.lock l).standing)
    (extent : (f (m.lock l)).extent = (m.lock l).extent)
    (destroyed : (f (m.lock l)).isDestroyed = (m.lock l).isDestroyed) :
    Incidental m (m.modifyLock l f) :=
  of_spaces rfl (view_modifyLock Lock.standing standing) (view_modifyLock (·.extent) extent)
    (view_modifyLock (·.isDestroyed) destroyed)

instance : IsPreorder Manager Incidental where
  refl _ := of_same rfl rfl
  trans _ _ _ := trans

end Incidental

end Manager

namespace Act

variable {α β : Type} {m : Manager} {has : Stakes} {l : LockKey} {n : SpaceKey} {r : ResourceRef}
  {flags : LockFlags}

/-- An action, if it returns, is a part of a run in which destructions may be interrupted, and
leaves none of its own unfinished. Its answer tells what its callers then have. -/
def Unravels (act : Act α) (m : Manager) (has : Stakes) (after : α → Stakes) : Prop :=
  ∀ fates, Unmaking m has fates → act.Ends m (fun _ => True) fun a m' =>
    ∃ fates', Unmaking m' (after a) fates' ∧ Completes fates fates'

theorem unravels_pure {a : α} {after : α → Stakes} (same : after a = has) :
    (pure a : Act α).Unravels m has after := by
  intro fates reach
  rw [← same] at reach
  exact ends_pure.mpr ⟨fates, reach, .rfl⟩

theorem Unravels.bind {act : Act α} {next : α → Act β} {mid : α → Stakes} {after : β → Stakes}
    (first : act.Unravels m has mid) (rest : ∀ a m', (next a).Unravels m' (mid a) after) :
    (act >>= next).Unravels m has after := by
  intro fates reach
  rw [ends_bind]
  refine (first fates reach).imp fun a m₁ after => ?_
  obtain ⟨fates₁, reach₁, completes⟩ := after
  refine (rest a m₁ fates₁ reach₁).imp fun b m₂ last => ?_
  obtain ⟨fates₂, reach₂, more⟩ := last
  exact ⟨fates₂, reach₂, completes.trans more⟩

/-- What only looks does not count. -/
theorem unravels_after {act : Act α} {next : α → Act β} {a : α} {after : β → Stakes}
    (looks : act m = .ok a m) (rest : (next a).Unravels m has after) :
    (act >>= next).Unravels m has after :=
  fun fates reach => ends_bind.mpr (ends_of_run looks (rest fates reach))

/-- A call that gives no lock a reference and takes none back. -/
theorem unravels_call {act : Act α} {after : α → Stakes} (ordinary : Ordinary .none act)
    (call : ∀ a m', act m = .ok a m' → Call m has m' (after a)) : act.Unravels m has after := by
  intro fates reach
  unfold Ends
  cases run : act m with
  | ok a m' =>
    refine ⟨_, reach.call (call a m' run) ordinary nofun run, fun k => ?_, fun k busy => busy,
      fun k e ending _ => ending⟩
    exact Fate.given_after_none
  | error fault m' => trivial

theorem unravels_quiet {act : Act α} (harmless : act.Preserves Harmless)
    (incidental : act.Preserves Incidental) : act.Unravels m has fun _ => has := by
  intro fates reach
  refine ((harmless m).and (incidental m)).ends.imp fun a m' still => ?_
  exact ⟨fates, reach.aside (.aside still.1) still.2, .rfl⟩

theorem unravels_destroyLock : (destroyLock n l).Unravels m has fun _ => has := by
  intro fates reach
  unfold Ends
  cases run : destroyLock n l m with
  | ok u m' =>
    obtain ⟨fates', reach', completes, -⟩ := reach.destroyLock run
    exact ⟨fates', reach', completes⟩
  | error fault m' => trivial

theorem unravels_forM {ι : Type} {items : List ι} {step : ι → Act Unit}
    (steps : ∀ i m, (step i).Unravels m has fun _ => has) :
    (items.forM step).Unravels m has fun _ => has := by
  induction items generalizing m with
  | nil => exact unravels_pure rfl
  | cons i rest ih => exact (steps i m).bind fun _ _ => ih

theorem incidental_log (level : Level) (text : String) : (log level text).Preserves Incidental :=
  fun _ => .of_same rfl rfl

theorem unravels_log (level : Level) (text : String) :
    (log level text).Unravels m has fun _ => has :=
  unravels_quiet (harmless_log level text) (incidental_log level text)

theorem unravels_note (call : Callback) : (note call).Unravels m has fun _ => has :=
  unravels_quiet (harmless_note call) fun _ => .of_same rfl rfl

theorem incidental_own : (own l).Preserves Incidental :=
  fun _ => .modifyLock rfl rfl rfl

theorem unravels_own : (own l).Unravels m has fun _ => has :=
  unravels_quiet (harmless_modifyLock fun _ => rfl) incidental_own

theorem unravels_disown : (disown l).Unravels m has fun _ => has :=
  unravels_call (.disown l) fun _ _ run => .disown run

/-- Flags that do not tell of a destruction may be set at any time. -/
theorem incidental_setFlags (spared : flags.contains .destroyed = false) :
    (modifyLock l (·.setFlags flags)).Preserves Incidental := by
  refine fun m => .modifyLock rfl rfl ?_
  show ((m.lock l).flags ||| flags).contains .destroyed = _
  rw [LockFlags.contains_destroyed_union, spared, Bool.or_false]
  rfl

theorem unravels_setFlags (spared : flags.contains .destroyed = false) :
    (modifyLock l (·.setFlags flags)).Unravels m has fun _ => has :=
  unravels_quiet (harmless_modifyLock fun _ => rfl) (incidental_setFlags spared)

theorem unravels_putAll (refs : List ResourceRef) :
    (putAll refs).Unravels m (has.beside ↑refs) fun _ => has := by
  induction refs generalizing m with
  | nil => exact unravels_pure has.beside_nil.symm
  | cons r rest ih =>
    have put : (Act.put r).Unravels m (has.beside ↑(r :: rest)) fun _ => has.beside ↑rest :=
      unravels_call (.put r) fun gone m' run => .put (Multiset.cons_add r ↑rest has.hands) run
    have dropped : (discard (Act.put r)).Unravels m (has.beside ↑(r :: rest))
        fun _ => has.beside ↑rest := put.bind fun _ _ => unravels_pure rfl
    exact dropped.bind fun _ _ => ih

theorem harmless_takeVictims (limits : VictimLimits) :
    (takeVictims n limits).Preserves Harmless := by
  refine Preserves.bind (fun _ => .of_eq rfl rfl fun _ => rfl) fun now =>
    preserves_get.bind fun m => ?_
  split
  exact Preserves.bind (fun _ => .modifySpace rfl rfl rfl rfl) fun _ => preserves_pure _

theorem unravels_takeVictims (limits : VictimLimits) :
    (takeVictims n limits).Unravels m has fun _ => has :=
  unravels_call (.take n limits) fun _ _ run =>
    .aside ((harmless_takeVictims limits m).of_ok run)

theorem unravels_askPeer (arg : LockFlags) (others : Nat) :
    (askPeer n l arg others).Unravels m has fun _ => has :=
  unravels_after (run_lock l m) (unravels_note _)

theorem unravels_cancelLocal : (cancelLocal .default n l).Unravels m has fun _ => has :=
  unravels_after (run_lock l m) ((unravels_note _).bind fun _ _ => unravels_destroyLock)

theorem unravels_complete : (complete .default n l .failed).Unravels m has fun _ => has :=
  unravels_after (run_lock l m) ((unravels_note _).bind fun _ _ => unravels_destroyLock)

end Act

namespace VictimCancel

variable {m : Manager} {has : Stakes} {n : SpaceKey} {l : LockKey} {flags : LockFlags}
  {v : VictimCancel}

theorem unravels_start (spared : flags.contains .destroyed = false) (victims : List LockKey) :
    (start .default n victims flags).Unravels m has fun _ => has := by
  have marks : (LockFlags.cancelPending ||| flags).contains .destroyed = false := by
    rw [LockFlags.contains_destroyed_union, spared]
    rfl
  refine (unravels_forM fun _ _ => unravels_own).bind fun _ _ => ?_
  refine (unravels_forM fun _ _ => ?_).bind fun _ m' => ?_
  · exact (unravels_setFlags marks).bind fun _ _ => unravels_cancelLocal
  · exact unravels_after (run_space n m') (unravels_pure rfl)

/-- A cancellation of unused locks destroys them one after another. -/
theorem unravels_cancelLru (spared : flags.contains .destroyed = false) (count : Nat) :
    (cancelLru .default n count flags).Unravels m has fun _ => has :=
  unravels_after (run_space n m)
    ((unravels_takeVictims _).bind fun victims _ => unravels_start spared victims)

theorem unravels_turn : v.turn.Unravels m has fun _ => has := by
  unfold turn
  split
  · split
    · exact (unravels_askPeer _ _).bind fun _ _ => unravels_pure rfl
    · exact unravels_pure rfl
  · split
    · exact (unravels_forM fun _ _ => unravels_disown).bind fun _ _ => unravels_pure rfl
    · exact unravels_pure rfl

theorem unravels_answered (failure : Option LockError) :
    (v.answered l failure).Unravels m has fun _ => has := by
  unfold answered
  cases failure with
  | none => exact unravels_pure rfl
  | some e =>
    refine unravels_after (run_lock l m) (unravels_after (run_space v.space m) ?_)
    exact (unravels_log _ _).bind fun _ _ => unravels_pure rfl

theorem unravels_abandon : v.abandon.Unravels m has fun _ => has :=
  unravels_forM fun _ _ => unravels_disown

end VictimCancel

namespace Cleanup

variable {m : Manager} {has : Stakes} {n : SpaceKey} {l : LockKey} {r : ResourceRef}
  {flags : LockFlags} {c : Cleanup}

theorem unravels_start (built : n ∈ has.built) (flags : LockFlags) :
    (start n flags).Unravels m has fun c => has.beside ↑c.held :=
  (unravels_call (.list n) fun _ _ run => .list built run).bind fun _ _ => unravels_pure rfl

theorem unravels_complain (r : ResourceRef) : (complain n r).Unravels m has fun _ => has :=
  unravels_quiet (preserves_complain harmless_log r) (preserves_complain incidental_log r)

theorem unravels_next? (spared : c.flags.contains .destroyed = false) :
    c.next?.Unravels m has fun _ => has := by
  have marks : ∀ l, (modifyLock l (·.setFlags (visitFlags c.flags))).Preserves Incidental :=
    fun _ => incidental_setFlags ((contains_destroyed_visitFlags c.flags).trans spared)
  refine unravels_quiet harmless_next? ?_
  unfold next?
  split
  · exact preserves_pure _
  · refine Preserves.bind (preserves_get.bind fun m => ?_) fun picked => ?_
    · split
      · exact preserves_pure _
      · exact (marks _).bind fun _ => preserves_pure _
    · split
      · exact preserves_pure _
      · exact incidental_own.bind fun _ => preserves_pure _

theorem unravels_treat : (treat .default n flags l).Unravels m has fun _ => has := by
  unfold treat
  refine unravels_after (run_lock l m) ?_
  split
  · exact unravels_complete.bind fun _ _ => unravels_pure rfl
  · refine unravels_cancelLocal.bind fun _ m' => unravels_after (run_space n m') ?_
    exact unravels_after (run_lock l m') (unravels_pure rfl)

/-- A drain destroys the locks that it visits. It has its references until it is done. -/
theorem unravels_turn (spared : c.flags.contains .destroyed = false) :
    (c.turn .default).Unravels m (has.beside ↑c.held) fun turn =>
      has.beside ↑(turn.held Cleanup.held) := by
  cases todo : c.todo with
  | nil =>
    unfold turn
    rw [todo]
    refine (unravels_forM fun r _ => unravels_complain r).bind fun _ _ => ?_
    exact (unravels_putAll c.held).bind fun _ _ => unravels_pure has.beside_nil
  | cons visit rest =>
    obtain ⟨r, q⟩ := visit
    rw [turn_of_cons todo]
    refine (unravels_next? spared).bind fun visited _ => ?_
    cases visited with
    | none => exact unravels_pure rfl
    | some l =>
      refine unravels_treat.bind fun asks _ => ?_
      cases asks with
      | true => exact (unravels_askPeer _ _).bind fun _ _ => unravels_pure rfl
      | false => exact unravels_disown.bind fun _ _ => unravels_pure rfl

theorem unravels_answered (failure : Option LockError) :
    (c.answered l failure).Unravels m has fun _ => has := by
  have rest : ∀ m₁ : Manager, (do disown l; return { c with asking := none } : Act Cleanup).Unravels
      m₁ has fun _ => has := fun _ => unravels_disown.bind fun _ _ => unravels_pure rfl
  unfold answered
  cases failure with
  | none => exact rest m
  | some e =>
    refine unravels_after (run_lock l m) (unravels_after (run_space c.space m) ?_)
    exact (unravels_log _ _).bind fun _ m₁ => rest m₁

theorem unravels_abandon : c.abandon.Unravels m (has.beside ↑c.held) fun _ => has := by
  unfold abandon
  cases c.asking with
  | none => exact unravels_putAll c.held
  | some l => exact unravels_disown.bind fun _ _ => unravels_putAll c.held

end Cleanup

end Lockspace
