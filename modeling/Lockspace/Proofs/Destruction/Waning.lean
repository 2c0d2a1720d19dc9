import Lockspace.Proofs.Unused.Beside

namespace Lockspace

open Manager Act

namespace UnusedLru

variable {among : LockKey → Prop} {u u' : UnusedLru} {l k : LockKey}

theorem mem_append : l ∈ (u.append k).toList ↔ l ∈ u.toList ∨ l = k := by
  simp [append, toList]

theorem mem_of_erase (member : l ∈ (u.erase k).toList) : l ∈ u.toList := by
  unfold erase at member
  split at member
  · exact member
  · exact (List.filter_sublist.map Prod.snd).subset member

theorem Thins.mem (thins : Thins among u u') (member : l ∈ u'.toList) : l ∈ u.toList := by
  obtain ⟨gone, -, rfl⟩ := thins
  induction gone generalizing u with
  | nil => exact member
  | cons k rest ih => exact mem_of_erase (ih member)

end UnusedLru

namespace Manager

/-- What may become of a lock without its destruction. It stays as destroyed as it is, it keeps its
reference or loses it, unless it may get another one, and once destroyed it gets onto no queue and
onto no list of unused locks. -/
structure Wanes (may : Prop) (l : LockKey) (m m' : Manager) : Prop where
  destroyed : (m'.lock l).isDestroyed = (m.lock l).isDestroyed
  link : (m.lock l).isDestroyed → (m.lock l).link = none → (m'.lock l).link = none
  bound : may ∨ (m'.lock l).bound = (m.lock l).bound ∨ (m'.lock l).bound = none
  unused : (m.lock l).isDestroyed → ∀ n, l ∈ (m'.space n).lru.toList → l ∈ (m.space n).lru.toList
  sound : ∀ n, (m.space n).lru.Sound → (m'.space n).lru.Sound

variable {may : Prop} {m m' m'' : Manager} {l k : LockKey} {n : SpaceKey}

namespace Wanes

theorem rfl : Wanes may l m m :=
  ⟨Eq.refl _, fun _ => id, Or.inr (Or.inl (Eq.refl _)), fun _ _ => id, fun _ => id⟩

theorem trans (first : Wanes may l m m') (second : Wanes may l m' m'') : Wanes may l m m'' where
  destroyed := second.destroyed.trans first.destroyed
  link gone free := second.link (first.destroyed.trans gone) (first.link gone free)
  bound := by
    rcases second.bound with allowed | same | lost
    · exact Or.inl allowed
    · rw [same]
      exact first.bound
    · exact Or.inr (Or.inr lost)
  unused gone n member :=
    first.unused gone n (second.unused (first.destroyed.trans gone) n member)
  sound n before := second.sound n (first.sound n before)

instance : IsPreorder Manager (Wanes may l) where
  refl _ := .rfl
  trans _ _ _ := .trans

theorem mono {more : Prop} (wanes : Wanes may l m m') (weaker : may → more) : Wanes more l m m' :=
  { wanes with bound := wanes.bound.imp_left weaker }

/-- A lock may change as long as its destruction is not told and, where it is destroyed, its link
is not set. -/
theorem of_locks (spaces : m'.spaces = m.spaces)
    (destroyed : (m'.lock l).isDestroyed = (m.lock l).isDestroyed)
    (link : (m.lock l).isDestroyed → (m.lock l).link = none → (m'.lock l).link = none)
    (bound : may ∨ (m'.lock l).bound = (m.lock l).bound ∨ (m'.lock l).bound = none) :
    Wanes may l m m' := by
  have space : ∀ n, m'.space n = m.space n := fun n => by simp only [Manager.space, spaces]
  refine ⟨destroyed, link, bound, fun _ n => ?_, fun n => ?_⟩
  · rw [space]
    exact id
  · rw [space]
    exact id

/-- Lists of unused locks may only lose locks where nothing happens to locks themselves. -/
theorem of_lists (locks : m'.locks = m.locks)
    (unused : (m.lock l).isDestroyed → ∀ n, l ∈ (m'.space n).lru.toList →
      l ∈ (m.space n).lru.toList)
    (sound : ∀ n, (m.space n).lru.Sound → (m'.space n).lru.Sound) : Wanes may l m m' := by
  have lock : m'.lock l = m.lock l := by simp only [Manager.lock, locks]
  refine ⟨by rw [lock], fun _ free => by rw [lock, free], ?_, unused, sound⟩
  rw [lock]
  exact Or.inr (Or.inl (Eq.refl _))

theorem of_lightens (lightens : Lightens m m') : Wanes may l m m' := by
  have unused : ∀ n, l ∈ (m'.space n).lru.toList → l ∈ (m.space n).lru.toList :=
    fun n => (lightens.unused n).mem
  have sound : ∀ n, (m.space n).lru.Sound → (m'.space n).lru.Sound :=
    fun n before => before.of_thins (lightens.unused n)
  rcases lightens.lock l with same | ⟨-, loses⟩
  · refine ⟨by rw [same], fun _ free => by rw [same, free], ?_, fun _ => unused, sound⟩
    exact Or.inr (Or.inl (by rw [same]))
  · refine ⟨by rw [loses]; exact Eq.refl _, fun _ free => by rw [loses]; exact free, ?_,
      fun _ => unused, sound⟩
    exact Or.inr (Or.inr (by rw [loses]))

theorem modifyLock {f : Lock → Lock}
    (own : l = k → (f (m.lock k)).isDestroyed = (m.lock k).isDestroyed ∧
      ((f (m.lock k)).link = (m.lock k).link ∨ (f (m.lock k)).link = none) ∧
      (may ∨ (f (m.lock k)).bound = (m.lock k).bound ∨ (f (m.lock k)).bound = none)) :
    Wanes may l m (m.modifyLock k f) := by
  by_cases here : l = k
  · subst here
    obtain ⟨destroyed, link, bound⟩ := own (Eq.refl l)
    have after : (m.modifyLock l f).lock l = f (m.lock l) := by
      rw [lock_modifyLock, if_pos (Eq.refl l)]
    refine of_locks (Eq.refl _) (by rw [after, destroyed]) (fun _ free => ?_) (by rwa [after])
    rw [after]
    exact link.elim (·.trans free) id
  · have after : (m.modifyLock k f).lock l = m.lock l := by rw [lock_modifyLock, if_neg here]
    refine of_locks (Eq.refl _) (by rw [after]) (fun _ free => by rw [after, free]) ?_
    rw [after]
    exact Or.inr (Or.inl (Eq.refl _))

/-- Another list of unused locks of one namespace, which has lost locks at most. -/
theorem of_space {s : Namespace} (locks : m'.locks = m.locks)
    (space : ∀ k, m'.space k = if k = n then s else m.space k)
    (unused : (m.lock l).isDestroyed → l ∈ s.lru.toList → l ∈ (m.space n).lru.toList)
    (sound : (m.space n).lru.Sound → s.lru.Sound) : Wanes may l m m' := by
  refine of_lists locks (fun gone k => ?_) fun k => ?_
  · rw [space]
    split
    · rename_i here
      rw [here]
      exact unused gone
    · exact id
  · rw [space]
    split
    · rename_i here
      rw [here]
      exact sound
    · exact id

theorem modifySpace {f : Namespace → Namespace}
    (unused : (m.lock l).isDestroyed → l ∈ (f (m.space n)).lru.toList →
      l ∈ (m.space n).lru.toList)
    (sound : (m.space n).lru.Sound → (f (m.space n)).lru.Sound) :
    Wanes may l m (m.modifySpace n f) :=
  of_space (Eq.refl _) (fun k => space_modifySpace m n k f) unused sound

end Wanes

end Manager

namespace Act

variable {may : Prop} {m : Manager} {l k anchor : LockKey} {n : SpaceKey} {r : ResourceRef}
  {q : Queue}

theorem wanes_of_lightens {α : Type} {act : Act α} (lightens : act.Preserves Lightens) :
    act.Preserves (Wanes may l) :=
  lightens.mono fun _ _ => .of_lightens

theorem wanes_modifySpace {f : Namespace → Namespace} (lru : ∀ s, (f s).lru = s.lru) :
    (modifySpace n f).Preserves (Wanes may l) := by
  refine fun m => Wanes.modifySpace (fun _ => ?_) ?_
  · rw [lru]
    exact id
  · rw [lru]
    exact id

theorem wanes_owners (count : Nat → Nat) :
    (modifyLock k fun lk => { lk with owners := count lk.owners }).Preserves (Wanes may l) :=
  fun _ => .modifyLock fun _ => ⟨rfl, Or.inl rfl, Or.inr (Or.inl rfl)⟩

theorem wanes_unbound :
    (modifyLock k fun lk => { lk with bound := none }).Preserves (Wanes may l) :=
  fun _ => .modifyLock fun _ => ⟨rfl, Or.inl rfl, Or.inr (Or.inr rfl)⟩

theorem wanes_dropBound : (dropBound k).Preserves (Wanes may l) := by
  refine preserves_lock.bind fun lk => ?_
  split
  · exact preserves_pure _
  · exact wanes_unbound.bind fun _ => (wanes_of_lightens lightens_put).discard

theorem wanes_disown : (disown k).Preserves (Wanes may l) := by
  refine (wanes_owners (· - 1)).bind fun _ => preserves_get.bind fun m => ?_
  split
  · exact wanes_dropBound
  · exact preserves_pure _

theorem wanes_unbind : (unbind k).Preserves (Wanes may l) :=
  preserves_lock.bind fun _ => wanes_unbound.bind fun _ => preserves_pure _

/-- Nobody but the lock itself gets the reference. -/
theorem wanes_bind (own : l = k → may) : (bind k r).Preserves (Wanes may l) := by
  have homes : (modifyLock k fun lk => { lk with home := some r }).Preserves (Wanes may l) :=
    fun _ => .modifyLock fun _ => ⟨rfl, Or.inl rfl, Or.inr (Or.inl rfl)⟩
  have binds : (modifyLock k fun lk => { lk with bound := some r }).Preserves (Wanes may l) :=
    fun _ => .modifyLock fun here => ⟨rfl, Or.inl rfl, Or.inl (own here)⟩
  exact preserves_bind homes binds (fun _ => wanes_of_lightens (lightens_log _ _))
    fun _ => wanes_of_lightens lightens_put

/-- A lock that is destroyed is not put back onto a list of unused locks. -/
theorem wanes_lockUnused : (lockUnused n k).Preserves (Wanes may l) := by
  intro m
  cases refused : (m.space n).lru.finalized || (m.lock k).isDestroyed with
  | true =>
    obtain ⟨m', run, space, locks, -⟩ := lockUnused_of_refused refused
    refine leaves_of_run run (Wanes.of_lists locks (fun _ n => ?_) fun n => ?_)
    · rw [space]
      exact id
    · rw [space]
      exact id
  | false =>
    obtain ⟨m', run, -, space, lock⟩ := lockUnused_of_added refused
    refine leaves_of_run run ⟨?_, fun _ free => ?_, Or.inr (Or.inl ?_), fun gone n member => ?_,
      fun n sound => ?_⟩
    · rw [lock]
      split
      · rename_i same
        rw [same]
        rfl
      · rfl
    · rw [lock]
      split
      · rename_i same
        rw [← free, same]
      · exact free
    · rw [lock]
      split
      · rename_i same
        rw [same]
      · rfl
    · have other : l ≠ k := by
        rintro rfl
        rw [gone, Bool.or_true] at refused
        cases refused
      rw [space] at member
      split at member
      · rename_i here
        subst here
        exact UnusedLru.mem_of_erase ((UnusedLru.mem_append.mp member).resolve_right other)
      · exact member
    · rw [space]
      split
      · rename_i here
        subst here
        exact sound.append_erase k
      · exact sound

theorem run_lockReused_eq (n : SpaceKey) (k : LockKey) (m : Manager) :
    lockReused n k m = .ok ((m.space n).lru.remove k).1
      (m.modifySpace n fun s => { s with lru := ((m.space n).lru.remove k).2 }) :=
  rfl

theorem wanes_lockReused : (lockReused n k).Preserves (Wanes may l) := by
  intro m
  refine leaves_of_run (run_lockReused_eq n k m) (Wanes.modifySpace (fun _ => ?_) fun sound => ?_)
  · rw [UnusedLru.snd_remove]
    exact UnusedLru.mem_of_erase
  · exact sound.remove k

theorem wanes_takeVictims (limits : VictimLimits) :
    (takeVictims n limits).Preserves (Wanes may l) := by
  intro m
  obtain ⟨m', run, -, locks, space⟩ := exists_takeVictims n limits m
  refine leaves_of_run run (Wanes.of_space locks space (fun _ => ?_) fun sound => ?_)
  · exact (UnusedLru.Thins.takeVictims limits _).mem
  · exact sound.takeVictims limits _

theorem wanes_takeAllUnused : (takeAllUnused n).Preserves (Wanes may l) := by
  intro m
  obtain ⟨m', run, -, locks, space⟩ := exists_takeAllUnused n m
  exact leaves_of_run run (Wanes.of_space locks space (fun _ => nofun) fun _ => .takeAll _)

/-- A new namespace has no unused locks. -/
theorem wanes_build (setup : Setup) : (build setup).Preserves (Wanes may l) := by
  unfold build
  split
  · exact preserves_pure _
  · rename_i preset given
    refine Preserves.bind (fun _ => .of_lightens (.of_same rfl rfl rfl)) fun _ =>
      Preserves.bind (fun m => ?_) fun n =>
        (wanes_of_lightens lightens_register).bind fun _ => preserves_pure _
    let fresh := setup.toNamespace preset
    let m₁ : Manager := { m with
      spaces := m.spaces.set m.spaces.nextKey fresh
      gauges := fresh.stats.publish 0 0 m.gauges }
    show Wanes may l m m₁
    exact Wanes.of_space rfl (space_added rfl) (fun _ => nofun) fun _ => .empty

/-- A new lock is not destroyed, on no queue and owns nothing, like whatever was in its place. -/
theorem wanes_newLock (handle : LockHandle) (mode : LockMode) (extent : Option Extent) :
    (newLock handle mode extent).Preserves (Wanes may l) := by
  intro m
  have unused : m.lock m.locks.nextKey = default := Store.get_of_size_le _ (Nat.le_refl _)
  have fresh : Wanes may l m (m.modifyLock m.locks.nextKey fun _ =>
      { handle, mode, extent, lastUsed := m.clock + 1, owners := 1 }) := by
    refine .modifyLock fun _ => ⟨?_, Or.inr rfl, Or.inr (Or.inr rfl)⟩
    rw [unused]
    rfl
  exact ⟨fresh.destroyed, fresh.link, fresh.bound, fresh.unused, fresh.sound⟩

end Act

end Lockspace
