import Lockspace.Proofs.Notices.Telling
import Lockspace.Proofs.Unused.Victims

namespace Lockspace

open Manager Act

namespace UnusedLru

variable {limits : VictimLimits} {age : LockKey → Nat} {locks : List LockKey}
  {total pos bound : Nat} {u : UnusedLru}

/-- The victims are the oldest locks, and among them are those that some limit asks for by their
place alone. -/
theorem exists_victimsFrom_eq (age : LockKey → Nat) {pos : Nat}
    (asked : ∀ i age, i < bound → limits.takes total i age)
    (within : bound ≤ pos + locks.length) : ∃ k, bound ≤ pos + k ∧ k ≤ locks.length ∧
      victimsFrom limits total age pos locks = locks.take k := by
  induction locks generalizing pos with
  | nil => exact ⟨0, within, le_refl 0, rfl⟩
  | cons l rest ih =>
    unfold victimsFrom
    split
    · rw [List.length_cons, ← Nat.add_assoc, Nat.add_right_comm] at within
      obtain ⟨k, beyond, most, taken⟩ := ih within
      refine ⟨k + 1, by omega, Nat.succ_le_succ most, ?_⟩
      rw [List.take_succ_cons, taken]
    · rename_i spared
      refine ⟨0, ?_, Nat.zero_le _, rfl⟩
      by_contra early
      exact spared (asked pos (age l) (Nat.lt_of_not_le early))

theorem Sound.exists_takeVictims_eq (sound : u.Sound) (age : LockKey → Nat)
    (asked : ∀ i age, i < bound → limits.takes u.size i age) (within : bound ≤ u.size) :
    ∃ k, bound ≤ k ∧ k ≤ u.size ∧ (u.takeVictims limits age).1 = u.toList.take k ∧
      (u.takeVictims limits age).2 = u.without (u.toList.take k) := by
  have size : u.size = u.toList.length := (List.length_map _).symm
  have listed : bound ≤ 0 + u.toList.length := by rwa [Nat.zero_add, ← size]
  obtain ⟨k, beyond, most, taken⟩ := exists_victimsFrom_eq age asked listed
  rw [Nat.zero_add] at beyond
  rw [← size] at most
  refine ⟨k, beyond, most, taken, ?_⟩
  show List.foldl erase u (victimsFrom limits u.size age 0 u.toList) = _
  rw [taken, sound.foldl_erase]

end UnusedLru

namespace Act

theorem leaves_anything {α : Type} {act : Act α} {m : Manager} :
    act.Leaves m fun _ _ => True := by
  unfold Leaves
  cases act m with
  | ok a m' => trivial
  | error fault m' => trivial

end Act

namespace VictimCancel

variable {m : Manager} {n : SpaceKey} {v w : VictimCancel}

/-- A cancellation goes on with the same victims. -/
def Continues (v w : VictimCancel) : Prop :=
  w.space = v.space ∧ w.victims = v.victims

theorem leaves_start_named (policy : LockPolicy) (victims : List LockKey) (flags : LockFlags) :
    (start policy n victims flags).Leaves m fun answer _ =>
      ∀ v, answer = .ok v → v.space = n ∧ v.victims = victims := by
  unfold start
  refine leaves_anything.bind (fun _ m₁ _ => ?_) fun _ _ _ => nofun
  refine leaves_anything.bind (fun _ m₂ _ => ?_) fun _ _ _ => nofun
  refine leaves_after (run_space n m₂) (leaves_pure.mpr ?_)
  rintro v made
  cases made
  exact ⟨rfl, rfl⟩

/-- The number that a cancellation returns is that of its victims. -/
theorem leaves_turn_counted (v : VictimCancel) : v.turn.Leaves m fun answer _ =>
    match answer with
    | .ok (.returns k) => k = v.victims.length
    | .ok (.goes w) | .ok (.asks _ w) | .ok (.parks _ w) => v.Continues w
    | .error _ => True := by
  unfold turn
  split
  · split
    · exact leaves_after (a := ()) rfl ⟨rfl, rfl⟩
    · exact ⟨rfl, rfl⟩
  · split
    · exact leaves_anything.bind (fun _ _ _ => leaves_pure.mpr rfl) fun _ _ _ => trivial
    · exact ⟨rfl, rfl⟩

theorem leaves_answered_same (l : LockKey) (failure : Option LockError) :
    (v.answered l failure).Leaves m fun answer _ => ∀ w, answer = .ok w → v.Continues w := by
  have same : ∀ w, (Except.ok { v with asking := v.asking.erase l } : Except Fault _) = .ok w →
      v.Continues w := by
    rintro w made
    cases made
    exact ⟨rfl, rfl⟩
  unfold answered
  cases failure with
  | none => exact leaves_pure.mpr same
  | some e =>
    exact leaves_after (run_lock l m) (leaves_after (run_space v.space m)
      (leaves_after (run_log _ _ m) (leaves_pure.mpr same)))

end VictimCancel

/-- What the end of a change of the LRU size makes of the connect flags. -/
def ResizeEnd.revise (last : ResizeEnd) (flags : UInt64) : UInt64 :=
  match last with
  | .keep => flags
  | .disable => flags &&& ~~~connectLruResize
  | .enable => flags ||| connectLruResize

theorem Act.exists_endResize (n : SpaceKey) (last : ResizeEnd) (m : Manager) :
    ∃ m', endResize n last m = .ok () m' ∧ m'.locks = m.locks ∧
      ∀ k, m'.space k = if k = n then
        { m.space n with connectFlags := last.revise (m.space n).connectFlags } else m.space k := by
  cases last with
  | keep =>
    refine ⟨m, rfl, rfl, fun k => ?_⟩
    split
    · rename_i here
      rw [here]
      rfl
    · rfl
  | disable => exact ⟨_, rfl, rfl, fun k => space_modifySpace m n k _⟩
  | enable => exact ⟨_, rfl, rfl, fun k => space_modifySpace m n k _⟩

namespace Task

variable {m : Manager} {n : SpaceKey} {v : VictimCancel} {last : ResizeEnd}

/-- A cancellation leaves the unused locks alone, and its end leaves nothing but connect flags. -/
theorem leaves_turn_cancel (n : SpaceKey) (v : VictimCancel) (last : ResizeEnd) :
    ((cancel v last).turn .default).Leaves m fun answer m' =>
      ∃ m₁, Beside n (fun _ => False) m m₁ ∧
        match answer with
        | .ok (.returns outcome) =>
          outcome = .count v.victims.length ∧ endResize v.space last m₁ = .ok () m'
        | .ok (.goes t) | .ok (.asks _ t) | .ok (.parks _ t) =>
          m' = m₁ ∧ ∃ w, v.Continues w ∧ t = cancel w last
        | .error _ => m' = m₁ := by
  refine ((VictimCancel.beside_turn m).and v.leaves_turn_counted).bind (fun turn m₁ after => ?_)
    fun _ m₁ after => ⟨m₁, after.1, rfl⟩
  obtain ⟨beside, counted⟩ := after
  cases turn with
  | goes w => exact ⟨m₁, beside, rfl, w, counted, rfl⟩
  | asks l w => exact ⟨m₁, beside, rfl, w, counted, rfl⟩
  | parks bound w => exact ⟨m₁, beside, rfl, w, counted, rfl⟩
  | returns k =>
    obtain ⟨m', ends, -⟩ := exists_endResize v.space last m₁
    exact leaves_after ends ⟨m₁, beside, congrArg Outcome.count counted, ends⟩

theorem leaves_meet_cancel (n : SpaceKey) (v : VictimCancel) (last : ResizeEnd) (h : Happening) :
    ((cancel v last).meet .default h).Leaves m fun answer m' =>
      ∃ m₁, Beside n (fun _ => False) m m₁ ∧
        match answer with
        | .ok none => m' = m₁ ∨ endResize v.space last m₁ = .ok () m'
        | .ok (some t) => m' = m₁ ∧ ∃ w, v.Continues w ∧ t = cancel w last
        | .error _ => m' = m₁ := by
  cases h with
  | turn =>
    refine (leaves_turn_cancel n v last).bind (fun turn m' after => ?_) fun _ m' after => after
    obtain ⟨m₁, beside, after⟩ := after
    cases turn with
    | goes t => exact ⟨m₁, beside, after⟩
    | asks l t => exact ⟨m₁, beside, after⟩
    | parks bound t => exact ⟨m₁, beside, after⟩
    | returns outcome => exact ⟨m₁, beside, Or.inr after.2⟩
  | expired => exact ⟨m, .rfl, rfl, v, ⟨rfl, rfl⟩, rfl⟩
  | answered l failure =>
    have hears : ((cancel v last).answered l failure).Leaves m fun answer m₁ =>
        Beside n (fun _ => False) m m₁ ∧
          ∀ t, answer = .ok t → ∃ w, v.Continues w ∧ t = cancel w last := by
      refine ((VictimCancel.beside_answered failure m).and
        (v.leaves_answered_same l failure)).bind (fun w m₁ after => ⟨after.1, ?_⟩)
        fun _ _ after => ⟨after.1, nofun⟩
      rintro t made
      cases made
      exact ⟨w, after.2 w rfl, rfl⟩
    exact hears.bind (fun t m₁ after => ⟨m₁, after.1, rfl, after.2 t rfl⟩)
      fun _ m₁ after => ⟨m₁, after.1, rfl⟩
  | pressed step failure => exact ⟨m, .rfl, rfl, v, ⟨rfl, rfl⟩, rfl⟩
  | abandoned =>
    exact (VictimCancel.beside_abandon m).bind (fun _ m₁ after => ⟨m₁, after, Or.inl rfl⟩)
      fun _ m₁ after => ⟨m₁, after, rfl⟩

end Task

namespace Act

variable {m : Manager} {n : SpaceKey}

/-- A cancellation takes the oldest unused locks, at least those that are asked for by their
place. -/
theorem leaves_cancelLru_taken (sound : (m.space n).lru.Sound) (held : 0 < (m.space n).owners)
    (count bound : Nat) (flags : LockFlags)
    (asked : ∀ i age, i < bound → ((m.space n).victimLimits count).takes (m.space n).lru.size i age)
    (within : bound ≤ (m.space n).lru.size) :
    (cancelLru .default n count flags).Leaves m fun answer m' =>
      (m'.space n).settings = (m.space n).settings ∧ ∃ k, bound ≤ k ∧ k ≤ (m.space n).lru.size ∧
        (m'.space n).lru = (m.space n).lru.without ((m.space n).lru.toList.take k) ∧
        ∀ v, answer = .ok v → v.space = n ∧ v.victims.length = k := by
  obtain ⟨m₁, takes, -, -, space⟩ := exists_takeVictims n ((m.space n).victimLimits count) m
  obtain ⟨k, least, most, victims, left⟩ := sound.exists_takeVictims_eq
    (fun l => m.clock + 1 - (m.lock l).lastUsed) asked within
  refine leaves_after (run_space n m) (leaves_after takes ?_)
  rw [victims]
  have here : m₁.space n = { m.space n with
      lru := (m.space n).lru.without ((m.space n).lru.toList.take k) } := by
    rw [space, if_pos rfl, left]
  refine ((VictimCancel.beside_start (n := n) (· ∈ (m.space n).lru.toList.take k)
    (fun _ => id) flags m₁).and (VictimCancel.leaves_start_named _ _ _)).imp fun answer m' after => ?_
  obtain ⟨beside, named⟩ := after
  refine ⟨beside.settings.trans (by rw [here]; rfl), k, least, most, ?_, fun v made => ?_⟩
  · have thins := beside.unused (by rw [here]; exact held)
    rw [here] at thins
    refine (sound.without _).thins_of_absent thins fun l victim member => ?_
    exact (UnusedLru.mem_without.mp member).2 victim
  · obtain ⟨place, same⟩ := named v made
    refine ⟨place, ?_⟩
    rw [same, List.length_take]
    exact min_eq_left (most.trans_eq (List.length_map _).symm)

end Act

namespace Namespace

/-- What is left to do to the connect flags of a namespace once a new LRU size is in force. -/
def resizeEnd (s : Namespace) (size : UInt32) : ResizeEnd :=
  if s.lruResizeEnabled then (if size ≠ 0 then .disable else .keep)
  else if size = 0 && s.origConnectFlags &&& connectLruResize != 0 then .enable else .keep

/-- The LRU size in store afterwards: the new one, unless the server goes on to drive it. -/
def storedSize (s : Namespace) (size : UInt32) : UInt32 :=
  if s.lruResizeEnabled ∧ size = 0 then s.config.lruSize else size

variable {s : Namespace} {count total i age : Nat}

theorem takes_of_count (within : i < count) : (s.victimLimits count).takes total i age := by
  simp [victimLimits, VictimLimits.takes, within]

/-- While the size is fixed, whatever is beyond it is asked for. -/
theorem takes_of_size (fixed : s.lruResizeEnabled = false)
    (beyond : i < total - s.config.lruSize.toNat) :
    (s.victimLimits count).takes total i age := by
  have many : total - i > s.config.lruSize.toNat := by omega
  simp [victimLimits, VictimLimits.takes, fixed, many]

end Namespace

/-- A namespace has lost so many of its oldest unused locks, with all beyond an LRU size, and has
that size in store. -/
structure Shrunk (s s' : Namespace) (size : UInt32) (k : Nat) : Prop where
  owners : s'.owners = s.owners
  flags : s'.connectFlags = s.connectFlags
  orig : s'.origConnectFlags = s.origConnectFlags
  stored : s'.config.lruSize = s.storedSize size
  least : s.lru.size - size.toNat ≤ k
  most : k ≤ s.lru.size
  left : s'.lru = s.lru.without (s.lru.toList.take k)

theorem Shrunk.congr {s s' s'' : Namespace} {size : UInt32} {k : Nat} (shrunk : Shrunk s s' size k)
    (settings : s''.settings = s'.settings) (lru : s''.lru = s'.lru) : Shrunk s s'' size k := by
  simp only [Namespace.settings, Prod.mk.injEq] at settings
  obtain ⟨owners, config, flags, orig⟩ := settings
  exact ⟨owners.trans shrunk.owners, flags.trans shrunk.flags, orig.trans shrunk.orig,
    by rw [config, shrunk.stored], shrunk.least, shrunk.most, lru.trans shrunk.left⟩

namespace Act

variable {m m₀ : Manager} {n : SpaceKey} {size : UInt32}

/-- Once a new LRU size is in store, the locks beyond it are cancelled. -/
theorem leaves_cancelLru_stored (sound : (m.space n).lru.Sound) (held : 0 < (m.space n).owners)
    (here : m₀.space n = { m.space n with
      config := { (m.space n).config with lruSize := (m.space n).storedSize size } })
    {count : Nat} {last : ResizeEnd} (asked : ∀ i age, i < (m.space n).lru.size - size.toNat →
      ((m₀.space n).victimLimits count).takes (m.space n).lru.size i age)
    (ends : last = (m.space n).resizeEnd size) :
    (do return (← cancelLru .default n count .none, last) : Act _).Leaves m₀ fun answer m' =>
      ∃ k, Shrunk (m.space n) (m'.space n) size k ∧ ∀ v last, answer = .ok (v, last) →
        v.space = n ∧ v.victims.length = k ∧ last = (m.space n).resizeEnd size := by
  have lru : (m₀.space n).lru = (m.space n).lru := by rw [here]
  rw [← lru] at asked
  refine (leaves_cancelLru_taken (by rwa [lru]) (by rw [here]; exact held) _ _ .none asked
    (by rw [lru]; exact Nat.sub_le ..)).bind (fun v m' after => ?_) fun fault m' after => ?_
  all_goals
    obtain ⟨settings, k, least, most, left, named⟩ := after
    rw [lru] at least most left
    rw [here] at settings
    simp only [Namespace.settings, Prod.mk.injEq] at settings
    obtain ⟨owners, config, flags, orig⟩ := settings
    refine ⟨k, ⟨owners, flags, orig, by rw [config], least, most, left⟩, ?_⟩
  · rintro w last made
    cases made
    obtain ⟨place, length⟩ := named v rfl
    exact ⟨place, length, ends⟩
  · nofun

/-- However the LRU size is driven, a new one takes the locks beyond it off the unused ones. -/
theorem leaves_setLruSize (sound : (m.space n).lru.Sound) (held : 0 < (m.space n).owners)
    (size : UInt32) : (setLruSize .default n (.value size)).Leaves m fun answer m' =>
      ∃ k, Shrunk (m.space n) (m'.space n) size k ∧ ∀ v last, answer = .ok (v, last) →
        v.space = n ∧ v.victims.length = k ∧ last = (m.space n).resizeEnd size := by
  unfold setLruSize
  refine leaves_after (run_space n m) ?_
  dsimp only
  split
  · rename_i enabled
    split
    · rename_i nonzero
      refine leaves_after (a := ()) rfl (leaves_cancelLru_stored sound held ?_ ?_ ?_)
      · rw [space_modifySpace, if_pos rfl, Namespace.storedSize, if_neg fun zero => nonzero zero.2]
      · exact fun i age beyond => Namespace.takes_of_count (by omega)
      · rw [Namespace.resizeEnd, if_pos enabled, if_pos nonzero]
    · rename_i zero
      refine leaves_cancelLru_stored sound held ?_ ?_ ?_
      · rw [Namespace.storedSize, if_pos ⟨enabled, not_not.mp zero⟩]
      · exact fun i age beyond => Namespace.takes_of_count (by omega)
      · rw [Namespace.resizeEnd, if_pos enabled, if_neg zero]
  · rename_i fixed
    refine leaves_after (a := ()) rfl (leaves_cancelLru_stored sound held ?_ ?_ ?_)
    · rw [space_modifySpace, if_pos rfl, Namespace.storedSize, if_neg fun zero => fixed zero.1]
    · intro i age beyond
      rw [space_modifySpace, if_pos rfl]
      exact Namespace.takes_of_size (Bool.eq_false_iff.mpr fixed) beyond
    · rw [Namespace.resizeEnd, if_neg fixed]

/-- A clear takes all unused locks and changes no setting. -/
theorem leaves_setLruSize_clear (held : 0 < (m.space n).owners) :
    (setLruSize .default n .clear).Leaves m fun answer m' =>
      (m'.space n).settings = (m.space n).settings ∧ (m'.space n).lru.Sound ∧
        ∀ v last, answer = .ok (v, last) → v.space = n ∧ last = .keep := by
  obtain ⟨m₁, takes, -, -, space⟩ := exists_takeAllUnused n m
  have here : m₁.space n = { m.space n with lru := (m.space n).lru.takeAll.2 } := by
    rw [space, if_pos rfl]
  have cleared : (m₁.space n).lru.Sound := by
    rw [here]
    exact .takeAll _
  unfold setLruSize
  refine leaves_after takes (((VictimCancel.beside_start (n := n) (fun _ => True)
    (fun _ _ => trivial) .none m₁).and (VictimCancel.leaves_start_named _ _ _)).bind
      (fun v m' after => ?_) fun fault m' after => ?_)
  all_goals
    obtain ⟨beside, named⟩ := after
    refine ⟨beside.settings.trans (by rw [here]; rfl), ?_, ?_⟩
    · exact cleared.of_thins (beside.unused (by rw [here]; exact held))
  · rintro w last made
    cases made
    exact ⟨(named v rfl).1, rfl⟩
  · nofun

end Act

namespace Act

/-- Locks are made that become unused one after another. -/
def cacheNew (n : SpaceKey) : List LockHandle → Act Unit
  | [] => pure ()
  | handle :: rest => do
    let l ← newLock handle .ex none
    let _ ← lockUnused n l
    cacheNew n rest

/-- Whatever holds of namespaces alone and goes on to hold when a lock becomes unused. -/
theorem holds_of_cacheNew {n : SpaceKey} {handles : List LockHandle} {m m' : Manager}
    {I : Manager → Prop} (same : ∀ m m', m'.spaces = m.spaces → I m → I m')
    (unused : ∀ m m' l added, lockUnused n l m = .ok added m' → I m → I m') (start : I m)
    (run : cacheNew n handles m = .ok () m') : I m' := by
  induction handles generalizing m with
  | nil =>
    cases run
    exact start
  | cons handle rest ih =>
    obtain ⟨l, m₁, made, run⟩ := ok_of_bind run
    obtain ⟨_, m₂, cached, later⟩ := ok_of_bind run
    have spaces : m₁.spaces = m.spaces := by
      cases made
      rfl
    exact ih (unused m₁ m₂ l _ cached (same m m₁ spaces start)) later

end Act

end Lockspace
