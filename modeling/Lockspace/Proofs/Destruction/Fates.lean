import Lockspace.Proofs.Destruction.Ordinary

namespace Lockspace

open Manager Act

/-- How far the first destruction of a lock has come: the lock is marked and off its queue, then it
is off the unused locks as well, then its reference is released too. -/
inductive Stage where
  | marked
  | reaped
  | ended
deriving DecidableEq

/-- The first destruction of a lock. -/
structure Ending where
  space : SpaceKey
  /-- The state in which it found the lock. -/
  found : Manager
  /-- The number of the last reference that the lock had been given by then. -/
  serial : Nat
  stage : Stage := .marked

/-- What became of a lock. The references that it was given are numbered in order; those that it
dropped are known by their numbers, and one that was taken back from it is not among them. -/
structure Fate where
  given : Nat := 0
  dropped : List Nat := []
  ending : Option Ending := none

namespace Fate

/-- Whether the first destruction of the lock is under way. -/
def Open (fate : Fate) : Prop :=
  ∃ e, fate.ending = some e ∧ e.stage ≠ .ended

/-- What a call from one state to another adds to the fate of a lock. A lock drops its reference if
it loses it and it was not taken back, and if it gets another one in its place. -/
def after (fate : Fate) (t : Transfer) (l : LockKey) (m m' : Manager) : Fate :=
  { fate with
    given := if t = .given l then fate.given + 1 else fate.given
    dropped :=
      if (m.lock l).bound ≠ none ∧
        (t = .given l ∨ t ≠ .returned l ∧ (m'.lock l).bound = none) then
        fate.dropped ++ [fate.given]
      else fate.dropped }

/-- The first destruction starts. -/
def begun (fate : Fate) (n : SpaceKey) (m : Manager) : Fate :=
  { fate with ending := some { space := n, found := m, serial := fate.given } }

/-- The first destruction comes to a further stage. -/
def reaching (fate : Fate) (stage : Stage) : Fate :=
  { fate with ending := fate.ending.map ({ · with stage }) }

/-- What became of locks once somebody who destroys one of them has marked it. -/
def struck (fates : LockKey → Fate) (n : SpaceKey) (l : LockKey) (first : Bool) (m m' : Manager)
    (k : LockKey) : Fate :=
  if k = l ∧ first then (fates l).begun n m else (fates k).after .none k m m'

/-- What became of locks once the first destruction of one of them has come to a further stage. -/
def advanced (fates : LockKey → Fate) (l : LockKey) (stage : Stage) (m m' : Manager)
    (k : LockKey) : Fate :=
  if k = l then ((fates l).after .none l m m').reaching stage else (fates k).after .none k m m'

variable {fate : Fate} {fates : LockKey → Fate} {t : Transfer} {n : SpaceKey} {l k : LockKey}
  {first : Bool} {stage : Stage} {m m' : Manager}

theorem given_after_none : (fate.after .none l m m').given = fate.given := by
  unfold after
  rw [if_neg]
  exact nofun

theorem given_struck : (struck fates n l first m m' k).given = (fates k).given := by
  unfold struck
  split
  · rename_i here
    rw [here.1]
    rfl
  · exact given_after_none

theorem ending_struck : (struck fates n l first m m' k).ending = if k = l ∧ first then
    some { space := n, found := m, serial := (fates l).given } else (fates k).ending := by
  unfold struck
  split
  · rfl
  · rfl

theorem given_advanced : (advanced fates l stage m m' k).given = (fates k).given := by
  unfold advanced
  split
  · rename_i here
    rw [here]
    show ((fates l).after .none l m m').given = _
    exact given_after_none
  · exact given_after_none

theorem ending_advanced : (advanced fates l stage m m' k).ending =
    if k = l then (fates l).ending.map ({ · with stage }) else (fates k).ending := by
  unfold advanced
  split
  · rfl
  · rfl

theorem after_of_given : fate.after (.given l) l m m' =
    { fate with
      given := fate.given + 1
      dropped :=
        if (m.lock l).bound ≠ none then fate.dropped ++ [fate.given] else fate.dropped } := by
  simp only [after, if_pos, true_or, and_true]

theorem after_of_kept (other : t ≠ .given l)
    (kept : (m.lock l).bound ≠ none → t ≠ .returned l → (m'.lock l).bound ≠ none) :
    fate.after t l m m' = fate := by
  unfold after
  rw [if_neg other, if_neg]
  rintro ⟨owned, given | ⟨own, lost⟩⟩
  · exact other given
  · exact kept owned own lost

theorem after_of_lost (other : t ≠ .given l) (own : t ≠ .returned l)
    (owned : (m.lock l).bound ≠ none) (lost : (m'.lock l).bound = none) :
    fate.after t l m m' = { fate with dropped := fate.dropped ++ [fate.given] } := by
  unfold after
  rw [if_neg other, if_pos ⟨owned, Or.inr ⟨own, lost⟩⟩]

end Fate

namespace Manager

/-- How a lock stands whose first destruction has begun. It is on no queue if it was to be found on
its own, soon on no list of unused locks of the namespace in which it is destroyed, and the
reference that it owned then is dropped, or still its own until the destruction is over. -/
structure Closing (m : Manager) (l : LockKey) (fate : Fate) (e : Ending) : Prop where
  serial : e.serial ≤ fate.given
  free : e.found.AtHome l → (m.lock l).link = none
  away : e.stage ≠ .marked → l ∉ (m.space e.space).lru.toList
  owned : ∀ r, (e.found.lock l).bound = some r → e.serial ∈ fate.dropped ∨
    e.stage ≠ .ended ∧ fate.given = e.serial ∧ (m.lock l).bound = some r
  spent : e.stage = .ended → fate.given = e.serial → (m.lock l).bound = none

/-- What became of a lock fits the state. No reference was dropped twice, and the one that the lock
owns was not dropped. -/
structure Fits (m : Manager) (l : LockKey) (fate : Fate) : Prop where
  known : ∀ serial ∈ fate.dropped, serial ≤ fate.given
  once : fate.dropped.Nodup
  kept : (m.lock l).bound ≠ none → fate.given ∉ fate.dropped
  destroyed : (m.lock l).isDestroyed ↔ fate.ending ≠ none
  closing : ∀ e, fate.ending = some e → Closing m l fate e

variable {may : Prop} {m m' : Manager} {l : LockKey} {fate : Fate} {t : Transfer} {n : SpaceKey}
  {e : Ending}

namespace Fits

theorem gone (fits : Fits m l fate) (ending : fate.ending = some e) :
    (m.lock l).isDestroyed := by
  rw [fits.destroyed, ending]
  exact Option.some_ne_none e

theorem nodup_drop (fits : Fits m l fate) (owned : (m.lock l).bound ≠ none) :
    (fate.dropped ++ [fate.given]).Nodup := by
  rw [← List.concat_eq_append]
  exact fits.once.concat (fits.kept owned)

/-- Once a lock is off its queue and off the unused ones in its destruction, it stays off. -/
theorem still (fits : Fits m l fate) (ending : fate.ending = some e) (wanes : Wanes may l m m') :
    (e.found.AtHome l → (m'.lock l).link = none) ∧
      (e.stage ≠ .marked → l ∉ (m'.space e.space).lru.toList) := by
  have closing := fits.closing e ending
  have gone := fits.gone ending
  refine ⟨fun home => wanes.link gone (closing.free home), fun further member => ?_⟩
  exact closing.away further (wanes.unused gone _ member)

/-- The lock keeps its reference, or one that no destruction is about to drop is taken away. -/
theorem unchanged (fits : Fits m l fate) (wanes : Wanes False l m m')
    (keeps : fate.Open → (m.lock l).bound ≠ none → (m'.lock l).bound ≠ none) : Fits m' l fate := by
  have bound := wanes.bound.resolve_left id
  refine ⟨fits.known, fits.once, fun owned => ?_, ?_, fun e ending => ?_⟩
  · rw [bound.resolve_right owned] at owned
    exact fits.kept owned
  · rw [wanes.destroyed]
    exact fits.destroyed
  · have closing := fits.closing e ending
    obtain ⟨free, away⟩ := fits.still ending wanes
    refine ⟨closing.serial, free, away, fun r owned => ?_, fun ended last => ?_⟩
    · rcases closing.owned r owned with dropped | ⟨further, last, own⟩
      · exact Or.inl dropped
      · have still := keeps ⟨e, ending, further⟩ (by rw [own]; exact Option.some_ne_none r)
        exact Or.inr ⟨further, last, by rw [bound.resolve_right still, own]⟩
    · have none := closing.spent ended last
      rw [none] at bound
      exact bound.elim id id

/-- The lock drops its reference, whose number is then among the dropped ones. -/
theorem loses (fits : Fits m l fate) (wanes : Wanes may l m m') (owned : (m.lock l).bound ≠ none)
    (lost : (m'.lock l).bound = none) :
    Fits m' l { fate with dropped := fate.dropped ++ [fate.given] } := by
  refine ⟨fun serial member => ?_, ?_, fun again => absurd lost again, ?_, fun e ending => ?_⟩
  · rcases List.mem_append.mp member with before | last
    · exact fits.known serial before
    · exact (List.mem_singleton.mp last).le
  · exact fits.nodup_drop owned
  · rw [wanes.destroyed]
    exact fits.destroyed
  · have closing := fits.closing e ending
    obtain ⟨free, away⟩ := fits.still ending wanes
    refine ⟨closing.serial, free, away, fun r own => Or.inl ?_, fun _ _ => lost⟩
    rcases closing.owned r own with dropped | ⟨-, last, -⟩
    · exact List.mem_append_left _ dropped
    · rw [← last]
      exact List.mem_append_right _ (List.mem_singleton_self _)

/-- The lock is given another reference, in place of any that it owned before. -/
theorem receives (fits : Fits m l fate) (wanes : Wanes may l m m') :
    Fits m' l (fate.after (.given l) l m m') := by
  have dropped : ∀ serial ∈ (fate.after (.given l) l m m').dropped, serial ≤ fate.given := by
    intro serial member
    rw [Fate.after_of_given] at member
    dsimp only at member
    split at member
    · rcases List.mem_append.mp member with before | last
      · exact fits.known serial before
      · exact (List.mem_singleton.mp last).le
    · exact fits.known serial member
  have given : (fate.after (.given l) l m m').given = fate.given + 1 := by
    rw [Fate.after_of_given]
  refine ⟨fun serial member => ?_, ?_, fun _ again => ?_, ?_, fun e ending => ?_⟩
  · rw [given]
    exact (dropped serial member).trans (Nat.le_succ _)
  · rw [Fate.after_of_given]
    dsimp only
    split
    · rename_i owned
      exact fits.nodup_drop owned
    · exact fits.once
  · rw [given] at again
    exact absurd (dropped _ again) (Nat.not_succ_le_self _)
  · rw [wanes.destroyed]
    exact fits.destroyed
  · have closing := fits.closing e ending
    obtain ⟨free, away⟩ := fits.still ending wanes
    refine ⟨?_, free, away, fun r own => Or.inl ?_, fun _ last => ?_⟩
    · rw [given]
      exact closing.serial.trans (Nat.le_succ _)
    · rw [Fate.after_of_given]
      dsimp only
      rcases closing.owned r own with before | ⟨-, last, still⟩
      · split
        · exact List.mem_append_left _ before
        · exact before
      · rw [if_pos (by rw [still]; exact Option.some_ne_none r), ← last]
        exact List.mem_append_right _ (List.mem_singleton_self _)
    · rw [given] at last
      have bounded := closing.serial
      omega

/-- Whatever a call does that destroys nothing, as long as it takes no reference back from a lock
that is being destroyed. -/
theorem after (fits : Fits m l fate) (wanes : Wanes (t = .given l) l m m')
    (spares : t = .returned l → ¬ fate.Open) : Fits m' l (fate.after t l m m') := by
  by_cases given : t = .given l
  · subst given
    exact fits.receives wanes
  replace wanes : Wanes False l m m' := wanes.mono given
  by_cases lost : (m.lock l).bound ≠ none ∧ t ≠ .returned l ∧ (m'.lock l).bound = none
  · obtain ⟨owned, own, lost⟩ := lost
    rw [Fate.after_of_lost given own owned lost]
    exact fits.loses wanes owned lost
  · have kept : (m.lock l).bound ≠ none → t ≠ .returned l → (m'.lock l).bound ≠ none :=
      fun owned own none => lost ⟨owned, own, none⟩
    rw [Fate.after_of_kept given kept]
    exact fits.unchanged wanes fun busy owned => kept owned fun returned => spares returned busy

/-- The first destruction of a lock starts. -/
theorem begun (fits : Fits m l fate) (stripped : Stripped l m m') (n : SpaceKey) :
    Fits m' l (fate.begun n m) := by
  refine ⟨fits.known, fits.once, fun owned => ?_, ?_, fun e ending => ?_⟩
  · rw [stripped.bound] at owned
    exact fits.kept owned
  · exact iff_of_true stripped.destroyed (Option.some_ne_none _)
  · obtain rfl := Option.some.inj ending
    refine ⟨Nat.le_refl _, stripped.free, fun further => absurd rfl further, fun r own => ?_, nofun⟩
    exact Or.inr ⟨nofun, rfl, stripped.bound.trans own⟩

/-- The first destruction comes to a stage at which the lock stands as it should by then. -/
theorem reaching {stage : Stage} (fits : Fits m l fate) (ending : fate.ending = some e)
    (closing : Closing m l fate { e with stage }) : Fits m l (fate.reaching stage) := by
  have next : (fate.reaching stage).ending = some { e with stage } := by
    rw [Fate.reaching, ending]
    rfl
  refine ⟨fits.known, fits.once, fits.kept, ?_, fun e' same => ?_⟩
  · exact iff_of_true (fits.gone ending) (by rw [next]; exact Option.some_ne_none _)
  · obtain rfl := Option.some.inj (next.symm.trans same)
    exact ⟨closing.serial, closing.free, closing.away, closing.owned, closing.spent⟩

/-- The first destruction goes on once the lock is off the unused ones. -/
theorem reaped (fits : Fits m l fate) (ending : fate.ending = some e)
    (away : l ∉ (m.space e.space).lru.toList) : Fits m l (fate.reaching .reaped) := by
  have closing := fits.closing e ending
  refine fits.reaching ending
    ⟨closing.serial, closing.free, fun _ => away, fun r own => ?_, nofun⟩
  rcases closing.owned r own with dropped | ⟨-, last, still⟩
  · exact Or.inl dropped
  · exact Or.inr ⟨nofun, last, still⟩

/-- The first destruction is over once the lock owns nothing. -/
theorem ended (fits : Fits m l fate) (ending : fate.ending = some e) (further : e.stage ≠ .marked)
    (spent : (m.lock l).bound = none) : Fits m l (fate.reaching .ended) := by
  have closing := fits.closing e ending
  refine fits.reaching ending ⟨closing.serial, closing.free, fun _ => closing.away further,
    fun r own => ?_, fun _ _ => spent⟩
  rcases closing.owned r own with dropped | ⟨-, -, still⟩
  · exact Or.inl dropped
  · rw [spent] at still
    cases still

end Fits

end Manager

end Lockspace
