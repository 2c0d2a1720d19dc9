import Lockspace.Proofs.Concurrent.Notifiers
import Lockspace.Waiting.Waiter
import Mathlib.Logic.Relation

namespace Lockspace

open Manager Act

/-- A waiter whose look at the count and whose parking are steps of their own. One who has refused
to go on has seen references, and is about to park. -/
inductive Sleeper where
  | outside
  | watching (seen : Nat)
  | refused (seen : Nat)
  | parked (seen : Nat)
  | finished
deriving DecidableEq

namespace Sleeper

/-- The next step of a sleeper. Who begins to watch will hear of every signal from then on, parked
or not. -/
def step? (s : Namespace) : Sleeper → Option Sleeper
  | outside => some (watching s.signals)
  | watching seen => some (if s.table.bref = 0 then finished else refused seen)
  | refused seen => some (parked seen)
  | parked seen => if s.signals = seen then none else some outside
  | finished => none

/-- The waiter that a sleeper is, if it parks as it looks. -/
def waiter : Sleeper → Waiter
  | outside => .outside
  | watching seen => .watching seen
  | refused seen | parked seen => .parked seen
  | finished => .finished

variable {s : Namespace} {w w' : Sleeper} {v : Waiter}

/-- A sleeper does what the waiter does, or parks. -/
theorem waiter_step?_of_step? (steps : w.step? s = some w') :
    w'.waiter = w.waiter ∨ w.waiter.step? s = some w'.waiter := by
  cases w with
  | outside =>
    cases steps
    exact Or.inr rfl
  | watching seen =>
    obtain rfl := Option.some.inj steps
    refine Or.inr ?_
    by_cases none : s.table.bref = 0
    · simp only [waiter, Waiter.step?, if_pos none]
    · simp only [waiter, Waiter.step?, if_neg none]
  | refused seen =>
    cases steps
    exact Or.inl rfl
  | parked seen =>
    by_cases still : s.signals = seen
    · simp only [step?, if_pos still] at steps
      cases steps
    · simp only [step?, if_neg still] at steps
      cases steps
      exact Or.inr (if_neg still)
  | finished => cases steps

/-- Whatever the waiter does, the sleeper can do, once it has parked. -/
theorem exists_step?_of_waiter_step? (steps : w.waiter.step? s = some v) : ∃ w', w'.waiter = v ∧
    (w.step? s = some w' ∨ ∃ w₁, w.step? s = some w₁ ∧ w₁.step? s = some w') := by
  cases w with
  | outside =>
    cases steps
    exact ⟨_, rfl, Or.inl rfl⟩
  | watching seen =>
    refine ⟨_, ?_, Or.inl rfl⟩
    have next := Option.some.inj steps
    split
    · rename_i none
      rwa [if_pos none] at next
    · rename_i some
      rwa [if_neg some] at next
  | refused seen =>
    by_cases still : s.signals = seen
    · simp only [waiter, Waiter.step?, if_pos still] at steps
      cases steps
    · simp only [waiter, Waiter.step?, if_neg still] at steps
      cases steps
      exact ⟨outside, rfl, Or.inr ⟨parked seen, rfl, if_neg still⟩⟩
  | parked seen =>
    by_cases still : s.signals = seen
    · simp only [waiter, Waiter.step?, if_pos still] at steps
      cases steps
    · simp only [waiter, Waiter.step?, if_neg still] at steps
      cases steps
      exact ⟨outside, rfl, Or.inl (if_neg still)⟩
  | finished => cases steps

end Sleeper

/-- A state with what all threads have at hand in a namespace or stand in the middle of, and with
somebody who may wait for the namespace. -/
structure Vigil where
  state : Manager
  acts : Multiset Activity
  sleeper : Sleeper

namespace Vigil

/-- One step around a namespace: a call comes, somebody begins to use what is at hand, an activity
goes on, the namespace is freed or refuses to be, something happens that leaves its count and its
signals alone, or the sleeper takes a step. Other sleepers change nothing for this one. -/
inductive Step (n : SpaceKey) : Vigil → Vigil → Prop
  | call {m : Manager} {acts : Multiset Activity} {w : Sleeper} {a : Activity} (fresh : a.IsCall) :
      Step n ⟨m, acts, w⟩ ⟨m, a ::ₘ acts, w⟩
  | use {m : Manager} {acts : Multiset Activity} {w : Sleeper} {a b : Activity} (uses : a.Uses b) :
      Step n ⟨m, a ::ₘ acts, w⟩ ⟨m, b ::ₘ acts, w⟩
  | advance {m m' : Manager} {acts : Multiset Activity} {w : Sleeper} {a : Activity}
      {after : List Activity} (may : a.MayStep (m.space n).table acts)
      (run : a.advance n m = .ok after m') : Step n ⟨m, a ::ₘ acts, w⟩ ⟨m', ↑after + acts, w⟩
  | free {m m' : Manager} {acts : Multiset Activity} {w : Sleeper} {freed : Bool}
      (run : freePost n m = .ok freed m') : Step n ⟨m, acts, w⟩ ⟨m', acts, w⟩
  | aside {m m' : Manager} {acts : Multiset Activity} {w : Sleeper}
      (bref : (m'.space n).table.bref = (m.space n).table.bref)
      (signals : (m'.space n).signals = (m.space n).signals) : Step n ⟨m, acts, w⟩ ⟨m', acts, w⟩
  | wait {m : Manager} {acts : Multiset Activity} {w w' : Sleeper}
      (steps : w.step? (m.space n) = some w') : Step n ⟨m, acts, w⟩ ⟨m, acts, w'⟩

abbrev Reaches (n : SpaceKey) : Vigil → Vigil → Prop :=
  Relation.ReflTransGen (Step n)

/-- A namespace that was just set up, which nobody uses or waits for. -/
structure Starts (n : SpaceKey) (v : Vigil) : Prop where
  built : ∃ setup m, build setup m = .ok (.ok n) v.state
  idle : v.acts = 0
  outside : v.sleeper = .outside

/-- There are references to wait for, or somebody has still to signal that there are none. -/
def Awaited (n : SpaceKey) (v : Vigil) : Prop :=
  (v.state.space n).table.bref ≠ 0 ∨ ∃ a ∈ v.acts, a.isNotifier

/-- Who watches has noted no signal that is yet to come. Who then saw references, and has heard of no
signal since, still waits for something. -/
def Sound (n : SpaceKey) (v : Vigil) : Prop :=
  match v.sleeper with
  | .watching seen => seen ≤ (v.state.space n).signals
  | .refused seen | .parked seen =>
    seen ≤ (v.state.space n).signals ∧ ((v.state.space n).signals = seen → v.Awaited n)
  | _ => True

/-- On the way from one state to another the sleeper looked and found no reference, which was the end
of its wait. -/
def Looked (n : SpaceKey) (first v : Vigil) : Prop :=
  ∃ (m : Manager) (acts : Multiset Activity) (seen : Nat),
    Reaches n first ⟨m, acts, .watching seen⟩ ∧ (m.space n).table.bref = 0 ∧
      Reaches n ⟨m, acts, .finished⟩ v

/-- On the way from one state to another some thread took the count to zero, and came by an activity
with that. -/
def Emptied (n : SpaceKey) (first v : Vigil) (a : Activity) : Prop :=
  ∃ (m m' : Manager) (acts : Multiset Activity) (w : Sleeper) (b : Activity)
    (after : List Activity), Reaches n first ⟨m, b ::ₘ acts, w⟩ ∧ b.advance n m = .ok after m' ∧
      a ∈ after ∧ (m.space n).table.bref ≠ 0 ∧ (m'.space n).table.bref = 0 ∧
      Reaches n ⟨m', ↑after + acts, w⟩ v

/-- An activity can go on at once, and wakes the sleeper if it is parked. -/
def Rouses (n : SpaceKey) (v : Vigil) (a : Activity) : Prop :=
  ∃ (m' : Manager) (after : List Activity),
    Step n v ⟨m', ↑after + v.acts.erase a, v.sleeper⟩ ∧
      ∀ seen, v.sleeper = .parked seen → (m'.space n).signals ≠ seen

/-- No signal to a sleeper is lost on the way from one state to another. -/
structure Attentive (n : SpaceKey) (first v : Vigil) : Prop where
  /-- A wait is over only after a look that found no reference. -/
  looked : v.sleeper = .finished → Looked n first v
  /-- Who is parked, and was not woken, has references to wait for, or somebody has still to signal
  that there are none. -/
  awaited : ∀ seen, v.sleeper = .parked seen → (v.state.space n).signals = seen → v.Awaited n
  /-- Who has still to signal took the count to zero. -/
  emptied : ∀ a ∈ v.acts, a.isNotifier → Emptied n first v a
  /-- The signal can come at any time, and wakes who is parked. -/
  rouses : ∀ a ∈ v.acts, a.isNotifier → Rouses n v a

variable {n : SpaceKey} {first v v' : Vigil}

/-- What comes of a call or of a use is no notifier. -/
theorem not_notifier_of_isCall {a : Activity} (fresh : a.IsCall) : a.isNotifier = false := by
  cases a with
  | signalling => cases fresh
  | telling _ _ _ => cases fresh
  | _ => rfl

theorem not_notifier_of_uses {a b : Activity} (uses : a.Uses b) :
    a.isNotifier = false ∧ b.isNotifier = false := by
  cases uses <;> exact ⟨rfl, rfl⟩

/-- Unless there is a signal, whoever was awaited still is. -/
structure Goes (n : SpaceKey) (v v' : Vigil) : Prop where
  sleeper : v'.sleeper = v.sleeper
  signals : (v.state.space n).signals ≤ (v'.state.space n).signals
  awaited : (v'.state.space n).signals = (v.state.space n).signals → v.Awaited n → v'.Awaited n

theorem Sound.goes (sound : Sound n v) (goes : Goes n v v') : Sound n v' := by
  obtain ⟨same, signals, awaited⟩ := goes
  have parked : ∀ {seen}, seen ≤ (v.state.space n).signals ∧
      ((v.state.space n).signals = seen → v.Awaited n) → seen ≤ (v'.state.space n).signals ∧
      ((v'.state.space n).signals = seen → v'.Awaited n) := by
    rintro seen ⟨noted, waits⟩
    refine ⟨noted.trans signals, fun none => ?_⟩
    have still : (v'.state.space n).signals = (v.state.space n).signals := by omega
    exact awaited still (waits (still.symm.trans none))
  unfold Sound at sound ⊢
  rw [same]
  cases w : v.sleeper with
  | watching seen =>
    rw [w] at sound
    exact le_trans sound signals
  | refused seen =>
    rw [w] at sound
    exact parked sound
  | parked seen =>
    rw [w] at sound
    exact parked sound
  | outside => trivial
  | finished => trivial

theorem Goes.of_wakes {m m' : Manager} {acts : Multiset Activity} {w : Sleeper}
    (wakes : (m.space n).Wakes (m'.space n)) : Goes n ⟨m, acts, w⟩ ⟨m', acts, w⟩ :=
  ⟨rfl, wakes.signals, fun still => Or.imp_left (wakes.woken still)⟩

/-- Threads go on, and the one that takes the count to zero has then to signal that. -/
theorem Goes.of_advance {m m' : Manager} {acts : Multiset Activity} {w : Sleeper} {a : Activity}
    {after : List Activity} (run : a.advance n m = .ok after m') :
    Goes n ⟨m, a ::ₘ acts, w⟩ ⟨m', ↑after + acts, w⟩ := by
  have notifies : ∀ b ∈ acts, b.isNotifier → Awaited n ⟨m', ↑after + acts, w⟩ :=
    fun b member notifier => Or.inr ⟨b, Multiset.mem_add.mpr (Or.inr member), notifier⟩
  by_cases lowers : a.lowers = true
  · obtain ⟨still, last⟩ := Activity.notifies_of_lowers lowers run
    refine ⟨rfl, still.ge, fun _ awaited => ?_⟩
    rcases awaited with used | ⟨b, member, notifier⟩
    · by_cases none : (m'.space n).table.bref = 0
      · obtain ⟨b, new, notifier⟩ := last.mpr ⟨used, none⟩
        exact Or.inr ⟨b, Multiset.mem_add.mpr (Or.inl new), notifier⟩
      · exact Or.inl none
    · rcases Multiset.mem_cons.mp member with rfl | other
      · rw [Activity.not_notifier_of_lowers lowers] at notifier
        cases notifier
      · exact notifies b other notifier
  · rw [Bool.not_eq_true] at lowers
    have wakes : (m.space n).Wakes (m'.space n) := (Activity.wakes_advance lowers m).of_ok run n
    refine ⟨rfl, wakes.signals, fun still awaited => ?_⟩
    rcases awaited with used | ⟨b, member, notifier⟩
    · exact Or.inl (wakes.woken still used)
    · rcases Multiset.mem_cons.mp member with rfl | other
      · obtain ⟨_, _, again, more⟩ := Activity.exists_advance_of_notifier (n := n) notifier m
        rw [run] at again
        cases again
        exact absurd still more.ne'
      · exact notifies b other notifier

theorem Sound.step (sound : Sound n v) (step : Step n v v') : Sound n v' := by
  cases step with
  | call fresh =>
    refine sound.goes ⟨rfl, le_rfl, fun _ => Or.imp_right ?_⟩
    rintro ⟨b, member, notifier⟩
    exact ⟨b, Multiset.mem_cons_of_mem member, notifier⟩
  | use uses =>
    refine sound.goes ⟨rfl, le_rfl, fun _ => Or.imp_right ?_⟩
    rintro ⟨b, member, notifier⟩
    rcases Multiset.mem_cons.mp member with rfl | other
    · rw [(not_notifier_of_uses uses).1] at notifier
      cases notifier
    · exact ⟨b, Multiset.mem_cons_of_mem other, notifier⟩
  | advance _ run => exact sound.goes (.of_advance run)
  | @free m m' acts w freed run =>
    exact sound.goes (.of_wakes ((wakes_freePost m).of_ok run n))
  | aside bref signals => exact sound.goes (.of_wakes ⟨signals.ge, fun _ used => bref ▸ used⟩)
  | @wait m acts w w' steps =>
    cases w with
    | outside =>
      cases steps
      exact le_rfl
    | watching seen =>
      obtain rfl := Option.some.inj steps
      split
      · trivial
      · rename_i used
        exact ⟨sound, fun _ => Or.inl used⟩
    | refused seen =>
      cases steps
      exact sound
    | parked seen =>
      by_cases still : (m.space n).signals = seen
      · simp only [Sleeper.step?, if_pos still] at steps
        cases steps
      · simp only [Sleeper.step?, if_neg still] at steps
        cases steps
        trivial
    | finished => cases steps

namespace Reaches

theorem sound (starts : Starts n first) (reach : Reaches n first v) : Sound n v := by
  induction reach with
  | refl =>
    unfold Sound
    rw [starts.outside]
    trivial
  | tail _ step ih => exact ih.step step

/-- A wait is over only after a look that found no reference. -/
theorem looked (starts : Starts n first) (reach : Reaches n first v)
    (ended : v.sleeper = .finished) : Looked n first v := by
  induction reach with
  | refl =>
    rw [starts.outside] at ended
    cases ended
  | @tail v v' before step ih =>
    have onward (ended : v.sleeper = .finished) : Looked n first v' := by
      obtain ⟨m, acts, seen, watched, none, rest⟩ := ih ended
      exact ⟨m, acts, seen, watched, none, rest.tail step⟩
    cases step with
    | call fresh => exact onward ended
    | use uses => exact onward ended
    | advance may run => exact onward ended
    | free run => exact onward ended
    | aside bref signals => exact onward ended
    | @wait m acts w w' steps =>
      change w' = .finished at ended
      subst ended
      cases w with
      | outside => cases steps
      | watching seen =>
        by_cases none : (m.space n).table.bref = 0
        · exact ⟨m, acts, seen, before, none, .refl⟩
        · simp only [Sleeper.step?, if_neg none] at steps
          cases steps
      | refused seen => cases steps
      | parked seen =>
        simp only [Sleeper.step?] at steps
        split at steps
        · cases steps
        · cases steps
      | finished => cases steps

/-- Whoever has still to signal took the count to zero. -/
theorem emptied (starts : Starts n first) (reach : Reaches n first v) {a : Activity}
    (member : a ∈ v.acts) (notifier : a.isNotifier) : Emptied n first v a := by
  induction reach with
  | refl =>
    rw [starts.idle] at member
    cases Multiset.notMem_zero _ member
  | @tail v v' before step ih =>
    have onward (old : a ∈ v.acts) : Emptied n first v' a := by
      obtain ⟨m, m', acts, w, b, after, reach, run, made, used, none, rest⟩ := ih old
      exact ⟨m, m', acts, w, b, after, reach, run, made, used, none, rest.tail step⟩
    cases step with
    | call fresh =>
      rcases Multiset.mem_cons.mp member with rfl | old
      · rw [not_notifier_of_isCall fresh] at notifier
        cases notifier
      · exact onward old
    | use uses =>
      rcases Multiset.mem_cons.mp member with rfl | old
      · rw [(not_notifier_of_uses uses).2] at notifier
        cases notifier
      · exact onward (Multiset.mem_cons_of_mem old)
    | @advance m m' acts w b after may run =>
      rcases Multiset.mem_add.mp member with made | old
      · by_cases lowers : b.lowers = true
        · obtain ⟨used, none⟩ :=
            (Activity.notifies_of_lowers lowers run).2.mp ⟨a, made, notifier⟩
          exact ⟨m, m', acts, w, b, after, before, run, made, used, none, .refl⟩
        · rw [Bool.not_eq_true] at lowers
          rw [Activity.gives_advance lowers m after m' run a made] at notifier
          cases notifier
      · exact onward (Multiset.mem_cons_of_mem old)
    | free run => exact onward member
    | aside bref signals => exact onward member
    | wait steps => exact onward member

/-- Who has still to signal may do so at once, and wakes who is parked. -/
theorem rouses (starts : Starts n first) (reach : Reaches n first v) {a : Activity}
    (member : a ∈ v.acts) (notifier : a.isNotifier) : Rouses n v a := by
  obtain ⟨after, m', run, more⟩ :=
    Activity.exists_advance_of_notifier (n := n) notifier v.state
  have may : a.MayStep (v.state.space n).table (v.acts.erase a) := by
    intro b awaits
    rw [Activity.awaits_of_notifier notifier] at awaits
    cases awaits
  have split : v = ⟨v.state, a ::ₘ v.acts.erase a, v.sleeper⟩ := by
    rw [Multiset.cons_erase member]
  refine ⟨m', after, ?_, fun seen parked none => ?_⟩
  · have step : Step n ⟨v.state, a ::ₘ v.acts.erase a, v.sleeper⟩
        ⟨m', ↑after + v.acts.erase a, v.sleeper⟩ := .advance may run
    rwa [← split] at step
  · have noted := reach.sound starts
    unfold Sound at noted
    rw [parked] at noted
    exact absurd noted.1 (by omega)

/-- No signal to a sleeper is lost, however the steps of all threads are mixed. -/
theorem attentive (starts : Starts n first) (reach : Reaches n first v) : Attentive n first v where
  looked := reach.looked starts
  awaited seen parked none := by
    have sound := reach.sound starts
    unfold Sound at sound
    rw [parked] at sound
    exact sound.2 none
  emptied _ := reach.emptied starts
  rouses _ := reach.rouses starts

/-- The last hold on a namespace goes between a look that saw it and the parking of the sleeper, and
the signal is still to come. -/
theorem attentive_of_late_signal : ∃ first v, Starts ⟨0⟩ first ∧ Reaches ⟨0⟩ first v ∧
    v.sleeper = .parked 0 ∧ (v.state.space ⟨0⟩).signals = 0 ∧
    (v.state.space ⟨0⟩).table.bref = 0 ∧ v.acts = {.signalling} ∧ Attentive ⟨0⟩ first v := by
  obtain ⟨m₀, m₁, m₂, built, claims, seen, used, yields, still, none⟩ : ∃ m₀ m₁ m₂,
      Act.build .oneBucket {} = .ok (.ok ⟨0⟩) m₀ ∧
      Activity.claiming.advance ⟨0⟩ m₀ = .ok [.hold] m₁ ∧ (m₁.space ⟨0⟩).signals = 0 ∧
      (m₁.space ⟨0⟩).table.bref ≠ 0 ∧
      Activity.yielding.advance ⟨0⟩ m₁ = .ok [.signalling] m₂ ∧ (m₂.space ⟨0⟩).signals = 0 ∧
      (m₂.space ⟨0⟩).table.bref = 0 :=
    ⟨_, _, _, rfl, rfl, rfl, Nat.one_ne_zero, rfl, rfl, rfl⟩
  have starts : Starts ⟨0⟩ ⟨m₀, 0, .outside⟩ := ⟨⟨_, _, built⟩, rfl, rfl⟩
  have called : Reaches ⟨0⟩ ⟨m₀, 0, .outside⟩ ⟨m₀, .claiming ::ₘ 0, .outside⟩ :=
    .single (.call trivial)
  have held : Reaches ⟨0⟩ ⟨m₀, 0, .outside⟩ ⟨m₁, .hold ::ₘ 0, .outside⟩ :=
    called.tail (.advance (by simp [Activity.MayStep]) claims)
  have watched : Reaches ⟨0⟩ ⟨m₀, 0, .outside⟩ ⟨m₁, .hold ::ₘ 0, .watching 0⟩ :=
    held.tail (.wait (congrArg (some <| Sleeper.watching ·) seen))
  have refused : Reaches ⟨0⟩ ⟨m₀, 0, .outside⟩ ⟨m₁, .hold ::ₘ 0, .refused 0⟩ :=
    watched.tail (.wait (congrArg some (if_neg used)))
  have yielded : Reaches ⟨0⟩ ⟨m₀, 0, .outside⟩ ⟨m₂, .signalling ::ₘ 0, .refused 0⟩ :=
    (refused.tail (.use .yield)).tail (.advance (by simp [Activity.MayStep]) yields)
  have parked : Reaches ⟨0⟩ ⟨m₀, 0, .outside⟩ ⟨m₂, .signalling ::ₘ 0, .parked 0⟩ :=
    yielded.tail (.wait rfl)
  exact ⟨_, _, starts, parked, rfl, still, none, rfl, parked.attentive starts⟩

end Reaches

end Vigil

end Lockspace
