import Lockspace.Proofs.Queueing.Runs
import Lockspace.Proofs.Unused.Beside

namespace Lockspace

open Manager Act

namespace VictimLimits

variable {limits : VictimLimits} {age : LockKey → Nat} {locks : List LockKey} {total pos i k : Nat}

/-- How many of the oldest locks the limits ask for together. -/
def quota (limits : VictimLimits) (locks : List LockKey) (age : LockKey → Nat) : Nat :=
  max (max (min limits.count locks.length) (limits.maxUnused.elim 0 (locks.length - ·)))
    (locks.countP (age · > limits.maxAge.nanos))

/-- Among locks from the oldest to the youngest, those beyond an age come first. -/
theorem too_old_iff {bound : Nat} (sorted : locks.Pairwise fun a b => age b ≤ age a)
    (within : i < locks.length) :
    age locks[i] > bound ↔ i < locks.countP (age · > bound) := by
  induction sorted generalizing i with
  | nil => exact absurd within (Nat.not_lt_zero i)
  | @cons l rest older sorted ih =>
    by_cases old : age l > bound
    · rw [List.countP_cons_of_pos (by simpa using old)]
      cases i with
      | zero => simpa using old
      | succ i => simpa using ih (Nat.lt_of_succ_lt_succ within)
    · have none : (l :: rest).countP (age · > bound) = 0 := by
        refine List.countP_eq_zero.mpr fun k member => ?_
        rcases List.mem_cons.mp member with rfl | inside
        · simpa using old
        · have younger := older k inside
          simp only [decide_eq_true_eq]
          omega
      rw [none]
      refine iff_of_false (fun stale => ?_) (Nat.not_lt_zero i)
      cases i with
      | zero => exact old stale
      | succ i =>
        have inside : i < rest.length := Nat.lt_of_succ_lt_succ within
        have younger := older rest[i] (List.getElem_mem inside)
        simp only [List.getElem_cons_succ] at stale
        omega

/-- A limit asks for exactly the locks of the quota. -/
theorem takes_iff (sorted : locks.Pairwise fun a b => age b ≤ age a) (within : i < locks.length) :
    limits.takes locks.length i (age locks[i]) ↔ i < limits.quota locks age := by
  have many : limits.maxUnused.any (locks.length - i > ·) ↔
      i < limits.maxUnused.elim 0 (locks.length - ·) := by
    cases limits.maxUnused with
    | none => simp
    | some most =>
      simp only [Option.any_some, Option.elim_some, decide_eq_true_eq]
      omega
  unfold takes quota
  rw [Bool.or_eq_true, Bool.or_eq_true, decide_eq_true_eq, decide_eq_true_eq, many,
    too_old_iff sorted within, lt_max_iff, lt_max_iff, lt_min_iff]
  simp only [within, and_true]

end VictimLimits

namespace UnusedLru

variable {limits : VictimLimits} {age : LockKey → Nat} {locks : List LockKey} {total pos k : Nat}
  {u : UnusedLru} {l : LockKey} {time : LockKey → Nat}

/-- The scan stops at the first lock that no limit asks for, which is the first beyond a bound. -/
theorem victimsFrom_eq_take (asked : ∀ i (within : i < locks.length),
    limits.takes total (pos + i) (age locks[i]) ↔ pos + i < k) :
    victimsFrom limits total age pos locks = locks.take (k - pos) := by
  induction locks generalizing pos with
  | nil => rw [victimsFrom, List.take_nil]
  | cons l rest ih =>
    have first : limits.takes total pos (age l) ↔ pos < k := asked 0 (Nat.succ_pos _)
    unfold victimsFrom
    split
    · rename_i taken
      have below := first.mp taken
      obtain ⟨more, split⟩ : ∃ more, k - pos = more + 1 := ⟨k - pos - 1, by omega⟩
      rw [split, List.take_succ_cons, ih fun i within => ?_]
      · rw [show k - (pos + 1) = more by omega]
      · have later := asked (i + 1) (Nat.succ_lt_succ within)
        rwa [List.getElem_cons_succ, ← Nat.add_assoc, Nat.add_right_comm] at later
    · rename_i spared
      rw [show k - pos = 0 by have := mt first.mpr spared; omega, List.take_zero]

/-- The unused locks stand in the order in which they became unused, by some clock. -/
def Aged (u : UnusedLru) (time : LockKey → Nat) : Prop :=
  u.toList.Pairwise fun a b => time a ≤ time b

theorem Aged.without (aged : u.Aged time) (gone : List LockKey) : (u.without gone).Aged time := by
  unfold Aged
  rw [toList_without]
  exact aged.sublist List.filter_sublist

theorem Aged.congr {other : LockKey → Nat} (aged : u.Aged time)
    (same : ∀ l ∈ u.toList, other l = time l) : u.Aged other := by
  refine aged.imp_of_mem fun {a b} first second older => ?_
  rwa [same a first, same b second]

/-- Without the first of the locks there are the others, as no lock is there twice. -/
theorem Sound.toList_without_take (sound : u.Sound) (k : Nat) :
    (u.without (u.toList.take k)).toList = u.toList.drop k := by
  rw [toList_without]
  have apart := sound.locks
  rw [← List.take_append_drop k u.toList] at apart
  obtain ⟨-, -, disjoint⟩ := List.nodup_append.mp apart
  have first : (u.toList.take k).filter (!(u.toList.take k).contains ·) = [] :=
    List.filter_eq_nil_iff.mpr fun l member => by simpa using member
  have last : (u.toList.drop k).filter (!(u.toList.take k).contains ·) = u.toList.drop k :=
    List.filter_eq_self.mpr fun l member => by
      have outside : l ∉ u.toList.take k := fun inside => disjoint l inside l member rfl
      simpa using outside
  conv_lhs => rw [← List.take_append_drop k u.toList]
  rw [List.filter_append, List.take_append_drop, first, last, List.nil_append]

/-- The victims are the oldest locks up to the quota, and the others stay in their order. -/
theorem Sound.takeVictims_eq (sound : u.Sound)
    (sorted : u.toList.Pairwise fun a b => age b ≤ age a) (limits : VictimLimits) :
    (u.takeVictims limits age).1 = u.toList.take (limits.quota u.toList age) ∧
      (u.takeVictims limits age).2.toList = u.toList.drop (limits.quota u.toList age) := by
  have size : u.size = u.toList.length := (List.length_map _).symm
  have victims : victimsFrom limits u.size age 0 u.toList =
      u.toList.take (limits.quota u.toList age) := by
    refine victimsFrom_eq_take fun i within => ?_
    rw [size, Nat.zero_add]
    exact VictimLimits.takes_iff sorted within
  refine ⟨victims, ?_⟩
  show (List.foldl erase u (victimsFrom limits u.size age 0 u.toList)).toList = _
  rw [victims, sound.foldl_erase, sound.toList_without_take]

/-- Limits take exactly the oldest locks up to the quota, in order, and leave the others in order. No
more remain than may, none of them is too old, and each lock that went was asked for. -/
structure Selects (u : UnusedLru) (limits : VictimLimits) (age : LockKey → Nat)
    (victims : List LockKey) (rest : UnusedLru) : Prop where
  taken : victims = u.toList.take (limits.quota u.toList age)
  left : rest.toList = u.toList.drop (limits.quota u.toList age)
  listed : ∀ l, rest.contains l ↔ l ∈ rest.toList
  few : ∀ most ∈ limits.maxUnused, rest.size ≤ most
  young : ∀ l ∈ rest.toList, age l ≤ limits.maxAge.nanos
  asked : ∀ i (within : i < victims.length), limits.takes u.size i (age victims[i])

theorem Sound.selection (sound : u.Sound) (sorted : u.toList.Pairwise fun a b => age b ≤ age a)
    (limits : VictimLimits) :
    u.Selects limits age (u.takeVictims limits age).1 (u.takeVictims limits age).2 := by
  have size : ∀ u : UnusedLru, u.size = u.toList.length := fun u => (List.length_map _).symm
  obtain ⟨taken, left⟩ := sound.takeVictims_eq sorted limits
  have rests : ∀ i (within : i < u.toList.length), limits.quota u.toList age ≤ i →
      limits.takes u.toList.length i (age u.toList[i]) = false := by
    intro i within beyond
    have spared := mt (VictimLimits.takes_iff sorted within).mp (Nat.not_lt.mpr beyond)
    exact Bool.eq_false_iff.mpr spared
  refine ⟨taken, left, fun l => (sound.takeVictims limits age).contains_iff, fun most few => ?_,
    fun l member => ?_, fun i within => ?_⟩
  · rw [size, left, List.length_drop]
    have asks : u.toList.length - most ≤ limits.quota u.toList age := by
      unfold VictimLimits.quota
      rw [Option.mem_def.mp few]
      exact (le_max_right _ _).trans (le_max_left _ _)
    omega
  · rw [left] at member
    obtain ⟨i, within, rfl⟩ := List.getElem_of_mem member
    rw [List.length_drop] at within
    have spared := rests (limits.quota u.toList age + i) (by omega) (Nat.le_add_right ..)
    rw [List.getElem_drop]
    unfold VictimLimits.takes at spared
    simp only [Bool.or_eq_false_iff, decide_eq_false_iff_not] at spared
    exact Nat.not_lt.mp spared.2
  · have below : i < limits.quota u.toList age ∧ i < u.toList.length := by
      rw [taken, List.length_take] at within
      exact lt_min_iff.mp within
    have same : (u.takeVictims limits age).1[i] = u.toList[i] := by
      simp only [taken, List.getElem_take]
    rw [same, size]
    exact (VictimLimits.takes_iff sorted below.2).mpr below.1

end UnusedLru

/-- The runs of calls about the unused locks of one namespace, with the last time that the clock
showed. The clock may stand still but does not go back, and no lock becomes unused anywhere else
while it is among these. -/
inductive Caching (n : SpaceKey) : Nat → Manager → Prop
  | start {m : Manager} (fresh : (m.space n).lru = {}) : Caching n m.clock m
  | waited {shown clock : Nat} {m : Manager} (reach : Caching n shown m)
      (later : shown ≤ clock + 1) : Caching n shown { m with clock }
  | unused {shown : Nat} {m m' : Manager} {l : LockKey} {added : Bool} (reach : Caching n shown m)
      (run : lockUnused n l m = .ok added m') : Caching n (if added then m'.clock else shown) m'
  | reused {shown : Nat} {m m' : Manager} {l : LockKey} {removed : Bool}
      (reach : Caching n shown m) (run : lockReused n l m = .ok removed m') : Caching n shown m'
  | taken {shown : Nat} {m m' : Manager} {limits : VictimLimits} {victims : List LockKey}
      (reach : Caching n shown m) (run : takeVictims n limits m = .ok victims m') :
      Caching n m'.clock m'
  | cleared {shown : Nat} {m m' : Manager} {locks : List LockKey} (reach : Caching n shown m)
      (run : takeAllUnused n m = .ok locks m') : Caching n shown m'
  | other {shown : Nat} {m m' : Manager} (reach : Caching n shown m)
      (lru : (m'.space n).lru = (m.space n).lru)
      (times : ∀ l ∈ (m.space n).lru.toList, (m'.lock l).lastUsed = (m.lock l).lastUsed)
      (clock : m'.clock = m.clock) : Caching n shown m'

namespace Manager

/-- The unused locks of a namespace are sound and stand in the order in which they became unused,
none after the last time that the clock showed. -/
structure Ages (m : Manager) (n : SpaceKey) (shown : Nat) : Prop where
  sound : (m.space n).lru.Sound
  aged : (m.space n).lru.Aged fun l => (m.lock l).lastUsed
  past : ∀ l ∈ (m.space n).lru.toList, (m.lock l).lastUsed ≤ shown
  next : shown ≤ m.clock + 1

namespace Ages

variable {m m' : Manager} {n : SpaceKey} {shown : Nat} {l : LockKey}

/-- Locks that are taken out leave the others in order. -/
theorem without (ages : Ages m n shown) (gone : List LockKey)
    (lru : (m'.space n).lru = (m.space n).lru.without gone)
    (times : ∀ l ∈ (m.space n).lru.toList, (m'.lock l).lastUsed = (m.lock l).lastUsed)
    (clock : m.clock ≤ m'.clock) : Ages m' n shown where
  sound := by
    rw [lru]
    exact ages.sound.without gone
  aged := by
    rw [lru]
    exact (ages.aged.without gone).congr fun l member =>
      times l (UnusedLru.mem_without.mp member).1
  past l member := by
    rw [lru] at member
    have before := (UnusedLru.mem_without.mp member).1
    rw [times l before]
    exact ages.past l before
  next := ages.next.trans (Nat.succ_le_succ clock)

theorem of_lockUnused (ages : Ages m n shown) {added : Bool}
    (run : lockUnused n l m = .ok added m') : Ages m' n (if added then m'.clock else shown) := by
  cases refused : (m.space n).lru.finalized || (m.lock l).isDestroyed with
  | true =>
    obtain ⟨m₁, refuses, space, locks, clock⟩ := lockUnused_of_refused refused
    obtain ⟨rfl, rfl⟩ := EStateM.Result.ok.inj (refuses.symm.trans run)
    refine ages.without [] ?_ (fun k _ => ?_) clock.ge
    · rw [space, UnusedLru.without_nil]
    · rw [Manager.lock, Manager.lock, locks]
  | false =>
    obtain ⟨m₁, adds, clock, space, lock⟩ := lockUnused_of_added refused
    obtain ⟨rfl, rfl⟩ := EStateM.Result.ok.inj (adds.symm.trans run)
    have lru : (m₁.space n).lru = ((m.space n).lru.erase l).append l := by rw [space, if_pos rfl]
    have list : (m₁.space n).lru.toList = ((m.space n).lru.without [l]).toList ++ [l] := by
      rw [lru, ages.sound.erase_eq]
      exact List.map_append
    have apart : ∀ k ∈ ((m.space n).lru.without [l]).toList, k ∈ (m.space n).lru.toList ∧
        (m₁.lock k).lastUsed = (m.lock k).lastUsed := by
      intro k member
      obtain ⟨before, other⟩ := UnusedLru.mem_without.mp member
      rw [lock, if_neg (by simpa using other)]
      exact ⟨before, rfl⟩
    have own : (m₁.lock l).lastUsed = m.clock + 1 := by rw [lock, if_pos rfl]
    have old : ∀ k ∈ ((m.space n).lru.without [l]).toList, (m₁.lock k).lastUsed ≤ m.clock + 1 := by
      intro k member
      obtain ⟨before, same⟩ := apart k member
      rw [same]
      exact (ages.past k before).trans ages.next
    refine ⟨?_, ?_, fun k member => ?_, ?_⟩
    · rw [lru]
      exact ages.sound.append_erase l
    · unfold UnusedLru.Aged
      rw [list]
      refine List.pairwise_append.mpr ⟨?_, List.pairwise_singleton .., fun k member _ last => ?_⟩
      · exact (ages.aged.without [l]).congr fun k member => (apart k member).2
      · rw [List.mem_singleton.mp last]
        show (m₁.lock k).lastUsed ≤ (m₁.lock l).lastUsed
        rw [own]
        exact old k member
    · rw [list] at member
      rw [if_pos rfl, clock]
      rcases List.mem_append.mp member with before | last
      · exact old k before
      · rw [List.mem_singleton.mp last, own]
    · rw [if_pos rfl]
      exact Nat.le_succ _

end Ages

end Manager

namespace Caching

variable {n : SpaceKey} {shown : Nat} {m m' : Manager} {l : LockKey}

/-- After any calls the unused locks stand in the order in which they became unused. -/
theorem ages (reach : Caching n shown m) : m.Ages n shown := by
  induction reach with
  | @start m fresh =>
    refine ⟨?_, ?_, fun l member => ?_, Nat.le_succ _⟩
    · rw [fresh]
      exact .empty
    · rw [fresh]
      exact List.Pairwise.nil
    · rw [fresh] at member
      cases member
  | waited _ later ih => exact ⟨ih.sound, ih.aged, ih.past, later⟩
  | unused _ run ih => exact ih.of_lockUnused run
  | @reused shown m m' l removed _ run ih =>
    cases run
    refine ih.without [l] ?_ (fun _ _ => rfl) (le_refl _)
    rw [space_modifySpace, if_pos rfl]
    exact ih.sound.remove_eq l
  | @taken shown m m' limits victims _ run ih =>
    obtain ⟨m₁, takes, clock, locks, space⟩ := exists_takeVictims n limits m
    obtain ⟨rfl, rfl⟩ := EStateM.Result.ok.inj (takes.symm.trans run)
    have lru := ih.sound.foldl_erase ((m.space n).lru.takeVictims limits fun l =>
      m.clock + 1 - (m.lock l).lastUsed).1
    have left : m₁.Ages n shown := ih.without _ (by rw [space, if_pos rfl]; exact lru)
      (fun k _ => by rw [Manager.lock, Manager.lock, locks]) (by omega)
    refine ⟨left.sound, left.aged, fun k member => (left.past k member).trans ?_, Nat.le_succ _⟩
    rw [clock]
    exact ih.next
  | @cleared shown m m' locks _ run ih =>
    obtain ⟨m₁, takes, clock, locks, space⟩ := exists_takeAllUnused n m
    obtain ⟨rfl, rfl⟩ := EStateM.Result.ok.inj (takes.symm.trans run)
    have lru : (m₁.space n).lru = (m.space n).lru.takeAll.2 := by rw [space, if_pos rfl]
    refine ⟨?_, ?_, fun l member => ?_, ih.next.trans (Nat.succ_le_succ clock.ge)⟩
    · rw [lru]
      exact .takeAll _
    · rw [lru]
      exact List.Pairwise.nil
    · rw [lru] at member
      cases member
  | other _ lru times clock ih =>
    refine ih.without [] ?_ times clock.ge
    rw [lru, UnusedLru.without_nil]

/-- Locks that are taken out one after another leave the unused ones by such calls. -/
theorem of_thins {among : LockKey → Prop} (reach : Caching n shown m)
    (thins : UnusedLru.Thins among (m.space n).lru (m'.space n).lru)
    (times : ∀ l, (m'.lock l).lastUsed = (m.lock l).lastUsed) (clock : m'.clock = m.clock) :
    Caching n shown m' := by
  obtain ⟨gone, -, lru⟩ := thins
  induction gone generalizing m with
  | nil => exact reach.other lru (fun l _ => times l) clock
  | cons l rest ih =>
    let fewer := m.modifySpace n fun s => { s with lru := ((m.space n).lru.remove l).2 }
    refine ih (m := fewer) (reach.reused (l := l) rfl) times clock ?_
    rw [space_modifySpace, if_pos rfl, lru, List.foldl_cons, ← UnusedLru.snd_remove]

/-- What keeps to the unused locks of a namespace in use and cancels some of them is made of such
calls. -/
theorem beside {among : LockKey → Prop} (reach : Caching n shown m)
    (held : 0 < (m.space n).owners) (beside : Beside n among m m') : Caching n shown m' :=
  reach.of_thins (beside.unused held) beside.times beside.clock

/-- A cancellation with the default policy is made of such calls, however it ends. -/
theorem leaves_cancelLru (reach : Caching n shown m) (held : 0 < (m.space n).owners) (count : Nat)
    (flags : LockFlags) : (cancelLru .default n count flags).Leaves m fun _ m' =>
      ∃ shown, Caching n shown m' := by
  obtain ⟨m₁, takes, clock, locks, space⟩ :=
    exists_takeVictims n ((m.space n).victimLimits count) m
  refine leaves_after (run_space n m) (leaves_after takes ?_)
  have still : 0 < (m₁.space n).owners := by
    rw [space, if_pos rfl]
    exact held
  exact (VictimCancel.beside_start (fun _ => True) (fun _ _ => trivial) flags m₁).imp
    fun _ m' later => ⟨_, (reach.taken takes).beside still later⟩

/-- Limits select the oldest locks, whatever calls came before and whatever the time is. -/
theorem selects (reach : Caching n shown m) (limits : VictimLimits) (now : Nat) :
    let u := (m.space n).lru
    let age := fun l => now - (m.lock l).lastUsed
    let answer := u.takeVictims limits age
    u.Selects limits age answer.1 answer.2 ∧ ∀ clock, now = clock + 1 →
      ∃ m', takeVictims n limits { m with clock } = .ok answer.1 m' ∧
        (m'.space n).lru = answer.2 ∧ m'.locks = m.locks := by
  intro u age answer
  have sorted : u.toList.Pairwise fun a b => age b ≤ age a :=
    reach.ages.aged.imp fun older => Nat.sub_le_sub_left older now
  refine ⟨reach.ages.sound.selection sorted limits, ?_⟩
  rintro clock rfl
  obtain ⟨m', takes, -, locks, space⟩ := exists_takeVictims n limits { m with clock }
  refine ⟨m', takes, ?_, locks⟩
  rw [space, if_pos rfl]
  rfl

end Caching

namespace Act

/-- Locks become unused one after another. -/
def cacheEach (n : SpaceKey) : List LockKey → Act Unit
  | [] => pure ()
  | l :: rest => do
    let _ ← lockUnused n l
    cacheEach n rest

/-- Three locks become unused and, when some time has passed, a fourth one and the first again. -/
def readdFirst : Act Unit := do
  cacheEach ⟨0⟩ [⟨0⟩, ⟨1⟩, ⟨2⟩]
  modify fun m => { m with clock := m.clock + 7 }
  cacheEach ⟨0⟩ [⟨3⟩, ⟨0⟩]

end Act

namespace Caching

variable {n : SpaceKey} {m m' : Manager} {shown : Nat} {locks : List LockKey}

theorem exists_of_cacheEach (reach : Caching n shown m) (run : cacheEach n locks m = .ok () m') :
    ∃ shown, Caching n shown m' := by
  induction locks generalizing shown m with
  | nil =>
    cases run
    exact ⟨shown, reach⟩
  | cons l rest ih =>
    obtain ⟨_, m₁, cached, later⟩ := ok_of_bind run
    exact ih (reach.unused cached) later

/-- A lock that became unused again is spared, and age takes more than count and number do. -/
theorem selects_of_readded_lock : ∃ shown m, Caching ⟨0⟩ shown m ∧
    let limits : VictimLimits := ⟨1, some 3, .ofNanos 5⟩
    let u := (m.space ⟨0⟩).lru
    let age := fun l => 14 - (m.lock l).lastUsed
    let answer := u.takeVictims limits age
    u.toList = [⟨1⟩, ⟨2⟩, ⟨3⟩, ⟨0⟩] ∧ answer.1 = [⟨1⟩, ⟨2⟩] ∧
      u.Selects limits age answer.1 answer.2 ∧ ∀ clock, 14 = clock + 1 →
        ∃ m', takeVictims ⟨0⟩ limits { m with clock } = .ok answer.1 m' ∧
          (m'.space ⟨0⟩).lru = answer.2 ∧ m'.locks = m.locks := by
  obtain ⟨_, m, run, list, victims⟩ : readdFirst.Returns {} fun _ m =>
      (m.space ⟨0⟩).lru.toList = [⟨1⟩, ⟨2⟩, ⟨3⟩, ⟨0⟩] ∧
        ((m.space ⟨0⟩).lru.takeVictims ⟨1, some 3, .ofNanos 5⟩ fun l =>
          14 - (m.lock l).lastUsed).1 = [⟨1⟩, ⟨2⟩] := by
    decide +kernel
  obtain ⟨_, m₁, early, run⟩ := ok_of_bind run
  obtain ⟨_, _, ⟨⟩, late⟩ := ok_of_bind run
  obtain ⟨shown, first⟩ := exists_of_cacheEach (.start rfl) early
  have next := first.ages.next
  have waited : Caching ⟨0⟩ shown { m₁ with clock := m₁.clock + 7 } := first.waited (by omega)
  obtain ⟨shown, reach⟩ := exists_of_cacheEach waited late
  exact ⟨shown, m, reach, list, victims, reach.selects _ 14⟩

end Caching

end Lockspace
