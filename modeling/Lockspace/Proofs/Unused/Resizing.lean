import Lockspace.Proofs.Unused.ConnectFlags
import Lockspace.Proofs.Unused.Trimming

namespace Lockspace

open Manager Act

/-- How a call ends that nothing comes between but the answers of the peer. -/
inductive Concludes : Task → Manager → Nat → Manager → Prop
  | returned {t : Task} {m m' : Manager} {k : Nat}
      (run : t.turn .default m = .ok (.returns (.count k)) m') : Concludes t m k m'
  | met {t next : Task} {m m₁ m' : Manager} {k : Nat} {h : Happening}
      (run : t.meet .default h m = .ok (some next) m₁) (rest : Concludes next m₁ k m') :
      Concludes t m k m'

/-- A whole call that gives a namespace an LRU size, with the number that it returns. -/
def Resizes (n : SpaceKey) (size : UInt32) (m : Manager) (k : Nat) (m' : Manager) : Prop :=
  ∃ v last m₁, setLruSize .default n (.value size) m = .ok (v, last) m₁ ∧
    Concludes (.cancel v last) m₁ k m'

/-- A cancellation of unused locks of a namespace, or a change of its LRU size. -/
def Undertaking.CancelsIn (n : SpaceKey) : Undertaking → Prop
  | cancelLru k .. | setLruSize k _ => k = n
  | _ => False

/-- The runs of a namespace from its setup: its settings change, locks become unused and are used
again, and any number of cancellations and changes of the LRU size are in progress. Whatever else
happens leaves its settings alone and only takes locks off the unused ones. -/
inductive Tuned (n : SpaceKey) : Manager → Multiset Task → Prop
  | built {setup : Setup} {m₀ m : Manager} (run : build setup m₀ = .ok (.ok n) m) : Tuned n m 0
  | set {m : Manager} {tasks : Multiset Task} {setting : Tunable} {s : Namespace}
      (reach : Tuned n m tasks) (run : (m.space n).tune setting = .ok s) :
      Tuned n (m.modifySpace n fun _ => s) tasks
  | unused {m m' : Manager} {tasks : Multiset Task} {l : LockKey} {added : Bool}
      (reach : Tuned n m tasks) (run : lockUnused n l m = .ok added m') : Tuned n m' tasks
  | reused {m m' : Manager} {tasks : Multiset Task} {l : LockKey} {removed : Bool}
      (reach : Tuned n m tasks) (run : lockReused n l m = .ok removed m') : Tuned n m' tasks
  | begun {m m' : Manager} {tasks : Multiset Task} {u : Undertaking} {t : Task}
      (reach : Tuned n m tasks) (about : u.CancelsIn n) (run : u.begin .default m = .ok t m') :
      Tuned n m' (t ::ₘ tasks)
  | refused {m m' : Manager} {tasks : Multiset Task} {u : Undertaking} {fault : Fault}
      (reach : Tuned n m tasks) (about : u.CancelsIn n)
      (run : u.begin .default m = .error fault m') : Tuned n m' tasks
  | met {m m' : Manager} {tasks : Multiset Task} {h : Happening} {t : Task} {next : Option Task}
      (reach : Tuned n m (t ::ₘ tasks)) (run : t.meet .default h m = .ok next m') :
      Tuned n m' (↑next.toList + tasks)
  | failed {m m' : Manager} {tasks : Multiset Task} {h : Happening} {t : Task} {fault : Fault}
      (reach : Tuned n m (t ::ₘ tasks)) (run : t.meet .default h m = .error fault m') :
      Tuned n m' tasks
  | other {m m' : Manager} {tasks : Multiset Task} (reach : Tuned n m tasks)
      (settings : (m'.space n).settings = (m.space n).settings)
      (unused : UnusedLru.Thins (fun _ => True) (m.space n).lru (m'.space n).lru) :
      Tuned n m' tasks

namespace Namespace

/-- A namespace in use has sound unused locks, and connect flags that fit the original ones. -/
structure Fitting (s : Namespace) : Prop where
  held : 0 < s.owners
  sound : s.lru.Sound
  fit : FlagsFit s.connectFlags s.origConnectFlags

variable {s s' : Namespace} {size : UInt32} {k : Nat} {last : ResizeEnd}

theorem Fitting.of_settings (fitting : s.Fitting) (settings : s'.settings = s.settings)
    (sound : s'.lru.Sound) : s'.Fitting := by
  simp only [Namespace.settings, Prod.mk.injEq] at settings
  obtain ⟨owners, -, flags, orig⟩ := settings
  refine ⟨?_, sound, ?_⟩
  · rw [owners]
    exact fitting.held
  · rw [flags, orig]
    exact fitting.fit

theorem Fitting.shrunk (fitting : s.Fitting) (shrunk : Shrunk s s' size k) : s'.Fitting := by
  refine ⟨?_, ?_, ?_⟩
  · rw [shrunk.owners]
    exact fitting.held
  · rw [shrunk.left]
    exact fitting.sound.without _
  · rw [shrunk.flags, shrunk.orig]
    exact fitting.fit

/-- The end of a change of the LRU size switches nothing on that was not supported. -/
theorem fits_revise {flags orig : UInt64} (fit : FlagsFit flags orig)
    (supported : last = .enable → orig &&& connectLruResize ≠ 0) :
    FlagsFit (last.revise flags) orig := by
  cases last with
  | keep => exact fit
  | disable => exact fit.without connectLruResize_switchable
  | enable =>
    exact fit.union connectLruResize_switchable (and_connectLruResize (supported rfl))

theorem resizeEnd_supported (ends : s.resizeEnd size = .enable) :
    s.origConnectFlags &&& connectLruResize ≠ 0 := by
  unfold resizeEnd at ends
  split at ends
  · split at ends <;> cases ends
  · split at ends
    · rename_i both
      exact bne_iff_ne.mp (Bool.and_eq_true_iff.mp both).2
    · cases ends

end Namespace

/-- A cancellation in a namespace, whose end only switches on what was supported. -/
def Task.FitsIn (n : SpaceKey) (s : Namespace) (t : Task) : Prop :=
  ∃ v last, t = .cancel v last ∧ v.space = n ∧
    (last = .enable → s.origConnectFlags &&& connectLruResize ≠ 0)

theorem Task.FitsIn.congr {n : SpaceKey} {s s' : Namespace} {t : Task} (fits : t.FitsIn n s)
    (orig : s'.origConnectFlags = s.origConnectFlags) : t.FitsIn n s' := by
  obtain ⟨v, last, same, place, supported⟩ := fits
  refine ⟨v, last, same, place, ?_⟩
  rwa [orig]

/-- However a cancellation or a change of the LRU size begins, the namespace stays fitting. -/
theorem Undertaking.leaves_begin_fitting {m : Manager} {n : SpaceKey} {u : Undertaking}
    (about : u.CancelsIn n) (fitting : (m.space n).Fitting) :
    (u.begin .default).Leaves m fun answer m' => (m'.space n).Fitting ∧
      (m'.space n).origConnectFlags = (m.space n).origConnectFlags ∧
        ∀ t, answer = .ok t → t.FitsIn n (m.space n) := by
  cases u with
  | cancelLru k count flags =>
    obtain rfl : k = n := about
    have cancels := leaves_cancelLru_taken fitting.sound fitting.held count 0 flags
      (fun _ _ none => absurd none (Nat.not_lt_zero _)) (Nat.zero_le _)
    refine cancels.bind (fun v m' after => ?_) fun fault m' after => ?_
    all_goals
      obtain ⟨settings, _, -, -, left, named⟩ := after
      refine ⟨fitting.of_settings settings (by rw [left]; exact fitting.sound.without _),
        congrArg (·.2.2.2) settings, ?_⟩
    · rintro t made
      cases made
      exact ⟨v, .keep, rfl, (named v rfl).1, nofun⟩
    · rintro t ⟨⟩
  | setLruSize k size =>
    obtain rfl : k = n := about
    cases size with
    | clear =>
      refine (leaves_setLruSize_clear fitting.held).bind (fun answer m' after => ?_)
        fun fault m' after => ?_
      all_goals
        obtain ⟨settings, sound, named⟩ := after
        refine ⟨fitting.of_settings settings sound, congrArg (·.2.2.2) settings, ?_⟩
      · obtain ⟨v, last⟩ := answer
        obtain ⟨place, rfl⟩ := named v last rfl
        rintro t made
        cases made
        exact ⟨v, .keep, rfl, place, nofun⟩
      · rintro t ⟨⟩
    | value size =>
      refine (leaves_setLruSize fitting.sound fitting.held size).bind (fun answer m' after => ?_)
        fun fault m' after => ?_
      all_goals
        obtain ⟨_, shrunk, named⟩ := after
        refine ⟨fitting.shrunk shrunk, shrunk.orig, ?_⟩
      · obtain ⟨v, last⟩ := answer
        obtain ⟨place, -, ends⟩ := named v last rfl
        rintro t made
        cases made
        exact ⟨v, last, rfl, place, fun enables =>
          Namespace.resizeEnd_supported (ends.symm.trans enables)⟩
      · rintro t ⟨⟩
  | cleanup | freePrior | free => cases about

namespace Task

variable {m : Manager} {n : SpaceKey} {t : Task}

/-- Where only such locks may go as there are none, the unused locks stay as they are. -/
theorem fitting_beside {m m' : Manager} (fitting : (m.space n).Fitting)
    (beside : Beside n (fun _ => False) m m') : (m'.space n).Fitting ∧
      (m'.space n).origConnectFlags = (m.space n).origConnectFlags :=
  ⟨fitting.of_settings beside.settings (fitting.sound.of_thins (beside.unused fitting.held)),
    congrArg (·.2.2.2) beside.settings⟩

theorem fitting_endResize {m m' : Manager} {last : ResizeEnd} (fitting : (m.space n).Fitting)
    (supported : last = .enable → (m.space n).origConnectFlags &&& connectLruResize ≠ 0)
    (run : endResize n last m = .ok () m') : (m'.space n).Fitting ∧
      (m'.space n).origConnectFlags = (m.space n).origConnectFlags := by
  obtain ⟨m₁, ends, -, space⟩ := exists_endResize n last m
  obtain ⟨-, rfl⟩ := EStateM.Result.ok.inj (ends.symm.trans run)
  rw [space, if_pos rfl]
  exact ⟨⟨fitting.held, fitting.sound, Namespace.fits_revise fitting.fit supported⟩, rfl⟩

theorem leaves_meet_fitting (fits : t.FitsIn n (m.space n)) (fitting : (m.space n).Fitting)
    (h : Happening) : (t.meet .default h).Leaves m fun answer m' => (m'.space n).Fitting ∧
      (m'.space n).origConnectFlags = (m.space n).origConnectFlags ∧
        ∀ next, answer = .ok (some next) → next.FitsIn n (m.space n) := by
  obtain ⟨v, last, rfl, rfl, supported⟩ := fits
  refine (leaves_meet_cancel v.space v last h).imp fun answer m' after => ?_
  obtain ⟨m₁, beside, after⟩ := after
  obtain ⟨still, orig⟩ := fitting_beside fitting beside
  rcases answer with fault | next
  · subst after
    refine ⟨still, orig, ?_⟩
    rintro _ ⟨⟩
  cases next with
  | none =>
    suffices ends : (m'.space v.space).Fitting ∧
        (m'.space v.space).origConnectFlags = (m.space v.space).origConnectFlags by
      refine ⟨ends.1, ends.2, ?_⟩
      rintro _ ⟨⟩
    rcases after with rfl | run
    · exact ⟨still, orig⟩
    · obtain ⟨fits, same⟩ := fitting_endResize still (by rwa [orig]) run
      exact ⟨fits, same.trans orig⟩
  | some next =>
    obtain ⟨rfl, w, continues, rfl⟩ := after
    refine ⟨still, orig, ?_⟩
    rintro _ ⟨⟩
    exact ⟨w, last, rfl, continues.1, supported⟩

end Task

namespace Namespace

/-- A namespace has got an LRU size. It has lost so many locks, the oldest of the unused ones, and
has no more than the size. The server drives the size exactly where it is zero and was supported. -/
structure Resized (s s' : Namespace) (size : UInt32) (k : Nat) : Prop where
  reached : s'.lruSize = size
  few : s'.lru.size ≤ size.toNat
  left : s'.lru.toList = s.lru.toList.drop k
  count : k + s'.lru.size = s.lru.size
  driven : s'.lruResizeEnabled ↔ size = 0 ∧ s.origConnectFlags &&& connectLruResize ≠ 0
  orig : s'.origConnectFlags = s.origConnectFlags
  fit : FlagsFit s'.connectFlags s'.origConnectFlags

variable {s s' : Namespace} {size : UInt32} {k : Nat}

theorem lruResizeEnabled_iff : s.lruResizeEnabled ↔ s.connectFlags &&& connectLruResize ≠ 0 :=
  bne_iff_ne

/-- What the server drives now was supported from the start. -/
theorem Fitting.supported (fitting : s.Fitting) (driven : s.lruResizeEnabled) :
    s.origConnectFlags &&& connectLruResize ≠ 0 := by
  intro none
  refine lruResizeEnabled_iff.mp driven ?_
  rw [← fitting.fit.subset, UInt64.and_assoc, none, UInt64.and_zero]

/-- The mode after the end of a change of the LRU size. -/
theorem Fitting.driven_iff (fitting : s.Fitting)
    (flags : s'.connectFlags = (s.resizeEnd size).revise s.connectFlags) :
    s'.lruResizeEnabled ↔ size = 0 ∧ s.origConnectFlags &&& connectLruResize ≠ 0 := by
  rw [lruResizeEnabled_iff, flags]
  unfold resizeEnd
  split
  · rename_i driven
    split
    · rename_i nonzero
      refine iff_of_false (fun on => on (without_and_self ..)) fun both => nonzero both.1
    · rename_i zero
      exact iff_of_true (lruResizeEnabled_iff.mp driven) ⟨not_not.mp zero, fitting.supported driven⟩
  · rename_i fixed
    split
    · rename_i both
      obtain ⟨zero, supported⟩ := Bool.and_eq_true_iff.mp both
      refine iff_of_true ?_ ⟨of_decide_eq_true zero, bne_iff_ne.mp supported⟩
      show (s.connectFlags ||| connectLruResize) &&& connectLruResize ≠ 0
      rw [union_and_self]
      decide
    · rename_i neither
      refine iff_of_false (fun on => fixed (lruResizeEnabled_iff.mpr on)) fun both => neither ?_
      simpa using both

/-- Once the locks beyond a size are gone, the end of the change puts the size into force. -/
theorem Fitting.resized (fitting : s.Fitting) (shrunk : Shrunk s s' size k) :
    s.Resized { s' with connectFlags := (s.resizeEnd size).revise s'.connectFlags } size k := by
  have list : s'.lru.toList = s.lru.toList.drop k := by
    rw [shrunk.left, fitting.sound.toList_without_take]
  have count : k + s'.lru.size = s.lru.size := by
    have length := congrArg List.length list
    rw [List.length_drop] at length
    have most := shrunk.most
    simp only [UnusedLru.toList, List.length_map] at length
    unfold UnusedLru.size at most ⊢
    omega
  have few : s'.lru.size ≤ size.toNat := by
    have least := shrunk.least
    omega
  have driven := fitting.driven_iff (show { s' with
      connectFlags := (s.resizeEnd size).revise s'.connectFlags }.connectFlags = _ from
    congrArg (s.resizeEnd size).revise shrunk.flags)
  refine ⟨?_, few, list, count, driven, shrunk.orig, ?_⟩
  · unfold lruSize
    split
    · rename_i on
      obtain ⟨rfl, -⟩ := driven.mp on
      have none : s'.lru.size = 0 := Nat.le_zero.mp few
      show UInt32.ofNat s'.lru.size = 0
      rw [none]
      rfl
    · rename_i off
      show s'.config.lruSize = size
      rw [shrunk.stored, storedSize, if_neg]
      rintro ⟨was, zero⟩
      exact off (driven.mpr ⟨zero, fitting.supported was⟩)
  · show FlagsFit _ s'.origConnectFlags
    rw [shrunk.flags, shrunk.orig]
    exact fits_revise fitting.fit resizeEnd_supported

end Namespace

namespace Tuned

variable {m m' : Manager} {n : SpaceKey} {tasks : Multiset Task} {size : UInt32} {k : Nat}

/-- In every state of a run the namespace is fitting, and so are the operations in progress. -/
theorem fitting (reach : Tuned n m tasks) :
    (m.space n).Fitting ∧ ∀ t ∈ tasks, t.FitsIn n (m.space n) := by
  induction reach with
  | @built setup m₀ m run =>
    obtain ⟨preset, -, settings, lru⟩ := settings_of_build run
    have fresh : (setup.toNamespace preset).Fitting := ⟨Nat.one_pos, .empty, .rfl⟩
    refine ⟨fresh.of_settings settings ?_, fun t none => absurd none (by simp)⟩
    rw [lru]
    exact .empty
  | @set m tasks setting s _ run ih =>
    obtain ⟨fitting, fits⟩ := ih
    obtain ⟨lru, owners, orig⟩ := Namespace.tune_keeps run
    rw [space_modifySpace, if_pos rfl]
    refine ⟨⟨?_, ?_, Namespace.fits_tune fitting.fit run⟩, fun t member => (fits t member).congr orig⟩
    · rw [owners]
      exact fitting.held
    · rw [lru]
      exact fitting.sound
  | @unused m m' tasks l added _ run ih =>
    obtain ⟨fitting, fits⟩ := ih
    obtain ⟨lru, sound, space⟩ := exists_lru_of_lockUnused fitting.sound run
    rw [space]
    exact ⟨⟨fitting.held, sound, fitting.fit⟩, fun t member => (fits t member).congr rfl⟩
  | @reused m m' tasks l removed _ run ih =>
    obtain ⟨fitting, fits⟩ := ih
    cases run
    rw [space_modifySpace, if_pos rfl]
    refine ⟨⟨fitting.held, ?_, fitting.fit⟩, fun t member => (fits t member).congr rfl⟩
    exact fitting.sound.remove l
  | @begun m m' tasks u t _ about run ih =>
    obtain ⟨still, orig, fit⟩ := (u.leaves_begin_fitting about ih.1).of_ok run
    refine ⟨still, fun s member => ?_⟩
    rcases Multiset.mem_cons.mp member with rfl | before
    · exact (fit s rfl).congr orig
    · exact (ih.2 s before).congr orig
  | @refused m m' tasks u fault _ about run ih =>
    obtain ⟨still, orig, -⟩ := (u.leaves_begin_fitting about ih.1).of_error run
    exact ⟨still, fun s before => (ih.2 s before).congr orig⟩
  | @met m m' tasks h t next _ run ih =>
    obtain ⟨still, orig, fit⟩ :=
      (Task.leaves_meet_fitting (ih.2 t (Multiset.mem_cons_self ..)) ih.1 h).of_ok run
    refine ⟨still, fun s member => ?_⟩
    rcases Multiset.mem_add.mp member with goes | before
    · obtain rfl : next = some s := by simpa using goes
      exact (fit s rfl).congr orig
    · exact (ih.2 s (Multiset.mem_cons_of_mem before)).congr orig
  | @failed m m' tasks h t fault _ run ih =>
    obtain ⟨still, orig, -⟩ :=
      (Task.leaves_meet_fitting (ih.2 t (Multiset.mem_cons_self ..)) ih.1 h).of_error run
    exact ⟨still, fun s before => (ih.2 s (Multiset.mem_cons_of_mem before)).congr orig⟩
  | @other m m' tasks _ settings unused ih =>
    obtain ⟨fitting, fits⟩ := ih
    have orig : (m'.space n).origConnectFlags = (m.space n).origConnectFlags :=
      congrArg (·.2.2.2) settings
    exact ⟨fitting.of_settings settings (fitting.sound.of_thins unused),
      fun t member => (fits t member).congr orig⟩

/-- What a whole call leaves of a cancellation: the unused locks as they are, and the connect flags
as its end makes them. -/
theorem concluded {v : VictimCancel} {last : ResizeEnd} (place : v.space = n)
    (concludes : Concludes (.cancel v last) m k m') : k = v.victims.length ∧
      ∃ m₁, Beside n (fun _ => False) m m₁ ∧ endResize n last m₁ = .ok () m' := by
  generalize same : Task.cancel v last = t at concludes
  induction concludes generalizing v with
  | @returned t m m' k run =>
    subst same
    obtain ⟨m₁, beside, outcome, ends⟩ := (Task.leaves_turn_cancel n v last).of_ok run
    rw [place] at ends
    exact ⟨Outcome.count.inj outcome, m₁, beside, ends⟩
  | @met t next m m₁ m' k h run _ ih =>
    subst same
    obtain ⟨_, beside, rfl, w, continues, rfl⟩ := (Task.leaves_meet_cancel n v last h).of_ok run
    obtain ⟨count, m₂, still, ends⟩ := ih (continues.1.trans place) rfl
    rw [continues.2] at count
    exact ⟨count, m₂, beside.trans still, ends⟩

/-- In every state of a run the connect flags fit the original ones, and a whole call reaches the
size that it is given, whatever the mode was before. -/
theorem resizes (reach : Tuned n m tasks) :
    FlagsFit (m.space n).connectFlags (m.space n).origConnectFlags ∧
      ∀ size k m', Resizes n size m k m' → (m.space n).Resized (m'.space n) size k := by
  obtain ⟨fitting, -⟩ := reach.fitting
  refine ⟨fitting.fit, ?_⟩
  rintro size k m' ⟨v, last, m₁, begins, concludes⟩
  obtain ⟨taken, shrunk, named⟩ := (leaves_setLruSize fitting.sound fitting.held size).of_ok begins
  obtain ⟨place, count, ends⟩ := named v last rfl
  obtain ⟨same, m₂, beside, revises⟩ := concluded place concludes
  obtain ⟨_, revised, -, space⟩ := exists_endResize n last m₂
  obtain ⟨-, rfl⟩ := EStateM.Result.ok.inj (revised.symm.trans revises)
  rw [count] at same
  rw [space, if_pos rfl, ends, same]
  have held : 0 < (m₁.space n).owners := by
    rw [shrunk.owners]
    exact fitting.held
  exact fitting.resized (shrunk.congr beside.settings (beside.unused held).eq_of_none)

end Tuned

/-- The size is set, and the cancellation that follows takes a turn. -/
def Act.sizeOnce (n : SpaceKey) (size : UInt32) : Act Task.Step := do
  let begun ← setLruSize .default n (.value size)
  (Task.cancel begun.1 begun.2).turn .default

namespace Tuned

/-- A call that ends with its first turn is a whole one. -/
theorem exists_resizes {m m' : Manager} {n : SpaceKey} {size : UInt32} {turn : Task.Step}
    (run : sizeOnce n size m = .ok turn m') (settled : turn.next? = none) :
    ∃ k, Resizes n size m k m' := by
  obtain ⟨⟨v, last⟩, m₁, begins, turned⟩ := ok_of_bind run
  obtain ⟨m₂, -, after⟩ := (Task.leaves_turn_cancel n v _).of_ok turned
  cases turn with
  | returns outcome =>
    obtain ⟨rfl, -⟩ := after
    exact ⟨_, v, _, m₁, begins, .returned turned⟩
  | _ => cases settled

/-- A server drives the size of three unused locks, of which the oldest goes when it is fixed. -/
theorem resizes_of_driven_size : ∃ m k m', Tuned ⟨0⟩ m 0 ∧ (m.space ⟨0⟩).lruResizeEnabled ∧
    (m.space ⟨0⟩).lru.toList = [⟨0⟩, ⟨1⟩, ⟨2⟩] ∧ Resizes ⟨0⟩ 2 m k m' ∧
    (m'.space ⟨0⟩).lru.toList = [⟨1⟩, ⟨2⟩] ∧
    FlagsFit (m.space ⟨0⟩).connectFlags (m.space ⟨0⟩).origConnectFlags ∧
    (m.space ⟨0⟩).Resized (m'.space ⟨0⟩) 2 k := by
  obtain ⟨_, m₀, built, rfl, _, m, cached, ⟨enabled, list⟩, turn, m', sized, settled, left⟩ :
      (build { Setup.oneBucket with connectFlags := connectLruResize }).Returns {} fun n m₀ =>
        n = .ok ⟨0⟩ ∧ (cacheNew ⟨0⟩ [⟨1⟩, ⟨2⟩, ⟨3⟩]).Returns m₀ fun _ m =>
          ((m.space ⟨0⟩).lruResizeEnabled ∧ (m.space ⟨0⟩).lru.toList = [⟨0⟩, ⟨1⟩, ⟨2⟩]) ∧
            (sizeOnce ⟨0⟩ 2).Returns m fun turn m' => turn.next?.isNone ∧
              (m'.space ⟨0⟩).lru.toList = [⟨1⟩, ⟨2⟩] := by
    decide +kernel
  obtain ⟨k, resized⟩ := exists_resizes sized (Option.isNone_iff_eq_none.mp settled)
  have reach : Tuned ⟨0⟩ m 0 := by
    refine holds_of_cacheNew (I := (Tuned ⟨0⟩ · 0)) (fun m m' spaces reach => ?_)
      (fun _ _ _ _ run reach => reach.unused run) (.built built) cached
    have space : m'.space ⟨0⟩ = m.space ⟨0⟩ := congrArg (·.get ⟨0⟩) spaces
    exact reach.other (by rw [space]) (by rw [space]; exact .rfl)
  obtain ⟨fit, sizes⟩ := reach.resizes
  exact ⟨m, k, m', reach, enabled, list, resized, left, fit, sizes 2 k m' resized⟩

end Tuned

end Lockspace
