import Lockspace.Proofs.Concurrent.Freeing
import Lockspace.Proofs.Rolls.Enrolled
import Lockspace.Proofs.Rolls.Teardowns

namespace Lockspace

open Manager Act

/-- Where a thread stands that takes a namespace down in both phases. Between two of its steps
other threads may take theirs. -/
inductive FreeCall where
  | called (force hasImport : Bool)
  | draining (t : Teardown)
  /-- The first phase has failed. -/
  | failed (e : LockError)
  | posting (f : Freeing)
  /-- The second phase did not free the namespace, and the count is about to be read again. -/
  | asking (f : Freeing)
  /-- Both phases are over: how the second ended, and what the call returns. -/
  | returned (f : Freeing) (result : Except LockError Unit)

namespace FreeCall

/-- Where a turn of the first phase leads. -/
def afterPrior : Turn Teardown (Except LockError Unit) → FreeCall
  | .goes t | .asks _ t | .parks _ t => draining t
  | .returns (.ok ()) => posting .testing
  | .returns (.error e) => failed e

/-- Where a step of the second phase leads. -/
def afterPost (f : Freeing) : FreeCall :=
  match f.answer? with
  | none => posting f
  | some true => returned f (.ok ())
  | some false => asking f

/-- What a call that did not free the namespace returns. -/
def afterAsking (s : Namespace) : Except LockError Unit :=
  if s.table.bref ≠ 0 then .error (.drainTimeout s.name s.table.bref) else .ok ()

/-- The steps of a call. Whether it sleeps, when it wakes and what peers and transports answer is
left open. -/
inductive Steps (policy : LockPolicy) (n : SpaceKey) :
    FreeCall → Manager → FreeCall → Manager → Prop
  | start {m m' : Manager} {force hasImport : Bool} {t : Teardown}
      (run : Teardown.start n force hasImport m = .ok t m') :
      Steps policy n (called force hasImport) m (draining t) m'
  | turn {m m' : Manager} {t : Teardown} {turn : Turn Teardown (Except LockError Unit)}
      (run : t.turn policy m = .ok turn m') :
      Steps policy n (draining t) m (afterPrior turn) m'
  | expired {m m' : Manager} {t : Teardown} {turn : Turn Teardown (Except LockError Unit)}
      (run : t.expired m = .ok turn m') : Steps policy n (draining t) m (afterPrior turn) m'
  | answered {m m' : Manager} {t t' : Teardown} {l : LockKey} {failure : Option LockError}
      (run : t.answered l failure m = .ok t' m') : Steps policy n (draining t) m (draining t') m'
  | press {m m' : Manager} {t : Teardown} {step : Escalation} (run : t.press step m = .ok () m') :
      Steps policy n (draining t) m (draining t) m'
  | pressed {m m' : Manager} {t t' : Teardown} {step : Escalation} {failure : Option LockError}
      (run : t.pressed step failure m = .ok t' m') : Steps policy n (draining t) m (draining t') m'
  | post {m m' : Manager} {f f' : Freeing} (run : f.advance n m = .ok f' m') :
      Steps policy n (posting f) m (afterPost f') m'
  | ask {m : Manager} {f : Freeing} :
      Steps policy n (asking f) m (returned f (afterAsking (m.space n))) m

end FreeCall

/-- What becomes of a registry while one thread takes a namespace of it down and any number of
others have activities in that namespace, which come at any time and take their steps in any
order. -/
inductive TakenDown (policy : LockPolicy) (n : SpaceKey) (m₀ : Manager) :
    Manager → Multiset Activity → FreeCall → Prop
  | called (force hasImport : Bool) : TakenDown policy n m₀ m₀ 0 (.called force hasImport)
  | call {m : Manager} {acts : Multiset Activity} {call : FreeCall} {a : Activity}
      (reach : TakenDown policy n m₀ m acts call) (fresh : a.IsCall) :
      TakenDown policy n m₀ m (a ::ₘ acts) call
  | use {m : Manager} {acts : Multiset Activity} {call : FreeCall} {a b : Activity}
      (reach : TakenDown policy n m₀ m (a ::ₘ acts) call) (uses : a.Uses b) :
      TakenDown policy n m₀ m (b ::ₘ acts) call
  | step {m m' : Manager} {acts : Multiset Activity} {call : FreeCall} {a : Activity}
      {after : List Activity} (reach : TakenDown policy n m₀ m (a ::ₘ acts) call)
      (may : a.MayStep (m.space n).table acts) (run : a.advance n m = .ok after m') :
      TakenDown policy n m₀ m' (↑after + acts) call
  | own {m m' : Manager} {acts : Multiset Activity} {call call' : FreeCall}
      (reach : TakenDown policy n m₀ m acts call) (steps : call.Steps policy n m call' m') :
      TakenDown policy n m₀ m' acts call'

/-- A namespace that a call has claimed to free. It is on a list unless it is `off`, and counted
unless it is `uncounted`. -/
structure Claimed (n : SpaceKey) (m₀ : Manager) (off : Prop) (uncounted : Nat) (m : Manager) :
    Prop where
  listed : m.Listed
  unfreed : (m₀.space n).freed = false
  link : off → (m.space n).link = .detached
  alive : m.registry.alive + uncounted = m₀.registry.alive

namespace Claimed

variable {n : SpaceKey} {m₀ m m' : Manager} {off : Prop} {uncounted : Nat}

theorem shuffled (claimed : Claimed n m₀ off uncounted m) (moves : Shuffled m m') :
    Claimed n m₀ off uncounted m' where
  listed := moves.listed claimed.listed
  unfreed := claimed.unfreed
  link gone := (moves.detached n).mpr (claimed.link gone)
  alive := by
    rw [moves.alive]
    exact claimed.alive

end Claimed

namespace Freeing

variable {n : SpaceKey} {m₀ m : Manager} {f : Freeing}

/-- What is known of a registry where a call to free a namespace stands, compared with when the
whole call came. -/
def Knows (n : SpaceKey) (m₀ m : Manager) : Freeing → Prop
  | testing | claiming | refused => Shuffled m₀ m
  | late => Shuffled m₀ m ∧ (m₀.space n).freed = true
  | unregistering => Claimed n m₀ False 0 m
  | done => Claimed n m₀ True 1 m
  | _ => Claimed n m₀ True 0 m

theorem Knows.shuffled {m' : Manager} (knows : f.Knows n m₀ m) (moves : Shuffled m m') :
    f.Knows n m₀ m' := by
  cases f with
  | testing => exact knows.trans moves
  | claiming => exact knows.trans moves
  | refused => exact knows.trans moves
  | late => exact ⟨knows.1.trans moves, knows.2⟩
  | _ => exact knows.shuffled moves

theorem ends_claim (listed : m₀.Listed) (knows : Shuffled m₀ m) :
    (claim n).Ends m (fun _ => True) fun f' m' => f'.Knows n m₀ m' := by
  have claimed : Reentered n (m.space n).link true m
      (m.modifySpace n fun s => { s with freed := true }) := reentered_claimed
  unfold claim claimFreed
  simp only [ends_bind, ends_space, ends_modifySpace, ends_pure, ends_ite]
  split
  · rename_i already
    rw [ends_log]
    refine ⟨knows.trans (SameRoll.shuffled ?_), (knows.freed n).symm.trans already⟩
    have marked : SameRoll m (m.modifySpace n fun s => { s with freed := true }) :=
      Manager.sameRoll_modifySpace n (by simp [Namespace.place, already])
    exact marked.trans (.of_eq rfl rfl)
  · rename_i fresh
    refine ⟨claimed.listed (knows.listed listed), ?_, False.elim, knows.alive⟩
    rw [← knows.freed n]
    simpa using fresh

theorem ends_check {left : Nat} (claimed : Claimed n m₀ True 0 m) :
    (check n left).Ends m (fun _ => True) fun f' m' => f'.Knows n m₀ m' := by
  have last : ∀ s : Namespace, ∀ m', SameRoll m m' → (do
      if s.link ≠ .detached then throw (.stillLinked s.name)
      return uncounting : Act Freeing).Ends m' (fun _ => True) fun f' m' => f'.Knows n m₀ m' := by
    intro s m' same
    rw [ends_ite]
    split
    · exact ends_bind.mpr (ends_throw.mpr trivial)
    · exact ends_pure.mpr (claimed.shuffled same.shuffled)
  unfold check
  rw [ends_bind, ends_space]
  show (if left ≠ 0 then log _ _ >>= _ else _ : Act Freeing).Ends m _ _
  split
  · rw [ends_bind, ends_log]
    exact last _ _ (.of_eq rfl rfl)
  · exact last _ m .rfl

/-- A step of a call that frees a namespace gets to what is known where it leads. -/
theorem ends_advance (listed : m₀.Listed) (knows : f.Knows n m₀ m) :
    (f.advance n).Ends m (fun _ => True) fun f' m' => f'.Knows n m₀ m' := by
  have goes {α : Type} {act : Act α} {g : Freeing} (same : act.Preserves SameRoll)
      (fits : ∀ m', Shuffled m m' → g.Knows n m₀ m') :
      (act >>= fun _ => pure g).Ends m (fun _ => True) fun f' m' => f'.Knows n m₀ m' := by
    rw [ends_bind]
    exact (shuffled_of_sameRoll same m).ends.imp fun _ m' moves => ends_pure.mpr (fits m' moves)
  cases f with
  | testing =>
    simp only [advance, test, ends_bind, ends_space, ends_ite, ends_log, ends_pure]
    split
    · refine knows.trans (SameRoll.shuffled ?_)
      exact .of_eq rfl rfl
    · exact knows
  | claiming => exact ends_claim listed knows
  | unregistering =>
    obtain ⟨lists, left, anew⟩ := run_unregister (n := n) knows.listed
    refine ends_of_run (run_bind left) ⟨anew.listed knows.listed, knows.unfreed, fun _ => ?_, ?_⟩
    · rw [anew.link, if_pos rfl]
    · rw [alive_relist]
      exact knows.alive
  | finalizing => exact goes sameRoll_finalizeUnused fun _ => knows.shuffled
  | retiring => exact goes sameRoll_retireStats fun _ => knows.shuffled
  | clearing next left =>
    simp only [advance, clearNext, ends_bind, ends_space, ends_ite, ends_setTable, ends_pure]
    split
    · exact Claimed.shuffled knows (Manager.sameRoll_modifySpace n rfl).shuffled
    · exact knows
  | checking left => exact ends_check knows
  | uncounting =>
    simp only [advance, dropGate, ends_bind, ends_discard, ends_get, ends_ite, ends_throw,
      ends_modify, ends_pure]
    split
    · trivial
    · rename_i counted
      refine ⟨fun k side => ?_, knows.unfreed, knows.link, ?_⟩
      · have here := knows.listed k side
        cases side <;> exact here
      · have alive := knows.alive
        show m.registry.alive - 1 + 1 = _
        omega
  | refused => exact ends_pure.mpr knows
  | late => exact ends_pure.mpr knows
  | done => exact ends_pure.mpr knows

end Freeing

namespace FreeCall

variable {policy : LockPolicy} {n : SpaceKey} {m₀ m m' : Manager} {call call' : FreeCall}

/-- What is known where a whole call stands. -/
def Knows (n : SpaceKey) (m₀ m : Manager) : FreeCall → Prop
  | called .. | draining _ | failed _ => Shuffled m₀ m
  | posting f => f.Knows n m₀ m
  | asking f => f.answer? = some false ∧ f.Knows n m₀ m
  | returned f _ => f.answer?.isSome ∧ f.Knows n m₀ m

theorem Knows.shuffled (knows : call.Knows n m₀ m) (moves : Shuffled m m') :
    call.Knows n m₀ m' := by
  cases call with
  | posting f => exact Freeing.Knows.shuffled knows moves
  | asking f => exact ⟨knows.1, knows.2.shuffled moves⟩
  | returned f result => exact ⟨knows.1, knows.2.shuffled moves⟩
  | _ => exact knows.trans moves

theorem knows_afterPrior (knows : Shuffled m₀ m) (turn : Turn Teardown (Except LockError Unit)) :
    (afterPrior turn).Knows n m₀ m := by
  cases turn with
  | returns result => cases result <;> exact knows
  | _ => exact knows

theorem knows_afterPost {f : Freeing} (knows : f.Knows n m₀ m) :
    (afterPost f).Knows n m₀ m := by
  cases f <;> first | exact knows | exact ⟨rfl, knows⟩

theorem Steps.knows (steps : call.Steps policy n m call' m') (listed : m₀.Listed)
    (keeps : policy.Keeps Shuffled) (knows : call.Knows n m₀ m) : call'.Knows n m₀ m' := by
  have within : TearsWithin Shuffled := tearsWithin_of_sameRoll fun _ _ => SameRoll.shuffled
  cases steps with
  | start run => exact knows.trans ((Teardown.keeps_start within _ _ m).of_ok run)
  | turn run =>
    exact knows_afterPrior (knows.trans ((Teardown.keeps_turn within keeps m).of_ok run)) _
  | expired run =>
    exact knows_afterPrior (knows.trans ((Teardown.keeps_expired within m).of_ok run)) _
  | answered run => exact knows.trans ((Teardown.keeps_answered within _ m).of_ok run)
  | @press _ _ t step run =>
    have notes : (t.press step).Preserves SameRoll := by cases step <;> exact sameRoll_note _
    exact knows.trans ((shuffled_of_sameRoll notes m).of_ok run)
  | pressed run => exact knows.trans ((Teardown.keeps_pressed within _ _ m).of_ok run)
  | post run => exact knows_afterPost ((Freeing.ends_advance listed knows).of_ok run)
  | ask => exact ⟨by rw [knows.1]; rfl, knows.2⟩

/-- A second phase that has answered stays where it is. -/
theorem advance_of_answer {f : Freeing} (answered : f.answer? ≠ none) : f.advance n m = .ok f m := by
  cases f <;> first | rfl | exact absurd rfl answered

/-- The steps of a run of a whole call that nothing comes between. -/
def Undisturbed (policy : LockPolicy) (n : SpaceKey) :
    FreeCall × Manager → FreeCall × Manager → Prop :=
  Relation.ReflTransGen fun before after => before.1.Steps policy n before.2 after.1 after.2

theorem undisturbed_of_post {f f' : Freeing} (run : f.Undisturbed n m f' m') :
    Undisturbed policy n (afterPost f, m) (afterPost f', m') := by
  induction run with
  | rest => exact .refl
  | @next f f₁ f' m m₁ m' run _ ih =>
    cases answer : f.answer? with
    | none =>
      refine .head ?_ ih
      rw [afterPost, answer]
      exact .post run
    | some answers =>
      rw [advance_of_answer (by simp [answer])] at run
      cases run
      exact ih

/-- The second phase of a call, with what follows it, is a run of its steps. -/
theorem undisturbed_of_free {result : Except LockError Unit}
    (run : Teardown.free n m = .ok result m') :
    ∃ f, Undisturbed policy n (posting .testing, m) (returned f result, m') := by
  obtain ⟨freed, m₁, post, run⟩ := ok_of_bind run
  obtain ⟨f, answers, steps⟩ := Freeing.undisturbed_of_freePost post
  have posted : Undisturbed policy n (afterPost .testing, m) (afterPost f, m₁) :=
    undisturbed_of_post steps
  refine ⟨f, ?_⟩
  cases freed with
  | true =>
    cases run
    rwa [show afterPost f = returned f (.ok ()) by rw [afterPost, answers]] at posted
  | false =>
    rw [show afterPost f = asking f by rw [afterPost, answers]] at posted
    refine posted.tail ?_
    have returns : result = afterAsking (m₁.space n) ∧ m' = m₁ := by
      unfold afterAsking
      replace run : (space n >>= _) m₁ = _ := run
      rw [run_bind (run_space n m₁)] at run
      split at run
      · rename_i used
        cases run
        exact ⟨(if_pos used).symm, rfl⟩
      · rename_i unused
        cases run
        exact ⟨(if_neg unused).symm, rfl⟩
    obtain ⟨rfl, rfl⟩ := returns
    exact .ask

end FreeCall

namespace TakenDown

variable {policy : LockPolicy} {n : SpaceKey} {m₀ m : Manager} {acts : Multiset Activity}
  {call : FreeCall} {roll : Roll}

/-- Whatever other threads do, a call knows at each step what it must. -/
theorem knows (reach : TakenDown policy n m₀ m acts call) (listed : m₀.Listed)
    (keeps : policy.Keeps Shuffled) : call.Knows n m₀ m := by
  induction reach with
  | called force hasImport => exact refl_of Shuffled m₀
  | call _ _ ih => exact ih
  | use _ _ ih => exact ih
  | step _ _ run ih => exact ih.shuffled ((shuffled_advance _ _).of_ok run)
  | own _ steps ih => exact steps.knows listed keeps ih

/-- Where the second phase of a call does not find the namespace referenced, the call only succeeds
with a namespace that was freed, by this call or before. It is on no list then, and not counted. -/
theorem freed_of_ok {f : Freeing} (start : Enrolled m₀ roll) (keeps : policy.Keeps Shuffled)
    (reach : TakenDown policy n m₀ m acts (.returned f (.ok ()))) (unreferenced : f ≠ .refused) :
    (f = .done ∨ (m₀.space n).freed = true) ∧ (m.space n).link = .detached ∧
    (∀ side, n ∉ (m.registry.get side).active ∧ n ∉ (m.registry.get side).inactive) ∧
    (n ∉ roll.torn → m.registry.alive + (if n ∈ roll.freed then roll.freed else
      n :: roll.freed).length = roll.built.length) := by
  have matched := start.matched
  obtain ⟨answers, knows⟩ := reach.knows matched.listed keeps
  have counted := matched.counted
  have gone : (f = .done ∨ (m₀.space n).freed = true) ∧ m.Listed ∧ (m.space n).link = .detached ∧
      (n ∉ roll.torn → m.registry.alive + (if n ∈ roll.freed then roll.freed else
        n :: roll.freed).length = roll.built.length) := by
    cases f with
    | late =>
      obtain ⟨moves, freed⟩ := knows
      refine ⟨Or.inr freed, moves.listed matched.listed, ?_, fun whole => ?_⟩
      · exact (moves.detached n).mpr ((matched.detached n).mpr (Or.inr freed))
      · rw [if_pos (((matched.freed n).mp freed).resolve_right whole), moves.alive]
        exact counted
    | done =>
      refine ⟨Or.inl rfl, knows.listed, knows.link trivial, fun _ => ?_⟩
      have alive := knows.alive
      rw [if_neg (matched.not_mem_freed knows.unfreed), List.length_cons]
      omega
    | refused => exact absurd rfl unreferenced
    | _ => cases answers
  obtain ⟨freed, listed, off, alive⟩ := gone
  refine ⟨freed, off, fun side => ?_, alive⟩
  have holds := listed n side
  rw [Namespace.linkOn, off, ite_self] at holds
  exact SideLists.holds_detached.mp holds

/-- Another thread looks a resource up before the second phase, and has not inserted it when the
namespace is freed. -/
theorem freed_of_ok_beside_lookup :
    ∃ m₀ m, Enrolled m₀ { built := [⟨0⟩] } ∧
      TakenDown .default ⟨0⟩ m₀ m (.creating ⟨1, 2, 0, 0⟩ .plain 0 ::ₘ 0)
        (.returned .done (.ok ())) ∧
      (m.space ⟨0⟩).link = .detached ∧ m.registry.alive = 0 := by
  let seeker : Activity := .seeking ⟨1, 2, 0, 0⟩ .plain true
  let creator : Activity := .creating ⟨1, 2, 0, 0⟩ .plain 0
  obtain ⟨m₀, t, m₁, m₂, m₃, m₄, m₅, m₆, m₇, m₈, m₉, m₁₀, built, started, drained, run₁, run₂, run₃,
      run₄, run₅, run₆, run₇, run₈, run₉, run₁₀⟩ : ∃ m₀ t m₁ m₂ m₃ m₄ m₅ m₆ m₇ m₈ m₉ m₁₀,
      Act.build .oneBucket {} = .ok (.ok ⟨0⟩) m₀ ∧
      Teardown.start ⟨0⟩ false false m₀ = .ok t m₁ ∧
      t.turn .default m₁ = .ok (.returns (.ok ())) m₂ ∧ seeker.advance ⟨0⟩ m₂ = .ok [creator] m₃ ∧
      Freeing.testing.advance ⟨0⟩ m₃ = .ok .claiming m₃ ∧
      Freeing.claiming.advance ⟨0⟩ m₃ = .ok .unregistering m₄ ∧
      Freeing.unregistering.advance ⟨0⟩ m₄ = .ok .finalizing m₅ ∧
      Freeing.finalizing.advance ⟨0⟩ m₅ = .ok .retiring m₆ ∧
      Freeing.retiring.advance ⟨0⟩ m₆ = .ok (.clearing 0 0) m₇ ∧
      (Freeing.clearing 0 0).advance ⟨0⟩ m₇ = .ok (.clearing 1 0) m₈ ∧
      (Freeing.clearing 1 0).advance ⟨0⟩ m₈ = .ok (.checking 0) m₈ ∧
      (Freeing.checking 0).advance ⟨0⟩ m₈ = .ok .uncounting m₉ ∧
      Freeing.uncounting.advance ⟨0⟩ m₉ = .ok .done m₁₀ :=
    ⟨_, _, _, _, _, _, _, _, _, _, _, _, rfl, rfl, rfl, rfl, rfl, rfl, rfl, rfl, rfl, rfl, rfl, rfl,
      rfl⟩
  have enrolled : Enrolled m₀ { built := [⟨0⟩] } := Enrolled.empty.build built
  have keeps : LockPolicy.default.Keeps Shuffled :=
    LockPolicy.keeps_default.mono fun _ _ => SameRoll.shuffled
  have idle : TakenDown .default ⟨0⟩ m₀ m₂ 0 (.posting .testing) :=
    ((TakenDown.called false false).own (.start started)).own (.turn drained)
  have sought : TakenDown .default ⟨0⟩ m₀ m₃ (creator ::ₘ 0) (.posting .testing) :=
    (idle.call (a := seeker) trivial).step (by simp [Activity.MayStep]) run₁
  have taken : TakenDown .default ⟨0⟩ m₀ m₇ (creator ::ₘ 0) (.posting (.clearing 0 0)) :=
    ((((sought.own (.post run₂)).own (.post run₃)).own (.post run₄)).own (.post run₅)).own
      (.post run₆)
  have freed : TakenDown .default ⟨0⟩ m₀ m₁₀ (creator ::ₘ 0) (.returned .done (.ok ())) :=
    (((taken.own (.post run₇)).own (.post run₈)).own (.post run₉)).own (.post run₁₀)
  obtain ⟨-, off, -, counted⟩ := freed.freed_of_ok enrolled keeps nofun
  exact ⟨m₀, m₁₀, enrolled, freed, off, by simpa using counted⟩

/-- A resource is there when the second phase reads the count, and gone again when the count is read
for the second time. The call succeeds, and the namespace is on its list and counted as before. -/
theorem listed_after_ok :
    ∃ m₀ m, Enrolled m₀ { built := [⟨0⟩] } ∧
      TakenDown .default ⟨0⟩ m₀ m (.answered ⟨0⟩ true ::ₘ 0) (.returned .refused (.ok ())) ∧
      (m.space ⟨0⟩).link = .inactive ∧ ⟨0⟩ ∈ (m.registry.get .server).inactive ∧
      m.registry.alive = 1 := by
  let seeker : Activity := .seeking ⟨1, 2, 0, 0⟩ .plain true
  let creator : Activity := .creating ⟨1, 2, 0, 0⟩ .plain 0
  let announcer : Activity := .announcing ⟨0⟩ true 1
  let handle : Activity := .handle ⟨0⟩
  let releaser : Activity := .releasing ⟨0⟩
  let comparer : Activity := .comparing ⟨0⟩ 1
  let locker : Activity := .locking ⟨0⟩
  let evicter : Activity := .evicting ⟨0⟩
  let teller : Activity := .telling ⟨0⟩ true 0
  let done : Activity := .answered ⟨0⟩ true
  obtain ⟨m₀, t, m₁, m₂, m₃, m₄, m₅, m₆, m₇, m₈, m₉, m₁₀, m₁₁, built, started, drained, run₁, run₂,
      run₃, refused, run₄, run₅, run₆, run₇, run₈, unused, linked, listed, counted⟩ :
      ∃ m₀ t m₁ m₂ m₃ m₄ m₅ m₆ m₇ m₈ m₉ m₁₀ m₁₁,
      Act.build .oneBucket {} = .ok (.ok ⟨0⟩) m₀ ∧
      Teardown.start ⟨0⟩ false false m₀ = .ok t m₁ ∧
      t.turn .default m₁ = .ok (.returns (.ok ())) m₂ ∧ seeker.advance ⟨0⟩ m₂ = .ok [creator] m₃ ∧
      creator.advance ⟨0⟩ m₃ = .ok [announcer] m₄ ∧ announcer.advance ⟨0⟩ m₄ = .ok [handle] m₅ ∧
      Freeing.testing.advance ⟨0⟩ m₅ = .ok .refused m₆ ∧
      releaser.advance ⟨0⟩ m₆ = .ok [comparer] m₇ ∧ comparer.advance ⟨0⟩ m₇ = .ok [locker] m₈ ∧
      locker.advance ⟨0⟩ m₈ = .ok [evicter] m₉ ∧ evicter.advance ⟨0⟩ m₉ = .ok [teller] m₁₀ ∧
      teller.advance ⟨0⟩ m₁₀ = .ok [done] m₁₁ ∧ (m₁₁.space ⟨0⟩).table.bref = 0 ∧
      (m₁₁.space ⟨0⟩).link = .inactive ∧ (m₁₁.registry.get .server).inactive = [⟨0⟩] ∧
      m₁₁.registry.alive = 1 :=
    ⟨_, _, _, _, _, _, _, _, _, _, _, _, _, rfl, rfl, rfl, rfl, rfl, rfl, rfl, rfl, rfl, rfl, rfl,
      rfl, rfl, rfl, rfl, rfl⟩
  have alone : ∀ (a : Activity) (t : Table), a.MayStep t 0 := by simp [Activity.MayStep]
  have idle : TakenDown .default ⟨0⟩ m₀ m₂ 0 (.posting .testing) :=
    ((TakenDown.called false false).own (.start started)).own (.turn drained)
  have held : TakenDown .default ⟨0⟩ m₀ m₅ (handle ::ₘ 0) (.posting .testing) :=
    (((idle.call (a := seeker) trivial).step (alone _ _) run₁).step (alone _ _) run₂).step
      (alone _ _) run₃
  have refusal : TakenDown .default ⟨0⟩ m₀ m₆ (handle ::ₘ 0) (.asking .refused) :=
    held.own (.post refused)
  have gone : TakenDown .default ⟨0⟩ m₀ m₁₁ (done ::ₘ 0) (.asking .refused) :=
    (((((refusal.use (.release _)).step (alone _ _) run₄).step (alone _ _) run₅).step
      (alone _ _) run₆).step (alone _ _) run₇).step (alone _ _) run₈
  have success : FreeCall.afterAsking (m₁₁.space ⟨0⟩) = .ok () := by
    simp [FreeCall.afterAsking, unused]
  have asked : FreeCall.Steps .default ⟨0⟩ (.asking .refused) m₁₁
      (.returned .refused (.ok ())) m₁₁ := success ▸ .ask
  exact ⟨m₀, m₁₁, Enrolled.empty.build built, gone.own asked, linked, by simp [listed], counted⟩

end TakenDown

end Lockspace
