import Lockspace.Proofs.Concurrent.LockSteps
import Lockspace.Proofs.Concurrent.ReleasingSteps
import Lockspace.Proofs.SpaceLife

namespace Lockspace

open Manager Table

namespace InOrder

variable {n : SpaceKey} {m m' : Manager} {a b : Activity} {rest : Multiset Activity}

/-- Whichever activity takes its next step, everything stays in order, and no assertion about
references fails. -/
theorem steps (inOrder : InOrder n m (a ::ₘ rest)) (may : a.MayStep (m.space n).table rest) :
    Steps n m a rest := by
  cases a with
  | handle key => exact Act.ends_pure.mpr ⟨inOrder, .rfl⟩
  | hold => exact Act.ends_pure.mpr ⟨inOrder, .rfl⟩
  | answered key freed => exact Act.ends_pure.mpr ⟨inOrder, .rfl⟩
  | seeking id rtype create => exact inOrder.steps_seeking may
  | creating id rtype seen => exact inOrder.steps_creating may
  | announcing key first bref => exact inOrder.steps_announcing
  | cloning key => exact inOrder.steps_cloning
  | releasing key => exact inOrder.steps_releasing
  | comparing key seen => exact inOrder.steps_comparing
  | locking key => exact inOrder.steps_locking
  | evicting key => exact inOrder.steps_evicting
  | telling key emptied bref => exact inOrder.steps_telling
  | listing todo found =>
    cases todo with
    | nil => exact inOrder.steps_listing
    | cons b todo => exact inOrder.steps_visiting may
  | binding l key => exact inOrder.steps_binding
  | unbinding l => exact inOrder.steps_unbinding
  | destroying l => exact inOrder.steps_destroying
  | reaping l => exact inOrder.steps_reaping
  | forgetting l => exact inOrder.steps_forgetting
  | claiming => exact inOrder.steps_claiming
  | yielding => exact inOrder.steps_yielding
  | signalling => exact inOrder.steps_signalling

theorem of_fresh (fresh : Fresh n m) : InOrder n m 0 := by
  obtain ⟨preset, salt, least, sound, table⟩ := fresh.table
  have bound : ∀ l, (m.lock l).bound = none := fun l => congrArg (·.2.2.1) (fresh.locks l)
  have size : (m.space n).table.resources.size = 0 := by
    rw [table]
    rfl
  refine ⟨?_, ?_, by simp, ?_⟩
  · rw [boundKeys_eq_zero bound, table]
    exact .new sound salt least
  · intro l r owned
    rw [bound] at owned
    cases owned
  · intro key
    simp [unreferenced, size]

/-- A call that comes has nothing at hand yet. -/
theorem call (inOrder : InOrder n m rest) (fresh : a.IsCall) : InOrder n m (a ::ₘ rest) := by
  obtain ⟨hands, leaving, holds⟩ : a.hands = 0 ∧ a.leaving = 0 ∧ a.holds = 0 := by
    revert fresh
    cases a with
    | listing todo found => cases found <;> simp [Activity.IsCall, Activity.hands,
        Activity.leaving, Activity.holds]
    | _ => simp [Activity.IsCall, Activity.hands, Activity.leaving, Activity.holds]
  have fits : a.Fits (m.space n).table := by
    revert fresh
    cases a <;> simp [Activity.IsCall, Activity.Fits]
  have frees : ∀ key, a.frees key = false := by
    revert fresh
    cases a <;> simp [Activity.IsCall, Activity.frees]
  refine ⟨?_, inOrder.spaces, ?_, ?_⟩
  · simpa [handsOf, leavingOf, holdsOf, hands, leaving, holds] using inOrder.tallied
  · intro b member
    rcases Multiset.mem_cons.mp member with rfl | old
    · exact fits
    · exact inOrder.fits b old
  · intro key
    rw [Multiset.countP_cons, frees key]
    exact inOrder.freed key

theorem use (inOrder : InOrder n m (a ::ₘ rest)) (uses : a.Uses b) : InOrder n m (b ::ₘ rest) := by
  have kept : Keeps n m m := Agrees.rfl.keeps
  have fits : b.Fits (m.space n).table := by cases uses <;> simp [Activity.Fits]
  suffices leads : Leads n m m (↑[b] + rest) from leads.inOrder
  refine inOrder.keeps kept ?_ ?_ ?_ (by simpa using fits) fun key => ?_
  · cases uses <;> rfl
  · cases uses <;> rfl
  · cases uses <;> rfl
  · cases uses <;> simp [Activity.frees]

end InOrder

theorem Interleaved.inOrder {setup : Setup} {n : SpaceKey} {m : Manager} {acts : Multiset Activity}
    (reach : Interleaved setup n m acts) : InOrder n m acts := by
  induction reach with
  | built run => exact .of_fresh (Act.fresh_of_build run)
  | call _ fresh ih => exact ih.call fresh
  | use _ uses ih => exact ih.use uses
  | step _ may run ih => exact ((ih.steps may).of_ok run).inOrder
  | refused _ run ih => exact ih.undisturbed (Act.agrees_of_refused run).keeps

end Lockspace
