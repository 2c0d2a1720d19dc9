import Lockspace.Manager.ValueBlock
import Lockspace.Proofs.Outcomes
import Lockspace.Proofs.SpaceLife
import Lockspace.Proofs.Tally
import Mathlib.Control.Monad.Basic

namespace Lockspace

open Manager Act

/-- A call on the value block of a resource. -/
inductive BlockCall where
  | read
  | update (hint : LvbHint)

/-- What the owner of a value block did when it was asked: the block as it found it and as it left
it, and its failure. -/
structure BlockWork where
  found : Lvb
  left : Lvb
  failure : Option LockError

namespace BlockWork

/-- The block after its owner is done. A success marks it. -/
def result (w : BlockWork) : Lvb :=
  if w.failure.isNone then { w.left with initialized := true } else w.left

theorem result_of_failed {w : BlockWork} (failed : w.failure.isSome) : w.result = w.left :=
  if_neg (by rw [Option.isNone_iff_eq_none]; exact Option.isSome_iff_ne_none.mp failed)

theorem initialized_result (w : BlockWork) (succeeded : w.failure = none) :
    w.result.initialized := by
  unfold result
  rw [succeeded]
  rfl

theorem data_result (w : BlockWork) : w.result.data = w.left.data := by
  unfold result
  split <;> rfl

/-- The bytes that the last success left, or those from before. -/
def payload (before : List UInt8) (works : List BlockWork) : List UInt8 :=
  works.foldl (fun data w => if w.failure.isNone then w.left.data else data) before

/-- An owner that fails gives the bytes back. -/
def Restores (w : BlockWork) : Prop :=
  w.failure.isSome → w.left.data = w.found.data

theorem payload_append_singleton {w : BlockWork} {before : List UInt8} {works : List BlockWork}
    (restores : w.Restores) (found : w.found.data = payload before works) :
    w.left.data = payload before (works ++ [w]) := by
  rw [payload, List.foldl_append, List.foldl_cons, List.foldl_nil]
  cases ended : w.failure with
  | none => rfl
  | some e =>
    rw [restores (by rw [ended]; rfl), found]
    rfl

end BlockWork

namespace BlockCall

variable {r : ResourceRef} {m m' : Manager} {owner : Option LvbOwner} {call : BlockCall}
  {answer : Except LockError (Option Lvb)}

/-- A call as it is made through a handle. One that reads answers with the block. -/
def run (owner : Option LvbOwner) (r : ResourceRef) :
    BlockCall → Act (Except LockError (Option Lvb))
  | read => do return (← lvb owner r).map some
  | update hint => do return (← updateLvb owner r hint).map fun _ => none

/-- The hint with which a call goes to an owner. Only a block that is not initialized is filled. -/
def hint? (block : Lvb) : BlockCall → Option LvbHint
  | read => if block.initialized then none else some .init
  | update hint => some hint

/-- The state in which an owner is asked. -/
def asking (r : ResourceRef) (hint : LvbHint) (m : Manager) : Manager :=
  { m with
    trace := m.trace.push (.lvbUpdate r.space (m.resource r).id hint (m.resource r).lvb.data) }

/-- What the owner does when it is asked, if it ever answers. -/
def workOf (owner : LvbOwner) (r : ResourceRef) (hint : LvbHint) (m : Manager) : Option BlockWork :=
  match owner (m.resource r).id hint (m.resource r).lvb (asking r hint m) with
  | .ok answer _ => some ⟨(m.resource r).lvb, answer.1, answer.2⟩
  | .error .. => none

/-- What the owner does in a call, if there is one and it is asked. -/
def work? (owner : Option LvbOwner) (r : ResourceRef) (call : BlockCall) (m : Manager) :
    Option BlockWork :=
  owner.bind fun owner => (call.hint? (m.resource r).lvb).bind fun hint => workOf owner r hint m

theorem found_of_work? {w : BlockWork} (works : call.work? owner r m = some w) :
    w.found = (m.resource r).lvb := by
  obtain ⟨o, -, asked⟩ := Option.bind_eq_some_iff.mp works
  obtain ⟨hint, -, asked⟩ := Option.bind_eq_some_iff.mp asked
  unfold workOf at asked
  split at asked
  · obtain rfl := Option.some.inj asked
    rfl
  · cases asked

theorem resource_modifyResource_self (m : Manager) (r : ResourceRef) (f : Resource → Resource) :
    (m.modifyResource r f).resource r = f (m.resource r) := by
  unfold Manager.resource Manager.modifyResource
  rw [space_modifySpace, if_pos rfl, Table.resource_modifyResource, if_pos rfl]

/-- An owner that is asked decides all: its failure is the answer, and the block is as it leaves it,
marked by a success. -/
theorem work_of_refreshLvb {owner : LvbOwner} {hint : LvbHint} {failure : Option LockError}
    (run : refreshLvb owner r hint m = .ok failure m') :
    ∃ w, workOf owner r hint m = some w ∧ w.failure = failure ∧ (m'.resource r).lvb = w.result := by
  unfold refreshLvb at run
  obtain ⟨_, _, found, run⟩ := ok_of_bind run
  cases found
  obtain ⟨_, _, noted, run⟩ := ok_of_bind run
  cases noted
  obtain ⟨answer, mid, answered, run⟩ := ok_of_bind run
  obtain ⟨_, _, written, run⟩ := ok_of_bind run
  cases written
  have work : workOf owner r hint m = some ⟨(m.resource r).lvb, answer.1, answer.2⟩ := by
    unfold workOf asking
    rw [answered]
  refine ⟨_, work, ?_⟩
  cases ended : answer.2 with
  | some e =>
    rw [ended] at run
    cases run
    refine ⟨rfl, ?_⟩
    rw [resource_modifyResource_self]
    rfl
  | none =>
    rw [ended] at run
    cases run
    refine ⟨rfl, ?_⟩
    rw [resource_modifyResource_self, resource_modifyResource_self]
    rfl

/-- What a call that was not refused answers with. -/
def shown (after : Lvb) : BlockCall → Option Lvb
  | read => some after
  | update _ => none

/-- How a call ends, by the work of the owner in it. It fails as the owner does, and only then leaves
the block as the owner did. -/
inductive Outcome (call : BlockCall) (block : Lvb) :
    Option BlockWork → Except LockError (Option Lvb) → Lvb → Prop
  | spared {after : Lvb} (same : after.data = block.data)
      (marked : call.shown after = some after → after.initialized) :
      Outcome call block none (.ok (call.shown after)) after
  | done {w : BlockWork} (found : w.found = block) (succeeded : w.failure = none) :
      Outcome call block (some w) (.ok (call.shown w.result)) w.result
  | failed {w : BlockWork} {e : LockError} (found : w.found = block) (reason : w.failure = some e) :
      Outcome call block (some w) (.error e) w.left

/-- A call in which the owner is asked ends as that does. -/
theorem outcome_of_refreshLvb {o : LvbOwner} {hint : LvbHint} {failure : Option LockError}
    (asks : call.work? (some o) r m = workOf o r hint m)
    (run : refreshLvb o r hint m = .ok failure m') :
    call.Outcome (m.resource r).lvb (call.work? (some o) r m)
      (match failure with
        | none => .ok (call.shown (m'.resource r).lvb)
        | some e => .error e) (m'.resource r).lvb := by
  obtain ⟨w, work, ended, after⟩ := work_of_refreshLvb run
  have asked := asks.trans work
  rw [asked, after]
  cases failure with
  | none => exact .done (found_of_work? asked) ended
  | some e =>
    rw [w.result_of_failed (by rw [ended]; rfl)]
    exact .failed (found_of_work? asked) ended

theorem outcome_update {hint : LvbHint} (run : (update hint).run owner r m = .ok answer m') :
    (update hint).Outcome (m.resource r).lvb ((update hint).work? owner r m) answer
      (m'.resource r).lvb := by
  cases owner with
  | none =>
    cases run
    exact .spared rfl nofun
  | some o =>
    obtain ⟨updated, m₁, run, ends⟩ := ok_of_bind run
    cases ends
    obtain ⟨failure, m₁, refreshed, run⟩ := ok_of_bind run
    have asks : (update hint).work? (some o) r m = workOf o r hint m := rfl
    have ends := outcome_of_refreshLvb asks refreshed
    cases failure with
    | none =>
      cases run
      exact ends
    | some e =>
      cases run
      exact ends

theorem outcome_read (run : read.run owner r m = .ok answer m') :
    read.Outcome (m.resource r).lvb (read.work? owner r m) answer (m'.resource r).lvb := by
  obtain ⟨got, m₁, run, ends⟩ := ok_of_bind run
  cases ends
  obtain ⟨_, _, found, run⟩ := ok_of_bind run
  cases found
  cases filled : (m.resource r).lvb.initialized with
  | true =>
    rw [if_neg (by rw [filled]; decide)] at run
    cases run
    have spared : read.work? owner r m = none := by
      cases owner with
      | none => rfl
      | some o =>
        simp only [work?, hint?, filled]
        rfl
    rw [spared]
    exact .spared rfl fun _ => filled
  | false =>
    rw [if_pos (by rw [filled]; rfl)] at run
    cases owner with
    | none =>
      cases run
      refine .spared ?_ fun _ => ?_ <;> rw [resource_modifyResource_self]
    | some o =>
      obtain ⟨failure, m₁, refreshed, run⟩ := ok_of_bind run
      have asks : read.work? (some o) r m = workOf o r .init m := by
        simp only [work?, hint?, filled]
        rfl
      have ends := outcome_of_refreshLvb asks refreshed
      cases failure with
      | none =>
        cases run
        exact ends
      | some e =>
        cases run
        exact ends

/-- Every call ends in one of these ways. -/
theorem outcome (run : call.run owner r m = .ok answer m') :
    call.Outcome (m.resource r).lvb (call.work? owner r m) answer (m'.resource r).lvb := by
  cases call with
  | read => exact outcome_read run
  | update hint => exact outcome_update run

section

variable {block after : Lvb} {work : Option BlockWork}

theorem Outcome.error_iff (ends : call.Outcome block work answer after) (e : LockError) :
    answer = .error e ↔ ∃ w ∈ work, w.failure = some e := by
  cases ends with
  | spared => exact ⟨nofun, nofun⟩
  | done _ succeeded =>
    refine ⟨nofun, ?_⟩
    rintro ⟨w, ⟨⟩, reason⟩
    rw [succeeded] at reason
    cases reason
  | failed _ reason =>
    refine ⟨?_, ?_⟩
    · rintro ⟨⟩
      exact ⟨_, rfl, reason⟩
    · rintro ⟨w, ⟨⟩, same⟩
      rw [Option.some.inj (reason.symm.trans same)]

theorem Outcome.left_of_error {e : LockError} (ends : call.Outcome block work answer after)
    (refused : answer = .error e) : ∃ w ∈ work, w.found = block ∧ after = w.left := by
  cases ends with
  | spared => cases refused
  | done => cases refused
  | failed found => exact ⟨_, rfl, found, rfl⟩

theorem seen_of_shown {seen : Lvb} (shown : call.shown block = some seen) :
    seen = block ∧ call.shown block = some block := by
  cases call with
  | read => exact ⟨(Option.some.inj shown).symm, rfl⟩
  | update => cases shown

theorem Outcome.seen_eq {seen : Lvb} (ends : call.Outcome block work answer after)
    (given : answer = .ok (some seen)) : seen = after ∧ seen.initialized := by
  cases ends with
  | spared same marked =>
    obtain ⟨rfl, shown⟩ := seen_of_shown (Except.ok.inj given)
    exact ⟨rfl, marked shown⟩
  | @done w found succeeded =>
    obtain ⟨rfl, shown⟩ := seen_of_shown (Except.ok.inj given)
    exact ⟨rfl, w.initialized_result succeeded⟩
  | failed => cases given

/-- The bytes follow the successes as long as a failure gives back what it found. -/
theorem Outcome.data_eq {before : List UInt8} {works : List BlockWork}
    (ends : call.Outcome block work answer after) (restores : ∀ w ∈ work, w.Restores)
    (found : block.data = BlockWork.payload before works) :
    after.data = BlockWork.payload before (works ++ work.toList) := by
  cases ends with
  | spared same => rw [same, found, Option.toList_none, List.append_nil]
  | done here =>
    rw [BlockWork.data_result]
    exact BlockWork.payload_append_singleton (restores _ rfl) (by rw [here, found])
  | failed here => exact BlockWork.payload_append_singleton (restores _ rfl) (by rw [here, found])

end

end BlockCall

/-- The runs from a state in which the value block of a resource is read and updated, through any of
its handles and with any owner, and what the owners did, in order. All else leaves the block alone. -/
inductive Served (r : ResourceRef) (m₀ : Manager) : Manager → List BlockWork → Prop
  | start : Served r m₀ m₀ []
  | called {m m' : Manager} {works : List BlockWork} {owner : Option LvbOwner} {call : BlockCall}
      {answer : Except LockError (Option Lvb)} (reach : Served r m₀ m works)
      (run : call.run owner r m = .ok answer m') :
      Served r m₀ m' (works ++ (call.work? owner r m).toList)
  | other {m m' : Manager} {works : List BlockWork} (reach : Served r m₀ m works)
      (same : (m'.resource r).lvb = (m.resource r).lvb) : Served r m₀ m' works

namespace Served

variable {r : ResourceRef} {m₀ m m' : Manager} {works : List BlockWork} {owner : Option LvbOwner}
  {call : BlockCall} {answer : Except LockError (Option Lvb)}

theorem data_eq (reach : Served r m₀ m works) (restores : ∀ w ∈ works, w.Restores) :
    (m.resource r).lvb.data = BlockWork.payload (m₀.resource r).lvb.data works := by
  induction reach with
  | start => rfl
  | called reach run ih =>
    refine (BlockCall.outcome run).data_eq (fun w asked => restores w ?_) (ih fun w member => ?_)
    · exact List.mem_append_right _ (Option.mem_toList.mpr asked)
    · exact restores w (List.mem_append_left _ member)
  | other reach same ih => rw [same, ih restores]

/-- A call fails exactly if it asks the owner and that fails, and with that error. The block is then as
the owner left it. A read that succeeds shows the block, which holds what the last success left if
every failure gave the bytes back. -/
theorem reflects (reach : Served r m₀ m works) (run : call.run owner r m = .ok answer m') :
    (∀ e, answer = .error e ↔ ∃ w ∈ call.work? owner r m, w.failure = some e) ∧
    (∀ e, answer = .error e → ∃ w ∈ call.work? owner r m,
      w.found = (m.resource r).lvb ∧ (m'.resource r).lvb = w.left) ∧
    ∀ seen, answer = .ok (some seen) → seen = (m'.resource r).lvb ∧ seen.initialized ∧
      ((∀ w ∈ works ++ (call.work? owner r m).toList, w.Restores) → seen.data =
        BlockWork.payload (m₀.resource r).lvb.data (works ++ (call.work? owner r m).toList)) := by
  have ends := BlockCall.outcome run
  refine ⟨ends.error_iff, fun e refused => ends.left_of_error refused, fun seen given => ?_⟩
  obtain ⟨rfl, marked⟩ := ends.seen_eq given
  exact ⟨rfl, marked, (reach.called run).data_eq⟩

/-- An owner that appends bytes and may report a failure after that. -/
def appending (bytes : List UInt8) (reason : Option String) : LvbOwner := fun id _ block =>
  return ({ block with data := block.data ++ bytes }, reason.map (.lvbUpdate id))

theorem restores_of_appending {bytes : List UInt8} {reason : Option String} {w : BlockWork}
    (gives : bytes = [] ∨ reason = none)
    (asked : call.work? (some (appending bytes reason)) r m = some w) : w.Restores := by
  obtain ⟨o, ⟨⟩, asked⟩ := Option.bind_eq_some_iff.mp asked
  obtain ⟨hint, -, ⟨⟩⟩ := Option.bind_eq_some_iff.mp asked
  rcases gives with rfl | rfl
  · exact fun _ => List.append_nil _
  · exact nofun

/-- A namespace with one resource. -/
def stocked : Act Unit := do
  discard (build .oneBucket)
  discard (getOrCreate ⟨0⟩ ⟨1, 0, 0, 0⟩ .plain true)

/-- After an update and one that is refused before a byte is written, a reader sees the first. -/
theorem reflects_of_refused_update :
    let r : ResourceRef := ⟨⟨0⟩, ⟨0⟩⟩
    let owner : Option LvbOwner := some (appending [2] none)
    ∃ m₀ m m' works, Served r m₀ m works ∧
      works.map (·.failure.isSome) = [false, true] ∧
      BlockCall.read.run owner r m = .ok (.ok (some ⟨true, [1]⟩)) m' ∧
      (m'.resource r).lvb = ⟨true, [1]⟩ ∧
      [1] = BlockWork.payload (m₀.resource r).lvb.data
        (works ++ (BlockCall.read.work? owner r m).toList) := by
  intro r owner
  have served : (do
      stocked
      let _ ← BlockCall.run (some (appending [1] none)) r (.update .refresh)
      let _ ← BlockCall.run (some (appending [] (some "full"))) r (.update .refresh)
      BlockCall.read.run owner r : Act (Except LockError (Option Lvb))).Leaves {} fun seen _ =>
        seen = .ok (.ok (some ⟨true, [1]⟩)) ∧ True := by
    decide +kernel
  obtain ⟨m', run, -⟩ := served.exists_run_eq
  obtain ⟨_, m₀, -, run⟩ := ok_of_bind run
  obtain ⟨_, m₁, first, run⟩ := ok_of_bind run
  obtain ⟨_, m, second, third⟩ := ok_of_bind run
  have reach := (start.called first).called second
  obtain ⟨same, -, payload⟩ := (reach.reflects third).2.2 _ rfl
  refine ⟨m₀, m, m', _, reach, rfl, third, same.symm, payload fun w member => ?_⟩
  rw [List.nil_append, List.mem_append, List.mem_append, Option.mem_toList, Option.mem_toList,
    Option.mem_toList] at member
  obtain (asked | asked) | asked := member
  · exact restores_of_appending (Or.inr rfl) asked
  · exact restores_of_appending (Or.inl rfl) asked
  · exact restores_of_appending (Or.inr rfl) asked

/-- An owner that fails after it has written leaves its bytes in the block, where they are found by a
reader that is served later. -/
theorem shows_failed_bytes :
    let r : ResourceRef := ⟨⟨0⟩, ⟨0⟩⟩
    let read (reason : Option String) := BlockCall.read.run (some (appending [1] reason)) r
    ∃ m, stocked {} = .ok () m ∧ (m.resource r).lvb = ⟨false, []⟩ ∧
      (read (some "full")).Leaves m fun refused m' =>
        refused = .ok (.error (.lvbUpdate ⟨1, 0, 0, 0⟩ "full")) ∧
        (m'.resource r).lvb = ⟨false, [1]⟩ ∧
        (read none).Leaves m' fun seen _ => seen = .ok (.ok (some ⟨true, [1, 1]⟩)) :=
  ⟨_, rfl, by decide +kernel⟩

end Served

end Lockspace
