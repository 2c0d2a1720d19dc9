import Lockspace.Proofs.Concurrent.Undisturbed
import Lockspace.Proofs.Rolls.SameRoll
import Lockspace.Proofs.Sequential.WholeTable

namespace Lockspace

open Manager

/-- Where a thread stands that frees a namespace. Between two of its steps other threads may take
theirs. -/
inductive Freeing where
  /-- The count is about to be read. -/
  | testing
  | claiming
  | unregistering
  | finalizing
  | retiring
  /-- The buckets before `next` are cleared, and there were so many entries in them. -/
  | clearing (next left : Nat)
  | checking (left : Nat)
  | uncounting
  /-- Refused, as the namespace was referenced. -/
  | refused
  /-- Come too late, as the namespace was freed already. -/
  | late
  | done
deriving DecidableEq

theorem Manager.setTable_self {m : Manager} {n : SpaceKey} (known : n.index < m.spaces.size) :
    m.setTable n (m.space n).table = m := by
  have same : m.spaces.set n (m.space n) = m.spaces := by
    refine Store.ext_get ?_ fun k => ?_
    · rw [Store.size_set]
      exact max_eq_left known
    · rw [Store.get_set]
      split
      · rename_i here
        rw [here]
        rfl
      · rfl
  show { m with spaces := m.spaces.set n (m.space n) } = m
  rw [same]

namespace Freeing

/-- Reads the count, and gives up if the namespace is referenced. -/
def test (n : SpaceKey) : Act Freeing := do
  let s ← Act.space n
  if s.table.bref ≠ 0 then
    Act.log .error ("Refusing to free namespace " ++ s.name ++ " with " ++ toString s.table.bref ++
      " resources in use")
    return refused
  return claiming

def claim (n : SpaceKey) : Act Freeing := do
  let s ← Act.space n
  if ← Act.claimFreed n then
    Act.log .warn ("Namespace " ++ s.name ++ " already freed")
    return late
  return unregistering

/-- Clears the next bucket, if there is one. -/
def clearNext (n : SpaceKey) (next left : Nat) : Act Freeing := do
  let t := (← Act.space n).table
  if next < t.shardCount then
    let (here, t) := t.clearBucket ⟨next⟩
    Act.setTable n t
    return clearing (next + 1) (left + here)
  return checking left

/-- Complains about entries that were left, and stops on a namespace that is still on a list. -/
def check (n : SpaceKey) (left : Nat) : Act Freeing := do
  let s ← Act.space n
  if left ≠ 0 then
    Act.log .error ("Namespace " ++ s.name ++ " freed with " ++ toString left ++
      " resources still hashed")
  if s.link ≠ .detached then throw (.stillLinked s.name)
  return uncounting

/-- The next atomic step. What has returned stays as it is. -/
def advance (n : SpaceKey) : Freeing → Act Freeing
  | testing => test n
  | claiming => claim n
  | unregistering => do
    Act.unregister n
    return finalizing
  | finalizing => do
    Act.finalizeUnused n
    return retiring
  | retiring => do
    Act.retireStats n
    return clearing 0 0
  | clearing next left => clearNext n next left
  | checking left => check n left
  | uncounting => do
    discard Act.dropGate
    return done
  | returned => return returned

/-- What a call that has returned answers: whether it freed the namespace. -/
def answer? : Freeing → Option Bool
  | refused | late => some false
  | done => some true
  | _ => none

/-- Whether a call is past its test of the count and has not returned. -/
def IsUnderway : Freeing → Prop
  | testing | refused | late | done => False
  | _ => True

/-- The bucket that a call must lock for its next step. -/
def awaits (t : Table) : Freeing → Option BucketKey
  | clearing next _ => if next < t.shardCount then some ⟨next⟩ else none
  | _ => none

/-- Whether the lock that the next step needs is not taken by an activity. -/
def MayStep (f : Freeing) (t : Table) (acts : Multiset Activity) : Prop :=
  ∀ b, f.awaits t = some b → ∀ other ∈ acts, other.locked t ≠ some b

/-- A run of steps that nothing comes between. -/
inductive Undisturbed (n : SpaceKey) : Freeing → Manager → Freeing → Manager → Prop
  | rest (f : Freeing) (m : Manager) : Undisturbed n f m f m
  | next {f f₁ f' : Freeing} {m m₁ m' : Manager} (run : f.advance n m = .ok f₁ m₁)
      (rest : Undisturbed n f₁ m₁ f' m') : Undisturbed n f m f' m'

theorem Undisturbed.trans {n : SpaceKey} {f f₁ f' : Freeing} {m m₁ m' : Manager}
    (first : Undisturbed n f m f₁ m₁) (second : Undisturbed n f₁ m₁ f' m') :
    Undisturbed n f m f' m' := by
  induction first with
  | rest => exact second
  | next run _ ih => exact .next run (ih second)

open Act

variable {n : SpaceKey} {m m' : Manager}

theorem advance_clearing {next left : Nat} (more : next < (m.space n).table.shardCount) :
    (clearing next left).advance n m =
      .ok (clearing (next + 1) (left + ((m.space n).table.clearBucket ⟨next⟩).1))
        (m.setTable n ((m.space n).table.clearBucket ⟨next⟩).2) := by
  show clearNext n next left m = _
  unfold clearNext
  rw [run_bind (run_space n m)]
  simp only [if_pos more]
  rfl

theorem advance_clearing_of_le {next left : Nat} (none : (m.space n).table.shardCount ≤ next) :
    (clearing next left).advance n m = .ok (checking left) m := by
  show clearNext n next left m = _
  unfold clearNext
  rw [run_bind (run_space n m)]
  simp only [if_neg (Nat.not_lt.mpr none)]
  rfl

/-- The buckets are cleared one after another. -/
theorem undisturbed_of_clearFrom {next left count : Nat} (known : n.index < m.spaces.size)
    (todo : next + count = (m.space n).table.shardCount) :
    let cleared := (m.space n).table.clearFrom ((List.range' next count).map Key.mk)
    (clearing next left).Undisturbed n m (checking (left + cleared.1)) (m.setTable n cleared.2) := by
  induction count generalizing m next left with
  | zero =>
    have cleared : (clearing next left).advance n m = .ok (checking left) m :=
      advance_clearing_of_le todo.ge
    show (clearing next left).Undisturbed n m (checking left) (m.setTable n (m.space n).table)
    rw [setTable_self known]
    exact .next cleared (.rest _ _)
  | succ count ih =>
    have here : next < (m.space n).table.shardCount := by omega
    have rest := @ih (m.setTable n ((m.space n).table.clearBucket ⟨next⟩).2) (next + 1)
      (left + ((m.space n).table.clearBucket ⟨next⟩).1)
      (known.trans_le (sameRoll_setTable _ m).spaces) (by
        rw [table_setTable, Table.shardCount_clearBucket here]
        omega)
    dsimp only at rest
    rw [table_setTable, setTable_setTable, Nat.add_assoc left] at rest
    exact .next (advance_clearing here) rest

/-- What is left of a call that frees a namespace after its table is cleared. -/
theorem undisturbed_of_checking {left : Nat} (run : (do
      let s ← space n
      if left ≠ 0 then
        log .error ("Namespace " ++ s.name ++ " freed with " ++ toString left ++
          " resources still hashed")
      if s.link ≠ .detached then throw (.stillLinked s.name)
      discard dropGate : Act Unit) m = .ok () m') :
    (checking left).Undisturbed n m done m' := by
  rw [run_bind (run_space n m)] at run
  have last : ∀ m₁, (do
      if (m.space n).link ≠ .detached then throw (.stillLinked (m.space n).name)
      discard dropGate : Act Unit) m₁ = .ok () m' →
    (do
      if (m.space n).link ≠ .detached then throw (.stillLinked (m.space n).name)
      return uncounting : Act Freeing) m₁ = .ok uncounting m₁ ∧
    uncounting.advance n m₁ = .ok done m' := by
    intro m₁ run
    by_cases off : (m.space n).link = .detached
    · simp only [off, ne_eq, not_true_eq_false, if_false] at run ⊢
      exact ⟨rfl, run_bind run⟩
    · simp only [ne_eq, off, not_false_eq_true, if_true] at run
      obtain ⟨_, _, thrown, -⟩ := ok_of_bind run
      cases thrown
  by_cases empty : left = 0
  · subst empty
    obtain ⟨checked, uncounted⟩ := last m run
    exact .next checked (.next uncounted (.rest _ _))
  · simp only [ne_eq, empty, not_false_eq_true, if_true] at run
    obtain ⟨_, m₁, said, run⟩ := ok_of_bind run
    obtain ⟨checked, uncounted⟩ := last m₁ run
    have complains : (checking left).advance n m = .ok uncounting m₁ := by
      show check n left m = _
      unfold check
      rw [run_bind (run_space n m)]
      simp only [ne_eq, empty, not_false_eq_true, if_true]
      exact (run_bind said).trans checked
    exact .next complains (.next uncounted (.rest _ _))

/-- To take a namespace apart is a run of steps too. -/
theorem undisturbed_of_dismantle (run : dismantle n m = .ok () m') :
    unregistering.Undisturbed n m done m' := by
  unfold dismantle at run
  obtain ⟨_, m₁, left, run⟩ := ok_of_bind run
  obtain ⟨_, m₂, finalized, run⟩ := ok_of_bind run
  obtain ⟨_, m₃, retired, run⟩ := ok_of_bind run
  obtain ⟨count, m₄, cleared, run⟩ := ok_of_bind run
  refine .next (run_bind left) (.next (run_bind finalized) (.next (run_bind retired) ?_))
  have known : n.index < m₃.spaces.size := by
    have first := (sameRoll_finalizeUnused (n := n) m₁).of_ok finalized
    have second := (sameRoll_retireStats (n := n) m₂).of_ok retired
    have made : (unregister n).Ends m (fun _ => True) fun _ m₁ => n.index < m₁.spaces.size := by
      simp only [unregister, ends_bind, ends_space, ends_modify, ends_modifySpace]
      rw [size_modifySpace]
      exact (Nat.lt_succ_self _).trans_le (le_max_right ..)
    exact (made.of_ok left).trans_le (first.spaces.trans second.spaces)
  have clears := @undisturbed_of_clearFrom n m₃ 0 0 _ known (Nat.zero_add _)
  rw [← List.range_eq_range'] at clears
  cases cleared
  refine clears.trans (undisturbed_of_checking ?_)
  rw [Nat.zero_add]
  exact run

/-- A call that frees a namespace, or refuses to, is a run of its steps. -/
theorem undisturbed_of_freePost {freed : Bool} (run : freePost n m = .ok freed m') :
    ∃ f, f.answer? = some freed ∧ testing.Undisturbed n m f m' := by
  unfold freePost at run
  rw [run_bind (run_space n m)] at run
  by_cases used : (m.space n).table.bref = 0
  · simp only [ne_eq, used, not_true_eq_false, if_false] at run
    have tested : testing.advance n m = .ok claiming m := by
      show test n m = _
      unfold test
      rw [run_bind (run_space n m)]
      simp only [ne_eq, used, not_true_eq_false, if_false]
      rfl
    obtain ⟨already, m₁, claimed, run⟩ := ok_of_bind run
    have claims : claiming.advance n m = (if already then (do
        log .warn ("Namespace " ++ (m.space n).name ++ " already freed")
        return late : Act Freeing) else pure unregistering) m₁ :=
      (run_bind (run_space n m)).trans (run_bind claimed)
    cases already with
    | true =>
      cases run
      exact ⟨late, rfl, .next tested (.next claims (.rest _ _))⟩
    | false =>
      obtain ⟨_, m₂, dismantled, run⟩ := ok_of_bind run
      cases run
      exact ⟨done, rfl, .next tested (.next claims (undisturbed_of_dismantle dismantled))⟩
  · simp only [ne_eq, used, not_false_eq_true, if_true] at run
    refine ⟨refused, ?_, .next ?_ (.rest _ _)⟩
    · cases run
      rfl
    · show test n m = _
      unfold test
      rw [run_bind (run_space n m)]
      simp only [ne_eq, used, not_false_eq_true, if_true]
      cases run
      rfl

end Freeing

end Lockspace
