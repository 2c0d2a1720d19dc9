import Lockspace.Intervals
import Mathlib.Data.List.Perm.Basic

namespace Lockspace

namespace Interval

/-- Intervals in order of their starts, then of their stops, then of the cookies of their locks. -/
def Before (a b : Interval) : Prop :=
  a.extent.start < b.extent.start ∨ a.extent.start = b.extent.start ∧
    (a.extent.stop < b.extent.stop ∨ a.extent.stop = b.extent.stop ∧ a.cookie < b.cookie)

/-- What an interval is ordered by. -/
def key (i : Interval) : Extent × UInt64 :=
  (i.extent, i.cookie)

variable {a b c : Interval}

theorem before_trans (first : a.Before b) (second : b.Before c) : a.Before c := by
  unfold Before at *
  grind

theorem not_before_of_key_eq (same : a.key = b.key) : ¬ a.Before b := by
  obtain ⟨extent, cookie⟩ := Prod.mk.inj same
  unfold Before
  rw [extent, cookie]
  grind

theorem before_asymm (first : a.Before b) (second : b.Before a) : False :=
  not_before_of_key_eq rfl (before_trans first second)

theorem before_congr {a' b' : Interval} (left : a'.key = a.key) (right : b'.key = b.key) :
    a'.Before b' ↔ a.Before b := by
  obtain ⟨extent, cookie⟩ := Prod.mk.inj left
  obtain ⟨extent', cookie'⟩ := Prod.mk.inj right
  unfold Before
  rw [extent, cookie, extent', cookie']

theorem compare_eq_lt : a.compare b = .lt ↔ a.Before b := by
  simp only [compare, Extent.compare, Ordering.then_eq_lt, Ordering.then_eq_eq, Std.compare_eq_lt,
    Std.compare_eq_iff_eq, Before]
  tauto

theorem compare_eq_gt : a.compare b = .gt ↔ b.Before a := by
  simp only [compare, Extent.compare, Ordering.then_eq_gt, Ordering.then_eq_eq, Std.compare_eq_gt,
    Std.compare_eq_iff_eq, Before, eq_comm (a := b.extent.start), eq_comm (a := b.extent.stop)]
  tauto

theorem compare_eq_eq : a.compare b = .eq ↔ a.key = b.key := by
  obtain ⟨⟨start, stop⟩, cookie, _⟩ := a
  obtain ⟨⟨start', stop'⟩, cookie', _⟩ := b
  simp only [compare, Extent.compare, key, Ordering.then_eq_eq, Std.compare_eq_iff_eq,
    Prod.mk.injEq, Extent.mk.injEq]

end Interval

namespace Lock

variable {lk : Lock} {l : LockKey} {i : Interval}

theorem interval?_eq_some : lk.interval? l = some i ↔
    lk.extent = some i.extent ∧ lk.handle.cookie = i.cookie ∧ i.lock = l := by
  obtain ⟨extent, cookie, k⟩ := i
  simp only [interval?, Option.map_eq_some_iff, Interval.mk.injEq]
  grind

end Lock

open Lockspace.Interval

variable {i j : Interval} {tree : List Interval}

/-- An interval of a new range or handle comes to the others. -/
theorem insertInterval_perm (absent : ∀ j ∈ tree, i.key ≠ j.key) :
    (insertInterval i tree).Perm (i :: tree) := by
  induction tree with
  | nil => exact .rfl
  | cons j rest ih =>
    unfold insertInterval
    split
    · exact .rfl
    · rename_i same
      exact absurd (compare_eq_eq.mp same) (absent j List.mem_cons_self)
    · exact ((ih fun k member => absent k (List.mem_cons_of_mem _ member)).cons j).trans (.swap ..)

theorem mem_of_mem_insertInterval (member : j ∈ insertInterval i tree) : j = i ∨ j ∈ tree := by
  induction tree with
  | nil => exact Or.inl (List.mem_singleton.mp member)
  | cons k rest ih =>
    unfold insertInterval at member
    split at member
    · exact List.mem_cons.mp member
    · exact (List.mem_cons.mp member).imp_right (List.mem_cons_of_mem _)
    · rcases List.mem_cons.mp member with rfl | later
      · exact Or.inr List.mem_cons_self
      · exact (ih later).imp_right (List.mem_cons_of_mem _)

/-- A new interval goes to its place, be it that of another one. -/
theorem insertInterval_sorted (sorted : tree.Pairwise Before) :
    (insertInterval i tree).Pairwise Before := by
  induction sorted with
  | nil => exact List.pairwise_singleton _ i
  | @cons j rest first sorted ih =>
    unfold insertInterval
    split
    · rename_i lower
      replace lower := compare_eq_lt.mp lower
      refine .cons (fun k member => ?_) (.cons first sorted)
      rcases List.mem_cons.mp member with rfl | after
      · exact lower
      · exact before_trans lower (first k after)
    · rename_i same
      refine .cons (fun k member => ?_) sorted
      exact (before_congr (compare_eq_eq.mp same) rfl).mpr (first k member)
    · rename_i higher
      refine .cons (fun k member => ?_) ih
      rcases mem_of_mem_insertInterval member with rfl | after
      · exact compare_eq_gt.mp higher
      · exact first k after

theorem mem_eraseInterval : j ∈ eraseInterval i tree ↔ j ∈ tree ∧ i.key ≠ j.key := by
  simp only [eraseInterval, List.mem_filter, decide_eq_true_eq, ne_eq, compare_eq_eq]

theorem sorted_nodup (sorted : tree.Pairwise Before) : tree.Nodup :=
  sorted.imp fun before same => not_before_of_key_eq (congrArg key same) before

/-- Sorted lists of the same intervals are the same. -/
theorem sorted_unique {other : List Interval} (sorted : tree.Pairwise Before)
    (again : other.Pairwise Before) (same : ∀ i, i ∈ tree ↔ i ∈ other) : tree = other :=
  ((List.perm_ext_iff_of_nodup (sorted_nodup sorted) (sorted_nodup again)).mpr same).eq_of_pairwise
    (fun _ _ _ _ first second => (before_asymm first second).elim) sorted again

/-- No interval behind one that starts beyond a range starts within it. So the cut of a sorted list
at the first such interval loses none. -/
theorem takeWhile_start_eq_filter (sorted : tree.Pairwise Before) (stop : UInt64) :
    tree.takeWhile (·.extent.start ≤ stop) = tree.filter (·.extent.start ≤ stop) := by
  induction sorted with
  | nil => rfl
  | @cons j rest first sorted ih =>
    by_cases within : j.extent.start ≤ stop
    · rw [List.takeWhile_cons_of_pos (by simpa using within),
        List.filter_cons_of_pos (by simpa using within), ih]
    · rw [List.takeWhile_cons_of_neg (by simpa using within),
        List.filter_cons_of_neg (by simpa using within)]
      refine (List.filter_eq_nil_iff.mpr fun k member => ?_).symm
      have beyond : stop < k.extent.start := by
        rcases first k member with lower | ⟨same, -⟩
        · exact UInt64.lt_trans (UInt64.not_le.mp within) lower
        · exact same ▸ UInt64.not_le.mp within
      simpa using beyond

namespace IntervalIndex

variable {ix : IntervalIndex} {l : LockKey} {lk : Lock} {mode : LockMode}

theorem mem_insert (absent : ∀ i ∈ lk.interval? l, ∀ j ∈ ix.trees.get lk.mode, i.key ≠ j.key) :
    i ∈ (ix.insert l lk).trees.get mode ↔
      i ∈ ix.trees.get mode ∨ lk.mode = mode ∧ lk.interval? l = some i := by
  unfold insert
  cases own : lk.interval? l with
  | none => simp
  | some j =>
    rw [PerMode.get_set]
    split
    · rename_i here
      subst here
      rw [(insertInterval_perm (absent j own)).mem_iff, List.mem_cons, or_comm]
      simp [eq_comm]
    · rename_i elsewhere
      simp [Ne.symm elsewhere]

theorem sorted_insert (sorted : ∀ mode, (ix.trees.get mode).Pairwise Before) :
    ((ix.insert l lk).trees.get mode).Pairwise Before := by
  unfold insert
  split
  · exact sorted mode
  · rw [PerMode.get_set]
    split
    · exact insertInterval_sorted (sorted lk.mode)
    · exact sorted mode

theorem mem_remove : i ∈ (ix.remove l lk).trees.get mode ↔
    i ∈ ix.trees.get mode ∧ (lk.mode = mode → ∀ j ∈ lk.interval? l, j.key ≠ i.key) := by
  unfold remove
  cases own : lk.interval? l with
  | none => simp
  | some j =>
    rw [PerMode.get_set]
    split
    · rename_i here
      subst here
      simp [mem_eraseInterval]
    · rename_i elsewhere
      simp [Ne.symm elsewhere]

theorem sorted_remove (sorted : ∀ mode, (ix.trees.get mode).Pairwise Before) :
    ((ix.remove l lk).trees.get mode).Pairwise Before := by
  unfold remove
  split
  · exact sorted mode
  · rw [PerMode.get_set]
    split
    · exact (sorted lk.mode).sublist List.filter_sublist
    · exact sorted mode

/-- Where the intervals of a mode are sorted, a query finds those that overlap a range, in order. -/
theorem overlapping_eq (sorted : (ix.trees.get mode).Pairwise Before) (e : Extent) :
    ix.overlapping mode e =
      ((ix.trees.get mode).filter (·.extent.overlaps e)).map (·.lock) := by
  unfold overlapping
  rw [takeWhile_start_eq_filter sorted, List.filter_filter]
  refine congrArg _ (List.filter_congr fun i _ => ?_)
  simp only [Extent.overlaps]
  exact Bool.and_comm ..

end IntervalIndex

end Lockspace
