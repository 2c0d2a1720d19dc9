import Lockspace.Store
import Mathlib.Algebra.BigOperators.Fin
import Mathlib.Algebra.Order.BigOperators.Group.Finset

namespace Lockspace

namespace Store

variable {kind : Kind} {α : Type} [Inhabited α] {M : Type} [AddCommMonoid M]

/-- The sum of a measure over all objects. -/
def sum (s : Store kind α) (f : α → M) : M :=
  (s.toList.map f).sum

theorem get_of_size_le (s : Store kind α) {k : Key kind} (beyond : s.size ≤ k.index) :
    s.get k = default := by
  simp [get, Array.getD_eq_getD_getElem?, show s.cells.size ≤ k.index from beyond]

theorem size_set (s : Store kind α) (k : Key kind) (a : α) :
    (s.set k a).size = max s.size (k.index + 1) := by
  unfold set size
  split
  · simp only [Array.size_setIfInBounds]; omega
  · simp only [Array.size_push, Array.size_append, Array.size_replicate]; omega

theorem ext_get {s t : Store kind α} (size : s.size = t.size)
    (same : ∀ k : Key kind, s.get k = t.get k) : s = t := by
  obtain ⟨s⟩ := s
  obtain ⟨t⟩ := t
  congr 1
  refine Array.ext size fun i inS inT => ?_
  have here := same ⟨i⟩
  simpa [get, Array.getD_eq_getD_getElem?, inS, inT] using here

theorem set_set (s : Store kind α) (k : Key kind) (a b : α) : (s.set k a).set k b = s.set k b := by
  refine ext_get ?_ fun j => ?_
  · simp only [size_set]
    omega
  · simp only [get_set]
    split
    · rfl
    · rfl

theorem set_get (s : Store kind α) {k : Key kind} (inside : k.index < s.size) :
    s.set k (s.get k) = s := by
  refine ext_get ?_ fun j => ?_
  · rw [size_set]
    exact max_eq_left inside
  · rw [get_set]
    split
    · rename_i same
      rw [same]
    · rfl

/-- The sum runs over all numbers up to any bound beyond those given. What was never given reads
as the default object, which must measure nothing. -/
theorem sum_eq_range (s : Store kind α) {f : α → M} (zero : f default = 0) {bound : Nat}
    (within : s.size ≤ bound) : s.sum f = ∑ i ∈ Finset.range bound, f (s.get ⟨i⟩) := by
  have given : s.sum f = ∑ i ∈ Finset.range s.size, f (s.get ⟨i⟩) := by
    rw [sum, ← Fin.sum_univ_fun_getElem, Finset.sum_range]
    have length : s.toList.length = s.size := by simp [toList, size]
    refine Fintype.sum_equiv (finCongr length) _ _ fun i => ?_
    have inside : i.val < s.cells.size := by simpa [toList] using i.isLt
    show f s.toList[i.val] = f (s.get ⟨i.val⟩)
    simp [toList, get, inside]
  rw [given]
  refine Finset.sum_subset (Finset.range_mono within) fun i _ beyond => ?_
  rw [s.get_of_size_le (by simpa using beyond), zero]

/-- One changed object changes the sum by what it measures more or less than before. -/
theorem sum_set (s : Store kind α) {f : α → M} (zero : f default = 0) (k : Key kind) (a : α) :
    (s.set k a).sum f + f (s.get k) = s.sum f + f a := by
  have inside : k.index ∈ Finset.range (max s.size (k.index + 1)) := by simp
  rw [(s.set k a).sum_eq_range zero (s.size_set k a).le,
    s.sum_eq_range zero (le_max_left _ (k.index + 1)),
    ← Finset.sum_erase_add _ _ inside, ← Finset.sum_erase_add _ _ inside]
  -- Apart from the one at the key, both sums have the same terms.
  have others : ∀ i ∈ (Finset.range (max s.size (k.index + 1))).erase k.index,
      f ((s.set k a).get ⟨i⟩) = f (s.get ⟨i⟩) := by
    intro i member
    rw [s.get_set_of_ne (fun same => (Finset.mem_erase.mp member).1 (congrArg Key.index same))]
  rw [Finset.sum_congr rfl others, get_set_self, add_right_comm]

/-- What stores read alike measures alike. -/
theorem sum_congr {s t : Store kind α} {f : α → M} (zero : f default = 0)
    (alike : ∀ k, f (s.get k) = f (t.get k)) : s.sum f = t.sum f := by
  rw [s.sum_eq_range zero (le_max_left _ t.size), t.sum_eq_range zero (le_max_right s.size _)]
  exact Finset.sum_congr rfl fun i _ => alike ⟨i⟩

/-- Every object is a part of the sum. -/
theorem exists_sum_eq (s : Store kind α) {f : α → M} (zero : f default = 0) (k : Key kind) :
    ∃ rest, s.sum f = f (s.get k) + rest := by
  have split := s.sum_set zero k default
  rw [zero, add_zero] at split
  exact ⟨_, split.symm.trans (add_comm _ _)⟩

theorem sum_of_zero (s : Store kind α) {f : α → M} (zero : f default = 0)
    (each : ∀ k, f (s.get k) = 0) : s.sum f = 0 := by
  rw [s.sum_eq_range zero le_rfl]
  exact Finset.sum_eq_zero fun i _ => each ⟨i⟩

theorem sum_eq_zero (s : Store kind α) {count : α → Nat} (zero : count default = 0) :
    s.sum count = 0 ↔ ∀ k, count (s.get k) = 0 := by
  refine ⟨fun none k => ?_, s.sum_of_zero zero⟩
  obtain ⟨rest, split⟩ := s.exists_sum_eq zero k
  omega

theorem get_replicate {n : Nat} {a : α} (k : Key kind) :
    (replicate n a : Store kind α).get k = if k.index < n then a else default := by
  simp only [get, replicate, Array.getD_eq_getD_getElem?, Array.getElem?_replicate]
  split <;> rfl

end Store

end Lockspace
