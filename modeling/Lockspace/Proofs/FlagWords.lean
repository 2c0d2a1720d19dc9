import Lockspace.LockFlags

namespace Lockspace

namespace LockFlags

variable {a b c : LockFlags}

/-- The flags of a word are in another one exactly if they add nothing to it. -/
theorem contains_iff_union_eq : a.contains b = true ↔ a ||| b = a := by
  have bits : a ||| b = a ↔ a.bits ||| b.bits = a.bits :=
    ⟨congrArg LockFlags.bits, fun same => congrArg LockFlags.mk same⟩
  rw [bits, contains, beq_iff_eq, ← UInt64.toBitVec_inj, ← UInt64.toBitVec_inj,
    UInt64.toBitVec_and, UInt64.toBitVec_or]
  constructor
  · intro inside
    rw [← inside]
    ext i bound
    simp only [BitVec.getElem_or, BitVec.getElem_and]
    cases a.bits.toBitVec[i] <;> simp
  · intro same
    rw [← same]
    ext i bound
    simp only [BitVec.getElem_or, BitVec.getElem_and]
    cases b.bits.toBitVec[i] <;> simp

theorem union_assoc (a b c : LockFlags) : a ||| b ||| c = a ||| (b ||| c) :=
  congrArg LockFlags.mk (UInt64.or_assoc ..)

theorem union_self (a : LockFlags) : a ||| a = a :=
  congrArg LockFlags.mk UInt64.or_self

theorem union_comm (a b : LockFlags) : a ||| b = b ||| a :=
  congrArg LockFlags.mk (UInt64.or_comm ..)

theorem contains_refl (a : LockFlags) : a.contains a = true :=
  contains_iff_union_eq.mpr (union_self a)

theorem contains_trans (first : a.contains b = true) (second : b.contains c = true) :
    a.contains c = true := by
  rw [contains_iff_union_eq] at first second ⊢
  rw [← first, union_assoc, second]

/-- Flags that are set are in the word. -/
theorem contains_union_right (a b : LockFlags) : (a ||| b).contains b = true := by
  rw [contains_iff_union_eq, union_assoc, union_self]

theorem contains_union_left (a b : LockFlags) : (a ||| b).contains a = true := by
  rw [union_comm]
  exact contains_union_right b a

/-- The mark of destruction is one bit of a word. -/
theorem contains_destroyed (a : LockFlags) :
    a.contains .destroyed = a.bits.toBitVec.getLsbD 4 := by
  have bit : a.bits.toBitVec &&& 16#64 = if a.bits.toBitVec.getLsbD 4 then 16#64 else 0#64 :=
    BitVec.and_twoPow a.bits.toBitVec 4
  rw [Bool.eq_iff_iff, contains, beq_iff_eq, ← UInt64.toBitVec_inj, UInt64.toBitVec_and]
  show a.bits.toBitVec &&& 16#64 = 16#64 ↔ _
  rw [bit]
  cases a.bits.toBitVec.getLsbD 4 with
  | true => exact ⟨fun _ => rfl, fun _ => rfl⟩
  | false => exact ⟨nofun, nofun⟩

theorem contains_destroyed_union (a b : LockFlags) :
    (a ||| b).contains .destroyed = (a.contains .destroyed || b.contains .destroyed) := by
  have bits : (a ||| b).bits = a.bits ||| b.bits := rfl
  rw [contains_destroyed, contains_destroyed, contains_destroyed, bits, UInt64.toBitVec_or,
    BitVec.getLsbD_or]
end LockFlags

end Lockspace
