import Lockspace.UnusedLru
import Mathlib.Data.List.Nodup
import Mathlib.Data.List.Perm.Basic

namespace Lockspace

namespace UnusedLru

/-- The index of the unused locks is their order read backwards. No lock has two numbers, no number
has two locks, and all numbers were given before. -/
structure Sound (u : UnusedLru) : Prop where
  inverse : u.index.Perm (u.order.map Prod.swap)
  locks : u.toList.Nodup
  numbers : (u.order.map (·.1)).Nodup
  below : ∀ entry ∈ u.order, entry.1 < u.next

instance (u : UnusedLru) : Decidable u.Sound :=
  decidable_of_iff (u.index.Perm (u.order.map Prod.swap) ∧ u.toList.Nodup ∧
      (u.order.map (·.1)).Nodup ∧ ∀ entry ∈ u.order, entry.1 < u.next)
    ⟨fun sound => ⟨sound.1, sound.2.1, sound.2.2.1, sound.2.2.2⟩,
      fun sound => ⟨sound.inverse, sound.locks, sound.numbers, sound.below⟩⟩

/-- The unused locks but for some. -/
def without (u : UnusedLru) (locks : List LockKey) : UnusedLru :=
  { u with
    order := u.order.filter (!locks.contains ·.2)
    index := u.index.filter (!locks.contains ·.1) }

variable {u : UnusedLru} {l k : LockKey} {seq : Nat} {locks : List LockKey}

theorem without_nil (u : UnusedLru) : u.without [] = u := by
  simp [without]

theorem without_cons (u : UnusedLru) (l : LockKey) (locks : List LockKey) :
    u.without (l :: locks) = (u.without [l]).without locks := by
  simp only [without, List.filter_filter, List.contains_cons, List.contains_nil, Bool.or_false,
    Bool.not_or, Bool.and_comm]

theorem mem_without : l ∈ (u.without locks).toList ↔ l ∈ u.toList ∧ l ∉ locks := by
  simp [toList, without]

namespace Sound

theorem empty : Sound {} := by
  decide

theorem mem_index (sound : u.Sound) : (l, seq) ∈ u.index ↔ (seq, l) ∈ u.order := by
  rw [sound.inverse.mem_iff, List.mem_map]
  constructor
  · rintro ⟨⟨_, _⟩, member, same⟩
    cases same
    exact member
  · exact fun member => ⟨_, member, rfl⟩

/-- Two entries of one lock are the same, and so are two with one number. -/
theorem eq_of_lock (sound : u.Sound) {x y : Nat × LockKey} (first : x ∈ u.order)
    (second : y ∈ u.order) (same : x.2 = y.2) : x = y :=
  List.inj_on_of_nodup_map sound.locks first second same

theorem eq_of_number (sound : u.Sound) {x y : Nat × LockKey} (first : x ∈ u.order)
    (second : y ∈ u.order) (same : x.1 = y.1) : x = y :=
  List.inj_on_of_nodup_map sound.numbers first second same

theorem lookup_eq_some (sound : u.Sound) : u.index.lookup l = some seq ↔ (seq, l) ∈ u.order := by
  have found : ∀ {seq}, u.index.lookup l = some seq → (seq, l) ∈ u.order := by
    intro seq found
    obtain ⟨before, after, split, -⟩ := List.lookup_eq_some_iff.mp found
    rw [← sound.mem_index, split]
    exact List.mem_append_right before (List.mem_cons_self ..)
  refine ⟨found, fun member => ?_⟩
  cases other : u.index.lookup l with
  | none =>
    have absent := List.lookup_eq_none_iff.mp other (l, seq) (sound.mem_index.mpr member)
    simp at absent
  | some number => rw [(Prod.mk.inj (sound.eq_of_lock (found other) member rfl)).1]

theorem without (sound : u.Sound) (locks : List LockKey) : (u.without locks).Sound where
  inverse := by
    have filtered := sound.inverse.filter (!locks.contains ·.1)
    rw [List.filter_map] at filtered
    exact filtered
  locks := sound.locks.sublist (List.filter_sublist.map _)
  numbers := sound.numbers.sublist (List.filter_sublist.map _)
  below entry member := sound.below entry (List.mem_of_mem_filter member)

/-- The removal of a lock takes its entries out and no others. -/
theorem erase_eq (sound : u.Sound) (l : LockKey) : u.erase l = u.without [l] := by
  unfold erase
  cases found : u.index.lookup l with
  | none =>
    have apart : ∀ entry ∈ u.order, entry.2 ≠ l := by
      rintro ⟨seq, _⟩ member rfl
      cases found.symm.trans (sound.lookup_eq_some.mpr member)
    have order : u.order.filter (!List.contains [l] ·.2) = u.order :=
      List.filter_eq_self.mpr fun entry member => by simpa using apart entry member
    have index : u.index.filter (!List.contains [l] ·.1) = u.index :=
      List.filter_eq_self.mpr fun entry member => by
        simpa using apart (entry.2, entry.1) (sound.mem_index.mp member)
    unfold UnusedLru.without
    rw [order, index]
  | some seq =>
    have own := sound.lookup_eq_some.mp found
    have order : u.order.filter (!List.contains [l] ·.2) = u.order.filter (·.1 != seq) := by
      refine List.filter_congr fun entry member => ?_
      have same : entry.2 = l ↔ entry.1 = seq := by
        constructor
        · exact fun same => congrArg (·.1) (sound.eq_of_lock member own same)
        · exact fun same => congrArg (·.2) (sound.eq_of_number member own same)
      simp only [List.contains_cons, List.contains_nil, Bool.or_false, bne, beq_eq_decide, same]
    have index : u.index.filter (!List.contains [l] ·.1) = u.index.filter (·.1 != l) := by
      refine List.filter_congr fun entry _ => ?_
      simp only [List.contains_cons, List.contains_nil, Bool.or_false, bne]
    unfold UnusedLru.without dropNumber
    rw [order, index]

theorem remove_eq (sound : u.Sound) (l : LockKey) : (u.remove l).2 = u.without [l] := by
  rw [← sound.erase_eq]
  unfold remove erase
  cases u.index.lookup l <;> rfl

theorem append (sound : u.Sound) (absent : l ∉ u.toList) : (u.append l).Sound where
  inverse := by
    show ((l, u.next) :: u.index).Perm ((u.order ++ [(u.next, l)]).map Prod.swap)
    rw [List.map_append]
    exact (sound.inverse.cons _).trans (List.perm_append_singleton ..).symm
  locks := by
    show ((u.order ++ [(u.next, l)]).map (·.2)).Nodup
    rw [List.map_append]
    exact List.nodup_append.mpr ⟨sound.locks, List.nodup_singleton l, by
      rintro k inside _ single rfl
      obtain rfl : k = l := List.mem_singleton.mp single
      exact absent inside⟩
  numbers := by
    show ((u.order ++ [(u.next, l)]).map (·.1)).Nodup
    rw [List.map_append]
    refine List.nodup_append.mpr ⟨sound.numbers, List.nodup_singleton u.next, ?_⟩
    rintro _ inside _ single rfl
    obtain ⟨entry, member, same⟩ := List.mem_map.mp inside
    have given := sound.below entry member
    rw [same, List.mem_singleton.mp single] at given
    exact Nat.lt_irrefl _ given
  below entry member := by
    rcases List.mem_append.mp member with inside | last
    · exact Nat.lt_succ_of_lt (sound.below entry inside)
    · rw [List.mem_singleton.mp last]
      exact Nat.lt_succ_self _

theorem takeVictims (sound : u.Sound) (limits : VictimLimits) (age : LockKey → Nat) :
    (u.takeVictims limits age).2.Sound := by
  unfold UnusedLru.takeVictims
  generalize victimsFrom limits u.size age 0 u.toList = victims
  show (victims.foldl UnusedLru.erase u).Sound
  induction victims generalizing u with
  | nil => exact sound
  | cons l rest ih =>
    rw [List.foldl_cons, sound.erase_eq]
    exact ih (sound.without [l])

theorem takeAll (u : UnusedLru) : u.takeAll.2.Sound :=
  ⟨.nil, .nil, .nil, nofun⟩

theorem finalize (u : UnusedLru) : u.finalize.2.Sound :=
  ⟨.nil, .nil, .nil, nofun⟩

end Sound

end UnusedLru

end Lockspace
