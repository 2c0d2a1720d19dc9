import Lockspace.Manager.Spaces

namespace Lockspace

theorem bitMask_toNat {bits : Nat} (small : bits < 64) :
    (bitMask bits).toNat = (1 <<< bits) - 1 := by
  have bound : 2 ^ bits < 2 ^ 64 := Nat.pow_lt_pow_right (by omega) small
  simp only [bitMask, Nat.not_le.mpr small, if_false, Nat.one_shiftLeft, UInt64.toNat_ofNat']
  exact Nat.mod_eq_of_lt (by omega)

/-- A masked word has no bits beyond the mask. -/
theorem toNat_and_bitMask_lt {bits : Nat} (small : bits < 64) (w : UInt64) :
    (w &&& bitMask bits).toNat < 1 <<< bits := by
  have positive : 0 < 1 <<< bits := by
    rw [Nat.one_shiftLeft]
    exact Nat.two_pow_pos bits
  have below : w.toNat &&& (bitMask bits).toNat ≤ (bitMask bits).toNat := Nat.and_le_right
  rw [bitMask_toNat small] at below
  rw [UInt64.toNat_and, bitMask_toNat small]
  omega

/-- Either strategy hashes every id, under every salt, into the bits asked for. -/
theorem HashStrategy.hash_lt (s : HashStrategy) (id : ResourceId) (salt : UInt64) {bits : Nat}
    (small : bits < 64) : (s.hash id salt bits).toNat < 1 <<< bits := by
  cases s with
  | plain => exact toNat_and_bitMask_lt small _
  | identity => exact toNat_and_bitMask_lt small _

namespace HashPreset

theorem shardBits_le_of_isSound {p : HashPreset} (sound : p.isSound) : p.shardBits ≤ 30 := by
  simp only [isSound, Bool.and_eq_true, decide_eq_true_eq, UInt32.le_iff_toNat_le] at sound
  have top : (30 : UInt32).toNat = 30 := rfl
  unfold shardBits
  omega

end HashPreset

namespace NamespaceConfig

variable {c : NamespaceConfig}

/-- One check of a configuration passes, and so do those after it. -/
theorem check_eq_none {fails : Prop} [Decidable fails] {problem : ConfigProblem}
    {rest : Option ConfigProblem} :
    (if fails then some problem else rest) = none ↔ ¬ fails ∧ rest = none := by
  split <;> simp [*]

theorem isValid_iff : c.IsValid ↔ c.maxParallelAst ≠ 0 ∧ 0 < c.forceWaitTimeout.nanos ∧
    c.forceWaitTimeout.nanos ≤ c.forceWaitMax.nanos ∧ 0 < c.drainWaitTimeout.nanos ∧
      ∀ p ∈ c.hashPresets, p.isSound := by
  rw [IsValid, problem?, check_eq_none, check_eq_none, check_eq_none, check_eq_none, Nat.not_lt,
    Option.map_eq_none_iff, List.find?_eq_none]
  simp [Nat.pos_iff_ne_zero]

/-- A configuration without problems has only sound presets. -/
theorem isSound_of_isValid (valid : c.IsValid) {p : HashPreset} (member : p ∈ c.hashPresets) :
    p.isSound := by
  obtain ⟨-, -, -, -, sound⟩ := isValid_iff.mp valid
  exact sound p member

end NamespaceConfig

/-- The preset of a setup comes from a configuration that was found valid. -/
theorem Setup.isSound_of_preset {s : Setup} {p : HashPreset} (given : s.preset = .ok p) :
    p.isSound := by
  unfold preset at given
  split at given
  · cases given
  · rename_i valid
    split at given
    · rename_i found
      cases given
      exact NamespaceConfig.isSound_of_isValid valid (List.mem_of_find?_eq_some found)
    · cases given

namespace Table

/-- A table that has the buckets of its preset, of which there are not too many. -/
structure Shaped (t : Table) : Prop where
  sized : t.shardCount = t.preset.shardCount
  sound : t.preset.isSound

variable {t : Table}

theorem Shaped.hash_lt (shaped : t.Shaped) (id : ResourceId) :
    (t.preset.strategy.hash id t.salt t.preset.shardBits).toNat < t.shardCount := by
  have bits := HashPreset.shardBits_le_of_isSound shaped.sound
  rw [shaped.sized]
  exact HashStrategy.hash_lt _ id _ (by omega)

/-- The masked hash is the number of the bucket: the remainder changes nothing. -/
theorem Shaped.bucketOf_index (shaped : t.Shaped) (id : ResourceId) :
    (t.bucketOf id).index =
      (t.preset.strategy.hash id t.salt t.preset.shardBits).toNat :=
  Nat.mod_eq_of_lt (shaped.hash_lt id)

theorem Shaped.bucketOf_lt (shaped : t.Shaped) (id : ResourceId) :
    (t.bucketOf id).index < t.shardCount := by
  rw [shaped.bucketOf_index]
  exact shaped.hash_lt id

theorem Shaped.new {p : HashPreset} (sound : p.isSound) (salt : UInt64) (least : Duration) :
    (Table.new p salt least).Shaped where
  sized := by simp [shardCount, Table.new, Store.size, Store.replicate]
  sound := sound

end Table

end Lockspace
