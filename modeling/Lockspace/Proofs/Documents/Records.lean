import Lockspace.Json.Codec
import Lockspace.Proofs.Documents.ReadBack

namespace Lockspace

section

variable {σ : Type} {strict : Bool} {known : List (Member σ)}

/-- A record whose members come one at a time, each with the effect of its key, holds what the keys
in their order make of it. -/
theorem readMembers_eq (state : List String → σ) {written : List (String × Json)}
    {seen : List String} (reads : ∀ e ∈ written, ∃ m, known.find? (·.key == e.1) = some m ∧
      ∀ before, m.read e.2 (state before) = some (state (e.1 :: before)))
    (distinct : (written.map (·.1)).Nodup) (fresh : ∀ e ∈ written, e.1 ∉ seen) :
    readMembers strict known seen (written.map fun e => (some e.1, e.2)) (state seen) =
      some (state ((written.map (·.1)).reverse ++ seen)) := by
  -- What is read so far depends on the keys that are known, of which the last one is the first.
  induction written generalizing seen with
  | nil => rfl
  | cons e rest ih =>
    obtain ⟨m, found, effect⟩ := reads e (List.mem_cons_self ..)
    rw [List.map_cons, List.nodup_cons] at distinct
    have others : ∀ d ∈ rest, d.1 ∉ e.1 :: seen := by
      intro d member
      rw [List.mem_cons, not_or]
      refine ⟨fun same => distinct.1 ?_, fresh d (List.mem_cons_of_mem e member)⟩
      rw [← same]
      exact List.mem_map_of_mem member
    have later := ih (fun d member => reads d (List.mem_cons_of_mem e member)) distinct.2 others
    rw [List.map_cons, readMembers, found]
    simp only [if_neg (fresh e (List.mem_cons_self ..)), effect, Option.bind_some, later]
    rw [List.map_cons, List.reverse_cons, List.append_assoc, List.singleton_append]

end

namespace Json

theorem plain_ofMembers {members : List (String × Json)} (plain : ∀ m ∈ members, m.2.Plain) :
    (ofMembers members).Plain := by
  refine .object (fun m member => ?_) fun m member => ?_
  all_goals
    obtain ⟨e, there, rfl⟩ := List.mem_map.mp member
  · rfl
  · exact plain e there

end Json

theorem readWord32?_natural {n : Nat} (small : n < wordCount 32) :
    readWord32? (.natural n) = some (UInt32.ofNat n) := by
  simp only [readWord32?, Json.below?, if_pos small, Option.map_some]

theorem readWord64?_natural {n : Nat} (small : n < wordCount 64) :
    readWord64? (.natural n) = some (UInt64.ofNat n) := by
  simp only [readWord64?, Json.below?, if_pos small, Option.map_some]

theorem readWord32?_ofWord32 (w : UInt32) : readWord32? (.ofWord32 w) = some w := by
  rw [Json.ofWord32, readWord32?_natural w.toNat_lt, UInt32.ofNat_toNat]

theorem readWord64?_ofWord64 (w : UInt64) : readWord64? (.ofWord64 w) = some w := by
  rw [Json.ofWord64, readWord64?_natural w.toNat_lt, UInt64.ofNat_toNat]

namespace Duration

theorem plain_toJson (d : Duration) : d.toJson.Plain :=
  Json.plain_ofMembers (by simp [Json.Plain.natural])

theorem ofParts?_parts (d : Duration) : ofParts? d.secs d.subsecNanos = some d := by
  obtain ⟨nanos, bound⟩ := d
  have whole : nanos / 1000000000 * 1000000000 + nanos % 1000000000 = nanos := by omega
  simp only [ofParts?, secs, subsecNanos, whole, if_pos bound, ofNanos, Nat.min_eq_left bound]

/-- Every span of time is read back. -/
theorem ofJson?_toJson (d : Duration) : ofJson? d.toJson = some d := by
  have bound : d.nanos ≤ 2 ^ 64 * 1000000000 - 1 := d.le_max
  have secsSmall : d.secs < 2 ^ 64 := by
    unfold secs
    omega
  have nanosSmall : d.subsecNanos < 2 ^ 32 := by
    unfold subsecNanos
    omega
  have halves : readRecord true (Halves.members "secs" "nanos" readWord64? readWord32?) {} d.toJson =
      some ⟨some (UInt64.ofNat d.secs), some (UInt32.ofNat d.subsecNanos)⟩ := by
    simp [toJson, Json.ofMembers, readRecord, readMembers, Halves.members,
      readWord64?_natural secsSmall, readWord32?_natural nanosSmall]
  rw [ofJson?, halves, Option.bind_some, Option.bind_some, Option.bind_some,
    UInt64.toNat_ofNat_of_lt' secsSmall, UInt32.toNat_ofNat_of_lt' nanosSmall]
  exact d.ofParts?_parts

end Duration

namespace HashPreset

theorem plain_toJson (p : HashPreset) : p.toJson.Plain :=
  Json.plain_ofMembers
    (by simp [writeNamed, Json.ofText, Json.ofWord32, Json.Plain.natural, Json.Plain.text])

theorem readNamed?_type (type : NamespaceType) : readNamed? (writeNamed type) = some type := by
  cases type <;> rfl

theorem readNamed?_strategy (strategy : HashStrategy) :
    readNamed? (writeNamed strategy) = some strategy := by
  cases strategy <;> rfl

theorem ofJson?_toJson (p : HashPreset) : ofJson? p.toJson = some p := by
  have parts : readRecord false members {} p.toJson =
      some ⟨some p.type, some p.bucketBits, some p.allBits, some p.strategy⟩ := by
    simp [toJson, Json.ofMembers, readRecord, readMembers, members, readNamed?_type,
      readNamed?_strategy, readWord32?_ofWord32]
  rw [ofJson?, parts]
  rfl

theorem plain_listToJson (presets : List HashPreset) : (listToJson presets).Plain := by
  refine .array fun v member => ?_
  obtain ⟨p, -, rfl⟩ := List.mem_map.mp member
  exact p.plain_toJson

/-- Every list of presets is read back, in its order. -/
theorem listOfJson?_listToJson (presets : List HashPreset) :
    listOfJson? (listToJson presets) = some presets := by
  show List.mapM ofJson? (presets.map toJson) = some presets
  induction presets with
  | nil => rfl
  | cons p rest ih =>
    rw [List.map_cons, List.mapM_cons, ofJson?_toJson, ih]
    rfl

end HashPreset

end Lockspace
