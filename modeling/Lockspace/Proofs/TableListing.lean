import Lockspace.Proofs.Outcomes
import Lockspace.Proofs.Recounting

namespace Lockspace

open Act

namespace Table

/-- The resources of a table, bucket by bucket. -/
def listing (t : Table) : List ResourceKey :=
  t.buckets.keys.flatMap fun b => (t.bucket b).entries.map (·.2)

theorem mem_listing {t : Table} {key : ResourceKey} :
    key ∈ t.listing ↔ ∃ b id, (id, key) ∈ (t.bucket b).entries := by
  simp only [listing, List.mem_flatMap, List.mem_map, Prod.exists, exists_eq_right]
  constructor
  · rintro ⟨b, -, id, member⟩
    exact ⟨b, id, member⟩
  · rintro ⟨b, id, member⟩
    refine ⟨b, ?_, id, member⟩
    -- Beyond the last bucket there is only the default one, which has no entries.
    by_contra outside
    have beyond : t.bucket b = default := by
      refine Store.get_of_size_le _ (Nat.le_of_not_lt fun inside => outside ?_)
      exact List.mem_map.mpr ⟨b.index, List.mem_range.mpr inside, rfl⟩
    rw [beyond] at member
    cases member

end Table

namespace Manager

/-- A resource that is in the table of its namespace. -/
def Hashes (m : Manager) (r : ResourceRef) : Prop :=
  ∃ b id, (id, r.key) ∈ ((m.space r.space).table.bucket b).entries

/-- The resources of a namespace, bucket by bucket. -/
def listing (m : Manager) (n : SpaceKey) : List ResourceRef :=
  (m.space n).table.listing.map (ResourceRef.mk n)

theorem mem_listing {m : Manager} {n : SpaceKey} {r : ResourceRef} :
    r ∈ m.listing n ↔ r.space = n ∧ m.Hashes r := by
  obtain ⟨home, key⟩ := r
  simp only [listing, List.mem_map, ResourceRef.mk.injEq, Hashes, ← Table.mem_listing]
  constructor
  · rintro ⟨_, member, rfl, rfl⟩
    exact ⟨rfl, member⟩
  · rintro ⟨rfl, member⟩
    exact ⟨key, member, rfl, rfl⟩

end Manager

/-- Only references on the listed resources are given out, and nothing but a table changes. -/
theorem Act.resources_cases {m m' : Manager} {n : SpaceKey} {refs : List ResourceRef}
    (run : Act.resources n m = .ok refs m') : refs = m.listing n ∧ ∃ t, m' = m.setTable n t := by
  unfold Act.resources at run
  replace run : (space n >>= _) m = _ := run
  rw [run_bind (run_space n m)] at run
  cases taken : (m.space n).table.snapshot with
  | error fault =>
    rw [taken] at run
    cases run
  | ok found =>
    obtain ⟨keys, t⟩ := found
    obtain ⟨rfl, -⟩ := Table.snapshotFrom_cases taken
    rw [taken] at run
    cases run
    exact ⟨rfl, t, rfl⟩

end Lockspace
