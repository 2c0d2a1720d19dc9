import Lockspace.Proofs.TableFiling
import Mathlib.Logic.Relation

namespace Lockspace

namespace Table

/-- The second table is the first one with the references on some resources counted anew. -/
def Recounted : Table → Table → Prop :=
  Relation.ReflTransGen fun t t' => ∃ key count, t' = t.recount key count

variable {t t' : Table} {key : ResourceKey} {keys : List ResourceKey} {b : BucketKey}
  {id : ResourceId} {candidate : Resource}

namespace Recounted

/-- What no count concerns is the same in both tables. -/
theorem eq {α : Type} (recounted : t.Recounted t') {view : Table → α}
    (same : ∀ t key count, view (recount t key count) = view t) : view t' = view t := by
  induction recounted with
  | refl => rfl
  | tail _ step ih =>
    obtain ⟨key, count, rfl⟩ := step
    exact (same _ key count).trans ih

theorem buckets (recounted : t.Recounted t') : t'.buckets = t.buckets :=
  recounted.eq fun _ _ _ => rfl

theorem bref (recounted : t.Recounted t') : t'.bref = t.bref :=
  recounted.eq fun _ _ _ => rfl

theorem bucket (recounted : t.Recounted t') : t'.bucket = t.bucket :=
  recounted.eq fun _ _ _ => rfl

theorem alike (recounted : t.Recounted t') : t.Alike t' := by
  induction recounted with
  | refl => exact .rfl
  | tail _ step ih =>
    obtain ⟨key, count, rfl⟩ := step
    exact ih.trans (alike_recount _ key count)

end Recounted

theorem recounted_of_incref (run : t.incref key = .ok t') : t.Recounted t' := by
  unfold incref at run
  split at run
  · cases run
  · cases run
    exact .single ⟨key, _, rfl⟩

theorem recounted_of_lookup {found : Lookup} (run : t.lookup b id = .ok (found, t')) :
    t.Recounted t' := by
  unfold lookup at run
  split at run
  · rename_i key _
    cases taken : t.incref key with
    | error fault =>
      rw [taken] at run
      cases run
    | ok mid =>
      rw [taken] at run
      cases run
      exact recounted_of_incref taken
  · cases run
    exact .refl

/-- An insertion only counts, or enters the resource. -/
theorem recounted_or_entered_of_insert {seen : Nat} {done : Insertion}
    (run : t.insert b candidate seen = .ok (done, t')) :
    t.Recounted t' ∨ t' = t.enter b candidate := by
  simp only [insert] at run
  split at run
  · rename_i winner _
    cases taken : t.incref winner with
    | error fault =>
      rw [taken] at run
      cases run
    | ok mid =>
      rw [taken] at run
      cases run
      exact Or.inl (recounted_of_incref taken)
  · cases run
    simp only [enter, modifyBucket, beq_iff_eq, or_true]

theorem recounted_of_foldlM_incref (run : keys.foldlM incref t = .ok t') : t.Recounted t' := by
  induction keys generalizing t with
  | nil =>
    cases run
    exact .refl
  | cons key rest ih =>
    rw [List.foldlM_cons] at run
    cases first : t.incref key with
    | error fault =>
      rw [first] at run
      cases run
    | ok t₁ =>
      rw [first] at run
      exact (recounted_of_incref first).trans (ih run)

theorem snapshotBucket_cases (run : t.snapshotBucket b = .ok (keys, t')) :
    keys = (t.bucket b).entries.map (·.2) ∧ t.Recounted t' := by
  unfold snapshotBucket at run
  cases taken : ((t.bucket b).entries.map (·.2)).foldlM incref t with
  | error fault =>
    simp only [taken] at run
    cases run
  | ok t₁ =>
    simp only [taken] at run
    cases run
    exact ⟨rfl, recounted_of_foldlM_incref taken⟩

theorem snapshotFrom_cases {buckets : List BucketKey}
    (run : t.snapshotFrom buckets = .ok (keys, t')) :
    keys = (buckets.flatMap fun b => (t.bucket b).entries.map (·.2)) ∧ t.Recounted t' := by
  induction buckets generalizing t keys with
  | nil =>
    cases run
    exact ⟨rfl, .refl⟩
  | cons b rest ih =>
    unfold snapshotFrom at run
    cases first : t.snapshotBucket b with
    | error fault =>
      simp only [first] at run
      cases run
    | ok found =>
      obtain ⟨here, t₁⟩ := found
      obtain ⟨rfl, counted⟩ := snapshotBucket_cases first
      cases later : t₁.snapshotFrom rest with
      | error fault =>
        simp only [first, Bind.bind, Except.bind, later] at run
        cases run
      | ok more =>
        obtain ⟨there, t₂⟩ := more
        simp only [first, Bind.bind, Except.bind, later] at run
        cases run
        obtain ⟨rfl, last⟩ := ih later
        rw [counted.bucket]
        exact ⟨rfl, counted.trans last⟩

end Table

end Lockspace
