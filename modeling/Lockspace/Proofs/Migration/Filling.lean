import Lockspace.Proofs.Concurrent.StepFrames
import Lockspace.Proofs.InwardActs
import Lockspace.Proofs.Migration.Placement
import Lockspace.Proofs.TableListing

namespace Lockspace

open Manager Act Table

namespace Activity

/-- Whether an activity is about to announce what it takes for the first reference of a
namespace. -/
def ushers : Activity → Bool
  | announcing _ first bref => first && bref = 1
  | _ => false

/-- Whether an activity is about to insert a resource. -/
def isCreating : Activity → Bool
  | creating .. => true
  | _ => false

end Activity

namespace Act

variable {α : Type} {n : SpaceKey} {a : Activity}

theorem inward_of_steady {act : Act α} (steady : act.Preserves Steady) : act.Preserves Inward :=
  steady.mono fun _ _ => Steady.toInward

/-- Only an announcement may move a namespace to another list. -/
theorem inward_advance (ofTable : a.isOfTable) (other : a.isAnnouncing = false) :
    (a.advance n).Preserves Inward :=
  preserves_advance (fun _ => inward_setTable) (fun _ answer =>
    inward_of_steady (steady_afterRelease answer)) (inward_of_steady steady_signal) ofTable other

end Act

namespace Table

variable {t t' : Table} {live leaving : Multiset ResourceKey} {holds : Nat} {b : BucketKey}
  {id : ResourceId}

/-- A table is empty if and only if nothing in it is referenced or about to leave. -/
theorem Tallied.size_eq_zero (tallied : t.Tallied live leaving holds) :
    t.size = 0 ↔ live = 0 ∧ leaving = 0 := by
  rw [Table.size_eq_zero, ← add_eq_zero]
  constructor
  · intro empty
    refine Multiset.eq_zero_of_forall_notMem fun key member => ?_
    have entry := tallied.entered key member
    rw [empty] at entry
    cases entry
  · intro none b
    refine List.eq_nil_iff_forall_not_mem.mpr fun entry inside => ?_
    have present := (tallied.filed b entry.1 entry.2 inside).1
    rw [none] at present
    exact Multiset.notMem_zero _ present

end Table

namespace InOrder

variable {n : SpaceKey} {m m' : Manager} {a b : Activity} {acts rest : Multiset Activity}
  {id : ResourceId} {rtype : ResourceType}

/-- Where locks own no references, a table is empty if and only if nobody has any and nobody takes
a resource out. -/
theorem size_eq_zero (inOrder : InOrder n m.lockless acts) :
    (m.space n).table.size = 0 ↔ handsOf acts = 0 ∧ leavingOf acts = 0 := by
  have none : m.lockless.boundKeys n = 0 := boundKeys_eq_zero fun _ => rfl
  have tallied := inOrder.tallied
  rw [none, add_zero] at tallied
  exact tallied.size_eq_zero

end InOrder

/-- What comes of a step besides an insertion: nothing that announces a first reference and, where
the table is empty and there is no reference at hand, nothing that has one. -/
def Activity.Sterile (a : Activity) (t : Table) (after : List Activity) : Prop :=
  (∀ b ∈ after, b.ushers = false) ∧ (t.size = 0 → a.hands = 0 → a.leaving = 0 →
    handsOf ↑after = 0 ∧ leavingOf ↑after = 0)

namespace Activity

variable {a : Activity} {t : Table} {key : ResourceKey} {after : List Activity}

theorem sterile_of_hands (hands : a.hands = {key}) (calm : ∀ b ∈ after, b.ushers = false) :
    a.Sterile t after := by
  refine ⟨calm, fun _ none => ?_⟩
  rw [hands] at none
  exact absurd none (Multiset.singleton_ne_zero key)

theorem sterile_of_leaving (leaving : a.leaving = {key}) (calm : ∀ b ∈ after, b.ushers = false) :
    a.Sterile t after := by
  refine ⟨calm, fun _ _ none => ?_⟩
  rw [leaving] at none
  exact absurd none (Multiset.singleton_ne_zero key)

theorem sterile_of_single {b : Activity} (calm : b.ushers = false) (hands : b.hands = 0)
    (leaving : b.leaving = 0) : a.Sterile t [b] := by
  refine ⟨by simpa using calm, fun _ _ _ => ⟨?_, ?_⟩⟩
  · simpa [handsOf] using hands
  · simpa [leavingOf] using leaving

theorem sterile_nil : a.Sterile t [] :=
  ⟨nofun, fun _ _ _ => ⟨rfl, rfl⟩⟩

end Activity

namespace Act

variable {n : SpaceKey} {m : Manager} {a : Activity} {key : ResourceKey}

/-- An answer that follows an action at once. -/
theorem ends_answer {α : Type} {act : Act α} {next : α → Act (List Activity)}
    {post : List Activity → Prop} (each : ∀ x, ∃ after, next x = pure after ∧ post after) :
    (act >>= next).Ends m (fun _ => True) fun after _ => post after := by
  refine ends_bind.mpr (ends_always fun x m' => ?_)
  obtain ⟨after, answer, holds⟩ := each x
  rw [answer]
  exact ends_pure.mpr holds

theorem ends_seeking (id : ResourceId) (rtype : ResourceType) (create : Bool) :
    ((Activity.seeking id rtype create).advance n).Ends m (fun _ => True) fun after _ =>
      (Activity.seeking id rtype create).Sterile (m.space n).table after := by
  simp only [Activity.advance, lookupLocked, ends_bind, ends_ite, ends_throw, ends_space,
    ends_ofExcept]
  split
  · trivial
  cases run : (m.space n).table.lookup ((m.space n).table.bucketOf id) id with
  | error fault => trivial
  | ok answer =>
    obtain ⟨found, t⟩ := answer
    cases found with
    | found key =>
      refine ends_setTable.mpr (ends_pure.mpr (ends_pure.mpr ⟨by simp [Activity.ushers], ?_⟩))
      intro empty
      have absent := Table.size_eq_zero.mp empty ((m.space n).table.bucketOf id)
      -- An empty table has no entry that a lookup could find.
      have missing : ((m.space n).table.bucket ((m.space n).table.bucketOf id)).find? id = none := by
        rw [Bucket.find?, absent]
        rfl
      rw [lookup_of_absent missing] at run
      cases run
    | missing seen =>
      refine ends_setTable.mpr (ends_pure.mpr (ends_pure.mpr ?_))
      cases create with
      | true => exact Activity.sterile_of_single rfl rfl rfl
      | false => exact Activity.sterile_nil

theorem ends_visiting (b : BucketKey) (todo : List BucketKey) (found : List ResourceKey) :
    ((Activity.listing (b :: todo) found).advance n).Ends m (fun _ => True) fun after _ =>
      (Activity.listing (b :: todo) found).Sterile (m.space n).table after := by
  simp only [Activity.advance, snapshotBucket, ends_bind, ends_space, ends_ofExcept]
  cases run : (m.space n).table.snapshotBucket b with
  | error fault => trivial
  | ok answer =>
    obtain ⟨keys, t⟩ := answer
    refine ends_setTable.mpr (ends_pure.mpr (ends_pure.mpr ⟨by simp [Activity.ushers], ?_⟩))
    intro empty hands _
    have none := Table.size_eq_zero.mp empty b
    rw [(snapshotBucket_cases run).1, none]
    have before : found = [] := (Multiset.coe_eq_zero found).mp hands
    rw [before]
    exact ⟨rfl, rfl⟩

theorem ends_compare (key : ResourceKey) (seen : Nat) :
    (Activity.compare n key seen).Ends m (fun _ => True) fun after _ =>
      (Activity.comparing key seen).Sterile (m.space n).table after := by
  unfold Activity.compare
  split
  · exact ends_pure.mpr (Activity.sterile_of_hands rfl (by simp [Activity.ushers]))
  · refine ends_answer fun left => ?_
    cases left with
    | none => exact ⟨_, rfl, Activity.sterile_of_hands rfl (by simp [Activity.ushers])⟩
    | some actual => exact ⟨_, rfl, Activity.sterile_of_hands rfl (by simp [Activity.ushers])⟩

/-- Only an insertion gets a reference on a resource of an empty table. -/
theorem ends_advance_of_other (ofTable : a.isOfTable) (other : a.isCreating = false) :
    (a.advance n).Ends m (fun _ => True) fun after _ => a.Sterile (m.space n).table after := by
  cases a with
  | seeking id rtype create => exact ends_seeking id rtype create
  | creating id rtype seen => cases other
  | announcing key first bref =>
    exact ends_answer fun _ =>
      ⟨_, rfl, Activity.sterile_of_hands rfl (by simp [Activity.ushers])⟩
  | cloning key =>
    exact ends_answer fun _ =>
      ⟨_, rfl, Activity.sterile_of_hands rfl (by simp [Activity.ushers])⟩
  | releasing key =>
    exact ends_answer fun _ =>
      ⟨_, rfl, Activity.sterile_of_hands rfl (by simp [Activity.ushers])⟩
  | comparing key seen =>
    rw [Activity.advance_comparing]
    split
    · simp only [ends_bind, ends_resource, ends_throw]
    · exact ends_compare key seen
  | locking key =>
    refine ends_answer fun last => ⟨_, rfl, Activity.sterile_of_hands rfl ?_⟩
    cases last <;> simp [Activity.ushers]
  | evicting key =>
    refine ends_answer fun answer => ?_
    cases answer with
    | kept => exact ⟨_, rfl, Activity.sterile_of_leaving rfl (by simp [Activity.ushers])⟩
    | freed emptied bref =>
      exact ⟨_, rfl, Activity.sterile_of_leaving rfl (by simp [Activity.ushers])⟩
  | telling key emptied bref =>
    exact ends_answer fun _ => ⟨_, rfl, Activity.sterile_of_single rfl rfl rfl⟩
  | listing todo found =>
    cases todo with
    | nil =>
      refine ends_pure.mpr ⟨by simp [Activity.ushers], fun _ hands _ => ?_⟩
      have before : found = [] := (Multiset.coe_eq_zero found).mp hands
      rw [before]
      exact ⟨rfl, rfl⟩
    | cons b rest => exact ends_visiting b rest found
  | claiming => exact ends_answer fun _ => ⟨_, rfl, Activity.sterile_of_single rfl rfl rfl⟩
  | yielding =>
    refine ends_answer fun bref => ⟨_, rfl, ?_⟩
    split
    · exact Activity.sterile_of_single rfl rfl rfl
    · exact Activity.sterile_nil
  | signalling => exact ends_answer fun _ => ⟨_, rfl, Activity.sterile_nil⟩
  | handle key => exact ends_pure.mpr (Activity.sterile_of_hands rfl (by simp [Activity.ushers]))
  | hold => exact ends_pure.mpr (Activity.sterile_of_single rfl rfl rfl)
  | answered key freed => exact ends_pure.mpr (Activity.sterile_of_single rfl rfl rfl)
  | _ => cases ofTable

end Act

namespace Table

variable {t : Table} {live leaving : Multiset ResourceKey} {holds : Nat} {b : BucketKey}
  {candidate : Resource}

theorem size_enter_ne_zero (absent : (t.bucket b).find? candidate.id = none) :
    (t.enter b candidate).size ≠ 0 := by
  intro empty
  have inside := (mem_bucket_enter absent).mpr (Or.inr ⟨rfl, rfl⟩)
  rw [Table.size_eq_zero.mp empty b] at inside
  cases inside

/-- The count of a table gets to one with the first entry of a bucket exactly if the table was
empty and nobody held the namespace. -/
theorem Tallied.insert (tallied : t.Tallied live leaving holds)
    (absent : (t.bucket b).find? candidate.id = none) (seen : Nat) :
    ∃ first, t.insert b candidate seen = .ok
        (.inserted t.resources.nextKey first (t.enter b candidate).bref, t.enter b candidate) ∧
      (first = true ∧ (t.enter b candidate).bref = 1 ↔ t.size = 0 ∧ holds = 0) := by
  have held := tallied.held
  have unheld : t.bref = 0 ↔ t.size = 0 ∧ holds = 0 := by
    rw [held, Nat.add_eq_zero_iff, Table.size_eq_zero, occupied_eq_zero]
  have entries := Bucket.entries_put absent t.resources.nextKey
  refine ⟨((t.bucket b).put candidate.id t.resources.nextKey).entries.length == 1, ?_, ?_⟩
  · simp only [Table.insert, absent, ite_self, Table.enter, modifyBucket, beq_iff_eq]
  rw [← unheld]
  show _ ∧ (if _ then t.bref + 1 else t.bref) = 1 ↔ t.bref = 0
  constructor
  · rintro ⟨first, once⟩
    rw [if_pos (beq_iff_eq.mp first)] at once
    omega
  · intro none
    have vacant : (t.bucket b).entries = [] := Table.size_eq_zero.mp (unheld.mp none).1 b
    rw [entries, vacant, none]
    exact ⟨rfl, rfl⟩

end Table

/-- An insertion announces a first reference exactly if the table was empty and nobody held the
namespace, and the table is not empty after it. -/
theorem InOrder.ends_creating {n : SpaceKey} {m : Manager} {rest : Multiset Activity}
    {id : ResourceId} {rtype : ResourceType} {seen : Nat}
    (inOrder : InOrder n m.lockless (.creating id rtype seen ::ₘ rest)) :
    ((Activity.creating id rtype seen).advance n).Ends m (fun _ => True) fun after m' =>
      ((m.space n).table.size = 0 → (m'.space n).table.size ≠ 0) ∧
      ((∃ b ∈ after, b.ushers = true) ↔ (m.space n).table.size = 0 ∧ holdsOf rest = 0) := by
  have fits := inOrder.fits _ (Multiset.mem_cons_self _ _)
  have books := inOrder.books
  simp only [Activity.advance, insertLocked, newResource, ends_bind, ends_space, ends_ofExcept,
    ends_pure]
  generalize (m.space n).config.dumpGrantedMax.toNat = limit
  generalize made : Resource.new id rtype ((m.space n).table.bucketOf id) limit = candidate
  have named : candidate.id = id := by rw [← made]; rfl
  cases found : ((m.space n).table.bucket ((m.space n).table.bucketOf id)).find? id with
  | some key =>
    have filled : (m.space n).table.size ≠ 0 := by
      intro empty
      have entry := Bucket.mem_of_find? found
      rw [Table.size_eq_zero.mp empty] at entry
      cases entry
    -- At the version seen the bucket held no entry of the id, so the version is another one now.
    have stale : ((m.space n).table.bucket ((m.space n).table.bucketOf id)).version ≠ seen := by
      intro same
      rw [space_lockless] at fits
      rw [fits.2 same.symm] at found
      cases found
    simp only [Table.insert, if_pos stale, named, found]
    cases (m.space n).table.incref key with
    | error fault => trivial
    | ok t =>
      refine ends_setTable.mpr (ends_pure.mpr ⟨fun empty => absurd empty filled, ?_⟩)
      simp [Activity.ushers, filled]
  | none =>
    have absent : ((m.space n).table.bucket ((m.space n).table.bucketOf id)).find? candidate.id =
        none := by
      rw [named]
      exact found
    obtain ⟨first, inserted, heralds⟩ := books.insert absent seen
    rw [space_lockless] at inserted heralds
    simp only [inserted]
    refine ends_setTable.mpr (ends_pure.mpr ⟨fun _ => ?_, ?_⟩)
    · rw [table_setTable]
      exact size_enter_ne_zero absent
    · simpa [Activity.ushers, Activity.holds] using heralds

end Lockspace
