import Lockspace.Proofs.Concurrent.Interleaving
import Lockspace.Proofs.TableReleases
import Lockspace.Proofs.Unlinking

namespace Lockspace

open Manager

namespace Table

/-- A later state of a table: no resource is forgotten, and a bucket that has changed has a higher
version. -/
structure Onward (t t' : Table) : Prop where
  size : t.resources.size ≤ t'.resources.size
  bucketOf : ∀ id, t'.bucketOf id = t.bucketOf id
  buckets : ∀ b, t'.bucket b = t.bucket b ∨ (t.bucket b).version < (t'.bucket b).version

variable {t t' : Table} {live leaving live' leaving' : Multiset ResourceKey} {holds holds' : Nat}
  {key : ResourceKey} {b : BucketKey} {candidate : Resource}

theorem SameEntries.onward (same : t.SameEntries t') : t.Onward t' :=
  ⟨same.size.ge, same.bucketOf_eq, fun b => Or.inl (same.bucket_eq b)⟩

theorem Onward.rfl : t.Onward t :=
  SameEntries.rfl.onward

theorem onward_enter (inside : b.index < t.shardCount) : t.Onward (t.enter b candidate) := by
  refine ⟨?_, bucketOf_enter inside, fun c => ?_⟩
  · rw [size_enter]
    exact Nat.le_succ _
  rw [bucket_enter]
  by_cases same : c = b
  · rw [if_pos same, same]
    exact Or.inr (Nat.lt_succ_self _)
  · exact Or.inl (if_neg same)

theorem onward_strike (inside : (t.resource key).bucket.index < t.shardCount) :
    t.Onward (t.strike key) := by
  refine ⟨le_rfl, bucketOf_strike inside, fun c => ?_⟩
  rw [bucket_strike]
  by_cases same : c = (t.resource key).bucket
  · rw [if_pos same, same]
    exact Or.inr (Nat.lt_succ_self _)
  · exact Or.inl (if_neg same)

/-- One for a resource that was made and is no longer referenced. -/
def unreferenced (t : Table) (key : ResourceKey) : Nat :=
  if key.index < t.resources.size ∧ (t.resource key).refcount = 0 then 1 else 0

theorem unreferenced_congr (size : t'.resources.size = t.resources.size)
    (counts : (t'.resource key).refcount = 0 ↔ (t.resource key).refcount = 0) :
    t'.unreferenced key = t.unreferenced key := by
  unfold unreferenced
  rw [size]
  simp only [counts]

theorem unreferenced_recount {k : ResourceKey} {count : Nat}
    (known : key.index < t.resources.size) (before : (t.resource key).refcount ≠ 0)
    (after : count ≠ 0) : (t.recount key count).unreferenced k = t.unreferenced k := by
  refine unreferenced_congr (sameEntries_recount known count).size ?_
  rw [resource_recount]
  by_cases same : k = key
  · rw [if_pos same, same]
    exact iff_of_false after before
  · rw [if_neg same]

theorem unreferenced_enter (candidate : Resource) (once : candidate.refcount = 1)
    {k : ResourceKey} : (t.enter b candidate).unreferenced k = t.unreferenced k := by
  unfold unreferenced
  rw [size_enter, resource_enter]
  by_cases new : k = t.resources.nextKey
  · have size : t.resources.nextKey.index = t.resources.size := rfl
    rw [if_pos new, once, new, size]
    simp
  · have off : k.index ≠ t.resources.size := by
      intro same
      exact new (by cases k; exact congrArg Key.mk same)
    rw [if_neg new]
    have bound : k.index < t.resources.size + 1 ↔ k.index < t.resources.size := by omega
    simp only [bound]

end Table

open Table

/-- The references that activities hold together. -/
def handsOf (acts : Multiset Activity) : Multiset ResourceKey :=
  (acts.map Activity.hands).sum

/-- The resources that activities are about to take out of the table. -/
def leavingOf (acts : Multiset Activity) : Multiset ResourceKey :=
  (acts.map Activity.leaving).sum

/-- The holds that activities stand for. -/
def holdsOf (acts : Multiset Activity) : Nat :=
  (acts.map Activity.holds).sum

/-- Whether an activity knows of the table what it must. What was missing from a bucket at its
present version still is. -/
def Activity.Fits (t : Table) : Activity → Prop
  | .creating id _ seen => seen ≤ (t.bucket (t.bucketOf id)).version ∧
      (seen = (t.bucket (t.bucketOf id)).version → (t.bucket (t.bucketOf id)).find? id = none)
  | .comparing _ seen => seen ≠ 0
  | _ => True

theorem Activity.Fits.onward {t t' : Table} {a : Activity} (fits : a.Fits t)
    (onward : t.Onward t') : a.Fits t' := by
  cases a with
  | creating id rtype seen =>
    obtain ⟨bound, absent⟩ := fits
    simp only [Activity.Fits, onward.bucketOf]
    rcases onward.buckets (t.bucketOf id) with same | newer
    · rw [same]
      exact ⟨bound, absent⟩
    · exact ⟨by omega, by omega⟩
  | comparing key seen => exact fits
  | _ => trivial

/-- What holds of a namespace and all activities in it between any two steps. -/
structure InOrder (n : SpaceKey) (m : Manager) (acts : Multiset Activity) : Prop where
  tallied : (m.space n).table.Tallied (handsOf acts + m.boundKeys n) (leavingOf acts) (holdsOf acts)
  spaces : ∀ l r, (m.lock l).bound = some r → r.space = n
  fits : ∀ a ∈ acts, a.Fits (m.space n).table
  freed : ∀ key, acts.countP (·.frees key) = (m.space n).table.unreferenced key

namespace InOrder

variable {n : SpaceKey} {m m' : Manager} {a b : Activity} {rest : Multiset Activity}
  {after : List Activity}

/-- What a step comes to: everything is in order again, and the table is a later one. -/
structure Leads (n : SpaceKey) (m m' : Manager) (acts : Multiset Activity) : Prop where
  inOrder : InOrder n m' acts
  onward : (m.space n).table.Onward (m'.space n).table

/-- One activity takes a step: the books are kept anew, nothing of a bucket is forgotten, and who
frees a resource takes its last reference. -/
theorem next (inOrder : InOrder n m (a ::ₘ rest))
    (tallied : (m'.space n).table.Tallied (handsOf ↑after + handsOf rest + m'.boundKeys n)
      (leavingOf ↑after + leavingOf rest) (holdsOf ↑after + holdsOf rest))
    (spaces : ∀ l r, (m'.lock l).bound = some r → r.space = n)
    (onward : (m.space n).table.Onward (m'.space n).table)
    (fits : ∀ b ∈ after, b.Fits (m'.space n).table)
    (freed : ∀ key, after.countP (·.frees key) + (m.space n).table.unreferenced key =
      (m'.space n).table.unreferenced key + if a.frees key then 1 else 0) :
    Leads n m m' (↑after + rest) := by
  refine ⟨⟨?_, spaces, ?_, ?_⟩, onward⟩
  · simpa only [handsOf, leavingOf, holdsOf, Multiset.map_add, Multiset.sum_add] using tallied
  · intro b member
    rcases Multiset.mem_add.mp member with new | old
    · exact fits b (Multiset.mem_coe.mp new)
    · exact (inOrder.fits b (Multiset.mem_cons_of_mem old)).onward onward
  · intro key
    have before := inOrder.freed key
    have change := freed key
    rw [Multiset.countP_cons] at before
    rw [Multiset.countP_add, Multiset.coe_countP]
    simp only [Bool.decide_eq_true] at *
    omega

/-- The books while one activity is looked at alone. -/
theorem books (inOrder : InOrder n m (a ::ₘ rest)) :
    (m.space n).table.Tallied (a.hands + (handsOf rest + m.boundKeys n))
      (a.leaving + leavingOf rest) (a.holds + holdsOf rest) := by
  simpa only [handsOf, leavingOf, holdsOf, Multiset.map_cons, Multiset.sum_cons, add_assoc]
    using inOrder.tallied

/-- What moves no reference disturbs nothing. -/
theorem undisturbed {acts : Multiset Activity} (inOrder : InOrder n m acts) (keeps : Keeps n m m') :
    InOrder n m' acts where
  tallied := by
    rw [boundKeys_congr keeps.bound]
    exact inOrder.tallied.sameEntries keeps.entries keeps.counts
  spaces := by
    intro l r bound
    rw [keeps.bound] at bound
    exact inOrder.spaces l r bound
  fits a member := (inOrder.fits a member).onward keeps.entries.onward
  freed key := by
    rw [unreferenced_congr keeps.entries.size (by rw [keeps.counts])]
    exact inOrder.freed key

/-- A step that moves no reference. -/
theorem keeps (inOrder : InOrder n m (a ::ₘ rest)) (keeps : Keeps n m m')
    (hands : handsOf ↑after = a.hands) (leaving : leavingOf ↑after = a.leaving)
    (holds : holdsOf ↑after = a.holds) (fits : ∀ b ∈ after, b.Fits (m.space n).table)
    (frees : ∀ key, after.countP (·.frees key) = if a.frees key then 1 else 0) :
    Leads n m m' (↑after + rest) := by
  refine ⟨undisturbed (Leads.inOrder (m := m) ?_) keeps, keeps.entries.onward⟩
  refine inOrder.next ?_ inOrder.spaces .rfl fits ?_
  · rw [hands, leaving, holds, add_assoc]
    exact inOrder.books
  · intro key
    rw [frees key, Nat.add_comm]

/-- A step that changes the table only. -/
theorem retable (inOrder : InOrder n m (a ::ₘ rest)) {t : Table}
    (tallied : t.Tallied (handsOf ↑after + handsOf rest + m.boundKeys n)
      (leavingOf ↑after + leavingOf rest) (holdsOf ↑after + holdsOf rest))
    (onward : (m.space n).table.Onward t) (fits : ∀ b ∈ after, b.Fits t)
    (freed : ∀ key, after.countP (·.frees key) + (m.space n).table.unreferenced key =
      t.unreferenced key + if a.frees key then 1 else 0) :
    Leads n m (m.setTable n t) (↑after + rest) := by
  refine inOrder.next ?_ inOrder.spaces ?_ ?_ ?_
  · rw [table_setTable]
    exact tallied
  · rw [table_setTable]
    exact onward
  · rw [table_setTable]
    exact fits
  · rw [table_setTable]
    exact freed

/-- A step that moves references between the activity and locks. -/
theorem relock (inOrder : InOrder n m (a ::ₘ rest)) (table : (m'.space n).table = (m.space n).table)
    (spaces : ∀ l r, (m'.lock l).bound = some r → r.space = n)
    (balance : handsOf ↑after + m'.boundKeys n = a.hands + m.boundKeys n)
    (leaving : leavingOf ↑after = a.leaving) (holds : holdsOf ↑after = a.holds)
    (fits : ∀ b ∈ after, ∀ t, b.Fits t)
    (frees : ∀ key, after.countP (·.frees key) = if a.frees key then 1 else 0) :
    Leads n m m' (↑after + rest) := by
  refine inOrder.next ?_ spaces ?_ (fun b new => fits b new _) ?_
  · rw [table, leaving, holds, add_right_comm, balance, add_assoc, add_comm (m.boundKeys n)]
    exact inOrder.books
  · rw [table]
    exact .rfl
  · intro key
    rw [table, frees key, Nat.add_comm]

/-- A step that takes one more reference on a resource that is referenced. -/
theorem reference (inOrder : InOrder n m (a ::ₘ rest)) {key : ResourceKey}
    (member : key ∈ a.hands + (handsOf rest + m.boundKeys n))
    (hands : handsOf ↑after = key ::ₘ a.hands) (leaving : leavingOf ↑after = a.leaving)
    (holds : holdsOf ↑after = a.holds)
    (fits : ∀ b ∈ after, ∀ t, b.Fits t)
    (frees : ∀ key, after.countP (·.frees key) = if a.frees key then 1 else 0) :
    Leads n m (m.setTable n ((m.space n).table.recount key
      (((m.space n).table.resource key).refcount + 1))) (↑after + rest) := by
  have books := inOrder.books
  have known := books.known key (Multiset.mem_add.mpr (Or.inl member))
  refine inOrder.retable ?_ (sameEntries_recount known _).onward (fun b new => fits b new _) ?_
  · have taken := books.incref member
    rwa [hands, leaving, holds, add_assoc, Multiset.cons_add]
  · intro k
    rw [unreferenced_recount known (Nat.ne_of_gt (books.live_pos member)) (Nat.succ_ne_zero _),
      frees k, Nat.add_comm]

/-- A step that drops one reference of several. -/
theorem dereference (inOrder : InOrder n m (a ::ₘ rest)) {key : ResourceKey}
    (several : ((m.space n).table.resource key).refcount ≠ 1)
    (hands : a.hands = key ::ₘ handsOf ↑after) (leaving : leavingOf ↑after = a.leaving)
    (holds : holdsOf ↑after = a.holds)
    (fits : ∀ b ∈ after, ∀ t, b.Fits t)
    (frees : ∀ key, after.countP (·.frees key) = if a.frees key then 1 else 0) :
    Leads n m (m.setTable n ((m.space n).table.recount key
      (((m.space n).table.resource key).refcount - 1))) (↑after + rest) := by
  have books := inOrder.books
  rw [hands, Multiset.cons_add] at books
  have member := Multiset.mem_cons_self key (handsOf ↑after + (handsOf rest + m.boundKeys n))
  have known := books.known key (Multiset.mem_add.mpr (Or.inl member))
  have positive := books.live_pos member
  refine inOrder.retable ?_ (sameEntries_recount known _).onward (fun b new => fits b new _) ?_
  · have dropped := books.drop_shared several
    rwa [leaving, holds, add_assoc]
  · intro k
    rw [unreferenced_recount known (Nat.ne_of_gt positive) (by omega), frees k, Nat.add_comm]

end InOrder

end Lockspace
