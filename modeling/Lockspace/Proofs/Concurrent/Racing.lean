import Lockspace.Proofs.Concurrent.Freeing
import Lockspace.Proofs.Concurrent.Reached
import Lockspace.Proofs.Sequential.Freeing

namespace Lockspace

open Manager Act Table

/-- Whether the next step of an activity inserts a resource or takes a hold. -/
def Activity.enlarges : Activity → Bool
  | creating .. | claiming => true
  | _ => false

/-- The states of a namespace, freshly set up alone, with the activities of any number of threads
and any number of calls that free it, which come at any time and take their steps in any order.
While a call is past its test of the count, activities that are barred take no step. -/
inductive Racing (setup : Setup) (n : SpaceKey) (barred : Activity → Prop) :
    Manager → Multiset Activity → Multiset Freeing → Prop
  | built {m : Manager} (run : Act.build setup {} = .ok (.ok n) m) : Racing setup n barred m 0 0
  | call {m : Manager} {acts : Multiset Activity} {calls : Multiset Freeing} {a : Activity}
      (reach : Racing setup n barred m acts calls) (fresh : a.IsCall) :
      Racing setup n barred m (a ::ₘ acts) calls
  | use {m : Manager} {acts : Multiset Activity} {calls : Multiset Freeing} {a b : Activity}
      (reach : Racing setup n barred m (a ::ₘ acts) calls) (uses : a.Uses b) :
      Racing setup n barred m (b ::ₘ acts) calls
  | step {m m' : Manager} {acts : Multiset Activity} {calls : Multiset Freeing} {a : Activity}
      {after : List Activity} (reach : Racing setup n barred m (a ::ₘ acts) calls)
      (may : a.MayStep (m.space n).table acts) (unbarred : barred a → ∀ f ∈ calls, ¬ f.IsUnderway)
      (run : a.advance n m = .ok after m') : Racing setup n barred m' (↑after + acts) calls
  | free {m : Manager} {acts : Multiset Activity} {calls : Multiset Freeing}
      (reach : Racing setup n barred m acts calls) :
      Racing setup n barred m acts (.testing ::ₘ calls)
  | advance {m m' : Manager} {acts : Multiset Activity} {calls : Multiset Freeing} {f f' : Freeing}
      (reach : Racing setup n barred m acts (f ::ₘ calls))
      (may : f.MayStep (m.space n).table acts) (run : f.advance n m = .ok f' m') :
      Racing setup n barred m' acts (f' ::ₘ calls)

namespace Table

theorem onward_clearBucket {t : Table} {b : BucketKey} (inside : b.index < t.shardCount) :
    t.Onward (t.clearBucket b).2 := by
  refine ⟨le_rfl, fun id => ?_, fun c => ?_⟩
  · simp only [bucketOf, shardCount_clearBucket inside]
    rfl
  · show (t.modifyBucket b Bucket.clear).bucket c = _ ∨ _ < ((t.modifyBucket b _).bucket c).version
    rw [bucket_modifyBucket]
    split
    · rename_i same
      rw [same]
      exact Or.inr (Nat.lt_succ_self _)
    · exact Or.inl rfl

end Table

namespace Freeing

variable {n : SpaceKey}

theorem quiet_claim : (claim n).Quiet n := by
  have claimed : (claimFreed n).Quiet n := by
    refine quiet_space.bind fun s => (quiet_modifySpace ?_).bind fun _ => quiet_pure _
    exact fun _ => rfl
  refine quiet_space.bind fun s => claimed.bind fun already => ?_
  split
  · exact (quiet_log _ _).bind fun _ => quiet_pure _
  · exact quiet_pure _

theorem quiet_check (left : Nat) : (check n left).Quiet n := by
  refine quiet_space.bind fun s => ?_
  have last : ∀ u : PUnit, (do
      if s.link ≠ .detached then throw (.stillLinked s.name)
      return uncounting : Act Freeing).Quiet n :=
    fun _ => quiet_guard rfl fun _ => quiet_pure _
  show (if left ≠ 0 then log _ _ >>= _ else _ : Act Freeing).Quiet n
  split
  · exact (quiet_log _ _).bind last
  · exact last ()

end Freeing

namespace InOrder

variable {n : SpaceKey} {m : Manager} {acts rest : Multiset Activity} {a : Activity} {f : Freeing}

/-- While the count is zero, nobody has a reference or a hold, nothing is in the table, and no lock
owns a reference. -/
theorem unreferenced (inOrder : InOrder n m acts) (none : (m.space n).table.bref = 0) :
    handsOf acts = 0 ∧ leavingOf acts = 0 ∧ holdsOf acts = 0 ∧
      (∀ b, ((m.space n).table.bucket b).entries = []) ∧ ∀ l, (m.lock l).bound = .none := by
  have books := inOrder.tallied
  have held := books.held
  rw [none] at held
  have vacant : ∀ b, ((m.space n).table.bucket b).entries = [] :=
    Table.occupied_eq_zero.mp (by omega)
  have absent : ∀ key, key ∉ handsOf acts + m.boundKeys n + leavingOf acts := by
    intro key member
    have entry := books.entered key member
    rw [vacant] at entry
    cases entry
  have empty := Multiset.eq_zero_of_forall_notMem absent
  rw [add_eq_zero, add_eq_zero] at empty
  refine ⟨empty.1.1, empty.2, by omega, vacant, fun l => ?_⟩
  cases bound : (m.lock l).bound with
  | none => rfl
  | some r =>
    obtain ⟨space, key⟩ := r
    obtain rfl : space = n := inOrder.spaces l _ bound
    have owned := mem_boundKeys bound
    rw [empty.1.2] at owned
    cases owned

/-- Where nobody references a namespace, nobody comes to do so but by an insertion or a hold. -/
theorem ends_unreferenced (inOrder : InOrder n m (a ::ₘ rest))
    (none : (m.space n).table.bref = 0) (other : a.enlarges = false) :
    (a.advance n).Ends m (fun _ => True) fun _ m' => (m'.space n).table.bref = 0 := by
  obtain ⟨hands, leaving, holds, vacant, unbound⟩ := inOrder.unreferenced none
  rw [handsOf, Multiset.map_cons, Multiset.sum_cons, add_eq_zero] at hands
  rw [leavingOf, Multiset.map_cons, Multiset.sum_cons, add_eq_zero] at leaving
  rw [holdsOf, Multiset.map_cons, Multiset.sum_cons, Nat.add_eq_zero_iff] at holds
  replace hands := hands.1
  have quietly {α : Type} {act : Act α} (quiet : act.Quiet n) :
      act.Ends m (fun _ => True) fun _ m' => (m'.space n).table.bref = 0 := by
    refine quiet.ends (fun _ _ => trivial) fun _ m' agrees => ?_
    rw [agrees.table]
    exact none
  cases a with
  | seeking id rtype create =>
    have absent : ((m.space n).table.bucket ((m.space n).table.bucketOf id)).find? id = .none := by
      rw [Bucket.find?, vacant]
      rfl
    simp only [Activity.advance, lookupLocked, ends_bind, ends_ite, ends_throw, ends_space,
      ends_ofExcept, lookup_of_absent absent, ends_setTable, ends_pure, table_setTable]
    split
    · trivial
    · exact none
  | telling key emptied bref =>
    simp only [Activity.advance, ends_bind, ends_pure]
    refine (ends_afterRelease (n := n)).mono (fun _ _ => trivial) fun _ m' agrees => ?_
    rw [agrees.2.table]
    exact none
  | listing todo found =>
    cases todo with
    | nil => exact ends_pure.mpr none
    | cons b todo =>
      have nothing : (m.space n).table.snapshotBucket b = .ok ([], (m.space n).table) := by
        rw [Table.snapshotBucket, vacant]
        rfl
      simp only [Activity.advance, Act.snapshotBucket, ends_bind, ends_space, ends_ofExcept, nothing,
        ends_setTable, ends_pure, table_setTable]
      exact none
  | unbinding l =>
    simp only [Activity.advance, unbind, ends_bind, ends_lock, ends_modifyLock, ends_pure]
    exact none
  | forgetting l =>
    simp only [Activity.advance, unbind, ends_bind, ends_lock, ends_modifyLock, ends_pure]
    exact none
  | destroying l =>
    simp only [Activity.advance, ends_bind, ends_pure]
    refine (ends_unlinkAndMark (n := n)).mono (fun _ _ => trivial) fun _ m' keeps => ?_
    rw [keeps.entries.bref]
    exact none
  | answered key gone => exact ends_pure.mpr none
  | reaping l => exact quietly (quiet_lockReused.discard.bind fun _ => quiet_pure _)
  | signalling => exact quietly (quiet_signal.bind fun _ => quiet_pure _)
  | creating id rtype seen => cases other
  | claiming => cases other
  | hold => cases holds.1
  | yielding => cases holds.1
  | evicting key => exact absurd leaving.1 (Multiset.singleton_ne_zero key)
  | handle key => exact absurd hands (Multiset.singleton_ne_zero key)
  | announcing key first bref => exact absurd hands (Multiset.singleton_ne_zero key)
  | cloning key => exact absurd hands (Multiset.singleton_ne_zero key)
  | releasing key => exact absurd hands (Multiset.singleton_ne_zero key)
  | comparing key seen => exact absurd hands (Multiset.singleton_ne_zero key)
  | locking key => exact absurd hands (Multiset.singleton_ne_zero key)
  | binding l key => exact absurd hands (Multiset.singleton_ne_zero key)

/-- What a step of a call that frees a namespace does among activities: it leaves the entries and
the count alone, and the call only goes on, or answers that it freed the namespace, while that is
not referenced. -/
structure Spares (n : SpaceKey) (acts : Multiset Activity) (m : Manager) (f f' : Freeing)
    (m' : Manager) : Prop where
  inOrder : InOrder n m' acts
  entries : ∀ b, ((m'.space n).table.bucket b).entries = ((m.space n).table.bucket b).entries
  bref : (m'.space n).table.bref = (m.space n).table.bref
  unused : f'.IsUnderway ∨ f' = .done ∧ f ≠ .done → (m.space n).table.bref = 0

theorem spares_of_agrees {m' : Manager} {f' : Freeing} (inOrder : InOrder n m acts)
    (agrees : Agrees n m m')
    (unused : f'.IsUnderway ∨ f' = .done ∧ f ≠ .done → (m.space n).table.bref = 0) :
    Spares n acts m f f' m' where
  inOrder := inOrder.undisturbed agrees.keeps
  entries b := by rw [agrees.table]
  bref := by rw [agrees.table]
  unused := unused

theorem spares_clearNext {next left : Nat} (inOrder : InOrder n m acts)
    (none : (m.space n).table.bref = 0) :
    (Freeing.clearNext n next left).Ends m (fun _ => True) fun f' m' => Spares n acts m f f' m' := by
  obtain ⟨hands, leaving, holds, vacant, unbound⟩ := inOrder.unreferenced none
  have books := inOrder.tallied
  rw [hands, leaving, holds, boundKeys_eq_zero unbound, add_zero] at books
  unfold Freeing.clearNext
  rw [ends_bind, ends_space, ends_ite]
  split
  · rename_i inside
    have onward := onward_clearBucket (b := ⟨next⟩) inside
    rw [ends_bind, ends_setTable]
    refine ends_pure.mpr ⟨⟨?_, inOrder.spaces, fun a member => ?_, fun key => ?_⟩, ?_, ?_, ?_⟩
    · rw [table_setTable, hands, leaving, holds, boundKeys_eq_zero]
      · exact books.clearBucket inside
      · exact unbound
    · rw [table_setTable]
      exact (inOrder.fits a member).onward onward
    · rw [table_setTable]
      exact inOrder.freed key
    · intro b
      rw [table_setTable, vacant]
      show ((m.space n).table.modifyBucket ⟨next⟩ Bucket.clear |>.bucket b).entries = []
      rw [bucket_modifyBucket]
      split
      · rfl
      · exact vacant b
    · rw [table_setTable]
      rfl
    · exact fun _ => none
  · exact ends_pure.mpr (inOrder.spares_of_agrees .rfl fun _ => none)

theorem ends_freeing (inOrder : InOrder n m acts)
    (unused : f.IsUnderway → (m.space n).table.bref = 0) :
    (f.advance n).Ends m (fun _ => True) fun f' m' => Spares n acts m f f' m' := by
  have quietly {act : Act Freeing} (quiet : act.Quiet n) (none : (m.space n).table.bref = 0) :
      act.Ends m (fun _ => True) fun f' m' => Spares n acts m f f' m' :=
    quiet.ends (fun _ _ => trivial) fun _ m' agrees => inOrder.spares_of_agrees agrees fun _ => none
  have stops {g : Freeing} {m' : Manager} (agrees : Agrees n m m') (ended : ¬ g.IsUnderway)
      (other : g = .done → f = .done) : Spares n acts m f g m' := by
    refine inOrder.spares_of_agrees agrees fun goes => ?_
    rcases goes with underway | ⟨answers, new⟩
    · exact absurd underway ended
    · exact absurd (other answers) new
  cases f with
  | testing =>
    simp only [Freeing.advance, Freeing.test, ends_bind, ends_space, ends_ite, ends_log, ends_pure]
    split
    · exact stops ⟨rfl, fun _ => rfl⟩ id (by simp)
    · rename_i none
      exact inOrder.spares_of_agrees .rfl fun _ => not_not.mp none
  | claiming => exact quietly Freeing.quiet_claim (unused trivial)
  | unregistering => exact quietly (quiet_unregister.bind fun _ => quiet_pure _) (unused trivial)
  | finalizing =>
    obtain ⟨-, -, -, -, unbound⟩ := inOrder.unreferenced (unused trivial)
    simp only [Freeing.advance, ends_bind, ends_pure]
    refine (ends_finalizeUnused unbound).mono (fun _ _ => trivial) fun _ m' agrees => ?_
    exact inOrder.spares_of_agrees agrees fun _ => unused trivial
  | retiring => exact quietly (quiet_retireStats.bind fun _ => quiet_pure _) (unused trivial)
  | clearing next left => exact inOrder.spares_clearNext (unused trivial)
  | checking left => exact quietly (Freeing.quiet_check left) (unused trivial)
  | uncounting => exact quietly (quiet_dropGate.discard.bind fun _ => quiet_pure _) (unused trivial)
  | refused => exact ends_pure.mpr (stops .rfl id id)
  | late => exact ends_pure.mpr (stops .rfl id id)
  | done => exact ends_pure.mpr (stops .rfl id id)

end InOrder

namespace Racing

variable {setup : Setup} {n : SpaceKey} {m : Manager} {acts : Multiset Activity}
  {calls : Multiset Freeing}

/-- Where insertions and holds are barred while a call is past its test, everything stays in order,
and the namespace is not referenced as long as a call goes on. -/
theorem inOrder (reach : Racing setup n (·.enlarges = true) m acts calls) :
    InOrder n m acts ∧ ∀ f ∈ calls, f.IsUnderway → (m.space n).table.bref = 0 := by
  induction reach with
  | built run => exact ⟨.of_fresh (fresh_of_build run), nofun⟩
  | call _ fresh ih => exact ⟨ih.1.call fresh, ih.2⟩
  | use _ uses ih => exact ⟨ih.1.use uses, ih.2⟩
  | @step m m' acts calls a after _ may unbarred run ih =>
    refine ⟨((ih.1.steps may).of_ok run).inOrder, fun f member underway => ?_⟩
    have calm : a.enlarges = false := by
      by_contra enlarges
      exact unbarred (by simpa using enlarges) f member underway
    exact (ih.1.ends_unreferenced (ih.2 f member underway) calm).of_ok run
  | free _ ih =>
    refine ⟨ih.1, fun f member => ?_⟩
    rcases Multiset.mem_cons.mp member with rfl | old
    · exact nofun
    · exact ih.2 f old
  | @advance m m' acts calls f f' _ may run ih =>
    have spares := (ih.1.ends_freeing (ih.2 f (Multiset.mem_cons_self ..))).of_ok run
    refine ⟨spares.inOrder, fun g member underway => ?_⟩
    rw [spares.bref]
    rcases Multiset.mem_cons.mp member with rfl | old
    · exact spares.unused (Or.inl underway)
    · exact ih.2 g (Multiset.mem_cons_of_mem old) underway

/-- While no resource is inserted and no hold taken between the test of a call that frees the
namespace and its end, no resource that anybody references is removed by it, and it only answers
that it freed the namespace where that is not referenced. Every resource that is referenced is the
entry of its id, so no release misses it in its bucket. -/
theorem spares_referenced (reach : Racing setup n (·.enlarges = true) m acts calls) :
    (∀ key ∈ handsOf acts + m.boundKeys n,
      let t := (m.space n).table
      (t.bucket (t.bucketOf (t.resource key).id)).find? (t.resource key).id = some key) ∧
    (∀ f ∈ calls, ∀ f' m', f.advance n m = .ok f' m' →
      (∀ b, ((m'.space n).table.bucket b).entries = ((m.space n).table.bucket b).entries) ∧
      (f ≠ .done → f' = .done → (m'.space n).table.bref = 0)) ∧
    ∀ a rest, acts = a ::ₘ rest → a.MayStep (m.space n).table rest →
      ∀ fault m', a.advance n m = .error fault m' → ∀ id, fault ≠ .notInBucket id := by
  obtain ⟨inOrder, unused⟩ := reach.inOrder
  refine ⟨?_, ?_, ?_⟩
  · intro key live
    exact inOrder.tallied.find? (Multiset.mem_add.mpr (Or.inl live))
  · intro f member f' m' run
    have spares := (inOrder.ends_freeing (unused f member)).of_ok run
    refine ⟨spares.entries, fun before after => ?_⟩
    rw [spares.bref]
    exact spares.unused (Or.inr ⟨after, before⟩)
  · rintro a rest rfl may fault m' failed id rfl
    cases (inOrder.steps may).of_error failed

/-- A lookup comes while the buckets are cleared, and its insertion waits for the end of the call,
which answers while the count is zero. -/
theorem spares_referenced_of_late_insertion :
    ∃ m, Racing .oneBucket ⟨0⟩ (·.enlarges = true) m (.creating ⟨1, 2, 0, 0⟩ .plain 0 ::ₘ 0)
        (.uncounting ::ₘ 0) ∧
      ∃ m', Freeing.uncounting.advance ⟨0⟩ m = .ok .done m' ∧
        (m'.space ⟨0⟩).table.bref = 0 := by
  let seeker : Activity := .seeking ⟨1, 2, 0, 0⟩ .plain true
  let creator : Activity := .creating ⟨1, 2, 0, 0⟩ .plain 0
  obtain ⟨m₀, m₁, m₂, m₃, m₄, m₅, m₆, m₇, m₈, built, run₁, run₂, run₃, run₄, run₅, run₆, run₇, run₈,
      run₉, last⟩ : ∃ m₀ m₁ m₂ m₃ m₄ m₅ m₆ m₇ m₈, build .oneBucket {} = .ok (.ok ⟨0⟩) m₀ ∧
      Freeing.testing.advance ⟨0⟩ m₀ = .ok .claiming m₀ ∧
      Freeing.claiming.advance ⟨0⟩ m₀ = .ok .unregistering m₁ ∧
      Freeing.unregistering.advance ⟨0⟩ m₁ = .ok .finalizing m₂ ∧
      Freeing.finalizing.advance ⟨0⟩ m₂ = .ok .retiring m₃ ∧
      Freeing.retiring.advance ⟨0⟩ m₃ = .ok (.clearing 0 0) m₄ ∧
      seeker.advance ⟨0⟩ m₄ = .ok [creator] m₅ ∧
      (Freeing.clearing 0 0).advance ⟨0⟩ m₅ = .ok (.clearing 1 0) m₆ ∧
      (Freeing.clearing 1 0).advance ⟨0⟩ m₆ = .ok (.checking 0) m₆ ∧
      (Freeing.checking 0).advance ⟨0⟩ m₆ = .ok .uncounting m₇ ∧
      Freeing.uncounting.advance ⟨0⟩ m₇ = .ok .done m₈ :=
    ⟨_, _, _, _, _, _, _, _, _, rfl, rfl, rfl, rfl, rfl, rfl, rfl, rfl, rfl, rfl, rfl⟩
  have alone : ∀ (f : Freeing) (t : Table), f.MayStep t 0 := by simp [Freeing.MayStep]
  have beside : ∀ (f : Freeing) (t : Table), f.MayStep t (creator ::ₘ 0) := by
    simp [Freeing.MayStep, creator, Activity.locked]
  have retired : Racing .oneBucket ⟨0⟩ (·.enlarges = true) m₄ 0 (.clearing 0 0 ::ₘ 0) :=
    (((((Racing.built built).free.advance (alone _ _) run₁).advance (alone _ _) run₂).advance
      (alone _ _) run₃).advance (alone _ _) run₄).advance (alone _ _) run₅
  have sought : Racing .oneBucket ⟨0⟩ (·.enlarges = true) m₅ (creator ::ₘ 0)
      (.clearing 0 0 ::ₘ 0) :=
    (retired.call (a := seeker) trivial).step (by simp [Activity.MayStep]) nofun run₆
  have cleared : Racing .oneBucket ⟨0⟩ (·.enlarges = true) m₇ (creator ::ₘ 0)
      (.uncounting ::ₘ 0) :=
    ((sought.advance (beside _ _) run₇).advance (beside _ _) run₈).advance (beside _ _) run₉
  obtain ⟨-, spares, -⟩ := cleared.spares_referenced
  exact ⟨m₇, cleared, m₈, last, (spares _ (by simp) _ _ last).2 nofun rfl⟩

/-- A resource is inserted into a bucket that a call is about to clear. The call clears it away and
answers that it freed the namespace, while the count is one and the reference still held. Its
release does not find the resource in the bucket. -/
theorem clears_referenced :
    ∃ m, Racing .oneBucket ⟨0⟩ (fun _ => False) m (.handle ⟨0⟩ ::ₘ 0) (.done ::ₘ 0) ∧
      (m.space ⟨0⟩).table.bref = 1 ∧ ((m.space ⟨0⟩).table.bucket ⟨0⟩).entries = [] ∧
      ∃ m', Racing .oneBucket ⟨0⟩ (fun _ => False) m' (.evicting ⟨0⟩ ::ₘ 0) (.done ::ₘ 0) ∧
        ∃ m'', (Activity.evicting ⟨0⟩).advance ⟨0⟩ m' =
          .error (.notInBucket ⟨1, 2, 0, 0⟩) m'' := by
  let seeker : Activity := .seeking ⟨1, 2, 0, 0⟩ .plain true
  let creator : Activity := .creating ⟨1, 2, 0, 0⟩ .plain 0
  let announcer : Activity := .announcing ⟨0⟩ true 1
  let handle : Activity := .handle ⟨0⟩
  let releaser : Activity := .releasing ⟨0⟩
  let comparer : Activity := .comparing ⟨0⟩ 1
  let locker : Activity := .locking ⟨0⟩
  let evicter : Activity := .evicting ⟨0⟩
  obtain ⟨m₀, m₁, m₂, m₃, m₄, m₅, m₆, m₇, m₈, m₉, m₁₀, m₁₁, m₁₂, m₁₃, built, run₁, run₂, run₃, run₄,
      run₅, run₆, run₇, run₈, run₉, run₁₀, run₁₁, run₁₂, bref, entries, run₁₃, run₁₄, run₁₅, missed⟩ :
      ∃ m₀ m₁ m₂ m₃ m₄ m₅ m₆ m₇ m₈ m₉ m₁₀ m₁₁ m₁₂ m₁₃,
      build .oneBucket {} = .ok (.ok ⟨0⟩) m₀ ∧
      Freeing.testing.advance ⟨0⟩ m₀ = .ok .claiming m₀ ∧
      Freeing.claiming.advance ⟨0⟩ m₀ = .ok .unregistering m₁ ∧
      Freeing.unregistering.advance ⟨0⟩ m₁ = .ok .finalizing m₂ ∧
      Freeing.finalizing.advance ⟨0⟩ m₂ = .ok .retiring m₃ ∧
      Freeing.retiring.advance ⟨0⟩ m₃ = .ok (.clearing 0 0) m₄ ∧
      seeker.advance ⟨0⟩ m₄ = .ok [creator] m₅ ∧ creator.advance ⟨0⟩ m₅ = .ok [announcer] m₆ ∧
      announcer.advance ⟨0⟩ m₆ = .ok [handle] m₇ ∧
      (Freeing.clearing 0 0).advance ⟨0⟩ m₇ = .ok (.clearing 1 1) m₈ ∧
      (Freeing.clearing 1 1).advance ⟨0⟩ m₈ = .ok (.checking 1) m₈ ∧
      (Freeing.checking 1).advance ⟨0⟩ m₈ = .ok .uncounting m₉ ∧
      Freeing.uncounting.advance ⟨0⟩ m₉ = .ok .done m₁₀ ∧ (m₁₀.space ⟨0⟩).table.bref = 1 ∧
      ((m₁₀.space ⟨0⟩).table.bucket ⟨0⟩).entries = [] ∧
      releaser.advance ⟨0⟩ m₁₀ = .ok [comparer] m₁₁ ∧
      comparer.advance ⟨0⟩ m₁₁ = .ok [locker] m₁₂ ∧ locker.advance ⟨0⟩ m₁₂ = .ok [evicter] m₁₃ ∧
      ∃ m', evicter.advance ⟨0⟩ m₁₃ = .error (.notInBucket ⟨1, 2, 0, 0⟩) m' :=
    ⟨_, _, _, _, _, _, _, _, _, _, _, _, _, _, rfl, rfl, rfl, rfl, rfl, rfl, rfl, rfl, rfl, rfl,
      rfl, rfl, rfl, rfl, rfl, rfl, rfl, rfl, _, rfl⟩
  have alone : ∀ (a : Activity) (t : Table), a.MayStep t 0 := by simp [Activity.MayStep]
  have free : ∀ (f : Freeing) (t : Table), f.MayStep t 0 := by simp [Freeing.MayStep]
  have beside : ∀ (f : Freeing) (t : Table), f.MayStep t (handle ::ₘ 0) := by
    simp [Freeing.MayStep, handle, Activity.locked]
  have retired : Racing .oneBucket ⟨0⟩ (fun _ => False) m₄ 0 (.clearing 0 0 ::ₘ 0) :=
    (((((Racing.built built).free.advance (free _ _) run₁).advance (free _ _) run₂).advance
      (free _ _) run₃).advance (free _ _) run₄).advance (free _ _) run₅
  have held : Racing .oneBucket ⟨0⟩ (fun _ => False) m₇ (handle ::ₘ 0) (.clearing 0 0 ::ₘ 0) :=
    (((retired.call (a := seeker) trivial).step (alone _ _) nofun run₆).step
      (alone _ _) nofun run₇).step (alone _ _) nofun run₈
  have done : Racing .oneBucket ⟨0⟩ (fun _ => False) m₁₀ (handle ::ₘ 0) (.done ::ₘ 0) :=
    (((held.advance (beside _ _) run₉).advance (beside _ _) run₁₀).advance
      (beside _ _) run₁₁).advance (beside _ _) run₁₂
  have leaves : Racing .oneBucket ⟨0⟩ (fun _ => False) m₁₃ (evicter ::ₘ 0) (.done ::ₘ 0) :=
    (((done.use (.release _)).step (alone _ _) nofun run₁₃).step (alone _ _) nofun run₁₄).step
      (alone _ _) nofun run₁₅
  exact ⟨m₁₀, done, bref, entries, m₁₃, leaves, missed⟩

end Racing

end Lockspace
