import Lockspace.Proofs.Concurrent.InOrder

namespace Lockspace

open Manager Table

namespace InOrder

variable {n : SpaceKey} {m : Manager} {a : Activity} {rest : Multiset Activity} {id : ResourceId}
  {rtype : ResourceType} {key : ResourceKey} {l : LockKey} {b : BucketKey}

/-- What a step of an activity does: it keeps everything in order and ends in no fault about
references. -/
def Steps (n : SpaceKey) (m : Manager) (a : Activity) (rest : Multiset Activity) : Prop :=
  (a.advance n).Ends m (·.isMiscount = false) fun after m' => Leads n m m' (↑after + rest)

theorem evicting_of_mem {acts : Multiset Activity} (member : key ∈ leavingOf acts) :
    .evicting key ∈ acts := by
  obtain ⟨other, present, leaves⟩ := Multiset.mem_bind.mp (show key ∈ acts.bind _ from member)
  cases other with
  | evicting k =>
    rw [Multiset.mem_singleton.mp leaves]
    exact present
  | _ => cases leaves

/-- Nothing is about to leave a bucket whose lock is free. -/
theorem settled {acts : Multiset Activity}
    (free : ∀ other ∈ acts, other.locked (m.space n).table ≠ some b) :
    ∀ key ∈ leavingOf acts, ((m.space n).table.resource key).bucket ≠ b :=
  fun _ member filed => free _ (evicting_of_mem member) (congrArg some filed)

theorem settled_of_mayStep (none : a.leaving = 0) (may : a.MayStep (m.space n).table rest)
    (awaits : a.awaits (m.space n).table = some b) :
    ∀ key ∈ a.leaving + leavingOf rest, ((m.space n).table.resource key).bucket ≠ b := by
  rw [none, zero_add]
  exact settled (may b awaits)

theorem agrees_setTable_self : Agrees n m (m.setTable n (m.space n).table) :=
  agrees_modifySpace n rfl

theorem steps_seeking {create : Bool} (inOrder : InOrder n m (.seeking id rtype create ::ₘ rest))
    (may : (Activity.seeking id rtype create).MayStep (m.space n).table rest) :
    Steps n m (.seeking id rtype create) rest := by
  have settled := settled_of_mayStep rfl may rfl
  unfold Steps
  simp only [Activity.advance, Act.lookupLocked, Act.ends_bind, Act.ends_ite, Act.ends_throw,
    Act.ends_space, Act.ends_ofExcept, Act.ends_setTable, Act.ends_pure]
  split
  · rfl
  cases found : ((m.space n).table.bucket ((m.space n).table.bucketOf id)).find? id with
  | some key =>
    have member := inOrder.books.live_of_find? settled found
    simp only [lookup_of_find? found (inOrder.books.live_pos member), Act.ends_pure]
    refine inOrder.reference member rfl rfl rfl ?_ ?_
    · simp [Activity.Fits]
    · simp [Activity.frees]
  | none =>
    simp only [lookup_of_absent found, Act.ends_pure]
    cases create with
    | false =>
      exact inOrder.keeps agrees_setTable_self.keeps rfl rfl rfl (by simp)
        (by simp [Activity.frees])
    | true =>
      refine inOrder.keeps agrees_setTable_self.keeps rfl rfl rfl ?_ (by simp [Activity.frees])
      intro b member
      obtain rfl := List.mem_singleton.mp member
      exact ⟨le_rfl, fun _ => found⟩

theorem steps_creating {seen : Nat} (inOrder : InOrder n m (.creating id rtype seen ::ₘ rest))
    (may : (Activity.creating id rtype seen).MayStep (m.space n).table rest) :
    Steps n m (.creating id rtype seen) rest := by
  have settled := settled_of_mayStep rfl may rfl
  have fits := inOrder.fits _ (Multiset.mem_cons_self _ _)
  have books := inOrder.books
  unfold Steps
  simp only [Activity.advance, Act.insertLocked, Act.newResource, Act.ends_bind, Act.ends_space,
    Act.ends_ofExcept, Act.ends_setTable, Act.ends_pure]
  generalize (m.space n).config.dumpGrantedMax.toNat = limit
  generalize made : Resource.new id rtype ((m.space n).table.bucketOf id) limit = candidate
  have named : candidate.id = id := by rw [← made]; rfl
  have once : candidate.refcount = 1 := by rw [← made]; rfl
  have filed : candidate.bucket = (m.space n).table.bucketOf id := by rw [← made]; rfl
  cases found : ((m.space n).table.bucket ((m.space n).table.bucketOf id)).find? id with
  | some key =>
    have member := books.live_of_find? settled found
    -- At the version seen the bucket held no entry of the id, so the version is another one now.
    have stale : ((m.space n).table.bucket ((m.space n).table.bucketOf id)).version ≠ seen := by
      intro same
      rw [fits.2 same.symm] at found
      cases found
    have present : ((m.space n).table.bucket ((m.space n).table.bucketOf id)).find? candidate.id =
        some key := by
      rw [named]
      exact found
    simp only [insert_of_find? stale present (books.live_pos member), Act.ends_pure]
    refine inOrder.reference member rfl rfl rfl ?_ ?_
    · simp [Activity.Fits]
    · simp [Activity.frees]
  | none =>
    have absent : ((m.space n).table.bucket ((m.space n).table.bucketOf id)).find? candidate.id =
        none := by
      rw [named]
      exact found
    obtain ⟨first, inserted⟩ := insert_of_absent absent seen
    simp only [inserted, Act.ends_pure]
    refine inOrder.retable ?_ (onward_enter (books.shaped.bucketOf_lt id)) ?_ ?_
    · have entered := books.enter absent once filed (by rw [named])
      simpa [handsOf, leavingOf, holdsOf, Activity.hands, Activity.leaving, Activity.holds,
        add_assoc] using entered
    · simp [Activity.Fits]
    · intro k
      rw [unreferenced_enter candidate once]
      simp [Activity.frees]

theorem steps_announcing {first : Bool} {bref : Nat}
    (inOrder : InOrder n m (.announcing key first bref ::ₘ rest)) :
    Steps n m (.announcing key first bref) rest := by
  unfold Steps
  simp only [Activity.advance, Act.ends_bind, Act.ends_pure]
  refine (Act.quiet_announce (n := n) first bref).ends
    (fun _ => Fault.not_isMiscount_of_not_isDisorder) fun _ m' agrees => ?_
  refine inOrder.keeps agrees.keeps rfl rfl rfl ?_ ?_
  · simp [Activity.Fits]
  · simp [Activity.frees]

theorem steps_cloning (inOrder : InOrder n m (.cloning key ::ₘ rest)) :
    Steps n m (.cloning key) rest := by
  have member : key ∈ (Activity.cloning key).hands + (handsOf rest + m.boundKeys n) :=
    Multiset.mem_add.mpr (Or.inl (Multiset.mem_singleton_self key))
  unfold Steps
  simp only [Activity.advance, Act.retain, Act.ends_bind, Act.ends_space, Act.ends_ofExcept,
    Act.ends_setTable, Act.ends_pure]
  rw [incref_of_pos (inOrder.books.live_pos member)]
  refine inOrder.reference member rfl rfl rfl ?_ ?_
  · simp [Activity.Fits]
  · simp [Activity.frees]

/-- References in a row are as many handles. -/
theorem handsOf_map_handle (keys : List ResourceKey) :
    handsOf ↑(keys.map Activity.handle) = ↑keys := by
  induction keys with
  | nil => rfl
  | cons key rest ih =>
    show handsOf (Activity.handle key ::ₘ ↑(rest.map Activity.handle)) = _
    rw [handsOf, Multiset.map_cons, Multiset.sum_cons, ← handsOf, ih]
    exact Multiset.singleton_add key _

theorem steps_listing {found : List ResourceKey}
    (inOrder : InOrder n m (.listing [] found ::ₘ rest)) : Steps n m (.listing [] found) rest := by
  unfold Steps
  simp only [Activity.advance, Act.ends_pure]
  refine inOrder.keeps Agrees.rfl.keeps (handsOf_map_handle found) ?_ ?_ ?_ ?_
  · simp [leavingOf, Function.comp_def, Activity.leaving]
  · simp [holdsOf, Function.comp_def, Activity.holds]
  · simp [Activity.Fits]
  · intro key
    simp [Function.comp_def, Activity.frees]

theorem steps_visiting {todo : List BucketKey} {found : List ResourceKey}
    (inOrder : InOrder n m (.listing (b :: todo) found ::ₘ rest))
    (may : (Activity.listing (b :: todo) found).MayStep (m.space n).table rest) :
    Steps n m (.listing (b :: todo) found) rest := by
  have books := inOrder.books
  have settled := settled_of_mayStep rfl may rfl
  have inLive := books.live_of_mem_bucket settled
  obtain ⟨t, taken, same, -, tallied⟩ := books.snapshotBucket settled
  unfold Steps
  simp only [Activity.advance, Act.snapshotBucket, Act.ends_bind, Act.ends_space,
    Act.ends_ofExcept, taken, Act.ends_setTable, Act.ends_pure]
  refine inOrder.retable ?_ same.onward ?_ ?_
  · generalize ((m.space n).table.bucket b).entries.map (·.2) = keys at tallied ⊢
    have more : handsOf ↑[Activity.listing todo (found ++ keys)] =
        (keys : Multiset ResourceKey) + (found : Multiset ResourceKey) := by
      rw [add_comm, Multiset.coe_add]
      exact add_zero _
    rw [more, add_assoc, add_assoc]
    exact tallied
  · simp [Activity.Fits]
  · intro k
    have count : (t.resource k).refcount = 0 ↔ ((m.space n).table.resource k).refcount = 0 := by
      rw [tallied.counted, books.counted, Multiset.count_eq_zero, Multiset.count_eq_zero,
        Multiset.mem_add, or_iff_right_of_imp]
      exact fun member => inLive k (Multiset.mem_coe.mp member)
    rw [unreferenced_congr same.size count, Nat.add_comm]
    simp [Activity.frees]

end InOrder

end Lockspace
