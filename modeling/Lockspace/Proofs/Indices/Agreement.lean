import Lockspace.Proofs.Indices.IndexedActs

namespace Lockspace

open Manager Act

/-- The bits of some modes together. -/
theorem testBit_foldl_bit (modes : List LockMode) (mask i : Nat) :
    (modes.foldl (fun acc m => acc ||| m.bit) mask).testBit i =
      (mask.testBit i || modes.any (·.index == i)) := by
  induction modes generalizing mask with
  | nil => simp
  | cons m rest ih =>
    have own : m.bit.testBit i = (m.index == i) := by
      rw [LockMode.bit, Nat.one_shiftLeft, Nat.testBit_two_pow]
      rfl
    rw [List.foldl_cons, ih, Nat.testBit_or, own, List.any_cons, Bool.or_assoc]

theorem LockMode.mem_all (mode : LockMode) : mode ∈ all :=
  List.mem_of_getElem? (getElem?_all_index mode)

namespace Resource

variable {res : Resource} {lockOf : LockKey → Lock} {mode : LockMode}

/-- The bit of a mode is set if some granted lock is counted under it. -/
theorem testBit_grantedModes :
    res.grantedModes.testBit mode.index = decide (0 < res.groups.get mode) := by
  rw [grantedModes, testBit_foldl_bit, Nat.zero_testBit, Bool.false_or, Bool.eq_iff_iff,
    List.any_eq_true, decide_eq_true_iff]
  constructor
  · rintro ⟨m, member, same⟩
    rw [← LockMode.index_inj (eq_of_beq same)]
    exact of_decide_eq_true (List.mem_filter.mp member).2
  · intro counted
    exact ⟨mode, List.mem_filter.mpr ⟨mode.mem_all, decide_eq_true counted⟩, beq_self_eq_true _⟩

theorem grantedModes_eq_zero (none : res.groups = .const 0) : res.grantedModes = 0 := by
  have empty : LockMode.all.filter (fun m => decide (res.groups.get m > 0)) = [] := by
    refine List.filter_eq_nil_iff.mpr fun m _ => ?_
    rw [none, PerMode.get_const]
    simp
  rw [grantedModes, empty]
  rfl

/-- Two resources of a type, with the same granted locks, count the same modes. -/
theorem grantedModes_congr {other : Resource}
    (same : ∀ mode, 0 < other.groups.get mode ↔ 0 < res.groups.get mode) :
    other.grantedModes = res.grantedModes := by
  unfold grantedModes
  refine congrArg _ (List.filter_congr fun m _ => ?_)
  simpa using same m

end Resource

namespace Manager

/-- The place of a lock among those with a range: in order of the starts, then of the stops, then of
the handles. -/
def Precedes (m : Manager) (l k : LockKey) : Prop :=
  ∃ i ∈ (m.lock l).interval? l, ∃ j ∈ (m.lock k).interval? k, i.Before j

/-- What the indices of a resource answer is what a look at its granted locks would show. -/
structure Answers (m : Manager) (r : ResourceRef) : Prop where
  /-- Where ranges are indexed, a query finds the granted locks of a mode that overlap a range. -/
  overlaps : (m.resource r).rtype = .extent → ∀ mode e l,
    l ∈ (m.resource r).overlapping mode e ↔ l ∈ m.queue r .granted ∧ (m.lock l).mode = mode ∧
      ∃ f ∈ (m.lock l).extent, f.overlaps e
  once : ∀ mode e, ((m.resource r).overlapping mode e).Nodup
  sorted : ∀ mode e, ((m.resource r).overlapping mode e).Pairwise m.Precedes
  unindexed : (m.resource r).rtype ≠ .extent → ∀ mode e, (m.resource r).overlapping mode e = []
  /-- Where modes are counted, those of granted locks are found, and no others. -/
  modes : (m.resource r).rtype = .plain ∨ (m.resource r).rtype = .ibits → ∀ mode,
    (m.resource r).grantedModes.testBit mode.index ↔
      ∃ l ∈ m.queue r .granted, (m.lock l).mode = mode
  uncounted : (m.resource r).rtype = .extent ∨ (m.resource r).rtype = .flock →
    (m.resource r).grantedModes = 0

/-- Two resources of one type with the same granted locks, be it in another order and whatever else
is queued on them. -/
structure LikeGranted (m : Manager) (r : ResourceRef) (m' : Manager) (r' : ResourceRef) : Prop where
  rtype : (m'.resource r').rtype = (m.resource r).rtype
  granted : ∀ l, l ∈ m'.queue r' .granted ↔ l ∈ m.queue r .granted
  mode : ∀ l ∈ m.queue r .granted, (m'.lock l).mode = (m.lock l).mode
  extent : ∀ l ∈ m.queue r .granted, (m'.lock l).extent = (m.lock l).extent
  handle : ∀ l ∈ m.queue r .granted, (m'.lock l).handle = (m.lock l).handle

/-- No call that moves a lock finds its mode uncounted. -/
structure NeverUnderflows (m : Manager) : Prop where
  added : ∀ r q l, (addLock r q l).Leaves m fun answer _ => CountsModes answer
  inserted : ∀ r anchor l, (insertAfter r anchor l).Leaves m fun answer _ => CountsModes answer
  unlinked : ∀ r l, (unlink r l).Leaves m fun answer _ => CountsModes answer
  destroyed : ∀ n l, (destroyLock n l).Leaves m fun answer _ => CountsModes answer

variable {apart : Prop} {m m' : Manager} {r r' : ResourceRef} {mode : LockMode} {e : Extent}
  {l : LockKey} {ix : IntervalIndex}

namespace Indexed

theorem intervals_eq_none (indexed : m.Indexed apart) (other : (m.resource r).rtype ≠ .extent) :
    (m.resource r).intervals = none := by
  have kind := (indexed.each r).kind
  cases type : (m.resource r).rtype with
  | extent => exact absurd type other
  | _ =>
    rw [type] at kind
    exact Option.isSome_eq_false_iff.mp kind |> Option.isNone_iff_eq_none.mp

theorem exists_intervals (indexed : m.Indexed apart) (type : (m.resource r).rtype = .extent) :
    ∃ ix, (m.resource r).intervals = some ix := by
  have kind := (indexed.each r).kind
  rw [type] at kind
  exact Option.isSome_iff_exists.mp kind

theorem overlapping_eq (indexed : m.Indexed apart) (held : (m.resource r).intervals = some ix) :
    (m.resource r).overlapping mode e =
      ((ix.trees.get mode).filter (·.extent.overlaps e)).map (·.lock) := by
  rw [Resource.overlapping, held]
  exact IntervalIndex.overlapping_eq ((indexed.each r).sorted ix held mode) e

theorem sorted (indexed : m.Indexed apart) (told : apart) :
    ((m.resource r).overlapping mode e).Pairwise m.Precedes := by
  cases held : (m.resource r).intervals with
  | none =>
    rw [Resource.overlapping, held]
    exact .nil
  | some ix =>
    rw [indexed.overlapping_eq held, List.pairwise_map]
    refine List.Pairwise.imp_of_mem (fun {i j} inside there before => ?_)
      (((indexed.each r).sorted ix held mode).filter _)
    have first := ((indexed.each r).listed told ix held mode i).mp (List.mem_filter.mp inside).1
    have second := ((indexed.each r).listed told ix held mode j).mp (List.mem_filter.mp there).1
    exact ⟨i, first.2.2, j, second.2.2, before⟩

theorem counted (indexed : m.Indexed apart)
    (type : (m.resource r).rtype = .plain ∨ (m.resource r).rtype = .ibits) :
    0 < (m.resource r).groups.get mode ↔ ∃ l ∈ m.queue r .granted, (m.lock l).mode = mode := by
  have none : (m.resource r).intervals = none := by
    refine indexed.intervals_eq_none ?_
    rcases type with type | type
    · simp [type]
    · simp [type]
  have counts : (m.resource r).rtype.hasModeGroups := by
    rcases type with type | type
    · rw [type]
      rfl
    · rw [type]
      rfl
  rw [(indexed.each r).grouped none counts, List.countP_pos_iff]
  simp only [decide_eq_true_eq]
  rfl

theorem uncounted (indexed : m.Indexed apart)
    (type : (m.resource r).rtype = .extent ∨ (m.resource r).rtype = .flock) :
    (m.resource r).groups = .const 0 := by
  refine (indexed.each r).uncounted ?_
  rcases type with type | type
  · rw [type]
    rfl
  · rw [type]
    rfl

theorem answers (indexed : m.Indexed apart) (told : apart) (r : ResourceRef) : m.Answers r where
  overlaps type mode e l := by
    obtain ⟨ix, held⟩ := indexed.exists_intervals type
    have listed := (indexed.each r).listed told ix held mode
    rw [indexed.overlapping_eq held, List.mem_map]
    constructor
    · rintro ⟨i, inside, rfl⟩
      obtain ⟨inside, overlaps⟩ := List.mem_filter.mp inside
      obtain ⟨granted, same, whole⟩ := (listed i).mp inside
      exact ⟨granted, same, i.extent, (Lock.interval?_eq_some.mp whole).1, overlaps⟩
    · rintro ⟨granted, same, f, extent, overlaps⟩
      have whole : (m.lock l).interval? l = some ⟨f, (m.lock l).handle.cookie, l⟩ :=
        Lock.interval?_eq_some.mpr ⟨extent, rfl, rfl⟩
      refine ⟨⟨f, (m.lock l).handle.cookie, l⟩, List.mem_filter.mpr ⟨?_, overlaps⟩, rfl⟩
      exact (listed _).mpr ⟨granted, same, whole⟩
  once mode e := by
    refine (indexed.sorted told).imp fun {l k} before (same : l = k) => ?_
    subst same
    obtain ⟨i, own, j, again, before⟩ := before
    obtain rfl : i = j := Option.some.inj (own.symm.trans again)
    exact Interval.not_before_of_key_eq rfl before
  sorted _ _ := indexed.sorted told
  unindexed other mode e := by rw [Resource.overlapping, indexed.intervals_eq_none other]
  modes type mode := by
    rw [Resource.testBit_grantedModes, decide_eq_true_iff]
    exact indexed.counted type
  uncounted type := Resource.grantedModes_eq_zero (indexed.uncounted type)

/-- Nothing but the granted locks of a resource has a part in the answers. -/
theorem determined (indexed : m.Indexed apart) (again : m'.Indexed apart) (told : apart)
    (like : LikeGranted m r m' r') :
    (m'.resource r').grantedModes = (m.resource r).grantedModes ∧
      ∀ mode e, (m'.resource r').overlapping mode e = (m.resource r).overlapping mode e := by
  have modes (type : (m.resource r).rtype = .plain ∨ (m.resource r).rtype = .ibits) :
      (m'.resource r').grantedModes = (m.resource r).grantedModes := by
    refine Resource.grantedModes_congr fun mode => ?_
    rw [again.counted (like.rtype ▸ type), indexed.counted type]
    constructor
    · rintro ⟨l, member, same⟩
      have old := (like.granted l).mp member
      exact ⟨l, old, (like.mode l old).symm.trans same⟩
    · rintro ⟨l, member, same⟩
      exact ⟨l, (like.granted l).mpr member, (like.mode l member).trans same⟩
  have none (type : (m.resource r).rtype = .extent ∨ (m.resource r).rtype = .flock) :
      (m'.resource r').grantedModes = (m.resource r).grantedModes := by
    rw [(again.answers told r').uncounted (like.rtype ▸ type),
      (indexed.answers told r).uncounted type]
  have unindexed (other : (m.resource r).rtype ≠ .extent) (mode : LockMode) (e : Extent) :
      (m'.resource r').overlapping mode e = (m.resource r).overlapping mode e := by
    rw [(again.answers told r').unindexed (like.rtype ▸ other),
      (indexed.answers told r).unindexed other]
  cases type : (m.resource r).rtype with
  | plain => exact ⟨modes (Or.inl type), unindexed (by simp [type])⟩
  | ibits => exact ⟨modes (Or.inr type), unindexed (by simp [type])⟩
  | flock => exact ⟨none (Or.inr type), unindexed (by simp [type])⟩
  | extent =>
    refine ⟨none (Or.inl type), fun mode e => ?_⟩
    obtain ⟨ix, held⟩ := indexed.exists_intervals type
    obtain ⟨ix', held'⟩ := again.exists_intervals (like.rtype.trans type)
    have same : ix'.trees.get mode = ix.trees.get mode := by
      refine sorted_unique ((again.each r').sorted ix' held' mode)
        ((indexed.each r).sorted ix held mode) fun i => ?_
      rw [(again.each r').listed told ix' held', (indexed.each r).listed told ix held]
      have members : i.lock ∈ (m'.resource r').queues.get .granted ↔
          i.lock ∈ (m.resource r).queues.get .granted := like.granted i.lock
      rw [members]
      refine and_congr_right fun member => ?_
      rw [Lock.interval?, Lock.interval?, like.mode _ member, like.extent _ member,
        like.handle _ member]
    rw [again.overlapping_eq held', indexed.overlapping_eq held, same]

theorem neverUnderflows (indexed : m.Indexed apart) : m.NeverUnderflows where
  added r q l := by
    cases gone : (m.lock l).isDestroyed with
    | true => exact leaves_of_run (addLock_of_destroyed gone) nofun
    | false =>
      cases link : (m.lock l).link with
      | none => exact leaves_of_run (addLock_of_free gone link) nofun
      | some on => exact (addLock_of_linked gone link).leaves fun _ _ _ => nofun
  inserted r anchor l := by
    cases there : (m.lock anchor).link with
    | none => exact (insertAfter_of_free_anchor there).leaves fun _ _ _ => nofun
    | some q =>
      by_cases member : anchor ∈ m.queue r q
      · rw [leaves_congr (insertAfter_eq there member)]
        cases gone : (m.lock l).isDestroyed with
        | true => exact leaves_after (claimLink_of_destroyed gone) nofun
        | false =>
          cases link : (m.lock l).link with
          | none => exact leaves_of_run (enqueue_of_free gone link _) nofun
          | some on =>
            exact ((claimLink_of_linked gone link).bind _).leaves fun _ _ _ => nofun
      · exact (insertAfter_of_anchor_elsewhere there member).leaves fun _ _ _ => nofun
  unlinked r l := countsModes_unlink indexed
  destroyed n l := by
    have marks : ∀ m : Manager, (markDestroyed l).Leaves m fun answer _ => CountsModes answer :=
      fun m => leaves_of_run (show markDestroyed l m = .ok _ _ from rfl) nofun
    have leaves : (unlinkAndMark l).Leaves m fun answer _ => CountsModes answer := by
      refine leaves_after (run_homeOf_eq l m) ?_
      split
      · exact (countsModes_unlink indexed).bind (fun _ m₁ _ => marks m₁)
          fun _ _ => CountsModes.error
      · exact marks m
    refine leaves.bind (fun first m₁ _ => ?_) fun _ _ => CountsModes.error
    split
    · exact (onlyReleases_lockReused.discard.bind fun _ => onlyReleases_dropBound).leaves m₁
    · exact nofun

end Indexed

end Manager

namespace QueueCall

/-- Whether a call leaves the queue, the mode, the range and the handle of every lock alone, unless it
moves locks. All but the queue are settled when a lock is made. -/
def Fixes (m : Manager) : QueueCall → Prop
  | alter l f => (f (m.lock l)).entry = (m.lock l).entry
  | _ => True

end QueueCall

/-- The runs of calls about resources and locks, from no namespace at all. Whatever is called, and
even if it ends in a fault, others may follow. -/
inductive Indexing : Manager → Prop
  | start : Indexing {}
  | call {m m' : Manager} {c : QueueCall} {hands hands' : Multiset ResourceRef}
      (reach : Indexing m) (fixes : c.Fixes m) (run : c.perform hands m = .ok hands' m') :
      Indexing m'
  | failed {m m' : Manager} {c : QueueCall} {hands : Multiset ResourceRef} {fault : Fault}
      (reach : Indexing m) (fixes : c.Fixes m) (run : c.perform hands m = .error fault m') :
      Indexing m'

/-- Whatever call is made, the indices go on to agree with the queues. -/
theorem QueueCall.keepsIndices {apart : Prop} {m : Manager} {c : QueueCall} (fixes : c.Fixes m)
    (hands : Multiset ResourceRef) :
    (c.perform hands).Leaves m fun _ m' => KeepsIndices apart m m' := by
  refine indices_calls.perform c fun l f same => ?_
  subst same
  exact keepsIndices_modifyLock l fixes

/-- Indices and queues of a state agree. What the indices of a resource answer is what a look at its
granted locks would show, and depends on nothing but them: where the granted locks are alike, locks
that convert or wait make no difference. No count of modes underflows. -/
structure Manager.Agreement (m : Manager) : Prop where
  answers : ∀ r, m.Answers r
  determined : ∀ m' r r', Indexing m' → m'.DistinctHandles → LikeGranted m r m' r' →
    (m'.resource r').grantedModes = (m.resource r).grantedModes ∧
      ∀ mode e, (m'.resource r').overlapping mode e = (m.resource r).overlapping mode e
  counts : m.NeverUnderflows

namespace Indexing

variable {m m' : Manager} {hands hands' : Multiset ResourceRef} {calls : List QueueCall}

/-- No lock ever gets another handle, so those of a run are distinct all along if they are so in the
end. -/
theorem indexed (reach : Indexing m) (distinct : m.DistinctHandles) : m.Indexed True := by
  induction reach with
  | start => exact .start
  | call _ fixes run ih =>
    exact ((QueueCall.keepsIndices fixes _).of_ok run).indexed_of_distinct ih distinct
  | failed _ fixes run ih =>
    exact ((QueueCall.keepsIndices fixes _).of_error run).indexed_of_distinct ih distinct

/-- In every run of calls, the indices agree with the queues. -/
theorem agreement (reach : Indexing m) (distinct : m.DistinctHandles) : m.Agreement where
  answers := (reach.indexed distinct).answers trivial
  determined _ _ _ again apart like :=
    (reach.indexed distinct).determined (again.indexed apart) trivial like
  counts := (reach.indexed distinct).neverUnderflows

theorem all (reach : Indexing m) (fixes : ∀ c ∈ calls, ∀ m : Manager, c.Fixes m)
    (run : calls.foldlM QueueCall.perform hands m = .ok hands' m') : Indexing m' := by
  induction calls generalizing hands m with
  | nil =>
    cases run
    exact reach
  | cons c rest ih =>
    obtain ⟨given, m₁, once, more⟩ := ok_of_bind run
    exact ih (reach.call (fixes c (List.mem_cons_self ..) m) once)
      (fun c member => fixes c (List.mem_cons_of_mem _ member)) more

theorem exists_of_calls (calls : List QueueCall) (fixes : ∀ c ∈ calls, ∀ m : Manager, c.Fixes m)
    (holds : Manager → Prop) (seen : (calls.foldlM QueueCall.perform 0).Leaves {} fun answer m =>
      answer.isOk ∧ holds m) : ∃ m, Indexing m ∧ holds m := by
  obtain ⟨hands, m, run, found⟩ := seen.exists_run
  exact ⟨m, Indexing.start.all fixes run, found⟩

/-- Of four granted locks three overlap a range, one of them with a range of its own that stops
before it starts. Two have the same range, and are found in the order of their handles, in which
they were not made. A lock that waits is not found. -/
theorem agreement_of_five_ranges : ∃ m, Indexing m ∧ m.DistinctHandles ∧
    (m.resource ⟨⟨0⟩, ⟨0⟩⟩).overlapping .pr ⟨8, 25⟩ = [⟨2⟩, ⟨1⟩, ⟨0⟩] ∧ m.Agreement := by
  obtain ⟨m, reach, distinct, found⟩ := exists_of_calls
    [.build .oneBucket, .get ⟨0⟩ ⟨1, 2, 0, 0⟩ .extent true, .newLock ⟨7⟩ .pr (some ⟨20, 10⟩),
      .newLock ⟨9⟩ .pr (some ⟨0, 9⟩), .newLock ⟨4⟩ .pr (some ⟨0, 9⟩),
      .newLock ⟨3⟩ .pr (some ⟨26, 30⟩), .newLock ⟨1⟩ .pr (some ⟨0, 99⟩),
      .add ⟨⟨0⟩, ⟨0⟩⟩ .granted ⟨0⟩, .add ⟨⟨0⟩, ⟨0⟩⟩ .granted ⟨1⟩,
      .insertAfter ⟨⟨0⟩, ⟨0⟩⟩ ⟨0⟩ ⟨3⟩, .add ⟨⟨0⟩, ⟨0⟩⟩ .granted ⟨2⟩,
      .add ⟨⟨0⟩, ⟨0⟩⟩ .waiting ⟨4⟩]
    (by simp [QueueCall.Fixes])
    (fun m => m.DistinctHandles ∧
      (m.resource ⟨⟨0⟩, ⟨0⟩⟩).overlapping .pr ⟨8, 25⟩ = [⟨2⟩, ⟨1⟩, ⟨0⟩])
    (by decide +kernel)
  exact ⟨m, reach, distinct, found, reach.agreement distinct⟩

end Indexing

end Lockspace
