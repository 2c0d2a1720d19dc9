import Lockspace.Proofs.Indices.SortedIntervals
import Lockspace.Proofs.Lined

namespace Lockspace

theorem Lock.interval?_congr {lk lk' : Lock} (same : lk'.entry = lk.entry) (l : LockKey) :
    lk'.interval? l = lk.interval? l := by
  have extent : lk'.extent = lk.extent := congrArg (·.2.2.1) same
  have handle : lk'.handle = lk.handle := congrArg (·.2.2.2) same
  rw [interval?, interval?, extent, handle]

namespace Resource

/-- The queues of a resource are in order, and its indices say what the granted one says: where
ranges are indexed, the granted locks that have one are listed by mode, in the order of ranges and
handles, and modes are counted on no other resources than those that count them. All granted locks
are listed only if their handles tell them apart. -/
structure Indexed (apart : Prop) (res : Resource) (lockOf : LockKey → Lock) : Prop
    extends res.Lined lockOf where
  kind : res.intervals.isSome = res.rtype.hasIntervalIndex
  sorted : ∀ ix ∈ res.intervals, ∀ mode, (ix.trees.get mode).Pairwise Interval.Before
  listed : apart → ∀ ix ∈ res.intervals, ∀ mode i, i ∈ ix.trees.get mode ↔
    i.lock ∈ res.queues.get .granted ∧ (lockOf i.lock).mode = mode ∧
      (lockOf i.lock).interval? i.lock = some i
  uncounted : res.rtype.hasModeGroups = false → res.groups = .const 0

/-- A lock is told apart by its handle from those granted on a resource, itself among them. -/
def Sole (res : Resource) (lockOf : LockKey → Lock) (l : LockKey) : Prop :=
  ∀ k ∈ res.queues.get .granted, (lockOf k).handle = (lockOf l).handle → k = l

variable {apart : Prop} {res res' : Resource} {lockOf lockOf' : LockKey → Lock} {l : LockKey}
  {lk : Lock} {q : Queue} {locks : List LockKey}

/-- Who is granted and has the place of such a lock in the index is that lock. -/
theorem Sole.lock_eq {i j : Interval} (sole : res.Sole lockOf l)
    (member : j.lock ∈ res.queues.get .granted) (there : (lockOf j.lock).interval? j.lock = some j)
    (here : (lockOf l).interval? l = some i) (same : i.key = j.key) : j.lock = l := by
  obtain ⟨-, cookie, -⟩ := Lock.interval?_eq_some.mp there
  obtain ⟨-, own, -⟩ := Lock.interval?_eq_some.mp here
  have equal : i.cookie = j.cookie := congrArg (·.2) same
  exact sole j.lock member (congrArg LockHandle.mk (cookie.trans (equal.symm.trans own.symm)))

theorem indexed_of_empty (queues : res.queues = {}) (unqueued : res.queued = 0)
    (groups : res.groups = .const 0)
    (intervals : res.intervals = if res.rtype.hasIntervalIndex then some {} else none) :
    res.Indexed apart lockOf := by
  have tree : ∀ ix ∈ res.intervals, ∀ mode, ix.trees.get mode = [] := by
    intro ix given mode
    rw [intervals] at given
    split at given
    · cases given
      exact PerMode.get_const [] mode
    · cases given
  refine ⟨lined_of_empty queues unqueued groups, ?_, fun ix given mode => ?_,
    fun _ ix given mode i => ?_, fun _ => groups⟩
  · rw [intervals]
    cases res.rtype.hasIntervalIndex <;> rfl
  · rw [tree ix given]
    exact .nil
  · rw [tree ix given, queues]
    exact ⟨nofun, fun inside => nomatch inside.1⟩

theorem Indexed.recounted (indexed : res.Indexed apart lockOf) (count : Nat) :
    ({ res with refcount := count } : Resource).Indexed apart lockOf :=
  ⟨indexed.toLined.recounted count, indexed.kind, indexed.sorted, indexed.listed,
    indexed.uncounted⟩

/-- Locks that are on no queue of a resource do not matter to it. -/
theorem Indexed.others (indexed : res.Indexed apart lockOf)
    (same : ∀ q, ∀ l ∈ res.queues.get q, (lockOf' l).entry = (lockOf l).entry) :
    res.Indexed apart lockOf' := by
  refine ⟨indexed.toLined.others fun q l member => ?_, indexed.kind, indexed.sorted,
    fun told ix given mode i => ?_, indexed.uncounted⟩
  · exact ⟨congrArg (·.1) (same q l member), congrArg (·.2.1) (same q l member)⟩
  · rw [indexed.listed told ix given]
    refine and_congr_right fun member => ?_
    have own := same .granted i.lock member
    have mode : (lockOf' i.lock).mode = (lockOf i.lock).mode := congrArg (·.2.1) own
    rw [mode, Lock.interval?_congr own]

theorem intervals_indexGranted : (res.indexGranted l lk).intervals =
    res.intervals.map (·.insert l lk) := by
  unfold indexGranted
  split
  · rename_i ix intervals
    rw [intervals]
    rfl
  · rename_i intervals
    split
    · rw [intervals]
      rfl
    · rw [intervals]
      rfl

theorem intervals_joined : (res.joined l lk q locks).intervals =
    if q = .granted then res.intervals.map (·.insert l lk) else res.intervals := by
  unfold joined
  split
  · rw [intervals_indexGranted]
  · rfl

theorem rtype_joined : (res.joined l lk q locks).rtype = res.rtype := by
  unfold joined
  split
  · exact rtype_indexGranted
  · rfl

theorem groups_joined (uncounted : res.rtype.hasModeGroups = false) :
    (res.joined l lk q locks).groups = res.groups := by
  unfold joined indexGranted
  split
  · dsimp only
    split
    · rfl
    · rw [uncounted]
      rfl
  · rfl

/-- A lock that was on no queue joins one. Only a granted one is indexed, and no other lock has its
place there. -/
theorem Indexed.joined (indexed : res.Indexed apart lockOf) (away : ∀ p, l ∉ res.queues.get p)
    (sole : apart → res.Sole lockOf' l) (order : locks.Perm (l :: res.queues.get q))
    (others : ∀ k, k ≠ l → (lockOf' k).entry = (lockOf k).entry)
    (own : (lockOf' l).entry = lk.entry) (link : lk.link = some q) :
    (res.joined l lk q locks).Indexed apart lockOf' := by
  have before : res.Indexed apart lockOf' := indexed.others fun p k member =>
    others k fun same => away p (same ▸ member)
  have mode : (lockOf' l).mode = lk.mode := congrArg (·.2.1) own
  have interval : (lockOf' l).interval? l = lk.interval? l := Lock.interval?_congr own l
  have absent (told : apart) : ∀ ix ∈ res.intervals, ∀ i ∈ lk.interval? l,
      ∀ j ∈ ix.trees.get lk.mode, i.key ≠ j.key := by
    intro ix given i here j there same
    obtain ⟨member, -, whole⟩ := (before.listed told ix given _ j).mp there
    have equal := (sole told).lock_eq member whole (interval.trans here) same
    exact away .granted (equal ▸ member)
  refine ⟨before.toLined.joined away order (fun _ _ => ⟨rfl, rfl⟩) ?_ mode, ?_, ?_, ?_, ?_⟩
  · exact (congrArg (·.1) own).trans link
  · rw [intervals_joined, rtype_joined, ← before.kind]
    split
    · exact Option.isSome_map
    · rfl
  · intro ix given m
    rw [intervals_joined] at given
    split at given
    · obtain ⟨old, held, rfl⟩ := Option.mem_map.mp given
      exact IntervalIndex.sorted_insert (before.sorted old held)
    · exact before.sorted ix given m
  · intro told ix given m i
    rw [intervals_joined] at given
    rw [get_queues_joined]
    split at given
    · rename_i granted
      obtain ⟨old, held, rfl⟩ := Option.mem_map.mp given
      rw [IntervalIndex.mem_insert (absent told old held), before.listed told old held,
        if_pos granted.symm, order.mem_iff, List.mem_cons, granted]
      constructor
      · rintro (⟨member, rest⟩ | ⟨same, whole⟩)
        · exact ⟨Or.inr member, rest⟩
        · obtain ⟨-, -, rfl⟩ := Lock.interval?_eq_some.mp whole
          exact ⟨Or.inl rfl, mode.trans same, interval.trans whole⟩
      · rintro ⟨rfl | member, same, whole⟩
        · exact Or.inr ⟨mode.symm.trans same, interval.symm.trans whole⟩
        · exact Or.inl ⟨member, same, whole⟩
    · rename_i elsewhere
      rw [if_neg (Ne.symm elsewhere)]
      exact before.listed told ix given m i
  · intro uncounted
    rw [rtype_joined] at uncounted
    rw [groups_joined uncounted]
    exact before.uncounted uncounted

theorem unindexGranted_indices (ok : res.unindexGranted l lk = .ok res') :
    res'.rtype = res.rtype ∧ res'.intervals = res.intervals.map (·.remove l lk) ∧
      (res.rtype.hasModeGroups = false → res'.groups = res.groups) := by
  unfold unindexGranted at ok
  split at ok
  · rename_i ix intervals
    cases ok
    exact ⟨rfl, by rw [intervals]; rfl, fun _ => rfl⟩
  rename_i intervals
  split at ok
  · rename_i counted
    split at ok
    · cases ok
    · cases ok
      exact ⟨rfl, by simp [intervals], fun uncounted => by simp [counted] at uncounted⟩
  · cases ok
    exact ⟨rfl, by rw [intervals]; rfl, fun _ => rfl⟩

/-- What the departure of a lock does to the indices: a granted one leaves them. -/
theorem departed_indices (ok : res.departed l lk q = .ok res') :
    res'.rtype = res.rtype ∧
      res'.intervals = (if q = .granted then res.intervals.map (·.remove l lk)
        else res.intervals) ∧
      (res.rtype.hasModeGroups = false → res'.groups = res.groups) := by
  rw [departed_eq] at ok
  split at ok
  · rename_i granted
    rw [if_pos granted]
    cases left : res.unindexGranted l lk with
    | error fault =>
      rw [left] at ok
      cases ok
    | ok mid =>
      obtain ⟨rtype, intervals, groups⟩ := unindexGranted_indices left
      rw [left] at ok
      cases ok
      exact ⟨rtype, intervals, groups⟩
  · rename_i elsewhere
    cases ok
    exact ⟨rfl, (if_neg elsewhere).symm, fun _ => rfl⟩

/-- Out of the index with a granted lock goes its own interval and no other. -/
theorem Indexed.mem_remove {ix : IntervalIndex} {mode : LockMode} {i : Interval}
    (indexed : res.Indexed apart lockOf) (told : apart) (sole : res.Sole lockOf l)
    (held : res.intervals = some ix) : i ∈ (ix.remove l (lockOf l)).trees.get mode ↔
      i ∈ ix.trees.get mode ∧ i.lock ≠ l := by
  rw [IntervalIndex.mem_remove]
  refine and_congr_right fun inside => ?_
  obtain ⟨member, same, whole⟩ := (indexed.listed told ix held mode i).mp inside
  constructor
  · rintro kept rfl
    exact kept same i whole rfl
  · exact fun other _ j own keys => other (sole.lock_eq member whole own keys)

/-- A lock on a queue can leave it, and its mode is found counted where modes are. -/
theorem Indexed.departed (indexed : res.Indexed apart lockOf) (member : l ∈ res.queues.get q)
    (sole : apart → res.Sole lockOf l)
    (others : ∀ k, k ≠ l → (lockOf' k).entry = (lockOf k).entry) :
    ∃ res', res.departed l (lockOf l) q = .ok res' ∧ res'.Indexed apart lockOf' := by
  obtain ⟨res', left, lined, queues⟩ := indexed.toLined.departed member fun k other =>
    ⟨congrArg (·.1) (others k other), congrArg (·.2.1) (others k other)⟩
  obtain ⟨rtype, intervals, groups⟩ := departed_indices left
  refine ⟨res', left, lined, ?_, ?_, ?_, ?_⟩
  · rw [intervals, rtype, ← indexed.kind]
    split
    · exact Option.isSome_map
    · rfl
  · intro ix given m
    rw [intervals] at given
    split at given
    · obtain ⟨old, held, rfl⟩ := Option.mem_map.mp given
      exact IntervalIndex.sorted_remove (indexed.sorted old held)
    · exact indexed.sorted ix given m
  · intro told ix given m i
    rw [intervals] at given
    have still (other : i.lock ≠ l) : ((lockOf' i.lock).mode = m ∧
        (lockOf' i.lock).interval? i.lock = some i ↔
        (lockOf i.lock).mode = m ∧ (lockOf i.lock).interval? i.lock = some i) := by
      have mode : (lockOf' i.lock).mode = (lockOf i.lock).mode :=
        congrArg (·.2.1) (others _ other)
      rw [mode, Lock.interval?_congr (others _ other)]
    have gone : i.lock ∈ res'.queues.get .granted ↔ i.lock ∈ res.queues.get .granted ∧
        i.lock ≠ l := by
      constructor
      · intro inside
        rw [queues] at inside
        exact indexed.toLined.mem_left member inside
      · rintro ⟨inside, other⟩
        rw [queues, LockQueues.get_set]
        split
        · rename_i here
          exact (List.mem_erase_of_ne other).mpr (here ▸ inside)
        · exact inside
    rw [gone]
    split at given
    · obtain ⟨old, held, rfl⟩ := Option.mem_map.mp given
      rw [indexed.mem_remove told (sole told) held, indexed.listed told old held]
      constructor
      · rintro ⟨⟨inside, rest⟩, other⟩
        exact ⟨⟨inside, other⟩, (still other).mpr rest⟩
      · rintro ⟨⟨inside, other⟩, rest⟩
        exact ⟨⟨inside, (still other).mp rest⟩, other⟩
    · rename_i elsewhere
      rw [indexed.listed told ix given]
      constructor
      · rintro ⟨inside, rest⟩
        have other : i.lock ≠ l := fun here =>
          elsewhere (indexed.toLined.queue_eq (here ▸ inside) member)
        exact ⟨⟨inside, other⟩, (still other).mpr rest⟩
      · rintro ⟨⟨inside, other⟩, rest⟩
        exact ⟨inside, (still other).mp rest⟩
  · intro uncounted
    rw [rtype] at uncounted
    rw [groups uncounted]
    exact indexed.uncounted uncounted

end Resource

end Lockspace
