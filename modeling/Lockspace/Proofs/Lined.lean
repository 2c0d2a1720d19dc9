import Lockspace.Proofs.Unlinking
import Mathlib.Data.List.Perm.Basic

namespace Lockspace

/-- A list with one more element behind another is a permutation of the list with it in front. -/
theorem insertBehind_perm {anchor l : LockKey} {queue : List LockKey} (member : anchor ∈ queue) :
    (insertBehind anchor l queue).Perm (l :: queue) := by
  induction queue with
  | nil => cases member
  | cons k rest ih =>
    unfold insertBehind
    by_cases here : k = anchor
    · rw [if_pos (by simpa using here)]
      exact .swap ..
    · rw [if_neg (by simpa using here)]
      have later := (List.mem_cons.mp member).resolve_left (Ne.symm here)
      exact ((ih later).cons k).trans (.swap ..)

/-- What queues and indices go by of a lock: the queue that it is on, its mode, its range and its
handle. -/
def Lock.entry (lk : Lock) : Option Queue × LockMode × Option Extent × LockHandle :=
  (lk.link, lk.mode, lk.extent, lk.handle)

namespace Resource

/-- The queues of a resource are in order: every lock on one of them says so, no lock is on a queue
twice, and the locks are counted, the granted ones by mode where modes are counted. -/
structure Lined (res : Resource) (lockOf : LockKey → Lock) : Prop where
  link : ∀ q, ∀ l ∈ res.queues.get q, (lockOf l).link = some q
  nodup : ∀ q, (res.queues.get q).Nodup
  total : res.queued = (res.queues.get .granted).length + (res.queues.get .converting).length +
    (res.queues.get .waiting).length
  grouped : res.intervals = none → res.rtype.hasModeGroups → ∀ mode,
    res.groups.get mode = (res.queues.get .granted).countP fun l => (lockOf l).mode = mode

variable {res res' : Resource} {lockOf lockOf' : LockKey → Lock} {l : LockKey} {lk : Lock}
  {q : Queue} {locks : List LockKey}

theorem lined_of_empty (queues : res.queues = {}) (none : res.queued = 0)
    (groups : res.groups = .const 0) : res.Lined lockOf := by
  have empty : ∀ q, res.queues.get q = [] := by
    intro q
    rw [queues]
    cases q <;> rfl
  refine ⟨?_, ?_, ?_, ?_⟩
  · intro q l member
    rw [empty] at member
    cases member
  · intro q
    rw [empty]
    exact List.nodup_nil
  · simp only [empty, none, List.length_nil]
  · intro _ _ mode
    rw [groups, empty, PerMode.get_const, List.countP_nil]

theorem Lined.recounted (lined : res.Lined lockOf) (count : Nat) :
    ({ res with refcount := count } : Resource).Lined lockOf :=
  ⟨lined.link, lined.nodup, lined.total, lined.grouped⟩

/-- Locks that are on no queue of a resource do not matter to it. -/
theorem Lined.others (lined : res.Lined lockOf)
    (same : ∀ q, ∀ l ∈ res.queues.get q,
      (lockOf' l).link = (lockOf l).link ∧ (lockOf' l).mode = (lockOf l).mode) :
    res.Lined lockOf' := by
  refine ⟨?_, lined.nodup, lined.total, ?_⟩
  · intro q l member
    rw [(same q l member).1]
    exact lined.link q l member
  · intro plain counted mode
    rw [lined.grouped plain counted]
    refine List.countP_congr fun l member => ?_
    rw [(same .granted l member).2]

/-- A lock is on one queue of a resource at most. -/
theorem Lined.queue_eq (lined : res.Lined lockOf) {p : Queue} (here : l ∈ res.queues.get q)
    (there : l ∈ res.queues.get p) : p = q :=
  Option.some.inj ((lined.link p l there).symm.trans (lined.link q l here))

theorem queues_indexGranted : (res.indexGranted l lk).queues = res.queues := by
  unfold indexGranted
  split
  · rfl
  split <;> rfl

theorem queued_indexGranted : (res.indexGranted l lk).queued = res.queued := by
  unfold indexGranted
  split
  · rfl
  split <;> rfl

theorem rtype_indexGranted : (res.indexGranted l lk).rtype = res.rtype := by
  unfold indexGranted
  split
  · rfl
  split <;> rfl

theorem intervals_of_indexGranted (plain : (res.indexGranted l lk).intervals = none) :
    res.intervals = none := by
  unfold indexGranted at plain
  split at plain
  · cases plain
  · assumption

theorem groups_indexGranted (plain : res.intervals = none) (counted : res.rtype.hasModeGroups) :
    (res.indexGranted l lk).groups = res.groups.set lk.mode (res.groups.get lk.mode + 1) := by
  simp only [indexGranted, plain, counted, if_true]

theorem get_queues_joined (p : Queue) :
    (res.joined l lk q locks).queues.get p = if p = q then locks else res.queues.get p := by
  unfold joined
  split
  · rw [queues_indexGranted, LockQueues.get_set]
  · rw [LockQueues.get_set]

theorem indexGranted_keeps (res : Resource) : (res.indexGranted l lk).id = res.id ∧
    (res.indexGranted l lk).bucket = res.bucket ∧
    (res.indexGranted l lk).refcount = res.refcount := by
  unfold indexGranted
  split
  · exact ⟨rfl, rfl, rfl⟩
  split
  · exact ⟨rfl, rfl, rfl⟩
  · exact ⟨rfl, rfl, rfl⟩

/-- A resource that a lock joins keeps its id, its bucket and its references. -/
theorem joined_keeps (res : Resource) (l : LockKey) (lk : Lock) (q : Queue)
    (locks : List LockKey) : (res.joined l lk q locks).id = res.id ∧
    (res.joined l lk q locks).bucket = res.bucket ∧
    (res.joined l lk q locks).refcount = res.refcount := by
  unfold joined
  split
  · exact indexGranted_keeps _
  · exact ⟨rfl, rfl, rfl⟩

theorem queued_joined : (res.joined l lk q locks).queued = res.queued + 1 := by
  unfold joined
  split
  · rw [queued_indexGranted]
  · rfl

/-- A lock that was on no queue joins one. -/
theorem Lined.joined (lined : res.Lined lockOf) (apart : ∀ p, l ∉ res.queues.get p)
    (order : locks.Perm (l :: res.queues.get q))
    (others : ∀ k, k ≠ l →
      (lockOf' k).link = (lockOf k).link ∧ (lockOf' k).mode = (lockOf k).mode)
    (link : (lockOf' l).link = some q) (mode : (lockOf' l).mode = lk.mode) :
    (res.joined l lk q locks).Lined lockOf' := by
  have before : res.Lined lockOf' := lined.others fun p k member =>
    others k fun same => apart p (same ▸ member)
  refine ⟨?_, ?_, ?_, ?_⟩
  · intro p k member
    rw [get_queues_joined] at member
    split at member
    · rename_i here
      rw [here]
      rcases List.mem_cons.mp (order.mem_iff.mp member) with rfl | old
      · exact link
      · exact before.link q k old
    · exact before.link p k member
  · intro p
    rw [get_queues_joined]
    split
    · exact order.nodup_iff.mpr (List.nodup_cons.mpr ⟨apart q, before.nodup q⟩)
    · exact before.nodup p
  · have more : locks.length = (res.queues.get q).length + 1 := by
      rw [order.length_eq, List.length_cons]
    simp only [queued_joined, get_queues_joined, before.total]
    cases q
    · simp [more]
      omega
    · simp [more]
      omega
    · simp [more]
      omega
  · intro plain counted m
    rw [get_queues_joined]
    cases granted : decide (q = .granted) with
    | false =>
      have elsewhere : q ≠ .granted := of_decide_eq_false granted
      simp only [Resource.joined, if_neg elsewhere] at plain counted ⊢
      rw [if_neg (Ne.symm elsewhere)]
      exact before.grouped plain counted m
    | true =>
      obtain rfl := of_decide_eq_true granted
      simp only [Resource.joined, reduceIte] at plain counted ⊢
      have free := intervals_of_indexGranted plain
      rw [rtype_indexGranted] at counted
      rw [groups_indexGranted free counted, PerMode.get_set, order.countP_eq, List.countP_cons,
        mode]
      have old := before.grouped free counted
      by_cases same : lk.mode = m
      · rw [if_pos same.symm, if_pos (by simpa using same), same, old]
      · rw [if_neg (Ne.symm same), if_neg (by simpa using same), old, Nat.add_zero]

/-- A granted lock can be taken out of the index: where modes are counted, its own is. -/
theorem Lined.unindexGranted (lined : res.Lined lockOf)
    (member : l ∈ res.queues.get .granted) :
    ∃ mid, res.unindexGranted l (lockOf l) = .ok mid ∧ mid.queues = res.queues ∧
      mid.queued = res.queued ∧ mid.rtype = res.rtype ∧ (mid.intervals = none →
        res.intervals = none ∧ (res.rtype.hasModeGroups → mid.groups =
          res.groups.set (lockOf l).mode (res.groups.get (lockOf l).mode - 1))) := by
  unfold Resource.unindexGranted
  cases plain : res.intervals with
  | some ix => exact ⟨_, rfl, rfl, rfl, rfl, by simp⟩
  | none =>
    by_cases counted : res.rtype.hasModeGroups
    · have some : res.groups.get (lockOf l).mode ≠ 0 := by
        rw [lined.grouped plain counted]
        exact Nat.ne_of_gt (List.countP_pos_iff.mpr ⟨l, member, by simp⟩)
      simp only [counted, if_true, if_neg some]
      exact ⟨_, rfl, rfl, rfl, rfl, fun _ => ⟨trivial, fun _ => rfl⟩⟩
    · simp only [counted]
      exact ⟨_, rfl, rfl, rfl, rfl, fun _ => ⟨trivial, fun wrong => by cases wrong⟩⟩

/-- Who is still on a queue after a lock left was there before, and is another lock. -/
theorem Lined.mem_left (lined : res.Lined lockOf) (member : l ∈ res.queues.get q) {p : Queue}
    {k : LockKey} (inside : k ∈ (res.queues.set q ((res.queues.get q).erase l)).get p) :
    k ∈ res.queues.get p ∧ k ≠ l := by
  rw [LockQueues.get_set] at inside
  split at inside
  · rename_i here
    rw [here]
    exact ((lined.nodup q).mem_erase_iff.mp inside).symm
  · rename_i elsewhere
    refine ⟨inside, ?_⟩
    rintro rfl
    exact elsewhere (lined.queue_eq member inside)

/-- A lock on a queue can leave it. -/
theorem Lined.departed (lined : res.Lined lockOf) (member : l ∈ res.queues.get q)
    (others : ∀ k, k ≠ l →
      (lockOf' k).link = (lockOf k).link ∧ (lockOf' k).mode = (lockOf k).mode) :
    ∃ res', res.departed l (lockOf l) q = .ok res' ∧ res'.Lined lockOf' ∧
      res'.queues = res.queues.set q ((res.queues.get q).erase l) := by
  obtain ⟨mid, index, queues, count, rtype, groups⟩ : ∃ mid,
      (if q = .granted then res.unindexGranted l (lockOf l) else .ok res) = .ok mid ∧
      mid.queues = res.queues ∧ mid.queued = res.queued ∧ mid.rtype = res.rtype ∧
      (mid.intervals = none → res.intervals = none ∧ (res.rtype.hasModeGroups →
        mid.groups = if q = .granted then
          res.groups.set (lockOf l).mode (res.groups.get (lockOf l).mode - 1)
          else res.groups)) := by
    split
    · rename_i granted
      subst granted
      exact lined.unindexGranted member
    · exact ⟨res, rfl, rfl, rfl, rfl, fun plain => ⟨plain, fun _ => rfl⟩⟩
  refine ⟨mid.without q l, ?_, ⟨?_, ?_, ?_, ?_⟩, ?_⟩
  · rw [departed_eq, index]
    rfl
  · intro p k inside
    rw [without, queues] at inside
    obtain ⟨before, other⟩ := lined.mem_left member inside
    rw [(others k other).1]
    exact lined.link p k before
  · intro p
    rw [without, queues, LockQueues.get_set]
    split
    · exact (lined.nodup q).erase l
    · exact lined.nodup p
  · have fewer := List.length_erase_of_mem member
    have some := List.length_pos_of_mem member
    simp only [without, queues, count, LockQueues.get_set, lined.total]
    cases q
    · simp [fewer]
      omega
    · simp [fewer]
      omega
    · simp [fewer]
      omega
  -- Only the count of the mode of the lock falls, and only where it was granted.
  · intro plain counted m
    obtain ⟨free, set⟩ := groups plain
    replace counted : res.rtype.hasModeGroups := rtype ▸ counted
    have same : ∀ k ∈ (res.queues.set q ((res.queues.get q).erase l)).get .granted,
        (lockOf' k).mode = (lockOf k).mode :=
      fun k inside => (others k (lined.mem_left member inside).2).2
    have old := lined.grouped free counted
    simp only [without, queues, set counted]
    rw [List.countP_congr (q := fun k => (lockOf k).mode = m) fun k inside => by rw [same k inside],
      LockQueues.get_set]
    by_cases granted : q = .granted
    · subst granted
      rw [if_pos rfl, if_pos rfl, PerMode.get_set, List.countP_erase, old, old]
      by_cases own : m = (lockOf l).mode
      · rw [if_pos own, if_pos ⟨member, by simp [own]⟩, own]
      · rw [if_neg own, if_neg (by simp [Ne.symm own]), Nat.sub_zero]
    · rw [if_neg granted, if_neg (Ne.symm granted)]
      exact old m
  · rw [without, queues]

/-- One lock fewer is counted where a lock left a queue. -/
theorem Lined.counts_of_erased (lined : res.Lined lockOf) (after : res'.Lined lockOf')
    (member : l ∈ res.queues.get q)
    (queues : res'.queues = res.queues.set q ((res.queues.get q).erase l)) :
    res'.queued + 1 = res.queued ∧
      (res'.queues.get .granted).length + (if q = .granted then 1 else 0) =
        (res.queues.get .granted).length := by
  have fewer : ((res.queues.get q).erase l).length + 1 = (res.queues.get q).length :=
    List.length_erase_add_one member
  rw [after.total, lined.total, queues]
  simp only [LockQueues.get_set]
  cases q
  · simp only [reduceCtorEq, if_true, if_false]
    omega
  · simp only [reduceCtorEq, if_true, if_false]
    omega
  · simp only [reduceCtorEq, if_true, if_false]
    omega

end Resource

end Lockspace
