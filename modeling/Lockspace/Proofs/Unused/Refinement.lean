import Lockspace.Proofs.Unused.Victims

namespace Lockspace

/-- What the unused locks are asked for. Limits come with the age that each lock has by then. -/
inductive LruCall where
  | add (lock : LockKey) (destroyed : Bool)
  | remove (lock : LockKey)
  | contains (lock : LockKey)
  | size
  | takeVictims (limits : VictimLimits) (age : LockKey → Nat)
  | takeAll
  | finalize

inductive LruAnswer where
  | flag (b : Bool)
  | count (n : Nat)
  | locks (locks : List LockKey)

/-- Serves calls one after another, from a state on. -/
def LruCall.serveAll {σ : Type} (serve : σ → LruCall → LruAnswer × σ) :
    σ → List LruCall → List LruAnswer × σ
  | s, [] => ([], s)
  | s, call :: rest =>
    let answer := serve s call
    let later := serveAll serve answer.2 rest
    (answer.1 :: later.1, later.2)

def UnusedLru.serve (u : UnusedLru) : LruCall → LruAnswer × UnusedLru
  | .add l destroyed => (u.add l destroyed).map .flag id
  | .remove l => (u.remove l).map .flag id
  | .contains l => (.flag (u.contains l), u)
  | .size => (.count u.size, u)
  | .takeVictims limits age => (u.takeVictims limits age).map .locks id
  | .takeAll => u.takeAll.map .locks id
  | .finalize => u.finalize.map (.count ·.length) id

/-- Unused locks as a list, the oldest first and none of them twice. Once closed it stays empty. -/
structure UnusedLine where
  locks : List LockKey := []
  nodup : locks.Nodup := by decide
  closed : Bool := false
  empty : closed → locks = [] := by decide

namespace UnusedLine

/-- The list with a lock at its young end and nowhere else. -/
def join (q : UnusedLine) (l : LockKey) (opened : q.closed = false) : UnusedLine where
  locks := q.locks.erase l ++ [l]
  nodup := List.nodup_append.mpr ⟨q.nodup.erase l, List.nodup_singleton l, by
    rintro k inside _ single rfl
    rw [List.mem_singleton.mp single] at inside
    exact q.nodup.not_mem_erase inside⟩
  closed := q.closed
  empty closed := by cases opened.symm.trans closed

/-- A lock joins the list at the young end, unless it is destroyed or the list is closed. -/
def add (q : UnusedLine) (l : LockKey) (destroyed : Bool) : Bool × UnusedLine :=
  if opened : q.closed = false ∧ destroyed = false then (true, q.join l opened.1) else (false, q)

def leave (q : UnusedLine) (l : LockKey) : UnusedLine where
  locks := q.locks.erase l
  nodup := q.nodup.erase l
  closed := q.closed
  empty closed := by rw [q.empty closed, List.erase_nil]

/-- The list without so many of its oldest locks. -/
def shed (q : UnusedLine) (count : Nat) : UnusedLine where
  locks := q.locks.drop count
  nodup := q.nodup.sublist (List.drop_sublist ..)
  closed := q.closed
  empty closed := by rw [q.empty closed, List.drop_nil]

/-- No locks at all. -/
def cleared (closed : Bool) : UnusedLine where
  closed
  empty _ := rfl

/-- The oldest locks up to the first that no limit asks for. -/
def due (q : UnusedLine) (limits : VictimLimits) (age : LockKey → Nat) : List LockKey :=
  (q.locks.zipIdx.takeWhile fun place =>
    limits.takes q.locks.length place.2 (age place.1)).map (·.1)

theorem due_prefix (q : UnusedLine) (limits : VictimLimits) (age : LockKey → Nat) :
    q.due limits age <+: q.locks := by
  have first := (List.takeWhile_prefix (l := q.locks.zipIdx) fun place =>
    limits.takes q.locks.length place.2 (age place.1)).map (·.1)
  rwa [List.zipIdx_map_fst] at first

def serve (q : UnusedLine) : LruCall → LruAnswer × UnusedLine
  | .add l destroyed => (q.add l destroyed).map .flag id
  | .remove l => (.flag (q.locks.contains l), q.leave l)
  | .contains l => (.flag (q.locks.contains l), q)
  | .size => (.count q.locks.length, q)
  | .takeVictims limits age =>
    (.locks (q.due limits age), q.shed (q.due limits age).length)
  | .takeAll => (.locks q.locks, cleared q.closed)
  | .finalize => (.count q.locks.length, cleared true)

end UnusedLine

namespace UnusedLru

/-- A list has the locks of the order in the order of their numbers. -/
structure Follows (u : UnusedLru) (q : UnusedLine) : Prop where
  sound : u.Sound
  ascending : (u.order.map (·.1)).Pairwise (· < ·)
  locks : u.toList = q.locks
  closed : u.finalized = q.closed

variable {u : UnusedLru} {q : UnusedLine} {l : LockKey}

theorem victimsFrom_eq_takeWhile (limits : VictimLimits) (total : Nat) (age : LockKey → Nat)
    (pos : Nat) (locks : List LockKey) : victimsFrom limits total age pos locks =
      ((locks.zipIdx pos).takeWhile fun place => limits.takes total place.2 (age place.1)).map
        (·.1) := by
  induction locks generalizing pos with
  | nil => rfl
  | cons l rest ih =>
    rw [victimsFrom, List.zipIdx_cons, List.takeWhile_cons, ih]
    split <;> rfl

theorem size_eq_length (u : UnusedLru) : u.size = u.toList.length :=
  (List.length_map _).symm

theorem Sound.contains_eq (sound : u.Sound) (l : LockKey) : u.contains l = u.toList.contains l := by
  rw [Bool.eq_iff_iff, sound.contains_iff, List.contains_iff_mem]

/-- A lock is taken out of both maps. -/
theorem Sound.fst_remove (sound : u.Sound) (l : LockKey) :
    (u.remove l).1 = u.toList.contains l := by
  rw [← sound.contains_eq]
  unfold UnusedLru.remove contains
  cases found : u.index.lookup l with
  | none => rfl
  | some seq =>
    have entry := sound.lookup_eq_some.mp found
    exact List.any_eq_true.mpr ⟨_, entry, beq_self_eq_true seq⟩

theorem Sound.toList_erase (sound : u.Sound) (l : LockKey) :
    (u.erase l).toList = u.toList.erase l := by
  rw [sound.erase_eq, toList_without, sound.locks.erase_eq_filter]
  refine List.filter_congr fun k _ => ?_
  rw [List.contains_cons, List.contains_nil, Bool.or_false, bne]

/-- The numbers of the locks by their locks and the locks by their numbers are inverse to each
other. -/
theorem Sound.lookup_iff (sound : u.Sound) (l : LockKey) (seq : Nat) :
    u.index.lookup l = some seq ↔ u.order.lookup seq = some l := by
  rw [sound.lookup_eq_some]
  have listed : ∀ {k}, u.order.lookup seq = some k → (seq, k) ∈ u.order := by
    intro k found
    obtain ⟨before, after, split, -⟩ := List.lookup_eq_some_iff.mp found
    rw [split]
    exact List.mem_append_right before (List.mem_cons_self ..)
  refine ⟨fun entry => ?_, listed⟩
  cases found : u.order.lookup seq with
  | none =>
    have absent := List.lookup_eq_none_iff.mp found (seq, l) entry
    simp at absent
  | some k => rw [(Prod.mk.inj (sound.eq_of_number (listed found) entry rfl)).2]

namespace Follows

theorem empty : Follows {} {} :=
  ⟨.empty, .nil, rfl, rfl⟩

/-- Locks that are taken out leave the others in order. -/
theorem without (follows : Follows u q) (gone : List LockKey) {left : UnusedLine}
    (locks : left.locks = (u.without gone).toList) (closed : left.closed = q.closed) :
    Follows (u.without gone) left where
  sound := follows.sound.without gone
  ascending := follows.ascending.sublist (List.filter_sublist.map _)
  locks := locks.symm
  closed := follows.closed.trans closed.symm

theorem leave (follows : Follows u q) (l : LockKey) : Follows (u.erase l) (q.leave l) := by
  have locks := follows.sound.toList_erase l
  rw [follows.sound.erase_eq] at locks ⊢
  refine follows.without [l] ?_ rfl
  rw [locks, follows.locks]
  rfl

theorem join (follows : Follows u q) (l : LockKey) (opened : q.closed = false) :
    Follows ((u.erase l).append l) (q.join l opened) where
  sound := follows.sound.append_erase l
  ascending := by
    have left := follows.leave l
    show (((u.erase l).order ++ [((u.erase l).next, l)]).map (·.1)).Pairwise (· < ·)
    rw [List.map_append]
    refine List.pairwise_append.mpr ⟨left.ascending, List.pairwise_singleton .., ?_⟩
    intro seq given _ single
    rw [List.mem_singleton.mp single]
    obtain ⟨entry, member, rfl⟩ := List.mem_map.mp given
    exact left.sound.below entry member
  locks := by
    show ((u.erase l).order ++ [((u.erase l).next, l)]).map (·.2) = _
    rw [List.map_append]
    show (u.erase l).toList ++ [l] = q.locks.erase l ++ [l]
    rw [(follows.leave l).locks]
    rfl
  closed := (follows.leave l).closed

theorem shed (follows : Follows u q) (count : Nat) :
    Follows (u.without (u.toList.take count)) (q.shed count) := by
  refine follows.without _ ?_ rfl
  rw [follows.sound.toList_without_take, follows.locks]
  rfl

theorem add (follows : Follows u q) (l : LockKey) (destroyed : Bool) :
    (u.add l destroyed).1 = (q.add l destroyed).1 ∧
      Follows (u.add l destroyed).2 (q.add l destroyed).2 := by
  unfold UnusedLru.add UnusedLine.add
  split
  · rename_i shut
    have refused : ¬ (q.closed = false ∧ destroyed = false) := by
      rwa [← Bool.or_eq_false_iff, ← follows.closed, Bool.not_eq_false]
    rw [dif_neg refused]
    exact ⟨rfl, follows⟩
  · rename_i free
    have opened : q.closed = false ∧ destroyed = false := by
      rwa [← Bool.or_eq_false_iff, ← follows.closed, ← Bool.not_eq_true]
    rw [dif_pos opened]
    exact ⟨rfl, follows.join l opened.1⟩

theorem takeVictims (follows : Follows u q) (limits : VictimLimits) (age : LockKey → Nat) :
    (u.takeVictims limits age).1 = q.due limits age ∧
      Follows (u.takeVictims limits age).2 (q.shed (q.due limits age).length) := by
  have victims : (u.takeVictims limits age).1 = q.due limits age := by
    show victimsFrom limits u.size age 0 u.toList = _
    rw [victimsFrom_eq_takeWhile, u.size_eq_length, follows.locks]
    rfl
  refine ⟨victims, ?_⟩
  show Follows ((u.takeVictims limits age).1.foldl erase u) _
  have first := List.prefix_iff_eq_take.mp (q.due_prefix limits age)
  rw [follows.sound.foldl_erase, victims]
  nth_rewrite 1 [first]
  rw [← follows.locks]
  exact follows.shed _

/-- Every call gets the answer that the list gives, and the list goes on to have the locks. -/
theorem serve (follows : Follows u q) (call : LruCall) :
    (u.serve call).1 = (q.serve call).1 ∧ Follows (u.serve call).2 (q.serve call).2 := by
  have list := follows.locks
  cases call with
  | add l destroyed =>
    obtain ⟨added, left⟩ := follows.add l destroyed
    exact ⟨congrArg LruAnswer.flag added, left⟩
  | remove l =>
    have found : (u.remove l).1 = q.locks.contains l := list ▸ follows.sound.fst_remove l
    refine ⟨congrArg LruAnswer.flag found, ?_⟩
    show Follows (u.remove l).2 (q.leave l)
    rw [snd_remove]
    exact follows.leave l
  | contains l =>
    have found : u.contains l = q.locks.contains l := list ▸ follows.sound.contains_eq l
    exact ⟨congrArg LruAnswer.flag found, follows⟩
  | size =>
    have same : u.size = q.locks.length := list ▸ u.size_eq_length
    exact ⟨congrArg LruAnswer.count same, follows⟩
  | takeVictims limits age =>
    obtain ⟨victims, left⟩ := follows.takeVictims limits age
    exact ⟨congrArg LruAnswer.locks victims, left⟩
  | takeAll => exact ⟨congrArg LruAnswer.locks list, .takeAll u, .nil, rfl, follows.closed⟩
  | finalize =>
    have same : u.toList.length = q.locks.length := congrArg List.length list
    exact ⟨congrArg LruAnswer.count same, .finalize u, .nil, rfl, rfl⟩

theorem serveAll (follows : Follows u q) (calls : List LruCall) :
    (LruCall.serveAll UnusedLru.serve u calls).1 = (LruCall.serveAll UnusedLine.serve q calls).1 ∧
      Follows (LruCall.serveAll UnusedLru.serve u calls).2
        (LruCall.serveAll UnusedLine.serve q calls).2 := by
  induction calls generalizing u q with
  | nil => exact ⟨rfl, follows⟩
  | cons call rest ih =>
    obtain ⟨answer, next⟩ := follows.serve call
    obtain ⟨answers, last⟩ := ih next
    exact ⟨List.cons_eq_cons.mpr ⟨answer, answers⟩, last⟩

end Follows

end UnusedLru

namespace UnusedLine

variable {q : UnusedLine}

/-- What is closed stays closed. -/
theorem closed_serve (closed : q.closed) (call : LruCall) : (q.serve call).2.closed := by
  cases call with
  | add l destroyed =>
    show (q.add l destroyed).2.closed
    unfold add
    rw [dif_neg (by simp [closed])]
    exact closed
  | finalize => rfl
  | _ => exact closed

theorem closed_serveAll (calls : List LruCall) (closed : q.closed ∨ .finalize ∈ calls) :
    (LruCall.serveAll serve q calls).2.closed := by
  induction calls generalizing q with
  | nil => exact closed.resolve_right List.not_mem_nil
  | cons call rest ih =>
    refine ih (closed.elim (fun closed => Or.inl (closed_serve closed call)) fun member => ?_)
    rcases List.mem_cons.mp member with rfl | later
    · exact Or.inl rfl
    · exact Or.inr later

end UnusedLine

/-- The unused locks, kept in an order by number and an index from locks to numbers, answer every
sequence of calls as a list without repetitions does. The two maps are inverse to each other, the
numbers ascend along the list and were all given before. Once finalized, the list is empty and takes
no lock again. -/
theorem UnusedLru.refines (calls : List LruCall) :
    let served := LruCall.serveAll UnusedLru.serve {} calls
    let listed := LruCall.serveAll UnusedLine.serve {} calls
    served.1 = listed.1 ∧ served.2.Follows listed.2 ∧
      (∀ l seq, served.2.index.lookup l = some seq ↔ served.2.order.lookup seq = some l) ∧
      (.finalize ∈ calls → served.2.toList = [] ∧
        ∀ l destroyed, served.2.add l destroyed = (false, served.2)) := by
  intro served listed
  obtain ⟨answers, follows⟩ := UnusedLru.Follows.empty.serveAll calls
  refine ⟨answers, follows, follows.sound.lookup_iff, fun finalized => ?_⟩
  have closed : listed.2.closed := UnusedLine.closed_serveAll calls (Or.inr finalized)
  refine ⟨follows.locks.trans (listed.2.empty closed), fun l destroyed => if_pos ?_⟩
  rw [follows.closed]
  exact Bool.or_eq_true_iff.mpr (Or.inl closed)

end Lockspace
