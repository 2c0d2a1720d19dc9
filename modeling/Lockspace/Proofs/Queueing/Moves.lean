import Lockspace.Manager.Queues
import Lockspace.Proofs.Queueing.Seated

namespace Lockspace

open Manager

namespace Act

variable {α β : Type} {m : Manager} {r : ResourceRef} {l anchor : LockKey} {q on : Queue}

/-- An action that ends in a fault before it has changed any namespace or lock. -/
def Refuses (act : Act α) (m : Manager) (fault : Fault) : Prop :=
  ∃ m', act m = .error fault m' ∧ m'.spaces = m.spaces ∧ m'.locks = m.locks

theorem Refuses.bind {act : Act α} {fault : Fault} (refuses : act.Refuses m fault)
    (next : α → Act β) : (act >>= next).Refuses m fault := by
  obtain ⟨m', run, same⟩ := refuses
  refine ⟨m', ?_, same⟩
  show EStateM.bind act next m = _
  rw [EStateM.bind, run]

theorem Refuses.leaves {act : Act α} {fault : Fault} {post : Except Fault α → Manager → Prop}
    (refuses : act.Refuses m fault) (unchanged : ∀ m', m'.spaces = m.spaces →
      m'.locks = m.locks → post (.error fault) m') : act.Leaves m post := by
  obtain ⟨m', run, spaces, locks⟩ := refuses
  unfold Leaves
  rw [run]
  exact unchanged m' spaces locks

/-- A lock that is on a queue is listed and refused. -/
theorem claimLink_of_linked (whole : (m.lock l).isDestroyed = false)
    (link : (m.lock l).link = some on) : (claimLink r l q).Refuses m
      (.alreadyQueued (m.lock l).handleText on q (m.resource r).id) := by
  obtain ⟨log, shown⟩ := run_dumpResource .error r m
  refine ⟨{ m with log }, ?_, rfl, rfl⟩
  unfold claimLink
  rw [run_bind (run_lock l m), if_neg (by simp [whole]), link]
  exact run_bind shown

theorem claimLink_of_destroyed (gone : (m.lock l).isDestroyed) :
    claimLink r l q m = .ok false m := by
  unfold claimLink
  rw [run_bind (run_lock l m), if_pos gone]
  rfl

theorem claimLink_of_free (whole : (m.lock l).isDestroyed = false)
    (free : (m.lock l).link = none) : claimLink r l q m = .ok true (m.claimed l q) := by
  unfold claimLink
  rw [run_bind (run_lock l m), if_neg (by simp [whole]), free]
  rfl

/-- A lock that is on no queue and not destroyed gets onto a queue at its place. -/
theorem enqueue_of_free (whole : (m.lock l).isDestroyed = false) (free : (m.lock l).link = none)
    (place : List LockKey → List LockKey) :
    (do if ← claimLink r l q then join r l q (place ((← resource r).queues.get q)) : Act Unit) m =
      .ok () (m.joined r l q (place (m.queue r q))) := by
  rw [run_bind (claimLink_of_free whole free), if_pos rfl]
  rfl

theorem addLock_of_free (whole : (m.lock l).isDestroyed = false)
    (free : (m.lock l).link = none) :
    addLock r q l m = .ok () (m.joined r l q (m.queue r q ++ [l])) :=
  enqueue_of_free whole free (· ++ [l])

theorem addLock_of_destroyed (gone : (m.lock l).isDestroyed) : addLock r q l m = .ok () m := by
  unfold addLock
  rw [run_bind (claimLink_of_destroyed gone)]
  rfl

theorem addLock_of_linked (whole : (m.lock l).isDestroyed = false)
    (link : (m.lock l).link = some on) : (addLock r q l).Refuses m
      (.alreadyQueued (m.lock l).handleText on q (m.resource r).id) :=
  (claimLink_of_linked whole link).bind _

/-- What an insertion does once its anchor is found on a queue of the resource. -/
theorem insertAfter_eq (link : (m.lock anchor).link = some q) (member : anchor ∈ m.queue r q) :
    insertAfter r anchor l m =
      (do if ← claimLink r l q then
        join r l q (insertBehind anchor l ((← resource r).queues.get q)) : Act Unit) m := by
  unfold insertAfter
  rw [run_bind (run_resource r m),
    run_bind (run_lock anchor m), link]
  show (if anchor ∉ m.queue r q then _ else _ : Act Unit) m = _
  rw [if_neg (not_not_intro member)]

theorem insertAfter_of_free (link : (m.lock anchor).link = some q)
    (member : anchor ∈ m.queue r q) (whole : (m.lock l).isDestroyed = false)
    (free : (m.lock l).link = none) : insertAfter r anchor l m =
      .ok () (m.joined r l q (insertBehind anchor l (m.queue r q))) := by
  rw [insertAfter_eq link member]
  exact enqueue_of_free whole free (insertBehind anchor l)

theorem insertAfter_of_destroyed (link : (m.lock anchor).link = some q)
    (member : anchor ∈ m.queue r q) (gone : (m.lock l).isDestroyed) :
    insertAfter r anchor l m = .ok () m := by
  rw [insertAfter_eq link member, run_bind (claimLink_of_destroyed gone)]
  rfl

theorem insertAfter_of_free_anchor (free : (m.lock anchor).link = none) :
    (insertAfter r anchor l).Refuses m (.anchorNotQueued (m.lock anchor).handleText
      (m.resource r).id) := by
  refine ⟨m, ?_, rfl, rfl⟩
  unfold insertAfter
  rw [run_bind (run_resource r m),
    run_bind (run_lock anchor m), free]
  rfl

theorem insertAfter_of_anchor_elsewhere (link : (m.lock anchor).link = some q)
    (absent : anchor ∉ m.queue r q) : (insertAfter r anchor l).Refuses m
      (.anchorElsewhere (m.lock anchor).handleText q (m.resource r).id) := by
  refine ⟨m, ?_, rfl, rfl⟩
  unfold insertAfter
  rw [run_bind (run_resource r m),
    run_bind (run_lock anchor m), link]
  show (if anchor ∉ m.queue r q then _ else _ : Act Unit) m = _
  rw [if_pos absent]
  rfl

/-- A lock that is on a queue is refused wherever it is to go. -/
theorem insertAfter_of_linked (whole : (m.lock l).isDestroyed = false)
    (link : (m.lock l).link = some on) : ∃ fault, (insertAfter r anchor l).Refuses m fault := by
  cases there : (m.lock anchor).link with
  | none => exact ⟨_, insertAfter_of_free_anchor there⟩
  | some q =>
    by_cases member : anchor ∈ m.queue r q
    · obtain ⟨m', run, same⟩ := (claimLink_of_linked (r := r) (q := q) whole link).bind fun may =>
        (do if may then join r l q (insertBehind anchor l ((← resource r).queues.get q)) : Act Unit)
      exact ⟨_, m', (insertAfter_eq there member).trans run, same⟩
    · exact ⟨_, insertAfter_of_anchor_elsewhere there member⟩

theorem unlink_of_free (free : (m.lock l).link = none) : unlink r l m = .ok () m := by
  unfold unlink
  rw [run_bind (run_lock l m), free]
  rfl

theorem unlink_of_elsewhere (link : (m.lock l).link = some q) (absent : l ∉ m.queue r q) :
    (unlink r l).Refuses m (.claimsAbsent (m.lock l).handleText q (m.resource r).id) := by
  refine ⟨m, ?_, rfl, rfl⟩
  unfold unlink
  rw [run_bind (run_lock l m), link]
  show (if l ∉ m.queue r q then _ else _ : Act Unit) m = _
  rw [if_pos absent]
  rfl

theorem unlink_of_departed {res : Resource} (link : (m.lock l).link = some q)
    (member : l ∈ m.queue r q) (left : (m.resource r).departed l (m.lock l) q = .ok res) :
    unlink r l m = .ok () (m.departed r l q res) := by
  unfold unlink
  rw [run_bind (run_lock l m), link]
  show (if l ∉ m.queue r q then _ else _ : Act Unit) m = _
  rw [if_neg (not_not_intro member), left]
  rfl

theorem unlink_of_miscounted {fault : Fault} (link : (m.lock l).link = some q)
    (member : l ∈ m.queue r q) (left : (m.resource r).departed l (m.lock l) q = .error fault) :
    (unlink r l).Refuses m fault := by
  refine ⟨m, ?_, rfl, rfl⟩
  unfold unlink
  rw [run_bind (run_lock l m), link]
  show (if l ∉ m.queue r q then _ else _ : Act Unit) m = _
  rw [if_neg (not_not_intro member), left]
  rfl

/-- A fault before anything has changed is one way to end. -/
theorem Refuses.ends {act : Act α} {fault : Fault} {post : α → Manager → Prop}
    (refuses : act.Refuses m fault) : act.Ends m (fun _ => True) post := by
  obtain ⟨m', run, -⟩ := refuses
  unfold Ends
  rw [run]
  trivial

/-- A lock that is put onto a queue joins it at the tail, or stays away. A destroyed one stays
away. -/
theorem ends_addLock : (addLock r q l).Ends m (fun _ => True) fun _ m' =>
    m' = m ∨ (m.lock l).isDestroyed = false ∧ m' = m.joined r l q (m.queue r q ++ [l]) := by
  cases gone : (m.lock l).isDestroyed with
  | true => exact ends_of_run (addLock_of_destroyed gone) (Or.inl rfl)
  | false =>
    cases link : (m.lock l).link with
    | none => exact ends_of_run (addLock_of_free gone link) (Or.inr ⟨rfl, rfl⟩)
    | some on => exact (addLock_of_linked gone link).ends

/-- A lock that is put behind another one joins the queue of that one, or stays away. -/
theorem ends_insertAfter : (insertAfter r anchor l).Ends m (fun _ => True) fun _ m' =>
    m' = m ∨ (m.lock l).isDestroyed = false ∧ ∃ q, anchor ∈ m.queue r q ∧
      m' = m.joined r l q (insertBehind anchor l (m.queue r q)) := by
  cases there : (m.lock anchor).link with
  | none => exact (insertAfter_of_free_anchor there).ends
  | some q =>
    by_cases member : anchor ∈ m.queue r q
    · cases gone : (m.lock l).isDestroyed with
      | true => exact ends_of_run (insertAfter_of_destroyed there member gone) (Or.inl rfl)
      | false =>
        cases link : (m.lock l).link with
        | none =>
          exact ends_of_run (insertAfter_of_free there member gone link)
            (Or.inr ⟨rfl, q, member, rfl⟩)
        | some on =>
          obtain ⟨fault, refuses⟩ : ∃ fault, (insertAfter r anchor l).Refuses m fault :=
            insertAfter_of_linked gone link
          exact refuses.ends
    · exact (insertAfter_of_anchor_elsewhere there member).ends

/-- A lock that is on a queue leaves it. -/
theorem ends_unlink_cases : (unlink r l).Ends m (fun _ => True) fun _ m' =>
    ((m.lock l).link = none ∧ m' = m) ∨ ∃ q res, l ∈ m.queue r q ∧
      (m.resource r).departed l (m.lock l) q = .ok res ∧ m' = m.departed r l q res := by
  cases link : (m.lock l).link with
  | none => exact ends_of_run (unlink_of_free link) (Or.inl ⟨rfl, rfl⟩)
  | some q =>
    by_cases member : l ∈ m.queue r q
    · cases left : (m.resource r).departed l (m.lock l) q with
      | ok res =>
        exact ends_of_run (unlink_of_departed link member left)
          (Or.inr ⟨q, res, member, left, rfl⟩)
      | error fault => exact (unlink_of_miscounted link member left).ends
    · exact (unlink_of_elsewhere link member).ends

end Act

end Lockspace
