import Lockspace.Proofs.Draining.LogBlind
import Lockspace.Proofs.Draining.Releases
import Lockspace.Proofs.Draining.Touching

namespace Lockspace

open Manager Act

namespace Manager

/-- A lock on a queue of a namespace in use, as a drain shows it to a callback. What it is bound to
is as wanted. -/
structure Shown (wanted : ResourceRef → Option ResourceRef → Prop) (n : SpaceKey) (r : ResourceRef)
    (q : Queue) (l : LockKey) (m : Manager) : Prop extends Given n r l m where
  owned : 0 < (m.space n).owners
  queued : l ∈ m.queue r q
  bound : wanted r (m.lock l).bound

/-- The calls that a drain with some flags makes about a lock, from the state in which it comes to
the lock to one where the lock is as the callback left it. -/
def callsAbout (m m' : Manager) (n : SpaceKey) (flags : LockFlags) (l : LockKey) : List Callback :=
  let marked := (m.lock l).flags ||| Cleanup.visitFlags flags
  if flags.contains .localOnly && (m.lock l).hasHolders then [.completion n l .failed marked]
  else if (m.space n).isClient && (m.space n).hasPeer && !(m'.lock l).flags.contains .localOnly then
    [.cancelLocal n l marked, .peerCancel n l flags (m'.lock l).flags 1]
  else [.cancelLocal n l marked]

variable {m m' : Manager} {n : SpaceKey} {l k : LockKey} {r s : ResourceRef} {q : Queue}

theorem Alike.isClient (alike : Alike m m') (n : SpaceKey) :
    (m'.space n).isClient = (m.space n).isClient := by
  unfold Namespace.isClient
  rw [alike.side]

theorem Given.dropIfUnheld (given : Given n r l m) : ∃ m', dropIfUnheld l m = .ok () m' ∧
    Given n r l m' ∧ Handled n l [] m m' ∧
      (m' = m ∨ (m.lock l).link = none ∧ m' = m.unbound l) := by
  unfold Act.dropIfUnheld
  rw [run_bind (show (get : Act Manager) m = .ok m m from rfl)]
  cases held : m.isHeld l with
  | true => exact ⟨m, rfl, given, .refl n l m, .inl rfl⟩
  | false =>
    have free : (m.lock l).link = none := by
      simp only [isHeld, Lock.isLinked, Bool.or_eq_false_iff, Option.isSome_eq_false_iff,
        Option.isNone_iff_eq_none] at held
      exact held.1.2
    obtain ⟨run, given', dropped⟩ := given.unbound free
    exact ⟨_, run, given', dropped, .inr ⟨free, rfl⟩⟩

/-- The state with one hold fewer on a lock. -/
def disowned (m : Manager) (l : LockKey) : Manager :=
  m.modifyLock l fun lk => { lk with owners := lk.owners - 1 }

/-- A hold on a lock ends. Where that was the last one, the lock drops its reference. -/
theorem Given.disown (given : Given n r l m) : ∃ m', disown l m = .ok () m' ∧ Given n r l m' ∧
    Handled n l [] m m' ∧ (m'.lock l = { m.lock l with owners := (m.lock l).owners - 1 } ∨
      (m.lock l).link = none ∧
        m'.lock l = { m.lock l with owners := (m.lock l).owners - 1, bound := none }) ∧
      ∀ k, (m'.space k).lru = (m.space k).lru := by
  have own : (m.disowned l).lock l = { m.lock l with owners := (m.lock l).owners - 1 } := by
    unfold disowned
    rw [lock_modifyLock, if_pos rfl]
  have fewer : Handled n l [] m (m.disowned l) := .modifyLock rfl (LockFlags.contains_refl _)
  have given₁ : Given n r l (m.disowned l) := given.modifyLock rfl
  obtain ⟨m', run, given', dropped, rfl | ⟨free, rfl⟩⟩ := given₁.dropIfUnheld
  · exact ⟨m.disowned l, run, given', fewer.trans dropped, .inl own, fun _ => rfl⟩
  · refine ⟨_, run, given', fewer.trans dropped, .inr ⟨?_, ?_⟩, lru_unbound⟩
    · rw [own] at free
      exact free
    · rw [lock_unbound, if_pos rfl, own]

end Manager

/-- A policy whose callbacks return for the locks that a drain shows to them, do nothing but touch
the lock that they are given, and do not look at the log. -/
structure LockPolicy.Tame (policy : LockPolicy) (n : SpaceKey) : Prop where
  completion : ∀ {m r q l}, Shown (fun r bound => bound = some r) n r q l m →
    ∃ m', policy.completion n l .failed m = .ok () m' ∧ Touches n r l m m'
  cancelLocal : ∀ {m r q l}, Shown (fun r bound => bound = some r) n r q l m →
    ∃ m', policy.cancelLocal n l m = .ok () m' ∧ Touches n r l m m'
  completionBlind : ∀ l, (policy.completion n l .failed).Blind
  cancelBlind : ∀ l, (policy.cancelLocal n l).Blind

/-- A callback for a lock of a namespace: it returns for a lock that is bound as wanted, changes
nothing but that lock, and leaves it on its queue only if it is bound to that resource. -/
def Act.Treats (act : Act Unit) (wanted : ResourceRef → Option ResourceRef → Prop) (n : SpaceKey)
    (l : LockKey) : Prop :=
  ∀ {m r q}, Shown wanted n r q l m → ∃ m', act m = .ok () m' ∧ Given n r l m' ∧
    Handled n l [] m m' ∧ ((m'.lock l).link = none ∨ (m'.lock l).bound = some r)

/-- Both callbacks of a policy are such. -/
structure LockPolicy.Treats (policy : LockPolicy) (wanted : ResourceRef → Option ResourceRef → Prop)
    (n : SpaceKey) : Prop where
  completion : ∀ l, (policy.completion n l .failed).Treats wanted n l
  cancelLocal : ∀ l, (policy.cancelLocal n l).Treats wanted n l
  completionBlind : ∀ l, (policy.completion n l .failed).Blind
  cancelBlind : ∀ l, (policy.cancelLocal n l).Blind

theorem LockPolicy.Tame.treats {policy : LockPolicy} {n : SpaceKey} (tame : policy.Tame n) :
    policy.Treats (fun r bound => bound = some r) n := by
  have touches : ∀ {m m' r q l}, Shown (fun r bound => bound = some r) n r q l m →
      Touches n r l m m' → Given n r l m' ∧ Handled n l [] m m' ∧
        ((m'.lock l).link = none ∨ (m'.lock l).bound = some r) := by
    intro m m' r q l shown touches
    obtain ⟨handled, given⟩ := touches.handled shown.toGiven
    refine ⟨given, handled, ?_⟩
    rcases handled.placed with stayed | parted
    · exact .inr (stayed.bound.trans shown.bound)
    · exact .inl parted.link
  refine ⟨fun l m r q shown => ?_, fun l m r q shown => ?_, tame.completionBlind, tame.cancelBlind⟩
  · obtain ⟨m', run, touched⟩ := tame.completion shown
    exact ⟨m', run, touches shown touched⟩
  · obtain ⟨m', run, touched⟩ := tame.cancelLocal shown
    exact ⟨m', run, touches shown touched⟩

namespace Cleanup

variable {policy : LockPolicy} {wanted : ResourceRef → Option ResourceRef → Prop} {n : SpaceKey}
  {flags : LockFlags} {l : LockKey} {m : Manager} {r : ResourceRef} {q : Queue}

/-- The flags that a drain sets tell that it has come to a lock. -/
theorem cleaned_of_marked {marks before : LockFlags}
    (marked : marks.contains (before ||| visitFlags flags)) : marks.contains .cleaned = true := by
  have all : (visitFlags flags).contains .cleaned := LockFlags.contains_trans
    (LockFlags.contains_union_left _ _) (LockFlags.contains_trans
      (LockFlags.contains_union_left _ _) (LockFlags.contains_union_left _ _))
  exact LockFlags.contains_trans marked
    (LockFlags.contains_trans (LockFlags.contains_union_right _ _) all)

/-- All that a drain does about one lock, where the peer answers what it is asked. -/
def visit (policy : LockPolicy) (n : SpaceKey) (flags : LockFlags) (l : LockKey) : Act Unit := do
  Act.modifyLock l (·.setFlags (visitFlags flags))
  Act.own l
  if ← treat policy n flags l then
    Act.askPeer n l flags 0
  Act.disown l

theorem blind_visit (treats : policy.Treats wanted n) : (visit policy n flags l).Blind := by
  have rest : (do
      if ← treat policy n flags l then askPeer n l flags 0
      disown l : Act Unit).Blind := by
    refine Blind.bind ?_ fun asks => ?_
    · refine blind_lock.bind fun lk => ?_
      split
      · exact Blind.bind (blind_lock.bind fun _ => (blind_note _).bind fun _ =>
          treats.completionBlind l) fun _ => blind_pure _
      · exact Blind.bind (blind_lock.bind fun _ => (blind_note _).bind fun _ =>
          treats.cancelBlind l) fun _ => blind_space.bind fun s => blind_lock.bind fun _ =>
            blind_pure _
    · split
      · exact Blind.bind (blind_lock.bind fun _ => blind_note _) fun _ => blind_disown
      · exact blind_disown
  exact (blind_modifyLock _).bind fun _ => (blind_modifyLock _).bind fun _ => rest

/-- The callback for a lock, and whether the peer is to hear of it. -/
theorem run_treat (treats : policy.Treats wanted n) (shown : Shown wanted n r q l m)
    (flags : LockFlags) : ∃ asks call m', treat policy n flags l m = .ok asks m' ∧
      Given n r l m' ∧ Handled n l [call] m m' ∧
      ((m'.lock l).link = none ∨ (m'.lock l).bound = some r) ∧
      if flags.contains .localOnly && (m.lock l).hasHolders then
        call = .completion n l .failed (m.lock l).flags ∧ asks = false
      else call = .cancelLocal n l (m.lock l).flags ∧ asks =
        ((m.space n).isClient && (m.space n).hasPeer &&
          !(m'.lock l).flags.contains .localOnly) := by
  have noted : ∀ call : Callback,
      Shown wanted n r q l { m with trace := m.trace.push call } := fun call =>
    ⟨shown.toGiven.of_same rfl rfl, shown.owned, shown.queued, shown.bound⟩
  unfold treat
  rw [run_bind (run_lock l m)]
  split
  · obtain ⟨m', run, given, handled, anchored⟩ :=
      treats.completion l (noted (.completion n l .failed (m.lock l).flags))
    exact ⟨false, _, m', run_bind (show complete policy n l .failed m = .ok () m' from run), given,
      (Handled.note rfl).trans handled, anchored, rfl, rfl⟩
  · obtain ⟨m', run, given, handled, anchored⟩ :=
      treats.cancelLocal l (noted (.cancelLocal n l (m.lock l).flags))
    refine ⟨_, _, m', run_bind (show Act.cancelLocal policy n l m = .ok () m' from run), given,
      (Handled.note rfl).trans handled, anchored, rfl, ?_⟩
    show (_ && _ && _) = _
    rw [handled.alike.isClient, handled.alike.hasPeer]
    rfl

end Cleanup

namespace Manager

/-- What holds of a namespace while a drain goes through its queues with references on these
resources. A lock that it has not come to is bound as wanted, to one of those if at all, and one that
is still on a queue after its visit is bound to the resource of that queue. -/
structure Draining (wanted : ResourceRef → Option ResourceRef → Prop) (n : SpaceKey)
    (held : List ResourceRef) (covered : SpaceKey → Prop) (hands : Multiset ResourceRef)
    (holds : SpaceKey → Nat) (m : Manager) : Prop where
  seated : SeatedIn n m
  owned : 0 < (m.space n).owners
  booked : BookedIn covered m (↑held + hands) holds
  within : ∀ s ∈ held, s.space = n
  wanted : ∀ r q, r.space = n → ∀ l ∈ m.queue r q, (m.lock l).flags.contains .cleaned = false →
    wanted r (m.lock l).bound ∧ ∀ s, (m.lock l).bound = some s → s ∈ held
  anchored : ∀ r q, r.space = n → ∀ l ∈ m.queue r q, (m.lock l).flags.contains .cleaned = true →
    (m.lock l).bound = some r

variable {wanted : ResourceRef → Option ResourceRef → Prop} {n : SpaceKey} {held : List ResourceRef}
  {covered : SpaceKey → Prop} {hands : Multiset ResourceRef} {holds : SpaceKey → Nat}
  {m m' : Manager} {policy : LockPolicy} {flags : LockFlags} {l k : LockKey} {r s : ResourceRef}
  {q p : Queue} {calls : List Callback}

namespace Handled

theorem mem_of_mem_queue (handled : Handled n l calls m m') (here : s.space = n)
    (member : k ∈ m'.queue s p) : k ∈ m.queue s p := by
  rcases handled.placed with stayed | parted
  · rwa [stayed.queue] at member
  · rw [parted.queue s p here] at member
    exact List.mem_of_mem_filter member

end Handled

namespace Draining

variable (draining : Draining wanted n held covered hands holds m)

include draining

theorem given (here : r.space = n) (member : l ∈ m.queue r q)
    (fresh : (m.lock l).flags.contains .cleaned = false) : Given n r l m where
  here := here
  seated := draining.seated
  referenced := draining.booked.alive r
    ((draining.seated.lined r here).queued_ne_zero.mpr ⟨q, l, member⟩)
  placed := .inr ⟨q, member⟩
  shares s bound := by
    have inside := (draining.wanted r q here l member fresh).2 s bound
    obtain ⟨rest, split⟩ := Multiset.exists_cons_of_mem (Multiset.mem_coe.mpr inside)
    have books := draining.booked
    rw [split, Multiset.cons_add] at books
    have owned : s ∈ m.boundRefs := mem_boundRefs.mpr ⟨l, bound⟩
    refine ⟨?_, books.two_le (Multiset.mem_add.mpr (.inr owned))⟩
    rw [draining.within s inside]
    exact draining.owned

/-- The visit of a lock that the drain has not come to before. -/
theorem visit (treats : policy.Treats wanted n) (flags : LockFlags) (here : r.space = n)
    (member : l ∈ m.queue r q) (fresh : (m.lock l).flags.contains .cleaned = false) :
    ∃ m', Cleanup.visit policy n flags l m = .ok () m' ∧
      Draining wanted n held covered hands holds m' ∧
      Handled n l (m.callsAbout m' n flags l) m m' ∧
      (m'.lock l).flags.contains ((m.lock l).flags ||| Cleanup.visitFlags flags) := by
  have given := draining.given here member fresh
  have tied := (draining.wanted r q here l member fresh).1
  let m₀ := (m.modifyLock l (·.setFlags (Cleanup.visitFlags flags))).modifyLock l
    fun lk => { lk with owners := lk.owners + 1 }
  have own₀ : m₀.lock l = { (m.lock l).setFlags (Cleanup.visitFlags flags) with
      owners := (m.lock l).owners + 1 } := by
    rw [lock_modifyLock, if_pos rfl, lock_modifyLock, if_pos rfl]
    rfl
  have given₀ : Given n r l m₀ := (given.modifyLock rfl).modifyLock rfl
  have handled₀ : Handled n l [] m m₀ :=
    (Handled.modifyLock rfl (LockFlags.contains_union_left _ _)).trans
      (.modifyLock rfl (LockFlags.contains_refl _))
  have shown : Shown wanted n r q l m₀ := by
    refine ⟨given₀, draining.owned, member, ?_⟩
    rw [own₀]
    exact tied
  obtain ⟨asks, call, m₁, treated, given₁, handled₁, anchored, told⟩ :=
    Cleanup.run_treat treats shown flags
  -- Where the peer is asked, that is one more call.
  obtain ⟨m₂, asked, given₂, lock₂, handled₂⟩ : ∃ m₂,
      (if asks then askPeer n l flags 0 else pure () : Act Unit) m₁ = .ok () m₂ ∧ Given n r l m₂ ∧
        m₂.lock l = m₁.lock l ∧ Handled n l
          (if asks then [.peerCancel n l flags (m₁.lock l).flags 1] else []) m₁ m₂ := by
    cases asks with
    | true => exact ⟨_, rfl, given₁.of_same rfl rfl, rfl, .note rfl⟩
    | false => exact ⟨m₁, rfl, given₁, rfl, .refl n l m₁⟩
  obtain ⟨m', left, given', handled', own', -⟩ := given₂.disown
  have flags' : (m'.lock l).flags = (m₁.lock l).flags := by
    rw [← lock₂]
    rcases own' with same | ⟨-, same⟩
    · rw [same]
    · rw [same]
  have handled : Handled n l (m.callsAbout m' n flags l) m m' := by
    have flags₀ : (m₀.lock l).flags = (m.lock l).flags ||| Cleanup.visitFlags flags := by
      rw [own₀]
      rfl
    have holders : (m₀.lock l).hasHolders = (m.lock l).hasHolders := by
      rw [own₀]
      rfl
    have calls : m.callsAbout m' n flags l = [] ++ [call] ++
        (if asks then [.peerCancel n l flags (m₁.lock l).flags 1] else []) ++ [] := by
      unfold callsAbout
      rw [holders, flags₀] at told
      rw [flags']
      split at told
      · rename_i failing
        obtain ⟨rfl, rfl⟩ := told
        rw [if_pos failing]
        rfl
      · rename_i other
        obtain ⟨rfl, rfl⟩ := told
        rw [if_neg other]
        show (if ((m.space n).isClient && (m.space n).hasPeer && _) = true then _ else _) =
          _ ++ (if ((m.space n).isClient && (m.space n).hasPeer && _) = true then _ else _) ++ _
        split
        · rfl
        · rfl
    rw [calls]
    exact ((handled₀.trans handled₁).trans handled₂).trans handled'
  have marked : (m'.lock l).flags.contains ((m.lock l).flags ||| Cleanup.visitFlags flags) := by
    have after := handled₁.flags
    rw [own₀, ← flags'] at after
    exact after
  have cleaned := Cleanup.cleaned_of_marked marked
  refine ⟨m', ?_, ⟨given'.seated, ?_, handled.booked draining.booked, draining.within, ?_, ?_⟩,
    handled, marked⟩
  · have rest : (do
        if asks then askPeer n l flags 0
        Act.disown l : Act Unit) m₁ = .ok () m' := by
      cases asks with
      | true => exact (run_bind asked).trans left
      | false =>
        cases asked
        exact left
    unfold Cleanup.visit
    rw [run_bind (show Act.modifyLock l _ m = .ok () _ from rfl),
      run_bind (show Act.own l _ = .ok () m₀ from rfl), run_bind treated]
    exact rest
  · rw [handled.alike.owners]
    exact draining.owned
  · intro s p there k inside unvisited
    have other : k ≠ l := by
      rintro rfl
      cases unvisited.symm.trans cleaned
    rw [handled.others k other] at unvisited ⊢
    exact draining.wanted s p there k (handled.mem_of_mem_queue there inside) unvisited
  · intro s p there k inside visited
    have before := handled.mem_of_mem_queue there inside
    by_cases same : k = l
    · subst same
      obtain ⟨rfl, rfl⟩ := draining.seated.eq_of_mem here there member before
      have link := given'.seated.link there inside
      rw [← lock₂] at anchored
      rcases own' with kept | ⟨free, dropped⟩
      · rw [kept] at link ⊢
        exact anchored.resolve_left (link ▸ Option.some_ne_none p)
      · rw [dropped] at link
        cases free.symm.trans link
    · rw [handled.others k same] at visited ⊢
      exact draining.anchored s p there k before visited

end Draining

end Manager

end Lockspace
