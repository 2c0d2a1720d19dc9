import Lockspace.Proofs.Destruction.Waning
import Lockspace.Proofs.Indices.IndexedActs
import Lockspace.Proofs.Quiescence.Calls

namespace Lockspace

open Manager Act

/-- What a call does about the references that locks own: it gives one to a lock, it takes one back
from a lock, or neither. -/
inductive Transfer where
  | none
  | given (l : LockKey)
  | returned (l : LockKey)
deriving DecidableEq

/-- The calls about resources, locks and namespaces that destroy no lock. -/
inductive Ordinary : {α : Type} → Transfer → Act α → Prop
  | build (setup : Setup) : Ordinary .none (Act.build setup)
  | get (n : SpaceKey) (id : ResourceId) (rtype : ResourceType) (create : Bool) :
      Ordinary .none (getOrCreate n id rtype create)
  | clone (r : ResourceRef) : Ordinary .none (retain r)
  | put (r : ResourceRef) : Ordinary .none (Act.put r)
  | list (n : SpaceKey) : Ordinary .none (Act.resources n)
  | newLock (handle : LockHandle) (mode : LockMode) (extent : Option Extent) :
      Ordinary .none (Act.newLock handle mode extent)
  | disown (l : LockKey) : Ordinary .none (Act.disown l)
  | bind (l : LockKey) (r : ResourceRef) : Ordinary (.given l) (Act.bind l r)
  | unbind (l : LockKey) : Ordinary (.returned l) (Act.unbind l)
  | unused (n : SpaceKey) (l : LockKey) : Ordinary .none (lockUnused n l)
  | reused (n : SpaceKey) (l : LockKey) : Ordinary .none (lockReused n l)
  | take (n : SpaceKey) (limits : VictimLimits) : Ordinary .none (takeVictims n limits)
  | takeAll (n : SpaceKey) : Ordinary .none (takeAllUnused n)
  | add (r : ResourceRef) (q : Queue) (l : LockKey) : Ordinary .none (addLock r q l)
  | insert (r : ResourceRef) (anchor l : LockKey) : Ordinary .none (insertAfter r anchor l)
  | unlink (r : ResourceRef) (l : LockKey) : Ordinary .none (Act.unlink r l)
  | leave (n : SpaceKey) : Ordinary .none (disownSpace n)
  | free (n : SpaceKey) : Ordinary .none (freePost n)

namespace Manager

/-- The second state differs from the first in nothing that queues, lists of unused locks or the
standing and the destruction of locks tell. -/
structure Incidental (m m' : Manager) : Prop where
  standing : ∀ l, (m'.lock l).standing = (m.lock l).standing
  extent : ∀ l, (m'.lock l).extent = (m.lock l).extent
  destroyed : ∀ l, (m'.lock l).isDestroyed = (m.lock l).isDestroyed
  resource : ∀ r, ∃ count lvb, m'.resource r = { m.resource r with refcount := count, lvb }
  lru : ∀ n, (m'.space n).lru = (m.space n).lru

/-- A lock is on no queue, or on one of the resource that it would be looked for on. -/
def AtHome (m : Manager) (l : LockKey) : Prop :=
  (m.lock l).link = none ∨ ∃ r q, (m.lock l).home = some r ∧ (m.resource r).refcount ≠ 0 ∧
    (m.lock l).link = some q ∧ l ∈ m.queue r q

instance (m : Manager) (l : LockKey) : Decidable (m.AtHome l) :=
  decidable_of_iff ((m.lock l).link = none ∨ ∃ r ∈ (m.lock l).home, ∃ q ∈ (m.lock l).link,
      0 < (m.resource r).refcount ∧ (m.queue r q).contains l) <| or_congr_right
    ⟨fun ⟨r, home, q, link, referenced, member⟩ =>
        ⟨r, q, home, referenced.ne', link, List.contains_iff_mem.mp member⟩,
      fun ⟨r, q, home, referenced, link, member⟩ =>
        ⟨r, home, q, link, Nat.pos_of_ne_zero referenced, List.contains_iff_mem.mpr member⟩⟩

variable {may : Prop} {m m' : Manager} {l k : LockKey} {n : SpaceKey} {r : ResourceRef} {q : Queue}
  {locks : List LockKey}

theorem lru_joined : ((m.joined r l q locks).space n).lru = (m.space n).lru := by
  refine (view_modifySpace (·.lru) rfl n).trans ?_
  rw [space_modifyLock]
  exact view_modifySpace (m := m.claimed l q) (·.lru) rfl n

/-- A lock that is not destroyed joins a queue. -/
theorem wanes_joined (whole : (m.lock k).isDestroyed = false) :
    Wanes may l m (m.joined r k q locks) := by
  have unused : ∀ n, ((m.joined r k q locks).space n).lru = (m.space n).lru := fun _ => lru_joined
  refine ⟨?_, fun gone free => ?_, Or.inr (Or.inl ?_), fun _ n => by rw [unused]; exact id,
    fun n => by rw [unused]; exact id⟩
  · rw [lock_joined]
    split
    · rename_i same
      rw [same]
      rfl
    · rfl
  · rw [lock_joined, if_neg]
    · exact free
    · rintro rfl
      rw [whole] at gone
      cases gone
  · rw [lock_joined]
    split
    · rename_i same
      rw [same]
    · rfl

namespace Incidental

theorem wanes (incidental : Incidental m m') : Wanes may l m m' where
  destroyed := incidental.destroyed l
  link _ free := (congrArg (·.1) (incidental.standing l)).trans free
  bound := Or.inr (Or.inl (congrArg (·.2.2.1) (incidental.standing l)))
  unused _ n := by
    rw [incidental.lru]
    exact id
  sound n := by
    rw [incidental.lru]
    exact id

/-- Handles may change on the side, so no more than the queues and what is counted stays right. -/
theorem keepsIndices (incidental : Incidental m m') : KeepsIndices False m m' := by
  refine fun _ => ⟨False.elim, fun indexed => indexed.of_queues (fun r => ?_) fun r before => ?_⟩
  · obtain ⟨count, lvb, same⟩ := incidental.resource r
    rw [same]
  · obtain ⟨count, lvb, same⟩ := incidental.resource r
    have relocked : (m.resource r).Lined m'.lock := before.toLined.others fun q l _ =>
      ⟨congrArg (·.1) (incidental.standing l), congrArg (·.2.2.2) (incidental.standing l)⟩
    rw [same]
    exact ⟨⟨relocked.link, relocked.nodup, relocked.total, relocked.grouped⟩, before.kind,
      before.sorted, False.elim, before.uncounted⟩

end Incidental

end Manager

namespace Act

variable {may : Prop} {m : Manager} {l k anchor : LockKey} {n : SpaceKey} {r : ResourceRef}
  {q : Queue}

theorem wanes_unlink : (unlink r k).Preserves (Wanes may l) := by
  refine preserves_unlink (fun _ _ _ _ => .modifySpace (fun _ => id) id) (fun _ => ?_) fun _ => ?_
  · exact .modifyLock fun _ => ⟨rfl, Or.inr rfl, Or.inr (Or.inl rfl)⟩
  · exact wanes_modifySpace fun _ => rfl

theorem wanes_finalizeUnused : (finalizeUnused n).Preserves (Wanes may l) := by
  refine preserves_space.bind fun s => ?_
  refine (preserves_forM fun k _ => wanes_owners (k := k) (· + 1)).bind fun _ => ?_
  refine Preserves.bind (fun m => Wanes.modifySpace (fun _ => nofun) fun _ => ?_) fun _ => ?_
  · exact UnusedLru.Sound.finalize _
  · exact preserves_forM fun k _ => wanes_disown

theorem wanes_freePost : (freePost n).Preserves (Wanes may l) := by
  refine preserves_freePost (fun m m' spaces locks => ?_) (fun f _ _ _ lru => ?_)
    wanes_finalizeUnused (wanes_of_lightens ?_)
  · refine Wanes.of_lists locks (fun _ n => ?_) fun n => ?_
    all_goals
      simp only [Manager.space, spaces]
      exact id
  · exact wanes_modifySpace lru
  · exact preserves_space.bind fun s => (lightens_setTable _).bind fun _ => preserves_pure _

theorem wanes_disownSpace : (disownSpace n).Preserves (Wanes may l) := by
  refine Preserves.bind ?_ fun _ => preserves_get.bind fun m => ?_
  · exact wanes_modifySpace fun _ => rfl
  · exact wanes_of_lightens (lightens_dropDesertedUpTo _ n)

theorem indices_freePost {apart : Prop} : (freePost n).Preserves (KeepsIndices apart) := by
  refine preserves_freePost (fun _ _ => keepsIndices_of_eq) (fun f table _ _ _ => ?_)
    (indices_calls.drops.finalizeUnused n) fun m => ?_
  · exact fun _ => keepsIndices_modifySpace n (table _)
  · have resources := (m.space n).table.resources_clearFrom (m.space n).table.buckets.keys
    refine keepsIndices_of_alike n fun key => ⟨((m.space n).table.resource key).refcount, ?_⟩
    exact congrArg (fun store => store.get key) resources

end Act

namespace Ordinary

variable {α : Type} {t : Transfer} {act : Act α} {m : Manager} {l : LockKey}

/-- What a call that destroys nothing does to any lock. Only the one to which it gives a reference
may own another one afterwards. -/
theorem wanes (ordinary : Ordinary t act) (m : Manager) (l : LockKey) :
    act.Ends m (fun _ => True) fun _ m' => Wanes (t = .given l) l m m' := by
  have always {α : Type} {act : Act α} {may : Prop} (keeps : act.Preserves (Wanes may l)) :
      act.Ends m (fun _ => True) fun _ m' => Wanes may l m m' := (keeps m).ends
  cases ordinary with
  | build setup => exact always (wanes_build setup)
  | get n id rtype create => exact always (wanes_of_lightens (lightens_getOrCreate id rtype create))
  | clone r => exact always (wanes_of_lightens lightens_retain)
  | put r => exact always (wanes_of_lightens lightens_put)
  | list n => exact always (wanes_of_lightens lightens_resources)
  | newLock handle mode extent => exact always (wanes_newLock handle mode extent)
  | disown k => exact always wanes_disown
  | bind k r => exact always (wanes_bind fun same => by rw [same])
  | unbind k => exact always wanes_unbind
  | unused n k => exact always wanes_lockUnused
  | reused n k => exact always wanes_lockReused
  | take n limits => exact always (wanes_takeVictims limits)
  | takeAll n => exact always wanes_takeAllUnused
  | add r q k =>
    refine ends_addLock.imp fun _ m' after => ?_
    rcases after with rfl | ⟨whole, rfl⟩
    · exact .rfl
    · exact wanes_joined whole
  | insert r anchor k =>
    refine ends_insertAfter.imp fun _ m' after => ?_
    rcases after with rfl | ⟨whole, q, -, rfl⟩
    · exact .rfl
    · exact wanes_joined whole
  | unlink r k => exact always wanes_unlink
  | leave n => exact always wanes_disownSpace
  | free n => exact always wanes_freePost

/-- The calls keep queues, links and indices in agreement. -/
theorem indices {apart : Prop} (ordinary : Ordinary t act) :
    act.Preserves (KeepsIndices apart) := by
  have drops : DropsWithin (KeepsIndices apart) := indices_calls.drops
  cases ordinary with
  | build setup => exact indices_build setup
  | get n id rtype create => exact indices_getOrCreate id rtype create
  | clone r => exact indices_retain
  | put r => exact drops.put r
  | list n => exact indices_resources
  | newLock handle mode extent => exact indices_newLock handle mode extent
  | disown k => exact drops.disown k
  | bind k r => exact indices_calls.bind
  | unbind k => exact drops.unbind k
  | unused n k => exact indices_calls.lockUnused
  | reused n k => exact drops.lockReused n k
  | take n limits =>
    refine indices_calls.ticked.bind fun now => preserves_get.bind fun m => ?_
    split
    refine Preserves.bind ?_ fun _ => preserves_pure _
    exact indices_calls.spaced n _ fun _ => rfl
  | takeAll n =>
    refine preserves_space.bind fun s => ?_
    split
    refine Preserves.bind ?_ fun _ => preserves_pure _
    exact indices_calls.spaced n _ fun _ => rfl
  | add r q k => exact indices_addLock
  | insert r anchor k => exact indices_insertAfter
  | unlink r k => exact indices_unlink
  | leave n =>
    refine Preserves.bind ?_ fun _ => drops.dropIfDeserted n
    exact indices_calls.spaced n _ fun _ => rfl
  | free n => exact indices_freePost

end Ordinary

namespace Manager

/-- A lock has been marked destroyed. Its reference is still its own, and it is on no queue if it
was where it would be looked for. -/
structure Stripped (l : LockKey) (m m' : Manager) : Prop where
  destroyed : (m'.lock l).isDestroyed
  bound : (m'.lock l).bound = (m.lock l).bound
  free : m.AtHome l → (m'.lock l).link = none
  lru : ∀ n, (m'.space n).lru = (m.space n).lru

end Manager

namespace Act

variable {may : Prop} {m : Manager} {l k : LockKey}

theorem run_markDestroyed (l : LockKey) (m : Manager) : markDestroyed l m =
    .ok (!(m.lock l).isDestroyed) (m.modifyLock l (·.setFlags .destroyed)) :=
  rfl

/-- A lock that leaves its queue and is marked was not destroyed before if it is the first time. -/
theorem ends_unlinkAndMark_stripped (l : LockKey) (m : Manager) :
    (unlinkAndMark l).Ends m (fun _ => True) fun first m' =>
      first = !(m.lock l).isDestroyed ∧ Stripped l m m' := by
  -- The lock on its way: it keeps what it owns, and is off its queue where it was to be found.
  have marks : ∀ m₁ : Manager, (m₁.lock l).isDestroyed = (m.lock l).isDestroyed →
      (m₁.lock l).bound = (m.lock l).bound → (m.AtHome l → (m₁.lock l).link = none) →
      (∀ n, (m₁.space n).lru = (m.space n).lru) →
      (markDestroyed l).Ends m₁ (fun _ => True) fun first m' =>
        first = !(m.lock l).isDestroyed ∧ Stripped l m m' := by
    intro m₁ destroyed bound free lru
    have own : (m₁.modifyLock l (·.setFlags .destroyed)).lock l =
        (m₁.lock l).setFlags .destroyed := by rw [lock_modifyLock, if_pos rfl]
    refine ends_of_run (run_markDestroyed l m₁) ⟨by rw [destroyed], ?_, ?_, fun home => ?_, lru⟩
    · rw [own]
      exact LockFlags.contains_union_right _ _
    · rw [own]
      exact bound
    · rw [own]
      exact free home
  unfold unlinkAndMark
  rw [ends_bind]
  refine ends_of_run (run_homeOf_eq l m) ?_
  cases home : (m.lock l).home.filter fun r => (m.resource r).refcount > 0 with
  | none =>
    refine marks m rfl rfl (fun placed => ?_) fun _ => rfl
    rcases placed with free | ⟨r, q, here, referenced, -⟩
    · exact free
    · rw [here, Option.filter_some, if_pos (by simpa using Nat.pos_of_ne_zero referenced)] at home
      cases home
  | some r =>
    rw [ends_bind]
    refine ends_unlink_cases.imp fun _ m₁ after => ?_
    rcases after with ⟨free, rfl⟩ | ⟨q, res, -, -, rfl⟩
    · exact marks m₁ rfl rfl (fun _ => free) fun _ => rfl
    · refine marks _ ?_ ?_ (fun _ => ?_) fun n => ?_
      · rw [lock_departed, if_pos rfl]
        rfl
      · rw [lock_departed, if_pos rfl]
      · rw [lock_departed, if_pos rfl]
      · refine (view_modifySpace (·.lru) rfl n).trans ?_
        rw [space_modifyLock]
        exact view_modifySpace (m := m) (·.lru) rfl n

/-- To any other lock, and to one that is destroyed already, nothing happens. -/
theorem wanes_unlinkAndMark (again : l = k → (m.lock k).isDestroyed) :
    (unlinkAndMark k).Leaves m fun _ m' => Wanes may l m m' := by
  have marks : ∀ m₁, Wanes may l m m₁ →
      (markDestroyed k).Leaves m₁ fun _ m' => Wanes may l m m' := by
    intro m₁ wanes
    refine leaves_of_run (run_markDestroyed k m₁) (wanes.trans (.modifyLock fun here => ?_))
    subst here
    have gone : (m₁.lock l).isDestroyed := by rw [wanes.destroyed]; exact again rfl
    refine ⟨?_, Or.inl rfl, Or.inr (Or.inl rfl)⟩
    rw [gone]
    exact LockFlags.contains_union_right _ _
  unfold unlinkAndMark
  refine leaves_after (run_homeOf_eq k m) ?_
  cases (m.lock k).home.filter fun r => (m.resource r).refcount > 0 with
  | none => exact marks m .rfl
  | some r => exact (wanes_unlink m).bind (fun _ m₁ => marks m₁) fun _ _ wanes => wanes

end Act

end Lockspace
