import Lockspace.Proofs.Commuting.Stored
import Lockspace.Proofs.Quiescence.Calls
import Lockspace.Proofs.ResourceRuns
import Lockspace.Proofs.Rolls.Operated

namespace Lockspace

open Manager Act Table

/-- The references that a caller has on resources of a namespace, by their ids and names. -/
abbrev Hands := ResourceId → List (Nat × ResourceKey)

namespace ResourceOp

/-- Does an operation about a namespace, for a caller with such references. -/
def perform (n : SpaceKey) (hands : Hands) : ResourceOp → Act (Upshot ResourceKey × Hands)
  | get id name rtype create => do
    match ← getOrCreate n id rtype create with
    | .ok r => return (.got r.key, Function.update hands id ((name, r.key) :: hands id))
    | .error e => return (.refused e, hands)
  | put id name =>
    match (hands id).lookup name with
    | some key => do
      let gone ← Act.put ⟨n, key⟩
      return (.dropped gone, Function.update hands id ((hands id).eraseP (·.1 == name)))
    | none => return (.skipped, hands)

/-- Does operations one after another and tells what comes of each. -/
def performAll (n : SpaceKey) (hands : Hands) :
    List ResourceOp → Act (List (ResourceOp × Upshot ResourceKey) × Hands)
  | [] => return ([], hands)
  | op :: rest => do
    let (upshot, hands) ← op.perform n hands
    let (told, hands) ← performAll n hands rest
    return ((op, upshot) :: told, hands)

end ResourceOp

namespace Manager

/-- A namespace that somebody holds, that is not freed and none of whose locks is queued, as it
serves a caller with references that are among those that callers have. -/
structure Serves (n : SpaceKey) (hands : Hands) (has : Stakes) (m : Manager) : Prop where
  built : n ∈ has.built
  held : 0 < (m.space n).owners
  unfreed : (m.space n).freed = false
  unlocked : ∀ key, ((m.space n).table.resource key).queued = 0
  named : ∀ id, ∀ h ∈ hands id, ((m.space n).table.resource h.2).id = id
  owned : ∀ id, ↑((hands id).map fun h => ResourceRef.mk n h.2) ≤ has.hands

/-- One id in a namespace, for a caller with such references. -/
def slot (m : Manager) (n : SpaceKey) (hands : Hands) (id : ResourceId) : Slot ResourceKey :=
  ⟨(m.space n).table.stored? id, hands id⟩

variable {m m' : Manager} {n : SpaceKey} {hands : Hands} {has : Stakes}
  {refs : Multiset ResourceRef} {id : ResourceId} {key : ResourceKey}

namespace Serves

variable (serves : m.Serves n hands has) (upheld : m.Upheld has)

include serves upheld

theorem tallied : (m.space n).table.Tallied (refKeys (has.hands + m.boundRefs) n) 0 (has.holds n) :=
  upheld.booked.tallied n serves.built

theorem filed : (m.space n).table.Filed (has.holds n) :=
  (serves.tallied upheld).toFiled

theorem pos_of_keyAt? (found : (m.space n).table.keyAt? id = some key) :
    0 < ((m.space n).table.resource key).refcount :=
  (serves.tallied upheld).live_pos ((serves.tallied upheld).live_of_find? (by simp) found)

/-- What a caller has a reference on is the entry of its id. -/
theorem keyAt?_of_mem {h : Nat × ResourceKey} (member : h ∈ hands id) :
    ⟨n, h.2⟩ ∈ has.hands ∧ (m.space n).table.keyAt? id = some h.2 := by
  have owned : ⟨n, h.2⟩ ∈ has.hands :=
    Multiset.mem_of_le (serves.owned id) (Multiset.mem_coe.mpr (List.mem_map_of_mem member))
  have live : h.2 ∈ refKeys (has.hands + m.boundRefs) n :=
    mem_refKeys.mpr (Multiset.mem_add.mpr (Or.inl owned))
  have found := (serves.tallied upheld).find? (Multiset.mem_add.mpr (Or.inl live))
  rw [serves.named id h member] at found
  exact ⟨owned, found⟩

/-- The namespace goes on to serve a caller after an operation on one id. -/
theorem goes_on {now : Option (Stored ResourceKey)} {made : Nat} {left : List (Nat × ResourceKey)}
    (owners : (m'.space n).owners = (m.space n).owners)
    (freed : (m'.space n).freed = (m.space n).freed)
    (revises : (m.space n).table.Revises id now made (m'.space n).table)
    (named : ∀ h ∈ left, ((m'.space n).table.resource h.2).id = id)
    (here : ↑(left.map fun h => ResourceRef.mk n h.2) ≤ refs)
    (others : ∀ i, i ≠ id → ↑((hands i).map fun h => ResourceRef.mk n h.2) ≤ refs) :
    m'.Serves n (Function.update hands id left) { has with hands := refs } := by
  refine ⟨serves.built, owners ▸ serves.held, freed ▸ serves.unfreed,
    fun key => revises.queued key (serves.unlocked key), fun i => ?_, fun i => ?_⟩
  · by_cases same : i = id
    · subst same
      rwa [Function.update_self]
    · rw [Function.update_of_ne same]
      intro h member
      have found := (serves.keyAt?_of_mem upheld member).2
      rw [revises.named h.2 ((serves.filed upheld).known_of_keyAt? found)]
      exact serves.named i h member
  · by_cases same : i = id
    · subst same
      rwa [Function.update_self]
    · rw [Function.update_of_ne same]
      exact others i same

end Serves

/-- A revision of the table under the id of an operation is one of the slot. -/
theorem slot_eq_of_revises {op : ResourceOp} {s : Slot ResourceKey} {made : Nat}
    (revises : (m.space n).table.Revises op.id s.stored made (m'.space n).table) :
    m'.slot n (Function.update hands op.id s.handles) =
      Function.update (m.slot n hands) op.id s := by
  funext id
  by_cases here : id = op.id
  · subst here
    rw [slot, revises.stored, Function.update_self, Function.update_self, Function.update_self]
  · rw [slot, revises.stored, Function.update_of_ne here, Function.update_of_ne here,
      Function.update_of_ne here]
    rfl

/-- An operation has an upshot and leaves a slot behind, with so many new resources, and the
namespace goes on to serve its caller. -/
def Performs (m : Manager) (n : SpaceKey) (hands : Hands) (has : Stakes) (op : ResourceOp)
    (done : Upshot ResourceKey × Slot ResourceKey) (made : Nat) : Prop :=
  ∃ refs m', op.perform n hands m = .ok (done.1, Function.update hands op.id done.2.handles) m' ∧
    m'.Upheld { has with hands := refs } ∧
    m'.Serves n (Function.update hands op.id done.2.handles) { has with hands := refs } ∧
    (m.space n).table.Revises op.id done.2.stored made (m'.space n).table

namespace Serves

variable {name : Nat} {rtype : ResourceType} {create : Bool}

section Gets

variable (serves : m.Serves n hands has) (upheld : m.Upheld has) (seq : id.seq ≠ 0)

include serves upheld

/-- A call that gives out a resource leaves the caller with one more reference. -/
theorem performs_get {now : Option (Stored ResourceKey)} {made : Nat}
    (run : getOrCreate n id rtype create m = .ok (.ok ⟨n, key⟩) m')
    (revises : (m.space n).table.Revises id now made (m'.space n).table)
    (named : ((m'.space n).table.resource key).id = id) :
    m.Performs n hands has (.get id name rtype create)
      (.got key, ⟨now, (name, key) :: hands id⟩) made := by
  refine ⟨⟨n, key⟩ ::ₘ has.hands, m', run_bind run, (Call.get serves.built run).upholds upheld,
    serves.goes_on upheld ?_ ?_ revises ?_ ?_ ?_, revises⟩
  · exact (Booked.owners_getOrCreate id rtype create m).of_ok run n
  · exact ((shuffled_getOrCreate id rtype create m).of_ok run).freed n
  · refine List.forall_mem_cons.mpr ⟨named, fun h member => ?_⟩
    have found := (serves.keyAt?_of_mem upheld member).2
    rw [revises.named h.2 ((serves.filed upheld).known_of_keyAt? found)]
    exact serves.named id h member
  · exact Multiset.cons_le_cons _ (serves.owned id)
  · exact fun i _ => (serves.owned i).trans (Multiset.le_cons_self ..)

include seq

theorem performs_get_of_found (found : (m.space n).table.keyAt? id = some key) :
    m.Performs n hands has (.get id name rtype create)
      (.got key, ⟨some ⟨key, ((m.space n).table.resource key).rtype,
        ((m.space n).table.resource key).refcount + 1⟩, (name, key) :: hands id⟩) 0 := by
  have run : getOrCreate n id rtype create m = .ok (.ok ⟨n, key⟩) _ :=
    run_getOrCreate_of_find? seq found (serves.pos_of_keyAt? upheld found)
  have revises := (serves.filed upheld).revises_recount found
    (((m.space n).table.resource key).refcount + 1)
  rw [← table_setTable m n ((m.space n).table.recount key _)] at revises
  refine serves.performs_get upheld run revises ?_
  rw [revises.named key ((serves.filed upheld).known_of_keyAt? found)]
  exact (serves.filed upheld).id_of_keyAt? found

theorem performs_get_of_missing (absent : (m.space n).table.keyAt? id = none) :
    m.Performs n hands has (.get id name rtype false)
      (.refused (.notFound id), m.slot n hands id) 0 := by
  have run : getOrCreate n id rtype false m = .ok (.error (.notFound id)) _ :=
    run_getOrCreate_of_missing seq absent
  have revises : (m.space n).table.Revises id ((m.space n).table.stored? id) 0
      ((m.setTable n (m.space n).table).space n).table := by
    rw [table_setTable]
    exact revises_self
  refine ⟨has.hands, _, (run_bind run).trans ?_, (Call.missed serves.built run).upholds upheld,
    serves.goes_on upheld ?_ ?_ revises ?_ (serves.owned id) fun i _ => serves.owned i, revises⟩
  · rw [slot, ResourceOp.id, Function.update_eq_self]
    rfl
  · exact (Booked.owners_getOrCreate id rtype false m).of_ok run n
  · exact ((shuffled_getOrCreate id rtype false m).of_ok run).freed n
  · rw [table_setTable]
    exact serves.named id

theorem performs_get_of_created (absent : (m.space n).table.keyAt? id = none) :
    m.Performs n hands has (.get id name rtype true)
      (.got (m.space n).table.resources.nextKey,
        ⟨some ⟨(m.space n).table.resources.nextKey, rtype, 1⟩,
          (name, (m.space n).table.resources.nextKey) :: hands id⟩) 1 := by
  have enters := run_getOrCreate_of_entered rtype seq absent
  have same : SameRoll m (m.entered n id rtype) := (sameRoll_setTable _ m).of_ok rfl
  have enrols : m.Enrols has.built := upheld.enrolled
  have on : ((m.entered n id rtype).space n).link ≠ .detached := by
    rw [same.link, ne_eq, enrols.detached serves.built, serves.unfreed]
    exact Bool.false_ne_true
  obtain ⟨m', announced, tables⟩ := run_announce_of_listed (enrols.listed.sameRoll same)
    (m.space n).table.resources.nextKey fun _ _ _ => on
  have run : getOrCreate n id rtype true m =
      .ok (.ok ⟨n, (m.space n).table.resources.nextKey⟩) m' :=
    enters.trans (run_bind announced)
  have table := (tables n).trans (table_setTable m n _)
  have revises : (m.space n).table.Revises id
      (some ⟨(m.space n).table.resources.nextKey, rtype, 1⟩) 1 (m'.space n).table := by
    rw [table]
    exact (serves.filed upheld).revises_enter (.new id rtype _ _) absent rfl rfl
  refine serves.performs_get upheld run revises ?_
  rw [table, resource_enter, if_pos rfl]
  rfl

end Gets

section Puts

variable (serves : m.Serves n hands has) (upheld : m.Upheld has)
  (found : (hands id).lookup name = some key)

include serves upheld found

/-- A release that returns leaves the caller with one reference fewer. -/
theorem performs_put {now : Option (Stored ResourceKey)} {gone : Bool}
    (run : release ⟨n, key⟩ m = .ok gone m')
    (revises : (m.space n).table.Revises id now 0 (m'.space n).table) :
    m.Performs n hands has (.put id name)
      (.dropped gone, ⟨now, (hands id).eraseP (·.1 == name)⟩) 0 := by
  have owners : (m'.space n).owners = (m.space n).owners := ((steady_release m).of_ok run).owners n
  have put : Act.put ⟨n, key⟩ m = .ok gone m' := by
    unfold Act.put
    rw [run_bind run, run_bind (run_dropIfDeserted (owners ▸ serves.held))]
    rfl
  have taken := Slot.perm_of_lookup found
  have refs : ((hands id).map fun h => ResourceRef.mk n h.2).Perm
      (⟨n, key⟩ :: ((hands id).eraseP (·.1 == name)).map fun h => ResourceRef.mk n h.2) :=
    taken.map _
  have owned : ⟨n, key⟩ ∈ has.hands :=
    (serves.keyAt?_of_mem upheld (taken.mem_iff.mpr List.mem_cons_self)).1
  obtain ⟨rest, split⟩ := Multiset.exists_cons_of_mem owned
  refine ⟨rest, m', ?_, (Call.put split put).upholds upheld,
    serves.goes_on upheld owners ?_ revises (fun h member => ?_) ?_ fun i other => ?_, revises⟩
  · simp only [ResourceOp.perform, found]
    exact run_bind put
  · exact ((sameRoll_release m).of_ok run).shuffled.freed n
  · have before := List.mem_of_mem_eraseP member
    have known := (serves.filed upheld).known_of_keyAt? (serves.keyAt?_of_mem upheld before).2
    rw [revises.named h.2 known]
    exact serves.named id h before
  · have most := serves.owned id
    rwa [Multiset.coe_eq_coe.mpr refs, split, ← Multiset.cons_coe,
      Multiset.cons_le_cons_iff] at most
  · have most := serves.owned i
    rw [split] at most
    refine (Multiset.le_cons_of_notMem ?_).mp most
    rintro member
    obtain ⟨h, here, same⟩ := List.mem_map.mp (Multiset.mem_coe.mp member)
    obtain rfl : h.2 = key := congrArg ResourceRef.key same
    have named := serves.named id _ (taken.mem_iff.mpr List.mem_cons_self)
    exact other ((serves.named i h here).symm.trans named)

/-- What a caller gives back leaves the table with its last reference. -/
theorem performs_put_of_found : m.Performs n hands has (.put id name)
    (if ((m.space n).table.resource key).refcount = 1 then
      (.dropped true, ⟨none, (hands id).eraseP (·.1 == name)⟩)
    else (.dropped false, ⟨some ⟨key, ((m.space n).table.resource key).rtype,
      ((m.space n).table.resource key).refcount - 1⟩, (hands id).eraseP (·.1 == name)⟩)) 0 := by
  have member := (Slot.perm_of_lookup found).mem_iff.mpr List.mem_cons_self
  have entry := (serves.keyAt?_of_mem upheld member).2
  split
  · rename_i last
    obtain ⟨emptied, bref, t, gone, revises⟩ :=
      (serves.filed upheld).release_of_last entry last (serves.unlocked key)
    refine serves.performs_put upheld found (run_release_of_freed gone) ?_
    rw [table_freed, table_setTable]
    exact revises
  · rename_i more
    have some : 0 < ((m.space n).table.resource key).refcount := serves.pos_of_keyAt? upheld entry
    have shared : 2 ≤ ((m.space n).table.resource key).refcount := by omega
    refine serves.performs_put upheld found (run_release_of_kept (release_of_shared shared)) ?_
    rw [table_setTable]
    exact (serves.filed upheld).revises_recount entry _

end Puts

/-- An operation does to its id what it does to a slot, and nothing to the others. -/
theorem performs (serves : m.Serves n hands has) (upheld : m.Upheld has) (op : ResourceOp)
    (seq : op.id.seq ≠ 0) : m.Performs n hands has op
      ((m.slot n hands op.id).step (m.space n).table.resources.nextKey op)
      (if (m.slot n hands op.id).creates op then 1 else 0) := by
  cases op with
  | get id name rtype create =>
    cases found : (m.space n).table.keyAt? id with
    | some key =>
      have stored : (m.slot n hands id).stored = some ⟨key, ((m.space n).table.resource key).rtype,
          ((m.space n).table.resource key).refcount⟩ := by rw [slot, stored?, found]; rfl
      have kept : (m.slot n hands id).creates (.get id name rtype create) = false := by
        rw [Slot.creates, stored, Option.isNone_some, Bool.and_false]
      simp only [ResourceOp.id, kept, Slot.step, stored]
      exact serves.performs_get_of_found upheld seq found
    | none =>
      have stored : (m.slot n hands id).stored = none := by rw [slot, stored?, found]; rfl
      cases create with
      | false =>
        simp only [ResourceOp.id, Slot.creates, Slot.step, stored]
        exact serves.performs_get_of_missing upheld seq found
      | true =>
        simp only [ResourceOp.id, Slot.creates, Slot.step, stored]
        exact serves.performs_get_of_created upheld seq found
  | put id name =>
    cases found : (hands id).lookup name with
    | some key =>
      have member := (Slot.perm_of_lookup found).mem_iff.mpr List.mem_cons_self
      have entry := (serves.keyAt?_of_mem upheld member).2
      have stored : (m.slot n hands id).stored = some ⟨key, ((m.space n).table.resource key).rtype,
          ((m.space n).table.resource key).refcount⟩ := by rw [slot, stored?, entry]; rfl
      have handles : (m.slot n hands id).handles = hands id := rfl
      simp only [ResourceOp.id, Slot.creates, Slot.step, stored, handles, found]
      exact serves.performs_put_of_found upheld found
    | none =>
      have handles : (m.slot n hands id).handles = hands id := rfl
      simp only [ResourceOp.id, Slot.creates, Slot.step, handles, found]
      refine ⟨has.hands, m, ?_, upheld, serves.goes_on upheld rfl rfl revises_self (serves.named id)
        (serves.owned id) fun i _ => serves.owned i, revises_self⟩
      simp only [ResourceOp.perform, found, ResourceOp.id, handles, Function.update_eq_self]
      rfl

end Serves

end Manager

end Lockspace
