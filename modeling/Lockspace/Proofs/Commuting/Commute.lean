import Lockspace.Proofs.Commuting.Ledgers
import Lockspace.Proofs.Commuting.Serving
import Mathlib.Data.Set.Function

namespace Lockspace

open Manager Act Table Ledger

variable {m m' : Manager} {n : SpaceKey} {hands hands' : Hands} {has : Stakes} {before : Table}
  {ledgers : ResourceId → Ledger} {place : Object → ResourceKey} {op : ResourceOp}
  {ops ops' : List ResourceOp}

namespace ResourceOp

/-- The resources that stand for the known objects of a run have the ids of those. -/
def Named (before t : Table) (ledgers : ResourceId → Ledger) (place : Object → ResourceKey) :
    Prop :=
  ∀ o ∈ known before.resources.size ledgers, (t.resource (place o)).id = o.idFrom before

/-- A resource keeps its id, and a new one has that of the operation. -/
theorem Named.step {before t t' : Table} {slots : ResourceId → Slot ResourceKey} {holds : Nat}
    (named : Named before t ledgers place) (filed : t'.Filed holds)
    (places : Places before.resources.size t.resources.size slots ledgers place)
    (revises : t.Revises op.id ((slots op.id).step t.resources.nextKey op).2.stored
      (if (slots op.id).creates op then 1 else 0) t') :
    Named before t' (stepIn ledgers op).2 (placed ledgers place t.resources.size op) := by
  have old : ∀ o ∈ known before.resources.size ledgers,
      (t'.resource (placed ledgers place t.resources.size op o)).id = o.idFrom before := by
    intro o member
    rw [← eqOn_placed _ op member, revises.named _ (places.bij.mapsTo member)]
    exact named o member
  intro o member
  cases made : (ledgers op.id).slot.creates op with
  | false =>
    rw [known_stepIn_of_kept made] at member
    exact old o member
  | true =>
    rw [known_stepIn_of_made made] at member
    rcases member with rfl | member
    · rw [← Slot.creates_map _ place, ← places.slots] at made
      obtain ⟨rtype, stored⟩ := Slot.stored_step_of_creates made t.resources.nextKey
      have now := congrFun revises.stored op.id
      rw [Function.update_self, stored] at now
      obtain ⟨key, found, same⟩ := Option.map_eq_some_iff.mp now
      obtain ⟨rfl, -, -⟩ := Stored.mk.inj same
      rw [placed_made]
      exact filed.id_of_keyAt? found
    · exact old o member

/-- How operations go that a namespace serves: as the ledgers of their ids say, where every object
stands for a resource. -/
structure Follows (before : Table) (m : Manager) (n : SpaceKey) (hands : Hands) (has : Stakes)
    (ledgers : ResourceId → Ledger) (place : Object → ResourceKey) (ops : List ResourceOp)
    (m' : Manager) (hands' : Hands) (refs : Multiset ResourceRef)
    (place' : Object → ResourceKey) : Prop where
  run : performAll n hands ops m =
    .ok ((runIn ledgers ops).1.map (fun e => (e.1, e.2.map place')), hands') m'
  upheld : m'.Upheld { has with hands := refs }
  serves : m'.Serves n hands' { has with hands := refs }
  places : Places before.resources.size (m'.space n).table.resources.size (m'.slot n hands')
    (runIn ledgers ops).2 place'
  eqOn : (known before.resources.size ledgers).EqOn place place'
  named : Named before (m'.space n).table (runIn ledgers ops).2 place'
  bucketOf : (m'.space n).table.bucketOf = (m.space n).table.bucketOf

theorem exists_follows (serves : m.Serves n hands has) (upheld : m.Upheld has)
    (seq : ∀ op ∈ ops, op.id.seq ≠ 0)
    (places : Places before.resources.size (m.space n).table.resources.size (m.slot n hands)
      ledgers place)
    (named : Named before (m.space n).table ledgers place) : ∃ m' hands' refs place',
      Follows before m n hands has ledgers place ops m' hands' refs place' := by
  induction ops generalizing m hands has ledgers place with
  | nil =>
    exact ⟨m, hands, has.hands, place, rfl, upheld, serves, places, Set.eqOn_refl .., named, rfl⟩
  | cons op rest ih =>
    obtain ⟨now, later⟩ := List.forall_mem_cons.mp seq
    obtain ⟨refs, m₁, done, upheld₁, serves₁, revises⟩ := serves.performs upheld op now
    have places₁ := places.step op
    rw [← revises.size] at places₁
    obtain ⟨m₂, hands₂, refs₂, place₂, follows⟩ := ih serves₁ upheld₁ later
      (by rw [slot_eq_of_revises revises]; exact places₁)
      (named.step (serves₁.filed upheld₁) places revises)
    have within := (within_stepIn op places.within).1
    have upshot : ((m.slot n hands op.id).step (m.space n).table.resources.nextKey op).1 =
        (stepIn ledgers op).1.map place₂ := by
      rw [← Upshot.map_congr within follows.eqOn]
      exact congrArg Prod.fst (places.step_eq op)
    refine ⟨m₂, hands₂, refs₂, place₂, ?_, follows.upheld, follows.serves, follows.places,
      (eqOn_placed ..).trans (follows.eqOn.mono (known_subset_stepIn ..)), follows.named,
      follows.bucketOf.trans revises.bucketOf⟩
    refine (run_bind done).trans ((run_bind follows.run).trans ?_)
    rw [upshot]
    rfl

/-- Before the operations, the objects are the resources of the table. -/
theorem places_start (serves : m.Serves n hands has) (upheld : m.Upheld has) :
    Places (m.space n).table.resources.size (m.space n).table.resources.size (m.slot n hands)
      (fun id => ⟨(m.slot n hands id).map .old, 0⟩) Object.start := by
  refine ⟨⟨?_, ?_, ?_⟩, fun _ => rfl, fun id => ⟨?_, ?_⟩, fun id => ?_⟩
  · rintro (key | ⟨i, birth⟩) member
    · exact member
    · exact absurd member (Nat.not_lt_zero birth)
  · rintro (key | ⟨i, birth⟩) member (key' | ⟨i', birth'⟩) member' same
    · exact congrArg Object.old same
    · exact absurd member' (Nat.not_lt_zero birth')
    · exact absurd member (Nat.not_lt_zero birth)
    · exact absurd member (Nat.not_lt_zero birth)
  · exact fun key known => ⟨.old key, known, rfl⟩
  · intro o member
    obtain ⟨o', stored, rfl⟩ := Option.map_eq_some_iff.mp member
    obtain ⟨key, found, rfl⟩ := Option.map_eq_some_iff.mp stored
    exact (serves.filed upheld).known_of_keyAt? found
  · intro h member
    obtain ⟨h', owned, rfl⟩ := List.mem_map.mp member
    exact (serves.filed upheld).known_of_keyAt? (serves.keyAt?_of_mem upheld owned).2
  · rw [Slot.map_map]
    exact (Slot.map_id _).symm

theorem named_start : Named (m.space n).table (m.space n).table
    (fun id => ⟨(m.slot n hands id).map .old, 0⟩) Object.start := by
  rintro (key | ⟨i, birth⟩) member
  · rfl
  · exact absurd member (Nat.not_lt_zero birth)

/-- Two runs of operations from one state come out alike, up to the keys of the resources that they
made: what comes of the operations on each id, what their caller has, and the tables. -/
structure RunAlike (n : SpaceKey) (renamed : ResourceKey → ResourceKey) (m m₁ m₂ : Manager)
    (told₁ told₂ : List (ResourceOp × Upshot ResourceKey)) (hands₁ hands₂ : Hands) : Prop where
  old : ∀ key, key.index < (m.space n).table.resources.size → renamed key = key
  bij : Set.BijOn renamed {key | key.index < (m₁.space n).table.resources.size}
    {key | key.index < (m₂.space n).table.resources.size}
  named : ∀ key, key.index < (m₁.space n).table.resources.size →
    ((m₂.space n).table.resource (renamed key)).id = ((m₁.space n).table.resource key).id
  upshots : ∀ id, told₂.filter (·.1.id = id) =
    (told₁.filter (·.1.id = id)).map fun e => (e.1, e.2.map renamed)
  hands : ∀ id, hands₂ id = (hands₁ id).map fun h => (h.1, renamed h.2)
  table : (m₁.space n).table.Corresponds renamed (m₂.space n).table

/-- Operations that come out as the same ledgers of their ids say run alike. -/
theorem runAlike_of_follows {m₁ m₂ : Manager} {hands₁ hands₂ : Hands}
    {refs₁ refs₂ : Multiset ResourceRef} {place₁ place₂ : Object → ResourceKey}
    (places : Places (m.space n).table.resources.size (m.space n).table.resources.size
      (m.slot n hands) ledgers place)
    (same : ∀ id, ops'.filter (·.id = id) = ops.filter (·.id = id))
    (once : Follows (m.space n).table m n hands has ledgers place ops m₁ hands₁ refs₁ place₁)
    (again : Follows (m.space n).table m n hands has ledgers place ops' m₂ hands₂ refs₂ place₂) :
    ∃ renamed, RunAlike n renamed m m₁ m₂ ((runIn ledgers ops).1.map fun e => (e.1, e.2.map place₁))
      ((runIn ledgers ops').1.map fun e => (e.1, e.2.map place₂)) hands₁ hands₂ := by
  obtain ⟨ends, upshots⟩ := runIn_of_same ledgers same
  have places₁ := once.places
  have places₂ := again.places
  rw [ends] at places₂
  let objects := known (m.space n).table.resources.size (runIn ledgers ops).2
  -- A resource of the first run becomes the one that stands for the same object in the second.
  let renamed := place₂ ∘ Function.invFunOn place₁ objects
  have renames : objects.EqOn (renamed ∘ place₁) place₂ := by
    intro o member
    exact congrArg place₂ (places₁.bij.injOn.leftInvOn_invFunOn member)
  have slots : ∀ id, m₂.slot n hands₂ id = (m₁.slot n hands₁ id).map renamed := by
    intro id
    rw [places₁.slots, places₂.slots, Slot.map_map]
    exact (Slot.map_congr (places₁.within id) renames).symm
  have back := Set.BijOn.symm places₁.bij.invOn_invFunOn.symm places₁.bij
  refine ⟨renamed, fun key known => ?_, places₂.bij.comp back, fun key known => ?_, fun id => ?_,
    fun id => congrArg Slot.handles (slots id), ?_⟩
  · have here := renames (show Object.old key ∈ objects from known)
    rwa [Function.comp_apply, places₁.old, places₂.old] at here
  · obtain ⟨o, member, rfl⟩ := places₁.bij.surjOn known
    have same := again.named o
    rw [ends] at same
    exact (congrArg (fun key => ((m₂.space n).table.resource key).id) (renames member)).trans
      ((same member).trans (once.named o member).symm)
  · have told := (within_runIn ops places.within).2
    rw [List.filter_map, List.filter_map, List.map_map]
    show ((runIn ledgers ops').1.filter (·.1.id = id)).map _ =
      ((runIn ledgers ops).1.filter (·.1.id = id)).map _
    rw [upshots]
    refine List.map_congr_left fun e member => congrArg (Prod.mk e.1) ?_
    rw [Upshot.map_map]
    exact (Upshot.map_congr (told e (List.mem_of_mem_filter member)) renames).symm
  · exact .of_stored (once.serves.filed once.upheld) (again.serves.filed again.upheld)
      (again.bucketOf.trans once.bucketOf.symm) fun id => congrArg Slot.stored (slots id)

/-- Operations on different ids commute: whatever their order, they come out alike, as long as those
on each id have the same order. -/
theorem commute (calls : Calls ({}, {}) (m, has)) (serves : m.Serves n hands has)
    (seq : ∀ op ∈ ops, op.id.seq ≠ 0)
    (same : ∀ id, ops'.filter (·.id = id) = ops.filter (·.id = id)) :
    ∃ told₁ told₂ hands₁ hands₂ m₁ m₂ renamed,
      performAll n hands ops m = .ok (told₁, hands₁) m₁ ∧
      performAll n hands ops' m = .ok (told₂, hands₂) m₂ ∧
      told₁.map Prod.fst = ops ∧ told₂.map Prod.fst = ops' ∧
      RunAlike n renamed m m₁ m₂ told₁ told₂ hands₁ hands₂ := by
  have upheld : m.Upheld has := calls.upholds .empty
  have places := places_start serves upheld
  have seq' : ∀ op ∈ ops', op.id.seq ≠ 0 := by
    intro op member
    have here : op ∈ ops'.filter (·.id = op.id) := List.mem_filter.mpr ⟨member, by simp⟩
    rw [same] at here
    exact seq op (List.mem_of_mem_filter here)
  obtain ⟨m₁, hands₁, refs₁, place₁, once⟩ := exists_follows serves upheld seq places named_start
  obtain ⟨m₂, hands₂, refs₂, place₂, again⟩ := exists_follows serves upheld seq' places named_start
  obtain ⟨renamed, alike⟩ := runAlike_of_follows places same once again
  refine ⟨_, _, hands₁, hands₂, m₁, m₂, renamed, once.run, again.run, ?_, ?_, alike⟩
  · rw [List.map_map]
    exact map_fst_runIn ops
  · rw [List.map_map]
    exact map_fst_runIn ops'

/-- In a bucket with one resource, that is given back and made anew, after another one was made or
before. Only then is the bucket emptied on the way, and the two new resources change keys. -/
theorem commute_in_one_bucket : ∃ m has hands told₁ told₂ hands₁ hands₂ m₁ m₂ renamed,
    Calls ({}, {}) (m, has) ∧ m.Serves ⟨0⟩ hands has ∧
    performAll ⟨0⟩ hands [.get ⟨2, 0, 0, 0⟩ 0 .plain true, .put ⟨1, 0, 0, 0⟩ 0,
      .get ⟨1, 0, 0, 0⟩ 1 .plain true, .put ⟨2, 0, 0, 0⟩ 0] m = .ok (told₁, hands₁) m₁ ∧
    performAll ⟨0⟩ hands [.put ⟨1, 0, 0, 0⟩ 0, .get ⟨1, 0, 0, 0⟩ 1 .plain true,
      .get ⟨2, 0, 0, 0⟩ 0 .plain true, .put ⟨2, 0, 0, 0⟩ 0] m = .ok (told₂, hands₂) m₂ ∧
    told₁.map Prod.snd = [.got ⟨1⟩, .dropped true, .got ⟨2⟩, .dropped true] ∧
    told₂.map Prod.snd = [.dropped true, .got ⟨1⟩, .got ⟨2⟩, .dropped true] ∧
    RunAlike ⟨0⟩ renamed m m₁ m₂ told₁ told₂ hands₁ hands₂ := by
  let one : ResourceId := ⟨1, 0, 0, 0⟩
  let hands : Hands := Function.update (fun _ => []) one [(0, ⟨0⟩)]
  let ops : List ResourceOp := [.get ⟨2, 0, 0, 0⟩ 0 .plain true, .put one 0,
    .get one 1 .plain true, .put ⟨2, 0, 0, 0⟩ 0]
  let ops' : List ResourceOp := [.put one 0, .get one 1 .plain true,
    .get ⟨2, 0, 0, 0⟩ 0 .plain true, .put ⟨2, 0, 0, 0⟩ 0]
  obtain ⟨m₀, built, _, m, found, rfl, held, unfreed, unlocked, named, once, again⟩ :
      ∃ m₀, Act.build .oneBucket {} = .ok (.ok ⟨0⟩) m₀ ∧
        (getOrCreate ⟨0⟩ one .plain true).Returns m₀ fun on m => on = .ok ⟨⟨0⟩, ⟨0⟩⟩ ∧
          0 < (m.space ⟨0⟩).owners ∧ (m.space ⟨0⟩).freed = false ∧
          (m.space ⟨0⟩).table.lockTotal = 0 ∧ ((m.space ⟨0⟩).table.resource ⟨0⟩).id = one ∧
          (performAll ⟨0⟩ hands ops).Leaves m (fun told _ => told.toOption.map (·.1.map Prod.snd) =
            some [.got ⟨1⟩, .dropped true, .got ⟨2⟩, .dropped true]) ∧
          (performAll ⟨0⟩ hands ops').Leaves m (fun told _ => told.toOption.map (·.1.map Prod.snd) =
            some [.dropped true, .got ⟨1⟩, .got ⟨2⟩, .dropped true]) :=
    ⟨_, rfl, by decide +kernel⟩
  let has : Stakes := { hands := {⟨⟨0⟩, ⟨0⟩⟩}, built := [⟨0⟩] }
  have calls : Calls ({}, {}) (m, has) :=
    (Calls.single (.build built)).tail (.get List.mem_cons_self found)
  have serves : m.Serves ⟨0⟩ hands has := by
    refine ⟨List.mem_cons_self, held, unfreed, (Store.sum_eq_zero _ rfl).mp unlocked,
      fun i => ?_, fun i => ?_⟩
    · by_cases here : i = one
      · rw [here]
        exact List.forall_mem_singleton.mpr named
      · rw [show hands i = [] from Function.update_of_ne here ..]
        exact List.forall_mem_nil _
    · by_cases here : i = one
      · rw [here]
        exact le_rfl
      · rw [show hands i = [] from Function.update_of_ne here ..]
        exact Multiset.zero_le _
  have same : ∀ i, ops'.filter (·.id = i) = ops.filter (·.id = i) := by
    intro i
    by_cases first : one = i
    · subst first
      decide
    · simp only [ops, ops', List.filter_cons, ResourceOp.id, first, decide_false,
        Bool.false_eq_true, if_false]
  have seq : ∀ op ∈ ops, op.id.seq ≠ 0 := by decide
  obtain ⟨told₁, told₂, hands₁, hands₂, m₁, m₂, renamed, run₁, run₂, -, -, alike⟩ :=
    commute calls serves seq same
  exact ⟨m, has, hands, told₁, told₂, hands₁, hands₂, m₁, m₂, renamed, calls, serves, run₁, run₂,
    Option.some.inj (once.of_ok run₁), Option.some.inj (again.of_ok run₂), alike⟩

end ResourceOp

end Lockspace
