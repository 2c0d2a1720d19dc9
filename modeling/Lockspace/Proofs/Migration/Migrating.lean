import Lockspace.Proofs.Migration.Filling
import Mathlib.Logic.Relation

namespace Lockspace

open Manager Act

/-- A change around a namespace. It keeps its entries and references, its side and its place in the
registry; other namespaces and all locks may do what they like. -/
structure Manager.Aside (n : SpaceKey) (m m' : Manager) : Prop where
  entries : (m.space n).table.SameEntries (m'.space n).table
  counts : ∀ key, ((m'.space n).table.resource key).refcount =
    ((m.space n).table.resource key).refcount
  side : (m'.space n).side = (m.space n).side
  linked : (m'.space n).link = (m.space n).link
  active : (m'.lists n).active.count n = (m.lists n).active.count n
  inactive : (m'.lists n).inactive.count n = (m.lists n).inactive.count n

/-- A state with what all threads have at hand in a namespace or stand in the middle of. For each
resource that was inserted into the empty table, the latest first, `firsts` has the number of holds
on the namespace at that time. -/
structure Scene where
  state : Manager
  acts : Multiset Activity
  firsts : List Nat

namespace Scene

/-- The holds at each insertion into the empty table after a step. -/
def record (n : SpaceKey) (m m' : Manager) (acts : Multiset Activity) (firsts : List Nat) :
    List Nat :=
  if (m.space n).table.size = 0 ∧ (m'.space n).table.size ≠ 0 then holdsOf acts :: firsts
  else firsts

/-- One step in a namespace: a call comes, somebody begins to use what is at hand, an activity goes
on, or something happens around the namespace. What locks do happens around it, and a reference that
a lock owns is a handle like any other. Nobody moves the namespace to the inactive list. -/
inductive Step (n : SpaceKey) : Scene → Scene → Prop
  | call {m : Manager} {acts : Multiset Activity} {firsts : List Nat} {a : Activity}
      (fresh : a.IsCall) : Step n ⟨m, acts, firsts⟩ ⟨m, a ::ₘ acts, firsts⟩
  | use {m : Manager} {acts : Multiset Activity} {firsts : List Nat} {a b : Activity}
      (uses : a.Uses b) : Step n ⟨m, a ::ₘ acts, firsts⟩ ⟨m, b ::ₘ acts, firsts⟩
  | advance {m m' : Manager} {acts : Multiset Activity} {firsts : List Nat} {a : Activity}
      {after : List Activity} (ofTable : a.isOfTable) (may : a.MayStep (m.space n).table acts)
      (run : a.advance n m = .ok after m') :
      Step n ⟨m, a ::ₘ acts, firsts⟩ ⟨m', ↑after + acts, record n m m' acts firsts⟩
  | aside {m m' : Manager} {acts : Multiset Activity} {firsts : List Nat} (aside : Aside n m m') :
      Step n ⟨m, acts, firsts⟩ ⟨m', acts, firsts⟩

abbrev Reaches (n : SpaceKey) : Scene → Scene → Prop :=
  Relation.ReflTransGen (Step n)

/-- Whether some activity is about to announce the first reference of a namespace. -/
def Heralded (acts : Multiset Activity) : Prop :=
  ∃ a ∈ acts, a.ushers = true

/-- What holds of a namespace between any two steps. A client is active or about to become so exactly
if nobody held it at one of the insertions into its empty table. -/
structure InPlace (n : SpaceKey) (s : Scene) : Prop where
  inOrder : InOrder n s.state.lockless s.acts
  placed : s.state.Placed n (s.state.space n).link
  on : (s.state.space n).link ≠ .detached
  server : (s.state.space n).side = .server → (s.state.space n).link = .inactive
  client : (s.state.space n).side = .client → (0 ∈ s.firsts ↔
    (s.state.space n).link = .active ∨ Heralded s.acts)
  filled : (s.state.space n).table.size ≠ 0 → s.firsts ≠ []

/-- A namespace keeps its side, and it stays active if it is. -/
structure Stays (n : SpaceKey) (s t : Scene) : Prop where
  side : (t.state.space n).side = (s.state.space n).side
  active : (s.state.space n).link = .active → (t.state.space n).link = .active

end Scene

variable {n : SpaceKey} {m m' : Manager} {a b : Activity} {acts rest : Multiset Activity}
  {after : List Activity} {firsts : List Nat} {s t : Scene} {link : NamespaceLink}

theorem Manager.Aside.placed (aside : Aside n m m') (placed : m.Placed n link) :
    m'.Placed n link := by
  refine ⟨aside.linked.trans placed.linked, ?_, ?_⟩
  · rw [aside.active]
    exact placed.listed.active
  · rw [aside.inactive]
    exact placed.listed.inactive

/-- What happens elsewhere moves no reference. -/
theorem Manager.Aside.keeps (aside : Aside n m m') :
    Manager.Keeps n m.lockless m'.lockless :=
  ⟨aside.entries, aside.counts, fun _ => rfl⟩

theorem Manager.Inward.placed (inward : Inward m m') (placed : m.Placed n link) :
    m'.Placed n link := by
  refine ⟨(inward.listed n).trans placed.linked, ?_⟩
  rw [Manager.lists, inward.registry, inward.side]
  exact placed.listed

/-- Without an insertion an empty table stays empty. -/
theorem InOrder.stays_empty (before : InOrder n m.lockless (a ::ₘ rest))
    (later : InOrder n m'.lockless (↑after + rest)) (sterile : a.Sterile (m.space n).table after)
    (empty : (m.space n).table.size = 0) : (m'.space n).table.size = 0 := by
  obtain ⟨hands, leaving⟩ := before.size_eq_zero.mp empty
  simp only [handsOf, leavingOf, Multiset.map_cons, Multiset.sum_cons, add_eq_zero] at hands leaving
  obtain ⟨none, gone⟩ := sterile.2 empty hands.1 leaving.1
  refine later.size_eq_zero.mpr ?_
  simp only [handsOf, leavingOf, Multiset.map_add, Multiset.sum_add, add_eq_zero] at none gone ⊢
  exact ⟨⟨none, hands.2⟩, gone, leaving.2⟩

namespace Scene

theorem record_of_empty (empty : (m.space n).table.size = 0 → (m'.space n).table.size = 0) :
    record n m m' acts firsts = firsts := by
  unfold record
  rw [if_neg]
  rintro ⟨before, later⟩
  exact later (empty before)

theorem filled_record (filled : (m.space n).table.size ≠ 0 → firsts ≠ [])
    (later : (m'.space n).table.size ≠ 0) : record n m m' acts firsts ≠ [] := by
  unfold record
  by_cases empty : (m.space n).table.size = 0
  · rw [if_pos ⟨empty, later⟩]
    exact List.cons_ne_nil _ _
  · rw [if_neg fun both => empty both.1]
    exact filled empty

theorem heralded_cons : Heralded (a ::ₘ acts) ↔ a.ushers = true ∨ Heralded acts := by
  simp only [Heralded, Multiset.mem_cons, or_and_right, exists_or, exists_eq_left]

theorem heralded_add : Heralded (↑after + acts) ↔ Heralded ↑after ∨ Heralded acts := by
  simp only [Heralded, Multiset.mem_add, or_and_right, exists_or]

/-- What moves the namespace to no other list and fills its table only as is recorded. -/
theorem InPlace.unmoved (inPlace : InPlace n s) (inOrder : InOrder n t.state.lockless t.acts)
    (side : (t.state.space n).side = (s.state.space n).side)
    (linked : (t.state.space n).link = (s.state.space n).link)
    (placed : ∀ link, s.state.Placed n link → t.state.Placed n link)
    (heralds : (s.state.space n).side = .client → ∀ p : Prop,
      (0 ∈ s.firsts ↔ p ∨ Heralded s.acts) → (0 ∈ t.firsts ↔ p ∨ Heralded t.acts))
    (filled : (t.state.space n).table.size ≠ 0 → t.firsts ≠ []) : InPlace n t ∧ Stays n s t := by
  refine ⟨⟨inOrder, ?_, ?_, ?_, ?_, filled⟩, side, ?_⟩
  · rw [linked]
    exact placed _ inPlace.placed
  · rw [linked]
    exact inPlace.on
  · rw [linked, side]
    exact inPlace.server
  · rw [linked, side]
    exact fun client => heralds client _ (inPlace.client client)
  · rw [linked]
    exact id

theorem InPlace.call (inPlace : InPlace n ⟨m, acts, firsts⟩) (fresh : a.IsCall) :
    InPlace n ⟨m, a ::ₘ acts, firsts⟩ ∧ Stays n ⟨m, acts, firsts⟩ ⟨m, a ::ₘ acts, firsts⟩ := by
  have silent : a.ushers = false := by
    revert fresh
    cases a <;> simp [Activity.IsCall, Activity.ushers]
  refine inPlace.unmoved (inPlace.inOrder.call fresh) rfl rfl (fun _ => id) (fun _ p before => ?_)
    inPlace.filled
  simpa [heralded_cons, silent] using before

theorem InPlace.use (inPlace : InPlace n ⟨m, a ::ₘ acts, firsts⟩) (uses : a.Uses b) :
    InPlace n ⟨m, b ::ₘ acts, firsts⟩ ∧
      Stays n ⟨m, a ::ₘ acts, firsts⟩ ⟨m, b ::ₘ acts, firsts⟩ := by
  obtain ⟨before, later⟩ : a.ushers = false ∧ b.ushers = false := by
    cases uses <;> exact ⟨rfl, rfl⟩
  refine inPlace.unmoved (inPlace.inOrder.use uses) rfl rfl (fun _ => id) (fun _ p known => ?_)
    inPlace.filled
  simpa [heralded_cons, before, later] using known

theorem InPlace.aside (inPlace : InPlace n ⟨m, acts, firsts⟩) (aside : Aside n m m') :
    InPlace n ⟨m', acts, firsts⟩ ∧ Stays n ⟨m, acts, firsts⟩ ⟨m', acts, firsts⟩ := by
  refine inPlace.unmoved (inPlace.inOrder.undisturbed aside.keeps) aside.side aside.linked
    (fun _ => aside.placed) (fun _ _ => id) fun filled => inPlace.filled ?_
  have size : (m'.space n).table.size = (m.space n).table.size := by
    rw [Table.size, aside.entries.buckets, Table.size]
  rwa [← size]

/-- A step that moves the namespace to no other list. -/
theorem InPlace.inward (inPlace : InPlace n ⟨m, a ::ₘ rest, firsts⟩) (calm : a.ushers = false)
    (later : InOrder n m'.lockless (↑after + rest)) (inward : Inward m m')
    (heralds : 0 ∈ record n m m' rest firsts ↔ 0 ∈ firsts ∨ Heralded ↑after) :
    InPlace n ⟨m', ↑after + rest, record n m m' rest firsts⟩ ∧
      Stays n ⟨m, a ::ₘ rest, firsts⟩ ⟨m', ↑after + rest, record n m m' rest firsts⟩ := by
  refine inPlace.unmoved later (inward.side n) (inward.listed n) (fun _ => inward.placed)
    (fun _ p before => ?_) (filled_record inPlace.filled)
  simp only [heralded_cons, calm, Bool.false_eq_true, false_or] at before
  rw [heralds, before, heralded_add]
  tauto

/-- An announcement makes a client active if it is of the first reference. -/
theorem InPlace.announced {key : ResourceKey} {first : Bool} {bref : Nat}
    (inPlace : InPlace n ⟨m, .announcing key first bref ::ₘ rest, firsts⟩)
    (later : InOrder n m'.lockless (↑after + rest))
    (run : (Activity.announcing key first bref).advance n m = .ok after m') :
    InPlace n ⟨m', ↑after + rest, record n m m' rest firsts⟩ ∧
      Stays n ⟨m, .announcing key first bref ::ₘ rest, firsts⟩
        ⟨m', ↑after + rest, record n m m' rest firsts⟩ := by
  obtain ⟨_, m₁, told, answer⟩ := ok_of_bind run
  cases answer
  obtain ⟨houses, placed⟩ := (ends_announce inPlace.placed inPlace.on key first bref).of_ok told
  have same : record n m m' rest firsts = firsts := record_of_empty fun empty => by
    rwa [houses.table]
  by_cases moves : first = true ∧ bref = 1 ∧ (m.space n).side = .client
  -- Only here does a namespace change lists.
  · rw [if_pos moves] at placed
    obtain ⟨taken, once, client⟩ := moves
    have ushers : Heralded (.announcing key first bref ::ₘ rest) :=
      heralded_cons.mpr (Or.inl (by simp [Activity.ushers, taken, once]))
    refine ⟨⟨later, ?_, ?_, ?_, ?_, filled_record inPlace.filled⟩, houses.side, ?_⟩
    · show m'.Placed n (m'.space n).link
      rwa [placed.linked]
    · show (m'.space n).link ≠ .detached
      rw [placed.linked]
      decide
    · intro served
      have served : (m'.space n).side = .server := served
      rw [houses.side, client] at served
      cases served
    · intro _
      have known : 0 ∈ firsts := (inPlace.client client).mpr (Or.inr ushers)
      rw [same]
      exact iff_of_true known (Or.inl placed.linked)
    · exact fun _ => placed.linked
  · rw [if_neg moves] at placed
    refine inPlace.unmoved later houses.side placed.linked (fun link before => ?_)
      (fun client p before => ?_) (filled_record inPlace.filled)
    · rwa [← before.linked]
    · have calm : (Activity.announcing key first bref).ushers = false := by
        have client : (m.space n).side = .client := client
        simpa [Activity.ushers, client] using moves
      simp only [heralded_cons, calm, Bool.false_eq_true, false_or] at before
      rw [same, before, heralded_add]
      simp [Heralded, Activity.ushers]

/-- An insertion announces the first reference if nobody holds the namespace. -/
theorem InPlace.created {id : ResourceId} {rtype : ResourceType} {seen : Nat}
    (inPlace : InPlace n ⟨m, .creating id rtype seen ::ₘ rest, firsts⟩)
    (later : InOrder n m'.lockless (↑after + rest))
    (run : (Activity.creating id rtype seen).advance n m = .ok after m') :
    InPlace n ⟨m', ↑after + rest, record n m m' rest firsts⟩ ∧
      Stays n ⟨m, .creating id rtype seen ::ₘ rest, firsts⟩
        ⟨m', ↑after + rest, record n m m' rest firsts⟩ := by
  obtain ⟨fills, heralds⟩ := inPlace.inOrder.ends_creating.of_ok run
  refine inPlace.inward rfl later ((inward_advance rfl rfl m).of_ok run) ?_
  change Heralded ↑after ↔ _ at heralds
  rw [heralds]
  unfold record
  by_cases empty : (m.space n).table.size = 0
  · rw [if_pos ⟨empty, fills empty⟩, List.mem_cons, or_comm, and_iff_right empty, eq_comm]
  · rw [if_neg fun both => empty both.1]
    simp only [empty, false_and, or_false]

/-- Anything else fills no empty table and announces nothing. -/
theorem InPlace.passed (inPlace : InPlace n ⟨m, a ::ₘ rest, firsts⟩) (ofTable : a.isOfTable)
    (announces : a.isAnnouncing = false) (creates : a.isCreating = false)
    (later : InOrder n m'.lockless (↑after + rest)) (run : a.advance n m = .ok after m') :
    InPlace n ⟨m', ↑after + rest, record n m m' rest firsts⟩ ∧
      Stays n ⟨m, a ::ₘ rest, firsts⟩ ⟨m', ↑after + rest, record n m m' rest firsts⟩ := by
  have calm : a.ushers = false := by
    cases a with
    | announcing key first bref => cases announces
    | _ => rfl
  have sterile := (ends_advance_of_other ofTable creates).of_ok run
  refine inPlace.inward calm later ((inward_advance ofTable announces m).of_ok run) ?_
  have silent : ¬ Heralded ↑after := by
    rintro ⟨b, made, ushers⟩
    rw [sterile.1 b (Multiset.mem_coe.mp made)] at ushers
    cases ushers
  rw [record_of_empty (inPlace.inOrder.stays_empty later sterile), or_iff_left silent]

/-- Whichever activity goes on, everything stays in its place. -/
theorem InPlace.advance (inPlace : InPlace n ⟨m, a ::ₘ rest, firsts⟩) (ofTable : a.isOfTable)
    (may : a.MayStep (m.space n).table rest) (run : a.advance n m = .ok after m') :
    InPlace n ⟨m', ↑after + rest, record n m m' rest firsts⟩ ∧
      Stays n ⟨m, a ::ₘ rest, firsts⟩ ⟨m', ↑after + rest, record n m m' rest firsts⟩ := by
  have ran := lockless_advance ofTable m after m' run
  have later := ((inPlace.inOrder.steps may).of_ok ran).inOrder
  cases a with
  | announcing key first bref => exact inPlace.announced later run
  | creating id rtype seen => exact inPlace.created later run
  | _ => exact inPlace.passed ofTable rfl rfl later run

theorem Step.inPlace (step : Step n s t) (inPlace : InPlace n s) : InPlace n t ∧ Stays n s t := by
  cases step with
  | call fresh => exact inPlace.call fresh
  | use uses => exact inPlace.use uses
  | advance ofTable may run => exact inPlace.advance ofTable may run
  | aside aside => exact inPlace.aside aside

theorem Reaches.inPlace (reaches : Reaches n s t) (inPlace : InPlace n s) :
    InPlace n t ∧ Stays n s t := by
  induction reaches with
  | refl => exact ⟨inPlace, rfl, id⟩
  | tail _ step ih =>
    obtain ⟨there, stays⟩ := ih
    obtain ⟨next, still⟩ := step.inPlace there
    exact ⟨next, still.side.trans stays.side, fun active => still.active (stays.active active)⟩

/-- A namespace starts inactive, with an empty table. -/
theorem InPlace.of_build {setup : Setup} (run : Act.build setup m = .ok (.ok n) m')
    (unlisted : (m.registry.get setup.side).Holds n .detached) :
    InPlace n ⟨m', 0, []⟩ ∧ (m'.space n).side = setup.side := by
  obtain ⟨fresh, side, placed⟩ := placed_of_build run unlisted
  have linked := placed.linked
  refine ⟨⟨.of_fresh fresh, ?_, ?_, fun _ => linked, ?_, ?_⟩, side⟩
  · show m'.Placed n (m'.space n).link
    rwa [linked]
  · show (m'.space n).link ≠ .detached
    rw [linked]
    decide
  · show _ → (0 ∈ [] ↔ (m'.space n).link = .active ∨ Heralded 0)
    rw [linked]
    simp [Heralded]
  · have empty : (m'.space n).table.size = 0 :=
      (InOrder.of_fresh fresh).size_eq_zero.mpr ⟨rfl, rfl⟩
    exact fun filled => absurd empty filled

/-- A server that is set up in a registry stays on the inactive list. A client is on the active list
if nobody held it when a resource got into its empty table, once that resource is announced, and
otherwise on the inactive list. So it is active with a resource in its table, unless somebody held
it whenever a first one came. Once active it stays so, even with an empty table. -/
theorem migrates {setup : Setup} (run : Act.build setup m = .ok (.ok n) m')
    (unlisted : n ∉ (m.registry.get setup.side).active ∧ n ∉ (m.registry.get setup.side).inactive)
    (reaches : Reaches n ⟨m', 0, []⟩ s) :
    (setup.side = .server → s.state.Placed n .inactive) ∧
    (setup.side = .client → (∀ a ∈ s.acts, a.ushers = false) →
      s.state.Placed n (if 0 ∈ s.firsts then .active else .inactive)) ∧
    ((s.state.space n).table.size ≠ 0 → s.firsts ≠ []) ∧
    ∀ t, Reaches n s t → s.state.Placed n .active → t.state.Placed n .active := by
  obtain ⟨start, side⟩ := InPlace.of_build run (SideLists.holds_detached.mpr unlisted)
  obtain ⟨inPlace, stays⟩ := reaches.inPlace start
  have same : (s.state.space n).side = setup.side := stays.side.trans side
  refine ⟨fun server => ?_, fun client announced => ?_, inPlace.filled, fun t further active => ?_⟩
  · have placed := inPlace.placed
    rwa [inPlace.server (same.trans server)] at placed
  · have silent : ¬ Heralded s.acts := by
      rintro ⟨a, present, ushers⟩
      rw [announced a present] at ushers
      cases ushers
    have known := inPlace.client (same.trans client)
    rw [or_iff_left silent] at known
    have placed := inPlace.placed
    -- Nothing is left to announce, so the record alone decides about the list.
    by_cases first : 0 ∈ s.firsts
    · rwa [if_pos first, ← known.mp first]
    · have idle : (s.state.space n).link = .inactive := by
        cases linked : (s.state.space n).link with
        | detached => exact absurd linked inPlace.on
        | active => exact absurd (known.mpr linked) first
        | inactive => rfl
      rwa [if_neg first, ← idle]
  · obtain ⟨there, later⟩ := further.inPlace inPlace
    have placed := there.placed
    rwa [later.active active.linked] at placed

/-- A client beside a server becomes active with its first resource. -/
theorem migrates_with_first_resource : ∃ m₀ m₁ s,
    Act.build .oneBucket {} = .ok (.ok ⟨0⟩) m₀ ∧ Act.build .peered m₀ = .ok (.ok ⟨1⟩) m₁ ∧
    Reaches ⟨1⟩ ⟨m₁, 0, []⟩ s ∧ s.acts = {.handle ⟨0⟩} ∧ s.firsts = [0] ∧
    s.state.Placed ⟨1⟩ .active := by
  let seeker : Activity := .seeking ⟨1, 2, 0, 0⟩ .plain true
  let creator : Activity := .creating ⟨1, 2, 0, 0⟩ .plain 0
  let announcer : Activity := .announcing ⟨0⟩ true 1
  obtain ⟨m₀, m₁, m₂, m₃, m₄, beside, built, unlisted, run₁, run₂, run₃, size₂, size₃⟩ :
      ∃ m₀ m₁ m₂ m₃ m₄, Act.build .oneBucket {} = .ok (.ok ⟨0⟩) m₀ ∧
      Act.build .peered m₀ = .ok (.ok ⟨1⟩) m₁ ∧
      (⟨1⟩ ∉ (m₀.registry.get .client).active ∧ ⟨1⟩ ∉ (m₀.registry.get .client).inactive) ∧
      seeker.advance ⟨1⟩ m₁ = .ok [creator] m₂ ∧ creator.advance ⟨1⟩ m₂ = .ok [announcer] m₃ ∧
      announcer.advance ⟨1⟩ m₃ = .ok [.handle ⟨0⟩] m₄ ∧ (m₂.space ⟨1⟩).table.size = 0 ∧
      (m₃.space ⟨1⟩).table.size = 1 :=
    ⟨_, _, _, _, _, rfl, rfl, by decide, rfl, rfl, rfl, rfl, rfl⟩
  have alone : ∀ (a : Activity) (t : Table), a.MayStep t 0 := by simp [Activity.MayStep]
  have record₁ : record ⟨1⟩ m₁ m₂ 0 [] = [] := by simp [record, size₂]
  have record₂ : record ⟨1⟩ m₂ m₃ 0 [] = [0] := by simp [record, size₂, size₃, holdsOf]
  have record₃ : record ⟨1⟩ m₃ m₄ 0 [0] = [0] := by simp [record, size₃]
  have calls : seeker.IsCall := trivial
  have sought : Step ⟨1⟩ ⟨m₁, seeker ::ₘ 0, []⟩ ⟨m₂, creator ::ₘ 0, record ⟨1⟩ m₁ m₂ 0 []⟩ :=
    .advance rfl (alone seeker _) run₁
  have created : Step ⟨1⟩ ⟨m₂, creator ::ₘ 0, []⟩ ⟨m₃, announcer ::ₘ 0, record ⟨1⟩ m₂ m₃ 0 []⟩ :=
    .advance rfl (alone creator _) run₂
  have announced : Step ⟨1⟩ ⟨m₃, announcer ::ₘ 0, [0]⟩
      ⟨m₄, .handle ⟨0⟩ ::ₘ 0, record ⟨1⟩ m₃ m₄ 0 [0]⟩ :=
    .advance rfl (alone announcer _) run₃
  rw [record₁] at sought
  rw [record₂] at created
  rw [record₃] at announced
  have reaches : Reaches ⟨1⟩ ⟨m₁, 0, []⟩ ⟨m₄, .handle ⟨0⟩ ::ₘ 0, [0]⟩ :=
    (((Relation.ReflTransGen.single (.call calls)).tail sought).tail created).tail announced
  obtain ⟨-, client, -⟩ := migrates built unlisted reaches
  refine ⟨m₀, m₁, _, beside, built, reaches, rfl, rfl, client rfl ?_⟩
  simp [Activity.ushers]

/-- A client that is held from outside when its first resource comes stays inactive with it, also
when the hold is given back. -/
theorem inactive_of_early_hold :
    (do
      discard (Act.build .peered)
      discard (takeHold ⟨0⟩)
      discard (getOrCreate ⟨0⟩ ⟨1, 0, 0, 0⟩ .plain true)
      discard (dropHold ⟨0⟩) : Act Unit).Leaves {} fun answer m => answer.isOk ∧
        (m.space ⟨0⟩).side = .client ∧ (m.space ⟨0⟩).table.size = 1 ∧
        (m.space ⟨0⟩).link = .inactive ∧ ⟨0⟩ ∉ (m.lists ⟨0⟩).active ∧
        ⟨0⟩ ∈ (m.lists ⟨0⟩).inactive := by
  decide +kernel

end Scene

end Lockspace
