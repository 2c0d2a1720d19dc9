import Lockspace.Proofs.Migration.Lockless

namespace Lockspace

open Manager Act

/-- A namespace is once on the list that a link names, and on no other. -/
structure SideLists.Holds (s : SideLists) (n : SpaceKey) (link : NamespaceLink) : Prop where
  active : s.active.count n = if link = .active then 1 else 0
  inactive : s.inactive.count n = if link = .inactive then 1 else 0

namespace SideLists

variable {s : SideLists} {n : SpaceKey} {link : NamespaceLink}

theorem holds_detached : s.Holds n .detached ↔ n ∉ s.active ∧ n ∉ s.inactive := by
  rw [← List.count_eq_zero, ← List.count_eq_zero]
  exact ⟨fun holds => ⟨holds.active, holds.inactive⟩, fun absent => ⟨absent.1, absent.2⟩⟩

/-- A namespace on a list is found there and taken off. -/
theorem Holds.take (holds : s.Holds n link) (on : link ≠ .detached) :
    ∃ rest, s.take? n = some rest ∧ rest.Holds n .detached := by
  obtain ⟨active, inactive⟩ := holds
  unfold take?
  cases link with
  | detached => exact absurd rfl on
  | active =>
    have inside : n ∈ s.active := List.count_pos_iff.mp (by rw [active]; decide)
    refine ⟨_, if_pos inside, ⟨?_, inactive⟩⟩
    show (s.active.erase n).count n = 0
    rw [List.count_erase_self, active]
    rfl
  | inactive =>
    have outside : n ∉ s.active := List.count_eq_zero.mp active
    have inside : n ∈ s.inactive := List.count_pos_iff.mp (by rw [inactive]; decide)
    rw [if_neg outside]
    refine ⟨_, if_pos inside, ⟨active, ?_⟩⟩
    show (s.inactive.erase n).count n = 0
    rw [List.count_erase_self, inactive]
    rfl

theorem Holds.append (holds : s.Holds n .detached) (link : NamespaceLink) :
    (s.append link n).Holds n link := by
  obtain ⟨active, inactive⟩ := holds
  have added : ∀ names : List SpaceKey, names.count n = 0 → (names ++ [n]).count n = 1 := by
    intro names none
    rw [List.count_append, none, List.count_singleton_self]
  cases link with
  | detached => exact ⟨active, inactive⟩
  | active => exact ⟨added _ active, inactive⟩
  | inactive => exact ⟨active, added _ inactive⟩

theorem Holds.pushInactive (holds : s.Holds n .detached) : (s.pushInactive n).Holds n .inactive := by
  refine ⟨holds.active, ?_⟩
  show (n :: s.inactive).count n = 1
  rw [List.count_cons_self, holds.inactive]
  rfl

end SideLists

/-- The lists of the side of a namespace. -/
def Manager.lists (m : Manager) (n : SpaceKey) : SideLists :=
  m.registry.get (m.space n).side

/-- A namespace is where its link says, in the registry and on no other list of its side. -/
structure Manager.Placed (m : Manager) (n : SpaceKey) (link : NamespaceLink) : Prop where
  linked : (m.space n).link = link
  listed : (m.lists n).Holds n link

/-- A namespace still has the table, the side and the owners that it had. -/
structure Manager.Houses (n : SpaceKey) (m m' : Manager) : Prop where
  table : (m'.space n).table = (m.space n).table
  side : (m'.space n).side = (m.space n).side
  owners : (m'.space n).owners = (m.space n).owners

/-- The state with other lists on the side of a namespace and with another link in it. -/
def Manager.relist (m : Manager) (n : SpaceKey) (lists : SideLists) (link : NamespaceLink) : Manager :=
  { m with registry := m.registry.set (m.space n).side lists }.modifySpace n fun s =>
    { s with link }

namespace Manager

variable {n : SpaceKey} {m m' : Manager} {link : NamespaceLink}

theorem Placed.congr (placed : m.Placed n link) (spaces : m'.spaces = m.spaces)
    (registry : m'.registry = m.registry) : m'.Placed n link := by
  have space : m'.space n = m.space n := by simp only [Manager.space, spaces]
  have lists : m'.lists n = m.lists n := by simp only [Manager.lists, space, registry]
  exact ⟨space ▸ placed.linked, lists ▸ placed.listed⟩

theorem houses_relist (lists : SideLists) : Houses n m (m.relist n lists link) := by
  have space : (m.relist n lists link).space n = { m.space n with link } :=
    (space_modifySpace ..).trans (if_pos rfl)
  constructor <;> rw [space]

theorem placed_relist {lists : SideLists} (holds : lists.Holds n link) :
    (m.relist n lists link).Placed n link := by
  have space : (m.relist n lists link).space n = { m.space n with link } :=
    (space_modifySpace ..).trans (if_pos rfl)
  refine ⟨by rw [space], ?_⟩
  have registry : (m.relist n lists link).registry = m.registry.set (m.space n).side lists := rfl
  rw [Manager.lists, space, registry, Registry.get_set, if_pos rfl]
  exact holds

end Manager

namespace Act

variable {n : SpaceKey} {m : Manager} {link : NamespaceLink}

/-- What is taken off its list gets to the tail of the one that it is moved to. -/
theorem run_moveTo_of_take {rest : SideLists} (on : (m.space n).link ≠ .detached)
    (taken : (m.lists n).take? n = some rest) (target : NamespaceLink) :
    moveTo (m.space n).side n target m = .ok () (m.relist n (rest.append target n) target) := by
  have found : (m.registry.get (m.space n).side).take? n = some rest := taken
  unfold moveTo
  rw [run_bind (run_space n m)]
  simp only [ne_eq, not_true_eq_false, if_false, if_neg on]
  rw [run_bind (show (get : Act Manager) m = .ok m m from rfl), found]
  rfl

/-- A namespace that is on a list always gets onto the one that it is moved to. -/
theorem run_moveTo (placed : m.Placed n link) (on : link ≠ .detached) (target : NamespaceLink) :
    ∃ lists, lists.Holds n target ∧
      moveTo (m.space n).side n target m = .ok () (m.relist n lists target) := by
  obtain ⟨rest, taken, gone⟩ := placed.listed.take on
  refine ⟨rest.append target n, gone.append target, run_moveTo_of_take ?_ taken target⟩
  rw [placed.linked]
  exact on

/-- A namespace that is on no list yet gets onto the inactive one. -/
theorem run_register (placed : m.Placed n .detached) :
    ∃ lists, lists.Holds n .inactive ∧ register n m = .ok () (m.relist n lists .inactive) := by
  refine ⟨(m.lists n).pushInactive n, placed.listed.pushInactive, ?_⟩
  unfold register
  rw [run_bind (run_space n m)]
  simp only [ne_eq, placed.linked, not_true_eq_false, if_false]
  rfl

theorem run_emit (r : ResourceRef) (event : ResourceEvent) (m : Manager) :
    ∃ trace, emit r event m = .ok () { m with trace } :=
  ⟨_, rfl⟩

/-- The announcement of the first reference of a client is what makes it active, and it always
succeeds. -/
theorem ends_announce (placed : m.Placed n link) (on : link ≠ .detached) (key : ResourceKey)
    (first : Bool) (bref : Nat) :
    (announce ⟨n, key⟩ first bref).Ends m (fun _ => False) fun _ m' => Houses n m m' ∧
      m'.Placed n (if first ∧ bref = 1 ∧ (m.space n).side = .client then .active else link) := by
  obtain ⟨trace, told⟩ := run_emit ⟨n, key⟩ .created m
  have kept : Manager.Placed { m with trace } n link := placed.congr rfl rfl
  unfold announce
  refine ends_bind.mpr (ends_of_run told ?_)
  cases first with
  | false => exact ends_pure.mpr ⟨⟨rfl, rfl, rfl⟩, kept⟩
  | true =>
    obtain ⟨trace, told⟩ := run_emit ⟨n, key⟩ .bucketOccupied { m with trace }
    have kept : Manager.Placed { m with trace } n link := placed.congr rfl rfl
    refine ends_bind.mpr (ends_of_run told (ends_bind.mpr (ends_space.mpr ?_)))
    show (if decide (bref = 1) && (m.space n).side.isClient then _ else _ : Act Unit).Ends _ _ _
    have client : (m.space n).side.isClient = true ↔ (m.space n).side = .client := by
      cases (m.space n).side <;> decide
    simp only [Bool.and_eq_true, decide_eq_true_eq, client, true_and]
    split
    · rename_i moves
      obtain ⟨lists, holds, moved⟩ := run_moveTo kept on .active
      have here : Manager.space { m with trace } n = m.space n := rfl
      rw [here, moves.2] at moved
      have houses : Houses n { m with trace } (Manager.relist { m with trace } n lists .active) :=
        houses_relist lists
      exact ends_of_run moved ⟨⟨houses.table, houses.side, houses.owners⟩, placed_relist holds⟩
    · exact ends_pure.mpr ⟨⟨rfl, rfl, rfl⟩, kept⟩

/-- A setup that succeeds makes a new namespace, which then joins the registry. -/
theorem exists_register_of_build {setup : Setup} {m₀ : Manager}
    (run : build setup m₀ = .ok (.ok n) m) : ∃ preset m₁, setup.preset = .ok preset ∧
      m₁.space n = setup.toNamespace preset ∧
      (∀ side, m₁.registry.get side = m₀.registry.get side) ∧ register n m₁ = .ok () m := by
  unfold build at run
  cases given : setup.preset with
  | error e =>
    rw [given] at run
    cases run
  | ok preset =>
    rw [given] at run
    obtain ⟨_, _, ⟨⟩, run⟩ := ok_of_bind run
    obtain ⟨_, _, ⟨⟩, run⟩ := ok_of_bind run
    obtain ⟨_, _, joined, ⟨⟩⟩ := ok_of_bind run
    refine ⟨preset, _, rfl, ?_, ?_, joined⟩
    · exact Store.get_set_self m₀.spaces m₀.spaces.nextKey _
    · intro side
      cases side <;> rfl

/-- A namespace that is set up has an empty table and is inactive. -/
theorem placed_of_build {setup : Setup} {m₀ : Manager} (run : build setup m₀ = .ok (.ok n) m)
    (unlisted : (m₀.registry.get setup.side).Holds n .detached) :
    Fresh n m.lockless ∧ (m.space n).side = setup.side ∧ m.Placed n .inactive := by
  obtain ⟨preset, m₁, given, made, registry, joined⟩ := exists_register_of_build run
  have side : (m₁.space n).side = setup.side := by rw [made, Setup.toNamespace]
  have placed : m₁.Placed n .detached := by
    refine ⟨by rw [made]; rfl, ?_⟩
    rw [Manager.lists, registry, side]
    exact unlisted
  obtain ⟨lists, holds, ran⟩ := run_register placed
  rw [ran] at joined
  cases joined
  have houses : Houses n m₁ (m₁.relist n lists .inactive) := houses_relist lists
  refine ⟨⟨?_, ?_, fun _ => rfl⟩, houses.side.trans side, placed_relist holds⟩
  · refine ⟨preset, setup.salt, setup.config.enqueueMin, Setup.isSound_of_preset given, ?_⟩
    exact houses.table.trans (by rw [made]; rfl)
  · exact houses.owners.trans (by rw [made]; rfl)

end Act

end Lockspace
