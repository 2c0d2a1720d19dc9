import Lockspace.Proofs.Migration.Placement
import Lockspace.Proofs.Rolls.SameRoll

namespace Lockspace

open Manager Act

namespace SideLists

variable {s rest : SideLists} {n k : SpaceKey} {link : NamespaceLink}

/-- Whoever is taken off, the others stay where they are. -/
theorem Holds.beside_take (holds : s.Holds k link) (other : k ≠ n) (taken : s.take? n = some rest) :
    rest.Holds k link := by
  unfold take? at taken
  split at taken
  · cases taken
    exact ⟨(List.count_erase_of_ne other).trans holds.active, holds.inactive⟩
  split at taken
  · cases taken
    exact ⟨holds.active, (List.count_erase_of_ne other).trans holds.inactive⟩
  · cases taken

theorem Holds.beside_append (holds : s.Holds k link) (other : k ≠ n) (target : NamespaceLink) :
    (s.append target n).Holds k link := by
  have alone : [n].count k = 0 := List.count_eq_zero.mpr (by simpa using other)
  have same : ∀ names : List SpaceKey, (names ++ [n]).count k = names.count k := by
    intro names
    rw [List.count_append, alone, Nat.add_zero]
  cases target with
  | detached => exact holds
  | active => exact ⟨(same s.active).trans holds.active, holds.inactive⟩
  | inactive => exact ⟨holds.active, (same s.inactive).trans holds.inactive⟩

theorem Holds.beside_push (holds : s.Holds k link) (other : k ≠ n) :
    (s.pushInactive n).Holds k link :=
  ⟨holds.active, (List.count_cons_of_ne other.symm).trans holds.inactive⟩

theorem Holds.take_eq_none (holds : s.Holds n .detached) : s.take? n = none := by
  obtain ⟨active, inactive⟩ := holds_detached.mp holds
  unfold take?
  rw [if_neg active, if_neg inactive]

end SideLists

theorem Registry.set_get (r : Registry) (side : Side) : r.set side (r.get side) = r := by
  cases side <;> rfl

/-- The list of a side on which a namespace says that it is. -/
def Namespace.linkOn (s : Namespace) (side : Side) : NamespaceLink :=
  if side = s.side then s.link else .detached

namespace Manager

/-- Every namespace is once on the list of its side that its link names, and on no other list. -/
def Listed (m : Manager) : Prop :=
  ∀ n side, (m.registry.get side).Holds n ((m.space n).linkOn side)

/-- The registry knows one namespace anew, and the others as before. -/
structure Reentered (n : SpaceKey) (link : NamespaceLink) (freed : Bool) (m m' : Manager) :
    Prop where
  listed : m.Listed → m'.Listed
  spaces : m.spaces.size ≤ m'.spaces.size
  link : ∀ k, (m'.space k).link = if k = n then link else (m.space k).link
  freed : ∀ k, (m'.space k).freed = if k = n then freed else (m.space k).freed

/-- No namespace comes to the registry or leaves it. Those on a list may get onto another one. -/
structure Shuffled (m m' : Manager) : Prop where
  listed : m.Listed → m'.Listed
  spaces : m.spaces.size ≤ m'.spaces.size
  alive : m'.registry.alive = m.registry.alive
  freed : ∀ n, (m'.space n).freed = (m.space n).freed
  detached : ∀ n, (m'.space n).link = .detached ↔ (m.space n).link = .detached

variable {m m' m'' : Manager} {n : SpaceKey} {link : NamespaceLink} {freed : Bool}
  {lists : SideLists}

theorem Listed.placed (listed : m.Listed) (n : SpaceKey) : m.Placed n (m.space n).link := by
  have here := listed n (m.space n).side
  rw [Namespace.linkOn, if_pos rfl] at here
  exact ⟨rfl, here⟩

theorem Listed.sameRoll (listed : m.Listed) (same : SameRoll m m') : m'.Listed := by
  intro n side
  rw [same.registry, Namespace.linkOn, same.side, same.link]
  exact listed n side

theorem SameRoll.shuffled (same : SameRoll m m') : Shuffled m m' where
  listed listed := listed.sameRoll same
  spaces := same.spaces
  alive := by rw [same.registry]
  freed := same.freed
  detached n := by rw [same.link]

theorem Shuffled.trans (first : Shuffled m m') (second : Shuffled m' m'') : Shuffled m m'' where
  listed := second.listed ∘ first.listed
  spaces := first.spaces.trans second.spaces
  alive := second.alive.trans first.alive
  freed n := (second.freed n).trans (first.freed n)
  detached n := (second.detached n).trans (first.detached n)

instance : IsPreorder Manager Shuffled where
  refl _ := SameRoll.rfl.shuffled
  trans _ _ _ := .trans

theorem Reentered.sameRoll (anew : Reentered n link freed m m') (same : SameRoll m' m'') :
    Reentered n link freed m m'' where
  listed listed := (anew.listed listed).sameRoll same
  spaces := anew.spaces.trans same.spaces
  link k := (same.link k).trans (anew.link k)
  freed k := (same.freed k).trans (anew.freed k)

/-- Only lists and namespaces count for who is listed. -/
theorem Listed.congr (listed : m.Listed) (space : ∀ n, m'.space n = m.space n)
    (lists : ∀ side, m'.registry.get side = m.registry.get side) : m'.Listed := by
  intro n side
  rw [lists, space]
  exact listed n side

theorem Reentered.trans {link' : NamespaceLink} {freed' : Bool} (first : Reentered n link freed m m')
    (second : Reentered n link' freed' m' m'') : Reentered n link' freed' m m'' where
  listed := second.listed ∘ first.listed
  spaces := first.spaces.trans second.spaces
  link k := by
    rw [second.link, first.link]
    split <;> rfl
  freed k := by
    rw [second.freed, first.freed]
    split <;> rfl

theorem reentered_claimed : Reentered n (m.space n).link true m
    (m.modifySpace n fun s => { s with freed := true }) where
  listed listed k side := by
    rw [view_modifySpace (·.linkOn side) rfl]
    exact listed k side
  spaces := by
    rw [size_modifySpace]
    exact le_max_left ..
  link k := by
    rw [space_modifySpace]
    split <;> rfl
  freed k := by
    rw [space_modifySpace]
    split <;> rfl

/-- The number of namespaces that are counted is no concern of the lists. -/
theorem Reentered.uncounted (anew : Reentered n link freed m m') (alive : Nat) :
    Reentered n link freed m { m' with registry := { m'.registry with alive } } where
  listed listed := (anew.listed listed).congr (fun _ => rfl) fun side => by cases side <;> rfl
  spaces := anew.spaces
  link := anew.link
  freed := anew.freed

theorem space_relist (m : Manager) (n k : SpaceKey) (lists : SideLists) (link : NamespaceLink) :
    (m.relist n lists link).space k = if k = n then { m.space n with link } else m.space k :=
  space_modifySpace ..

/-- One namespace gets onto a list, or off all of them, and the others stay where they are. -/
theorem Listed.relist (listed : m.Listed) (here : lists.Holds n link)
    (others : ∀ k, k ≠ n → ∀ on, (m.lists n).Holds k on → lists.Holds k on) :
    (m.relist n lists link).Listed := by
  intro k side
  have registry : (m.relist n lists link).registry = m.registry.set (m.space n).side lists := rfl
  have before := listed k side
  rw [registry, Registry.get_set, space_relist]
  by_cases same : k = n
  · subst same
    rw [if_pos rfl]
    unfold Namespace.linkOn at before ⊢
    split
    · exact here
    · rename_i elsewhere
      rwa [if_neg elsewhere] at before
  · rw [if_neg same]
    split
    · rename_i side
      subst side
      exact others k same _ before
    · exact before

theorem size_le_relist : m.spaces.size ≤ (m.relist n lists link).spaces.size := by
  show _ ≤ (m.spaces.set n _).size
  rw [Store.size_set]
  exact le_max_left ..

theorem freed_relist (k : SpaceKey) :
    ((m.relist n lists link).space k).freed = (m.space k).freed := by
  rw [space_relist]
  split
  · rename_i same
    rw [same]
  · rfl

theorem alive_relist : (m.relist n lists link).registry.alive = m.registry.alive := by
  show (m.registry.set (m.space n).side lists).alive = m.registry.alive
  cases (m.space n).side <;> rfl

theorem reentered_relist (here : lists.Holds n link)
    (others : ∀ k, k ≠ n → ∀ on, (m.lists n).Holds k on → lists.Holds k on) :
    Reentered n link (m.space n).freed m (m.relist n lists link) := by
  refine ⟨fun listed => listed.relist here others, size_le_relist, fun k => ?_, fun k => ?_⟩
  · rw [space_relist]
    split <;> rfl
  · rw [space_relist]
    split <;> rfl

end Manager

namespace Act

variable {m : Manager} {n : SpaceKey}

theorem run_modify (f : Manager → Manager) (m : Manager) : (modify f : Act Unit) m = .ok () (f m) :=
  rfl

theorem run_unregister_of_take {lists : SideLists}
    (taken : ((m.lists n).take? n).getD (m.lists n) = lists) :
    unregister n m = .ok () (m.relist n lists .detached) := by
  have found : m.lists n = m.registry.get (m.space n).side := rfl
  rw [found] at taken
  unfold unregister
  rw [run_bind (run_space n m), run_bind (run_modify _ m)]
  cases on : (m.registry.get (m.space n).side).take? n with
  | some rest =>
    rw [on] at taken
    cases taken
    rfl
  | none =>
    rw [on] at taken
    cases taken
    have same : m.registry.set (m.space n).side (m.registry.get (m.space n).side) = m.registry :=
      m.registry.set_get _
    unfold relist
    rw [Option.getD_none, same]
    rfl

/-- A namespace leaves the list that it is on, if it is on one. -/
theorem run_unregister (listed : m.Listed) : ∃ lists,
    unregister n m = .ok () (m.relist n lists .detached) ∧
      Reentered n .detached (m.space n).freed m (m.relist n lists .detached) := by
  have placed := (listed.placed n).listed
  refine ⟨_, run_unregister_of_take rfl, ?_⟩
  by_cases off : (m.space n).link = .detached
  · rw [off] at placed
    rw [placed.take_eq_none]
    exact reentered_relist placed fun _ _ _ => id
  · obtain ⟨rest, taken, gone⟩ := placed.take off
    rw [taken]
    exact reentered_relist gone fun k other on holds => holds.beside_take other taken

/-- A namespace on no list gets onto the inactive one. -/
theorem run_register_detached (listed : m.Listed) (off : (m.space n).link = .detached) :
    ∃ lists, register n m = .ok () (m.relist n lists .inactive) ∧
      Reentered n .inactive (m.space n).freed m (m.relist n lists .inactive) := by
  have placed := (listed.placed n).listed
  rw [off] at placed
  refine ⟨(m.lists n).pushInactive n, ?_, ?_⟩
  · unfold register
    rw [run_bind (run_space n m)]
    simp only [ne_eq, off, not_true_eq_false, if_false]
    rfl
  · exact reentered_relist placed.pushInactive fun k other on holds => holds.beside_push other

/-- A namespace that is moved to a list gets there from another one. -/
theorem shuffled_moveTo (side : Side) {target : NamespaceLink} (on : target ≠ .detached) :
    (moveTo side n target).Preserves Shuffled := by
  intro m
  have still := refl_of Shuffled m
  refine leaves_after (run_space n m) (leaves_guard (fun _ => still) fun own => ?_)
  refine leaves_guard (fun _ => still) fun registered => ?_
  refine leaves_after (show (get : Act Manager) m = .ok m m from rfl) ?_
  obtain rfl : (m.space n).side = side := not_not.mp own
  cases taken : (m.registry.get (m.space n).side).take? n with
  | none => exact leaves_throw.mpr still
  | some rest =>
    refine leaves_of_run
      (rfl : _ = EStateM.Result.ok () (m.relist n (rest.append target n) target)) ?_
    refine ⟨fun listed => ?_, size_le_relist, alive_relist, freed_relist, fun k => ?_⟩
    · obtain ⟨_, found, gone⟩ := (listed.placed n).listed.take registered
      cases taken.symm.trans found
      refine listed.relist (gone.append target) fun k other on holds => ?_
      exact (holds.beside_take other taken).beside_append other target
    · rw [space_relist]
      split
      · rename_i same
        rw [same]
        exact iff_of_false on registered
      · rfl

end Act

end Lockspace
