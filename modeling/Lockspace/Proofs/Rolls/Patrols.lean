import Lockspace.Proofs.Queueing.Owned
import Lockspace.Proofs.Rolls.Enrolled

namespace Lockspace

open Manager Act

namespace Act

/-- One turn of the reclaimer: the first living namespace of a side with resources gets to the tail
of its list, and is held meanwhile. -/
def rotate (side : Side) : Act (Option SpaceKey) := do
  match (← get).first? side with
  | none => return none
  | some n =>
    ownSpace n
    moveTo side n .active
    disownSpace n
    return some n

/-- So many turns of the reclaimer, with the namespaces that it met. -/
def patrol (side : Side) : Nat → Act (List (Option SpaceKey))
  | 0 => return []
  | turns + 1 => do
    let met ← rotate side
    return met :: (← patrol side turns)

end Act

/-- Once its first member gets to the tail, the part of a list with a property has gone on by
one. -/
theorem filter_erase_append {α : Type} [BEq α] [LawfulBEq α] {p : α → Bool} {names : List α} {a : α}
    (first : names.find? p = some a) :
    names.filter p = a :: (names.erase a).filter p ∧
      (names.erase a ++ [a]).filter p = (names.erase a).filter p ++ [a] := by
  obtain ⟨holds, ahead, rest, rfl, fails⟩ := List.find?_eq_some_iff_append.mp first
  have skipped : ahead.filter p = [] := by
    rw [List.filter_eq_nil_iff]
    intro b member
    simpa using fails b member
  have outside : a ∉ ahead := by
    intro member
    simpa [holds] using fails a member
  rw [List.erase_append_right _ outside, List.erase_cons_head]
  simp [skipped, holds]

namespace Manager

/-- The state with the entries of a side for its namespaces with resources in another order. -/
def reorder (m : Manager) (side : Side) (names : List SpaceKey) : Manager :=
  { m with registry := m.registry.set side { m.registry.get side with active := names } }

/-- Nothing happened but that the entries of a side for its namespaces with resources got into
another order. -/
def Reordered (side : Side) (m m' : Manager) : Prop :=
  ∃ names, names.Perm (m.registry.get side).active ∧ m' = m.reorder side names

variable {m m' m'' : Manager} {side : Side} {n : SpaceKey} {names : List SpaceKey}

theorem get_reorder (m : Manager) (side : Side) (names : List SpaceKey) (on : Side) :
    (m.reorder side names).registry.get on =
      if on = side then { m.registry.get side with active := names } else m.registry.get on :=
  Registry.get_set ..

theorem reorder_reorder (m : Manager) (side : Side) (names later : List SpaceKey) :
    (m.reorder side names).reorder side later = m.reorder side later := by
  cases side <;> rfl

theorem reorder_self (m : Manager) (side : Side) :
    m.reorder side (m.registry.get side).active = m := by
  cases side <;> rfl

namespace Reordered

theorem refl : Reordered side m m :=
  ⟨_, .rfl, (m.reorder_self side).symm⟩

theorem trans (first : Reordered side m m') (second : Reordered side m' m'') :
    Reordered side m m'' := by
  obtain ⟨names, perm, rfl⟩ := first
  obtain ⟨later, again, rfl⟩ := second
  rw [get_reorder, if_pos rfl] at again
  exact ⟨later, again.trans perm, reorder_reorder ..⟩

theorem listed (same : Reordered side m m') (listed : m.Listed) : m'.Listed := by
  obtain ⟨names, perm, rfl⟩ := same
  intro n on
  rw [get_reorder]
  split
  · rename_i here
    subst here
    have before := listed n on
    exact ⟨(perm.count_eq n).trans before.active, before.inactive⟩
  · exact listed n on

theorem space (same : Reordered side m m') (n : SpaceKey) : m'.space n = m.space n := by
  obtain ⟨_, -, rfl⟩ := same
  rfl

theorem inactive (same : Reordered side m m') (on : Side) : m'.inactive on = m.inactive on := by
  obtain ⟨names, -, rfl⟩ := same
  unfold Manager.inactive
  rw [get_reorder]
  split
  · rename_i here
    rw [here]
    rfl
  · rfl

theorem beside (same : Reordered side m m') {on : Side} (other : on ≠ side) :
    m'.active on = m.active on := by
  obtain ⟨names, -, rfl⟩ := same
  unfold Manager.active
  rw [get_reorder, if_neg other]
  rfl

end Reordered

/-- The cursor of the reclaimer stands at the head of the namespaces that it is to meet. -/
theorem first?_eq_head? (m : Manager) (side : Side) : m.first? side = (m.active side).head? :=
  (List.head?_filter ..).symm

/-- Who still lives was set up. -/
theorem inside_of_isAlive (alive : (m.space n).isAlive = true) : n.index < m.spaces.size := by
  by_contra beyond
  have absent : m.space n = default := Store.get_of_size_le _ (not_lt.mp beyond)
  rw [absent] at alive
  cases alive

/-- A namespace that is held and moved is as it was once it is let go of. -/
theorem modifySpace_relist_modifySpace {lists : SideLists} {link : NamespaceLink}
    {hold drop : Namespace → Namespace} (inside : n.index < m.spaces.size)
    (own : (hold (m.space n)).side = (m.space n).side)
    (back : drop { hold (m.space n) with link } = m.space n) :
    ((m.modifySpace n hold).relist n lists link).modifySpace n drop =
      { m with registry := m.registry.set (m.space n).side lists } := by
  have held : (m.modifySpace n hold).space n = hold (m.space n) :=
    (space_modifySpace ..).trans (if_pos rfl)
  let moved := (m.modifySpace n hold).relist n lists link
  have there : moved.space n = { hold (m.space n) with link } := by
    rw [space_relist, if_pos rfl, held]
  have spaces : (moved.modifySpace n drop).spaces = m.spaces := by
    show Store.set (Store.set (Store.set m.spaces n _) n _) n (drop (moved.space n)) = _
    rw [there, back, Store.set_set, Store.set_set]
    exact Store.set_get _ inside
  have registry : (moved.modifySpace n drop).registry = m.registry.set (m.space n).side lists := by
    show m.registry.set ((m.modifySpace n hold).space n).side lists = _
    rw [held, own]
  show { m with
    spaces := (moved.modifySpace n drop).spaces
    registry := (moved.modifySpace n drop).registry } = _
  rw [spaces, registry]

theorem Listed.mem_active (listed : m.Listed) : n ∈ (m.registry.get side).active ↔
    (m.space n).side = side ∧ (m.space n).link = .active := by
  have counted := (listed n side).active
  rw [← List.count_pos_iff, counted, Namespace.linkOn]
  by_cases own : side = (m.space n).side
  · rw [if_pos own]
    by_cases linked : (m.space n).link = .active
    · rw [if_pos linked]
      exact iff_of_true Nat.one_pos ⟨own.symm, linked⟩
    · rw [if_neg linked]
      exact iff_of_false (Nat.lt_irrefl 0) fun on => linked on.2
  · rw [if_neg own]
    exact iff_of_false (Nat.lt_irrefl 0) fun on => own on.1.symm

theorem Listed.nodup_active (listed : m.Listed) (side : Side) :
    (m.registry.get side).active.Nodup := by
  rw [List.nodup_iff_count_le_one]
  intro n
  rw [(listed n side).active]
  split <;> decide

end Manager

namespace Act

variable {m : Manager} {side : Side} {n : SpaceKey}

/-- A namespace on the list of those with resources gets to the tail of it. -/
theorem run_moveTo_active (own : (m.space n).side = side) (linked : (m.space n).link = .active)
    (member : n ∈ (m.registry.get side).active) :
    moveTo side n .active m = .ok () (m.relist n { m.registry.get side with
      active := (m.registry.get side).active.erase n ++ [n] } .active) := by
  subst own
  refine run_moveTo_of_take ?_ (if_pos member) .active
  rw [linked]
  decide

/-- A turn meets the namespace at the cursor. Apart from its place on the list, it is left as it
was. -/
theorem run_rotate (listed : m.Listed) (first : m.first? side = some n) : rotate side m =
    .ok (some n) (m.reorder side ((m.registry.get side).active.erase n ++ [n])) := by
  have member : n ∈ (m.registry.get side).active := List.mem_of_find?_eq_some first
  have alive : (m.space n).isAlive = true :=
    List.find?_some (p := fun n => (m.space n).isAlive) first
  obtain ⟨own, linked⟩ := listed.mem_active.mp member
  let lists : SideLists := { m.registry.get side with
    active := (m.registry.get side).active.erase n ++ [n] }
  let held := m.modifySpace n fun s => { s with owners := s.owners + 1 }
  have here : held.space n = { m.space n with owners := (m.space n).owners + 1 } :=
    (space_modifySpace ..).trans (if_pos rfl)
  have moved : moveTo side n .active held = .ok () (held.relist n lists .active) :=
    run_moveTo_active (by rw [here]; exact own) (by rw [here]; exact linked) member
  have dropped : (held.relist n lists .active).modifySpace n
      (fun s => { s with owners := s.owners - 1 }) = m.reorder side lists.active := by
    rw [modifySpace_relist_modifySpace (inside_of_isAlive alive) rfl (by rw [← linked]; rfl), own]
    rfl
  have released : disownSpace n (held.relist n lists .active) =
      .ok () (m.reorder side lists.active) := by
    have still : ((m.reorder side lists.active).space n).isAlive = true := alive
    unfold disownSpace
    refine (run_bind (run_modify ..)).trans ?_
    rw [dropped, run_dropIfDeserted_of_isAlive still]
  unfold rotate
  rw [run_bind (show (get : Act Manager) m = .ok m m from rfl), first]
  refine (run_bind (show ownSpace n m = .ok () held from rfl)).trans ?_
  exact (run_bind moved).trans ((run_bind released).trans rfl)

/-- A turn takes the head of the namespaces that the reclaimer is to meet to their tail. -/
theorem run_rotate_of_active {rest : List SpaceKey} (listed : m.Listed)
    (living : m.active side = n :: rest) : ∃ m', rotate side m = .ok (some n) m' ∧
      m'.active side = rest ++ [n] ∧ Reordered side m m' := by
  have first : m.first? side = some n := by
    rw [first?_eq_head?, living]
    rfl
  have member : n ∈ (m.registry.get side).active := List.mem_of_find?_eq_some first
  obtain ⟨before, after⟩ := filter_erase_append first
  obtain rfl : rest = m.living ((m.registry.get side).active.erase n) :=
    List.tail_eq_of_cons_eq (living.symm.trans before)
  refine ⟨_, run_rotate listed first, ?_, _, ?_, rfl⟩
  · unfold Manager.active
    rw [get_reorder, if_pos rfl]
    exact after
  · exact (List.perm_append_singleton ..).trans (List.perm_cons_erase member).symm

/-- Turns that meet the namespaces ahead leave those behind the others. The induction is on the
namespaces ahead: each turn takes one of them to the other side. -/
theorem run_patrol_ahead {ahead behind : List SpaceKey} (listed : m.Listed)
    (living : m.active side = ahead ++ behind) :
    ∃ m', patrol side ahead.length m = .ok (ahead.map some) m' ∧
      m'.active side = behind ++ ahead ∧ Reordered side m m' := by
  induction ahead generalizing m behind with
  | nil => exact ⟨m, rfl, by rw [living]; simp, .refl⟩
  | cons n rest ih =>
    obtain ⟨m₁, met, living₁, same⟩ := run_rotate_of_active listed living
    rw [List.append_eq, List.append_assoc] at living₁
    obtain ⟨m', run, living', later⟩ := ih (same.listed listed) living₁
    refine ⟨m', ?_, by rw [living']; simp, same.trans later⟩
    exact (run_bind met).trans ((run_bind run).trans rfl)

/-- Turns after turns are as many turns at once. -/
theorem run_patrol_add {turns more : Nat} {met later : List (Option SpaceKey)} {m₁ m' : Manager}
    (run : patrol side turns m = .ok met m₁) (again : patrol side more m₁ = .ok later m') :
    patrol side (turns + more) m = .ok (met ++ later) m' := by
  induction turns generalizing m met with
  | zero =>
    cases run
    rw [Nat.zero_add]
    exact again
  | succ turns ih =>
    obtain ⟨a, m₂, first, run⟩ := ok_of_bind run
    obtain ⟨rest, m₃, run, ⟨⟩⟩ := ok_of_bind run
    rw [Nat.succ_add]
    exact (run_bind first).trans ((run_bind (ih run)).trans rfl)

/-- As many turns as there are namespaces to meet are a round, and all rounds are alike. -/
theorem run_patrol_rounds (listed : m.Listed) (rounds : Nat) :
    ∃ m', patrol side (rounds * (m.active side).length) m =
        .ok (List.replicate rounds ((m.active side).map some)).flatten m' ∧
      m'.active side = m.active side ∧ Reordered side m m' := by
  induction rounds generalizing m with
  | zero =>
    rw [Nat.zero_mul]
    exact ⟨m, rfl, rfl, .refl⟩
  | succ rounds ih =>
    obtain ⟨m₁, round, living, same⟩ := run_patrol_ahead listed (List.append_nil _).symm
    rw [List.nil_append] at living
    obtain ⟨m', run, living', later⟩ := ih (same.listed listed)
    rw [living] at run living'
    refine ⟨m', ?_, living', same.trans later⟩
    rw [Nat.succ_mul, Nat.add_comm, List.replicate_succ, List.flatten_cons]
    exact run_patrol_add round run

end Act

namespace Enrolled

variable {m : Manager} {roll : Roll}

/-- A setup that is not refused leaves one more namespace. -/
theorem build_left (reach : Enrolled m roll) (setup : Setup) {preset : HashPreset}
    (given : setup.preset = .ok preset) : Enrolled ((Act.build setup).left m)
      { roll with built := m.spaces.nextKey :: roll.built } := by
  obtain ⟨m', run, -⟩ := run_build_of_ok given reach.matched.listed
  have same : (Act.build setup).left m = m' := by
    unfold Act.left
    rw [run]
  rw [same]
  exact reach.build run

/-- Three clients were made active, and the second one of them was dropped then. -/
def threeClients : Manager :=
  (disownSpace ⟨1⟩).left <| (moveTo .client ⟨2⟩ .active).left <|
    (moveTo .client ⟨1⟩ .active).left <| (moveTo .client ⟨0⟩ .active).left <|
    (Act.build .peered).left <| (Act.build .peered).left <| (Act.build .peered).left {}

theorem exists_roll_of_threeClients : ∃ roll, Enrolled threeClients roll := by
  have one := Enrolled.empty.build_left .peered rfl
  have three := (one.build_left .peered rfl).build_left .peered rfl
  exact ⟨_, (((three.move .client ⟨0⟩ (by decide)).move .client ⟨1⟩ (by decide)).move .client ⟨2⟩
    (by decide)).drop ⟨1⟩⟩

/-- Whatever was done before, a round of the reclaimer meets every living namespace of a side with
resources once, in the order in which they are listed, and so does each further round. It never ends
in a fault, and all that it may leave changed is where the entries of namespaces that live no more
stand among the others. -/
theorem patrols (reach : Enrolled m roll) (side : Side) :
    (m.active side).Nodup ∧
    (∀ n, n ∈ m.active side ↔
      (m.space n).side = side ∧ (m.space n).link = .active ∧ (m.space n).isAlive) ∧
    ∀ rounds, ∃ m', patrol side (rounds * (m.active side).length) m =
        .ok (List.replicate rounds ((m.active side).map some)).flatten m' ∧
      (∀ on, m'.active on = m.active on ∧ m'.inactive on = m.inactive on) ∧
      (∀ n, (m'.space n).link = (m.space n).link) ∧ Reordered side m m' := by
  have listed := reach.matched.listed
  refine ⟨(listed.nodup_active side).filter _, fun n => ?_, fun rounds => ?_⟩
  · unfold Manager.active Manager.living
    rw [List.mem_filter, listed.mem_active, and_assoc]
  · obtain ⟨m', run, living, same⟩ := run_patrol_rounds listed rounds
    refine ⟨m', run, fun on => ⟨?_, same.inactive on⟩, fun n => by rw [same.space], same⟩
    by_cases here : on = side
    · rw [here, living]
    · exact same.beside here

/-- The reclaimer goes round twice and passes the entry of the client that was dropped. -/
theorem patrols_of_three_clients : ∃ roll m', Enrolled threeClients roll ∧
    (threeClients.registry.get .client).active = [⟨0⟩, ⟨1⟩, ⟨2⟩] ∧
    patrol .client 4 threeClients = .ok [some ⟨0⟩, some ⟨2⟩, some ⟨0⟩, some ⟨2⟩] m' ∧
    m'.active .client = [⟨0⟩, ⟨2⟩] := by
  obtain ⟨roll, reach⟩ := exists_roll_of_threeClients
  have living : threeClients.active .client = [⟨0⟩, ⟨2⟩] := by decide +kernel
  obtain ⟨-, -, rounds⟩ := reach.patrols .client
  obtain ⟨m', run, same, -⟩ := rounds 2
  rw [living] at run
  exact ⟨roll, m', reach, by decide +kernel, run, (same .client).1.trans living⟩

end Enrolled

end Lockspace
