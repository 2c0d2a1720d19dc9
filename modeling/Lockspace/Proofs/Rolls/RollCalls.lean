import Lockspace.Proofs.Rolls.Listed

namespace Lockspace

open Manager

namespace Manager

variable {m m' : Manager} {n : SpaceKey}

/-- A place in the registry that no namespace has yet looks like that of one on no list. -/
theorem place_nextKey (m : Manager) : (m.space m.spaces.nextKey).place = (.server, .detached, false) := by
  have absent : m.space m.spaces.nextKey = default := Store.get_of_size_le _ le_rfl
  rw [absent]
  rfl

/-- Another namespace that is on no list. -/
theorem Listed.alloc (listed : m.Listed) {s : Namespace} (off : s.link = .detached)
    (space : ∀ k, m'.space k = if k = m.spaces.nextKey then s else m.space k)
    (lists : ∀ side, m'.registry.get side = m.registry.get side) : m'.Listed := by
  intro k side
  have before := listed k side
  rw [lists, space]
  split
  · rename_i new
    have absent := congrArg (·.2.1) m.place_nextKey
    rw [← new] at absent
    unfold Namespace.linkOn at before ⊢
    rw [off, ite_self]
    rwa [show (m.space k).link = .detached from absent, ite_self] at before
  · exact before

end Manager

namespace Act

variable {m : Manager} {n : SpaceKey} {setup : Setup}

/-- A setup that is refused does nothing. -/
theorem run_build_of_error {e : LockError} (refused : setup.preset = .error e) :
    build setup m = .ok (.error e) m := by
  unfold build
  rw [refused]
  rfl

/-- A setup that is not refused always succeeds. The namespace gets onto the inactive list of its
side and is counted. -/
theorem run_build_of_ok {preset : HashPreset} (given : setup.preset = .ok preset)
    (listed : m.Listed) : ∃ m', build setup m = .ok (.ok m.spaces.nextKey) m' ∧
      Reentered m.spaces.nextKey .inactive false m m' ∧ m.spaces.size < m'.spaces.size ∧
      m'.registry.alive = m.registry.alive + 1 := by
  let n := m.spaces.nextKey
  let fresh := setup.toNamespace preset
  let m₁ : Manager :=
    { m with
      registry := { m.registry with alive := m.registry.alive + 1 }
      spaces := m.spaces.set n fresh
      gauges := fresh.stats.publish 0 0 m.gauges }
  have space : ∀ k, m₁.space k = if k = n then fresh else m.space k :=
    fun k => Store.get_set m.spaces n k fresh
  have lists : ∀ side, m₁.registry.get side = m.registry.get side := by
    intro side
    cases side <;> rfl
  have size : m₁.spaces.size = m.spaces.size + 1 := by
    show (m.spaces.set n fresh).size = _
    rw [Store.size_set]
    exact max_eq_right (Nat.le_succ _)
  have off : (m₁.space n).link = .detached := by
    rw [space, if_pos rfl]
    rfl
  obtain ⟨lists', joined, anew⟩ := run_register_detached (listed.alloc rfl space lists) off
  refine ⟨_, ?_, ⟨fun _ => anew.listed (listed.alloc rfl space lists), ?_, fun k => ?_, fun k => ?_⟩,
    ?_, alive_relist⟩
  · unfold build
    rw [given]
    refine (run_bind (show (discard takeGate : Act Unit) m = .ok () _ from rfl)).trans ?_
    refine (run_bind (show (modifyGet _ : Act SpaceKey) _ = .ok n m₁ from rfl)).trans ?_
    exact (run_bind joined).trans rfl
  · have later := anew.spaces
    omega
  · rw [anew.link, space]
    split <;> rfl
  · rw [anew.freed, space, space]
    split
    · rw [if_pos rfl]
      rfl
    · rfl
  · have later := anew.spaces
    omega

theorem shuffled_of_sameRoll {α : Type} {act : Act α} (same : act.Preserves SameRoll) :
    act.Preserves Shuffled :=
  same.mono fun _ _ => SameRoll.shuffled

theorem shuffled_announce {r : ResourceRef} (first : Bool) (bref : Nat) :
    (announce r first bref).Preserves Shuffled :=
  preserves_announce (fun event => shuffled_of_sameRoll (sameRoll_emit event))
    (shuffled_moveTo _ nofun) first bref

theorem shuffled_getOrCreate (id : ResourceId) (rtype : ResourceType) (create : Bool) :
    (getOrCreate n id rtype create).Preserves Shuffled :=
  preserves_getOrCreate (fun b => shuffled_of_sameRoll (sameRoll_step (·.lookup b id)))
    (fun b _ _ seen => shuffled_of_sameRoll (sameRoll_step (·.insert b _ seen)))
    (fun _ => shuffled_announce) create

theorem run_bind_error {α β : Type} {act : Act α} {next : α → Act β} {fault : Fault} {m' : Manager}
    (run : act m = .error fault m') : (act >>= next) m = .error fault m' := by
  show EStateM.bind act next m = _
  rw [EStateM.bind, run]

/-- Where there are no unused locks, none is let go of. -/
theorem run_finalizeUnused_of_nil (empty : (m.space n).lru.toList = []) :
    ∃ m', finalizeUnused n m = .ok () m' := by
  unfold finalizeUnused
  rw [run_bind (run_space n m)]
  simp only [UnusedLru.finalize, empty]
  exact ⟨_, rfl⟩

theorem run_retireStats (m : Manager) (n : SpaceKey) :
    ∃ m', retireStats n m = .ok () m' ∧ SameRoll m m' :=
  ⟨_, rfl, (sameRoll_retireStats (n := n) m).of_ok rfl⟩

theorem run_clearTable (m : Manager) (n : SpaceKey) :
    ∃ left m', clearTable n m = .ok left m' ∧ SameRoll m m' :=
  ⟨_, _, rfl, (sameRoll_clearTable (n := n) m).of_ok rfl⟩

theorem run_dropGate (counted : m.registry.alive ≠ 0) : dropGate m =
    .ok (m.registry.alive - 1)
      { m with registry := { m.registry with alive := m.registry.alive - 1 } } := by
  unfold dropGate
  rw [run_bind (show (get : Act Manager) m = .ok m m from rfl)]
  simp only [if_neg counted]
  rfl

/-- The last step of taking a namespace apart: one that is on no list is no longer counted. -/
theorem run_uncount (off : (m.space n).link = .detached) (counted : m.registry.alive ≠ 0)
    (left : Nat) : ∃ m', SameRoll m m' ∧ (do
      let s ← space n
      if left ≠ 0 then
        log .error ("Namespace " ++ s.name ++ " freed with " ++ toString left ++
          " resources still hashed")
      if s.link ≠ .detached then throw (.stillLinked s.name)
      discard dropGate : Act Unit) m =
        .ok () { m' with registry := { m'.registry with alive := m.registry.alive - 1 } } := by
  have last : ∀ m', SameRoll m m' → (do
      if (m.space n).link ≠ .detached then throw (.stillLinked (m.space n).name)
      discard dropGate : Act Unit) m' =
        .ok () { m' with registry := { m'.registry with alive := m.registry.alive - 1 } } := by
    intro m' same
    rw [off, ← same.registry]
    rw [← same.registry] at counted
    exact run_discard (run_dropGate counted)
  rw [run_bind (run_space n m)]
  by_cases empty : left = 0
  · refine ⟨m, .rfl, ?_⟩
    simp only [empty, ne_eq, not_true_eq_false, if_false]
    exact last m .rfl
  · let said : Manager :=
      { m with log := m.log.push ⟨.error, "Namespace " ++ (m.space n).name ++ " freed with " ++
        toString left ++ " resources still hashed"⟩ }
    refine ⟨said, .of_eq rfl rfl, ?_⟩
    simp only [ne_eq, empty, not_false_eq_true, if_true]
    exact (run_bind (run_log ..)).trans (last said (.of_eq rfl rfl))

/-- A namespace that is taken apart is on no list afterwards. That may only fail where it has unused
locks, in letting go of them; otherwise the namespace is no longer counted. -/
theorem dismantle_cases (listed : m.Listed) (counted : m.registry.alive ≠ 0) :
    (∃ m', dismantle n m = .ok () m' ∧ Reentered n .detached (m.space n).freed m m' ∧
      m'.registry.alive + 1 = m.registry.alive) ∨
    ∃ fault m', dismantle n m = .error fault m' ∧
      ((m.space n).lru.toList ≠ [] ∧ ∃ m₁, finalizeUnused n m₁ = .error fault m') ∧
      Reentered n .detached (m.space n).freed m m' ∧ m'.registry.alive = m.registry.alive := by
  obtain ⟨lists, left, anew⟩ := run_unregister (n := n) listed
  have lru : ((m.relist n lists .detached).space n).lru = (m.space n).lru := by
    rw [space_relist, if_pos rfl]
  have alive : (m.relist n lists .detached).registry.alive = m.registry.alive := alive_relist
  generalize m.relist n lists .detached = m₁ at left anew lru alive
  have first := sameRoll_finalizeUnused (n := n) m₁
  cases final : finalizeUnused n m₁ with
  | error fault m₂ =>
    refine Or.inr
      ⟨fault, m₂, ?_, ⟨fun empty => ?_, m₁, final⟩, anew.sameRoll (first.of_error final), ?_⟩
    · unfold dismantle
      exact (run_bind left).trans (run_bind_error final)
    · obtain ⟨_, done⟩ := run_finalizeUnused_of_nil (lru.symm ▸ empty)
      cases done.symm.trans final
    · rw [(first.of_error final).registry, alive]
  | ok _ m₂ =>
    obtain ⟨m₃, retired, second⟩ := run_retireStats m₂ n
    obtain ⟨gone, m₄, cleared, third⟩ := run_clearTable m₃ n
    have same := ((first.of_ok final).trans second).trans third
    have off := (same.link n).trans ((anew.link n).trans (if_pos rfl))
    have count : m₄.registry.alive = m.registry.alive := by rw [same.registry, alive]
    obtain ⟨m', last, run⟩ := run_uncount off (count ▸ counted) gone
    refine Or.inl ⟨_, ?_, (anew.sameRoll (same.trans last)).uncounted
      (m₄.registry.alive - 1), ?_⟩
    · unfold dismantle
      refine (run_bind left).trans ((run_bind final).trans ?_)
      exact (run_bind retired).trans ((run_bind cleared).trans run)
    · show m₄.registry.alive - 1 + 1 = m.registry.alive
      omega

/-- The answers of an attempt to free a namespace, where it is counted unless it was freed. -/
theorem freePost_cases (listed : m.Listed)
    (counted : (m.space n).freed = false → m.registry.alive ≠ 0) :
    (∃ m', freePost n m = .ok false m' ∧ SameRoll m m') ∨
    (m.space n).freed = false ∧
      ((∃ m', freePost n m = .ok true m' ∧ Reentered n .detached true m m' ∧
        m'.registry.alive + 1 = m.registry.alive) ∨
      ∃ fault m', freePost n m = .error fault m' ∧
        ((m.space n).lru.toList ≠ [] ∧ ∃ m₁, finalizeUnused n m₁ = .error fault m') ∧
        Reentered n .detached true m m' ∧ m'.registry.alive = m.registry.alive) := by
  by_cases used : (m.space n).table.bref = 0
  · let m₁ := m.modifySpace n fun s => { s with freed := true }
    have claimed : Reentered n (m.space n).link true m m₁ := reentered_claimed
    have begins : freePost n m = (if (m.space n).freed then (do
        log .warn ("Namespace " ++ (m.space n).name ++ " already freed")
        return false : Act Bool)
      else dismantle n >>= fun _ => pure true) m₁ := by
      unfold freePost
      rw [run_bind (run_space n m)]
      simp only [ne_eq, used, not_true_eq_false, if_false]
      exact run_bind (show claimFreed n m = .ok (m.space n).freed m₁ from rfl)
    rw [begins]
    cases already : (m.space n).freed with
    | true =>
      have same : SameRoll m m₁ := Manager.sameRoll_modifySpace n (by simp [Namespace.place, already])
      exact Or.inl ⟨_, (run_bind (run_log ..)).trans rfl, same.trans (.of_eq rfl rfl)⟩
    | false =>
      have here : (m₁.space n).freed = true := by rw [claimed.freed, if_pos rfl]
      rcases dismantle_cases (n := n) (claimed.listed listed) (counted already) with
        ⟨m', run, anew, alive⟩ | ⟨fault, m', run, ⟨kept, final⟩, anew, alive⟩
      · refine Or.inr ⟨rfl, Or.inl ⟨m', (run_bind run).trans rfl, ?_, alive⟩⟩
        exact claimed.trans (here ▸ anew)
      · refine Or.inr ⟨rfl, Or.inr ⟨fault, m', run_bind_error run, ⟨?_, final⟩, ?_, alive⟩⟩
        · rwa [show (m₁.space n).lru = (m.space n).lru by rw [space_modifySpace, if_pos rfl]] at kept
        · exact claimed.trans (here ▸ anew)
  · have refused : ∃ log, freePost n m = .ok false { m with log } := by
      unfold freePost
      rw [run_bind (run_space n m)]
      simp only [ne_eq, used, not_false_eq_true, if_true]
      exact ⟨_, (run_bind (run_log ..)).trans rfl⟩
    obtain ⟨log, run⟩ := refused
    exact Or.inl ⟨_, run, .of_eq rfl rfl⟩

end Act

end Lockspace
