import Lockspace.Proofs.Rolls.RollCalls

namespace Lockspace

open Manager Act

/-- The state that an action leaves, whether it returns or ends in a fault. -/
def Act.left {α : Type} (act : Act α) (m : Manager) : Manager :=
  match act m with
  | .ok _ m' | .error _ m' => m'

theorem Act.Preserves.left {α : Type} {R : Manager → Manager → Prop} {act : Act α}
    (preserves : act.Preserves R) (m : Manager) : R m (act.left m) := by
  have leaves := preserves m
  unfold Act.left
  cases run : act m with
  | ok a m' => exact leaves.of_ok run
  | error fault m' => exact leaves.of_error run

/-- What became of the namespaces of a registry, the latest first: those that were set up, those
whose freeing succeeded, and those whose freeing ended in a fault on the way. -/
structure Roll where
  built : List SpaceKey := []
  freed : List SpaceKey := []
  torn : List SpaceKey := []

/-- The states of a registry with the namespaces that were set up in it. They may be used, moved
and freed in any order, also after they were freed and after a call that ended in a fault. What
leaves the registry alone may come between. -/
inductive Enrolled : Manager → Roll → Prop
  | empty : Enrolled {} {}
  | build {m m' : Manager} {roll : Roll} {setup : Setup} {n : SpaceKey} (reach : Enrolled m roll)
      (run : Act.build setup m = .ok (.ok n) m') : Enrolled m' { roll with built := n :: roll.built }
  | refused {m m' : Manager} {roll : Roll} {setup : Setup} {e : LockError}
      (reach : Enrolled m roll) (run : Act.build setup m = .ok (.error e) m') : Enrolled m' roll
  | get {m : Manager} {roll : Roll} (reach : Enrolled m roll) (n : SpaceKey) (id : ResourceId)
      (rtype : ResourceType) (create : Bool) :
      Enrolled ((getOrCreate n id rtype create).left m) roll
  | put {m : Manager} {roll : Roll} (reach : Enrolled m roll) (r : ResourceRef) :
      Enrolled ((Act.put r).left m) roll
  | move {m : Manager} {roll : Roll} (reach : Enrolled m roll) (side : Side) (n : SpaceKey)
      {target : NamespaceLink} (on : target ≠ .detached) :
      Enrolled ((moveTo side n target).left m) roll
  | clone {m : Manager} {roll : Roll} (reach : Enrolled m roll) (n : SpaceKey) :
      Enrolled ((ownSpace n).left m) roll
  | drop {m : Manager} {roll : Roll} (reach : Enrolled m roll) (n : SpaceKey) :
      Enrolled ((disownSpace n).left m) roll
  | free {m m' : Manager} {roll : Roll} {n : SpaceKey} (reach : Enrolled m roll)
      (built : n ∈ roll.built) (run : freePost n m = .ok true m') :
      Enrolled m' { roll with freed := n :: roll.freed }
  | kept {m m' : Manager} {roll : Roll} {n : SpaceKey} (reach : Enrolled m roll)
      (built : n ∈ roll.built) (run : freePost n m = .ok false m') : Enrolled m' roll
  | torn {m m' : Manager} {roll : Roll} {n : SpaceKey} {fault : Fault} (reach : Enrolled m roll)
      (built : n ∈ roll.built) (run : freePost n m = .error fault m') :
      Enrolled m' { roll with torn := n :: roll.torn }
  | aside {m m' : Manager} {roll : Roll} (reach : Enrolled m roll) (same : SameRoll m m') :
      Enrolled m' roll

/-- What holds of a registry and of what became of its namespaces between any two calls. -/
structure Roll.Matches (roll : Roll) (m : Manager) : Prop where
  listed : m.Listed
  known : ∀ n ∈ roll.built, n.index < m.spaces.size
  distinct : roll.built.Nodup
  detached : ∀ n, (m.space n).link = .detached ↔ n ∉ roll.built ∨ (m.space n).freed = true
  freed : ∀ n, (m.space n).freed = true ↔ n ∈ roll.freed ∨ n ∈ roll.torn
  within : ∀ n ∈ roll.freed, n ∈ roll.built
  once : roll.freed.Nodup
  counted : m.registry.alive + roll.freed.length = roll.built.length

namespace Roll.Matches

variable {roll : Roll} {m m' : Manager} {n : SpaceKey}

theorem empty : Roll.Matches {} {} := by
  refine ⟨fun n side => ?_, by simp, .nil, fun n => ?_, fun n => ?_, by simp, .nil, rfl⟩
  · cases side <;> exact SideLists.holds_detached.mpr ⟨List.not_mem_nil, List.not_mem_nil⟩
  · exact iff_of_true rfl (Or.inl List.not_mem_nil)
  · exact iff_of_false nofun (by simp)

theorem shuffled (matched : roll.Matches m) (moves : Shuffled m m') : roll.Matches m' where
  listed := moves.listed matched.listed
  known n built := (matched.known n built).trans_le moves.spaces
  distinct := matched.distinct
  detached n := by
    rw [moves.detached, moves.freed]
    exact matched.detached n
  freed n := by
    rw [moves.freed]
    exact matched.freed n
  within := matched.within
  once := matched.once
  counted := by
    rw [moves.alive]
    exact matched.counted

theorem built (matched : roll.Matches m) (anew : Reentered m.spaces.nextKey .inactive false m m')
    (spaces : m.spaces.size < m'.spaces.size) (alive : m'.registry.alive = m.registry.alive + 1) :
    Roll.Matches { roll with built := m.spaces.nextKey :: roll.built } m' := by
  have new : m.spaces.nextKey ∉ roll.built := fun old => lt_irrefl _ (matched.known _ old)
  have unfreed : (m.space m.spaces.nextKey).freed = false := congrArg (·.2.2) m.place_nextKey
  refine ⟨anew.listed matched.listed, fun k known => ?_, ?_, fun k => ?_, fun k => ?_,
    fun k gone => ?_, matched.once, ?_⟩
  · rcases List.mem_cons.mp known with rfl | old
    · exact spaces
    · exact (matched.known k old).trans spaces
  · exact List.nodup_cons.mpr ⟨new, matched.distinct⟩
  · rw [anew.link, anew.freed]
    split
    · rename_i same
      subst same
      simp
    · rename_i other
      rw [matched.detached, List.mem_cons, or_iff_right other]
  · rw [anew.freed, ← matched.freed]
    split
    · rename_i same
      rw [same, unfreed]
    · rfl
  · exact List.mem_cons_of_mem _ (matched.within k gone)
  · have before := matched.counted
    show m'.registry.alive + roll.freed.length = (m.spaces.nextKey :: roll.built).length
    rw [List.length_cons]
    omega

theorem not_mem_freed (matched : roll.Matches m) (unfreed : (m.space n).freed = false) :
    n ∉ roll.freed := by
  intro gone
  rw [(matched.freed n).mpr (Or.inl gone)] at unfreed
  cases unfreed

/-- A namespace that was set up and not freed is counted. -/
theorem alive_ne_zero (matched : roll.Matches m) (built : n ∈ roll.built)
    (unfreed : (m.space n).freed = false) : m.registry.alive ≠ 0 := by
  have once := List.nodup_cons.mpr ⟨matched.not_mem_freed unfreed, matched.once⟩
  have fits := (once.subperm (List.cons_subset.mpr ⟨built, matched.within⟩)).length_le
  have count := matched.counted
  rw [List.length_cons] at fits
  omega

/-- A namespace leaves the registry, be it that its freeing succeeds or not. -/
theorem left (matched : roll.Matches m) (anew : Reentered n .detached true m m') {later : Roll}
    (built : later.built = roll.built)
    (gone : ∀ k, k ∈ later.freed ∨ k ∈ later.torn ↔ k = n ∨ k ∈ roll.freed ∨ k ∈ roll.torn)
    (within : ∀ k ∈ later.freed, k ∈ roll.built) (once : later.freed.Nodup)
    (counted : m'.registry.alive + later.freed.length = m.registry.alive + roll.freed.length) :
    later.Matches m' := by
  refine ⟨anew.listed matched.listed, fun k known => ?_, built ▸ matched.distinct, fun k => ?_,
    fun k => ?_, built ▸ within, once, ?_⟩
  · rw [built] at known
    exact (matched.known k known).trans_le anew.spaces
  · rw [anew.link, anew.freed, built]
    split
    · simp
    · exact matched.detached k
  · rw [anew.freed, gone]
    split
    · rename_i here
      simp [here]
    · rename_i other
      rw [or_iff_right other]
      exact matched.freed k
  · rw [built, counted]
    exact matched.counted

theorem freed_of_run (matched : roll.Matches m) (built : n ∈ roll.built)
    (run : freePost n m = .ok true m') :
    Roll.Matches { roll with freed := n :: roll.freed } m' := by
  rcases freePost_cases matched.listed (matched.alive_ne_zero built) with
    ⟨_, other, -⟩ | ⟨unfreed, ⟨_, same, anew, alive⟩ | ⟨_, _, other, -⟩⟩
  · cases other.symm.trans run
  · cases same.symm.trans run
    refine matched.left anew rfl (fun k => ?_) (fun k gone => ?_) ?_ ?_
    · rw [List.mem_cons, or_assoc]
    · rcases List.mem_cons.mp gone with rfl | old
      · exact built
      · exact matched.within k old
    · exact List.nodup_cons.mpr ⟨matched.not_mem_freed unfreed, matched.once⟩
    · show m'.registry.alive + (n :: roll.freed).length = _
      rw [List.length_cons]
      omega
  · cases other.symm.trans run

theorem torn_of_run (matched : roll.Matches m) (built : n ∈ roll.built) {fault : Fault}
    (run : freePost n m = .error fault m') :
    Roll.Matches { roll with torn := n :: roll.torn } m' := by
  rcases freePost_cases matched.listed (matched.alive_ne_zero built) with
    ⟨_, other, -⟩ | ⟨-, ⟨_, other, -⟩ | ⟨_, _, same, -, anew, alive⟩⟩
  · cases other.symm.trans run
  · cases other.symm.trans run
  · cases same.symm.trans run
    refine matched.left anew rfl (fun k => ?_) matched.within matched.once ?_
    · rw [List.mem_cons, or_left_comm]
    · rw [alive]

theorem kept_of_run (matched : roll.Matches m) (built : n ∈ roll.built)
    (run : freePost n m = .ok false m') : roll.Matches m' := by
  rcases freePost_cases matched.listed (matched.alive_ne_zero built) with
    ⟨_, ran, same⟩ | ⟨-, ⟨_, other, -⟩ | ⟨_, _, other, -⟩⟩
  · cases ran.symm.trans run
    exact matched.shuffled same.shuffled
  · cases other.symm.trans run
  · cases other.symm.trans run

end Roll.Matches

namespace Enrolled

variable {roll : Roll} {m m' : Manager} {n : SpaceKey}

/-- Whatever is called, the registry goes on to agree with what became of its namespaces. -/
theorem matched (reach : Enrolled m roll) : roll.Matches m := by
  have within {α : Type} {act : Act α} {m : Manager} (same : act.Preserves SameRoll) :
      Shuffled m (act.left m) := (same.left m).shuffled
  induction reach with
  | empty => exact .empty
  | @build m m' roll setup n _ run ih =>
    cases given : setup.preset with
    | error e => cases (run_build_of_error given).symm.trans run
    | ok preset =>
      obtain ⟨_, same, anew, spaces, alive⟩ := run_build_of_ok given ih.listed
      cases same.symm.trans run
      exact ih.built anew spaces alive
  | @refused m m' roll setup e _ run ih =>
    cases given : setup.preset with
    | error e =>
      cases (run_build_of_error given).symm.trans run
      exact ih
    | ok preset =>
      obtain ⟨_, other, -⟩ := run_build_of_ok given ih.listed
      cases other.symm.trans run
  | get _ n id rtype create ih => exact ih.shuffled ((shuffled_getOrCreate id rtype create).left _)
  | put _ r ih => exact ih.shuffled (within sameRoll_put)
  | move _ side n on ih => exact ih.shuffled ((shuffled_moveTo side on).left _)
  | clone _ n ih => exact ih.shuffled (within sameRoll_ownSpace)
  | drop _ n ih => exact ih.shuffled (within sameRoll_disownSpace)
  | free _ built run ih => exact ih.freed_of_run built run
  | kept _ built run ih => exact ih.kept_of_run built run
  | torn _ built run ih => exact ih.torn_of_run built run
  | aside _ same ih => exact ih.shuffled same.shuffled

/-- A namespace that was set up and not freed is once on the list of its side that its link names,
and on no other list. One whose freeing has begun, or that was never set up, is on none. The
namespaces that are counted are those that were set up without those that were freed, and none is
freed twice. A setup succeeds or leaves everything as it was, and the freeing of a namespace without
unused locks never ends on the way. -/
theorem consistent (reach : Enrolled m roll) :
    (∀ n ∈ roll.built, (m.space n).freed = false →
      ((m.space n).link = .active ∨ (m.space n).link = .inactive) ∧
      (m.registry.get (m.space n).side).Holds n (m.space n).link ∧
      ∀ side, side ≠ (m.space n).side → (m.registry.get side).Holds n .detached) ∧
    (∀ n, n ∉ roll.built ∨ (m.space n).freed = true →
      (m.space n).link = .detached ∧ ∀ side, (m.registry.get side).Holds n .detached) ∧
    (∀ n, (m.space n).freed = true ↔ n ∈ roll.freed ∨ n ∈ roll.torn) ∧
    m.registry.alive + roll.freed.length = roll.built.length ∧
    roll.freed.Nodup ∧
    (∀ setup : Setup,
      (∀ e, setup.preset = .error e → Act.build setup m = .ok (.error e) m) ∧
      ∀ preset, setup.preset = .ok preset → ∃ n m', Act.build setup m = .ok (.ok n) m') ∧
    ∀ n ∈ roll.built, (m.space n).lru.toList = [] → ∃ freed m', freePost n m = .ok freed m' := by
  have matched := reach.matched
  refine ⟨fun n built unfreed => ?_, fun n gone => ?_, matched.freed, matched.counted,
    matched.once, fun setup => ⟨fun e => run_build_of_error, fun preset given => ?_⟩,
    fun n built unused => ?_⟩
  · have on : (m.space n).link ≠ .detached := by
      rw [ne_eq, matched.detached, unfreed]
      simp [built]
    refine ⟨?_, (matched.listed.placed n).listed, fun side other => ?_⟩
    · cases linked : (m.space n).link with
      | detached => exact absurd linked on
      | active => exact Or.inl rfl
      | inactive => exact Or.inr rfl
    · have beside := matched.listed n side
      rwa [Namespace.linkOn, if_neg other] at beside
  · have off := (matched.detached n).mpr gone
    refine ⟨off, fun side => ?_⟩
    have nowhere := matched.listed n side
    rwa [Namespace.linkOn, off, ite_self] at nowhere
  · obtain ⟨m', run, -⟩ := run_build_of_ok given matched.listed
    exact ⟨_, m', run⟩
  · rcases freePost_cases matched.listed (matched.alive_ne_zero built) with
      ⟨m', run, -⟩ | ⟨-, ⟨m', run, -⟩ | ⟨_, _, -, ⟨used, -⟩, -⟩⟩
    · exact ⟨false, m', run⟩
    · exact ⟨true, m', run⟩
    · exact absurd unused used

/-- A server is freed beside a client with a resource, and a setup is refused. -/
theorem consistent_of_freed_server : ∃ m,
    Enrolled m { built := [⟨1⟩, ⟨0⟩], freed := [⟨0⟩] } ∧
      (m.registry.get .client).Holds ⟨1⟩ .active ∧
      (∀ side, (m.registry.get side).Holds ⟨0⟩ .detached) ∧ m.registry.alive = 1 := by
  let bad : Setup := { Setup.peered with config := { (default : NamespaceConfig) with hashPresets := [] } }
  obtain ⟨m₀, m₁, e, m₂, m₃, served, peered, refused, freed, again, client, linked, unfreed, gone⟩ :
      ∃ m₀ m₁ e m₂ m₃, Act.build .oneBucket {} = .ok (.ok ⟨0⟩) m₀ ∧
      Act.build .peered m₀ = .ok (.ok ⟨1⟩) m₁ ∧ Act.build bad m₁ = .ok (.error e) m₁ ∧
      freePost ⟨0⟩ ((getOrCreate ⟨1⟩ ⟨1, 2, 0, 0⟩ .plain true).left m₁) = .ok true m₂ ∧
      freePost ⟨0⟩ m₂ = .ok false m₃ ∧ (m₃.space ⟨1⟩).side = .client ∧
      (m₃.space ⟨1⟩).link = .active ∧ (m₃.space ⟨1⟩).freed = false ∧
      (m₃.space ⟨0⟩).freed = true :=
    ⟨_, _, _, _, _, rfl, rfl, rfl, rfl, rfl, rfl, rfl, rfl, rfl⟩
  have pair : Enrolled m₁ { built := [⟨1⟩, ⟨0⟩] } :=
    ((Enrolled.empty.build served).build peered).refused refused
  have left : Enrolled m₂ { built := [⟨1⟩, ⟨0⟩], freed := [⟨0⟩] } :=
    (pair.get ⟨1⟩ ⟨1, 2, 0, 0⟩ .plain true).free (by simp) freed
  have reach : Enrolled m₃ { built := [⟨1⟩, ⟨0⟩], freed := [⟨0⟩] } := left.kept (by simp) again
  obtain ⟨listed, detached, -, counted, -⟩ := reach.consistent
  have here := (listed ⟨1⟩ (by simp) unfreed).2.1
  rw [client, linked] at here
  exact ⟨m₃, reach, here, (detached ⟨0⟩ (Or.inr gone)).2, by simpa using counted⟩

end Enrolled

end Lockspace
