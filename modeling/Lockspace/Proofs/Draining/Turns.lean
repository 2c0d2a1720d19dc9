import Lockspace.Proofs.Draining.Sweeps
import Lockspace.Proofs.Queueing.Cancels

namespace Lockspace

open Manager Act

/-- A drain comes to its end without any fault, and with what is wanted of its answer and of the state
then, whatever the peer answers each time that it is asked. Nothing else happens in between. -/
inductive Cleanup.Finishes (policy : LockPolicy) (post : Nat → Manager → Prop) :
    Cleanup → Manager → Prop
  | returns {c : Cleanup} {m m' : Manager} {count : Nat}
      (run : c.turn policy m = .ok (.returns count) m') (holds : post count m') :
      Finishes policy post c m
  | goes {c next : Cleanup} {m m' : Manager} (run : c.turn policy m = .ok (.goes next) m')
      (rest : Finishes policy post next m') : Finishes policy post c m
  | asks {c asking : Cleanup} {m m' : Manager} {l : LockKey} {next : Option LockError → Cleanup}
      {after : Option LockError → Manager} (run : c.turn policy m = .ok (.asks l asking) m')
      (answers : ∀ failure, asking.answered l failure m' = .ok (next failure) (after failure))
      (rest : ∀ failure, Finishes policy post (next failure) (after failure)) :
      Finishes policy post c m

namespace Cleanup

/-- The locks that a drain will visit from a state, in order. -/
def left (c : Cleanup) (m : Manager) : List LockKey :=
  c.todo.flatMap fun next => m.pending next.1 next.2

variable {policy : LockPolicy} {post weaker : Nat → Manager → Prop}
  {wanted : ResourceRef → Option ResourceRef → Prop} {n : SpaceKey} {held : List ResourceRef}
  {covered : SpaceKey → Prop} {hands : Multiset ResourceRef} {holds : SpaceKey → Nat}
  {c : Cleanup} {m m' m₁ : Manager} {flags : LockFlags} {l : LockKey} {r : ResourceRef} {q : Queue}
  {rest : List (ResourceRef × Queue)} {more : List LockKey}

theorem Finishes.imp (finishes : c.Finishes policy post m)
    (each : ∀ count m', post count m' → weaker count m') : c.Finishes policy weaker m := by
  induction finishes with
  | returns run holds => exact .returns run (each _ _ holds)
  | goes run _ ih => exact .goes run ih
  | asks run answers _ ih => exact .asks run answers ih

/-- The end of a drain. -/
theorem run_turn_last (todo : c.todo = []) (run : putAll c.held m = .ok () m') :
    ∃ log, c.turn policy m = .ok (.returns c.cleaned) (m'.relog log) := by
  obtain ⟨log, complaints⟩ := run_complaints c.space c.held m
  obtain ⟨last, drops⟩ := (blind_putAll c.held).of_ok run log
  refine ⟨last, ?_⟩
  unfold turn
  rw [todo]
  exact (run_bind complaints).trans (run_bind drops)

/-- A queue without any lock to visit is left. -/
theorem run_turn_next (todo : c.todo = (r, q) :: rest) (empty : m.pending r q = []) :
    c.turn policy m = .ok (.goes { c with todo := rest }) m := by
  have picked := run_pick? (r := r) (q := q) c.flags m
  rw [firstUncleaned_eq, empty] at picked
  unfold turn
  rw [todo]
  exact run_bind picked

/-- The turn that comes to a lock does what a visit of it does. Where the peer is asked, the last part
of the visit is left until it answers. -/
theorem run_turn_visit (todo : c.todo = (r, q) :: rest) (first : m.pending r q = l :: more)
    (run : visit policy c.space c.flags l m = .ok () m') :
    c.turn policy m = .ok (.goes { c with cleaned := c.cleaned + 1 }) m' ∨
      ∃ m₁, c.turn policy m =
          .ok (.asks l { c with cleaned := c.cleaned + 1, asking := some l }) m₁ ∧
        disown l m₁ = .ok () m' := by
  have picked := run_pick? (r := r) (q := q) c.flags m
  rw [firstUncleaned_eq, first] at picked
  unfold visit at run
  rw [run_bind (show Act.modifyLock l _ m = .ok () _ from rfl),
    run_bind (show Act.own l _ = .ok () _ from rfl)] at run
  obtain ⟨asks, m₁, treated, last⟩ := ok_of_bind run
  unfold turn
  rw [todo]
  cases asks with
  | true =>
    obtain ⟨_, m₂, asked, last⟩ := ok_of_bind last
    refine .inr ⟨m₂, ?_, last⟩
    exact (run_bind picked).trans ((run_bind (show own l _ = .ok () _ from rfl)).trans
      ((run_bind treated).trans (run_bind asked)))
  | false =>
    refine .inl ?_
    exact (run_bind picked).trans ((run_bind (show own l _ = .ok () _ from rfl)).trans
      ((run_bind treated).trans (run_bind last)))

/-- The answer of the peer is logged where it is a failure, and the visit of the lock is over. -/
theorem run_answered (run : disown l m = .ok () m') (failure : Option LockError) :
    ∃ log, c.answered l failure m = .ok { c with asking := none } (m'.relog log) := by
  unfold answered
  cases failure with
  | none => exact ⟨m'.log, run_bind run⟩
  | some e =>
    obtain ⟨log, again⟩ := blind_disown.of_ok run (m.log.push ⟨.error, "Cancel of lock " ++
      (m.lock l).handleText ++ " in namespace " ++ (m.space c.space).name ++ " failed: " ++ e.message⟩)
    refine ⟨log, (run_bind (run_lock l m)).trans ((run_bind (run_space c.space m)).trans ?_)⟩
    exact (run_bind (run_log _ _ m)).trans (run_bind again)

/-- Once a lock is visited, it is not among those to visit, and the others are. -/
theorem left_of_handled {calls : List Callback} (handled : Handled n l calls m m')
    (visited : (m'.lock l).flags.contains .cleaned = true)
    (within : ∀ next ∈ c.todo, next.1.space = n) : c.left m' = (c.left m).filter (· != l) := by
  unfold left
  rw [List.filter_flatMap]
  exact List.flatMap_congr fun next member => handled.pending (within next member) visited next.2

/-- A drain does the visits of all locks that it will come to, and then drops its references. The
answers of the peer make a difference to the log only. -/
theorem finishes (treats : policy.Treats wanted n)
    (draining : Draining wanted n held covered hands holds m) (space : c.space = n)
    (within : ∀ next ∈ c.todo, next.1.space = n) (distinct : (c.left m).Nodup)
    (run : (c.left m).forM (visit policy n c.flags) m = .ok () m₁)
    (drops : putAll c.held m₁ = .ok () m') :
    c.Finishes policy (fun count m₂ => count = c.cleaned + (c.left m).length ∧
      ∃ log, m₂ = m'.relog log) m := by
  obtain ⟨size, bound⟩ : ∃ size, (c.left m).length + c.todo.length = size := ⟨_, rfl⟩
  induction size generalizing c m m₁ m' with
  | zero =>
    have todo : c.todo = [] := List.length_eq_zero_iff.mp (by omega)
    have none : c.left m = [] := List.length_eq_zero_iff.mp (by omega)
    rw [none] at run ⊢
    cases run
    obtain ⟨log, run⟩ := run_turn_last todo drops
    exact .returns run ⟨rfl, log, rfl⟩
  | succ size ih =>
    cases todo : c.todo with
    | nil =>
      rw [show c.left m = [] by rw [left, todo, List.flatMap_nil], todo] at bound
      cases bound
    | cons next rest =>
      obtain ⟨r, q⟩ := next
      have split : c.left m = m.pending r q ++ rest.flatMap fun next => m.pending next.1 next.2 := by
        rw [left, todo, List.flatMap_cons]
      rw [todo] at bound
      cases first : m.pending r q with
      | nil =>
        have same : left { c with todo := rest } m = c.left m := by
          rw [split, first]
          rfl
        rw [← same] at distinct run bound ⊢
        refine .goes (run_turn_next todo first) ?_
        refine ih (c := { c with todo := rest }) draining space (fun next member => ?_) distinct run
          drops (Nat.succ.inj bound)
        exact within next (todo ▸ List.mem_cons_of_mem _ member)
      | cons l more =>
        rw [first, List.cons_append] at split
        obtain ⟨inside, fresh⟩ := List.mem_filter.mp (first ▸ List.mem_cons_self ..)
        have here : r.space = n := within (r, q) (todo ▸ List.mem_cons_self ..)
        obtain ⟨m₂, visited, draining₂, handled, marked⟩ :=
          draining.visit treats c.flags here inside (Bool.not_eq_true' _ ▸ fresh)
        have visits : visit policy c.space c.flags l m = .ok () m₂ := by rwa [space]
        rw [split] at distinct run bound
        obtain ⟨apart, distinct⟩ := List.nodup_cons.mp distinct
        have left₂ : c.left m₂ = more ++ rest.flatMap fun next => m.pending next.1 next.2 := by
          rw [left_of_handled handled (cleaned_of_marked marked) within, split,
            List.filter_cons_of_neg (by simp), List.filter_eq_self.mpr]
          exact fun k inside => bne_iff_ne.mpr fun same => apart (same ▸ inside)
        obtain ⟨_, _, again, later⟩ := ok_of_bind run
        cases again.symm.trans visited
        rw [← left₂] at distinct later
        -- What was logged meanwhile makes no difference to the rest of the drain.
        have onward : ∀ asking log, Finishes policy (fun count m₃ =>
            count = c.cleaned + (c.left m).length ∧ ∃ log, m₃ = m'.relog log)
            { c with cleaned := c.cleaned + 1, asking } (m₂.relog log) := by
          intro asking log
          obtain ⟨log₁, later⟩ := (blind_forM fun _ => blind_visit treats).of_ok later log
          obtain ⟨log₂, drops⟩ := (blind_putAll c.held).of_ok drops log₁
          refine (ih (c := { c with cleaned := c.cleaned + 1, asking }) (draining₂.relog log) space
            within distinct later drops ?_).imp ?_
          · show (c.left m₂).length + c.todo.length = size
            rw [left₂, todo]
            simp only [List.length_cons] at bound ⊢
            omega
          · rintro count m₃ ⟨rfl, log₃, rfl⟩
            refine ⟨?_, log₃, rfl⟩
            show c.cleaned + 1 + (c.left m₂).length = _
            rw [left₂, split, List.length_cons]
            omega
        rcases run_turn_visit todo first visits with goes | ⟨m₃, asks, last⟩
        · exact .goes goes (onward c.asking m₂.log)
        · choose log answers using fun failure => run_answered
            (c := { c with cleaned := c.cleaned + 1, asking := some l }) last failure
          exact .asks asks answers fun failure => onward none (log failure)

end Cleanup

end Lockspace
