import Lockspace.Proofs.Quiescence.Kept
import Lockspace.Proofs.Quiescence.Waking
import Lockspace.Session.Resources

namespace Lockspace

open Manager Act

/-- A call about namespaces, resources and locks that returns, with what its callers have before
and afterwards. They use the namespaces that were set up and resources that are referenced, and give
back what they have. -/
inductive Call : Manager → Stakes → Manager → Stakes → Prop
  | build {m m' : Manager} {has : Stakes} {setup : Setup} {n : SpaceKey}
      (run : Act.build setup m = .ok (.ok n) m') :
      Call m has m' { has with built := n :: has.built }
  | refused {m m' : Manager} {has : Stakes} {setup : Setup} {e : LockError}
      (run : Act.build setup m = .ok (.error e) m') : Call m has m' has
  | get {m m' : Manager} {has : Stakes} {n : SpaceKey} {id : ResourceId} {rtype : ResourceType}
      {create : Bool} {r : ResourceRef} (built : n ∈ has.built)
      (run : getOrCreate n id rtype create m = .ok (.ok r) m') :
      Call m has m' { has with hands := r ::ₘ has.hands }
  | missed {m m' : Manager} {has : Stakes} {n : SpaceKey} {id : ResourceId} {rtype : ResourceType}
      {create : Bool} {e : LockError} (built : n ∈ has.built)
      (run : getOrCreate n id rtype create m = .ok (.error e) m') : Call m has m' has
  | clone {m m' : Manager} {has : Stakes} {r : ResourceRef}
      (referenced : (m.resource r).refcount ≠ 0) (run : retain r m = .ok () m') :
      Call m has m' { has with hands := r ::ₘ has.hands }
  | put {m m' : Manager} {has : Stakes} {hands : Multiset ResourceRef} {r : ResourceRef}
      {gone : Bool} (owned : has.hands = r ::ₘ hands) (run : Act.put r m = .ok gone m') :
      Call m has m' { has with hands }
  | list {m m' : Manager} {has : Stakes} {n : SpaceKey} {refs : List ResourceRef}
      (built : n ∈ has.built) (run : Act.resources n m = .ok refs m') :
      Call m has m' { has with hands := ↑refs + has.hands }
  | hold {m m' : Manager} {has : Stakes} {n : SpaceKey} {count : Nat} (built : n ∈ has.built)
      (run : takeHold n m = .ok count m') :
      Call m has m' { has with holds := Function.update has.holds n (has.holds n + 1) }
  | yield {m m' : Manager} {has : Stakes} {n : SpaceKey} {count : Nat} (held : 0 < has.holds n)
      (run : dropHold n m = .ok count m') :
      Call m has m' { has with holds := Function.update has.holds n (has.holds n - 1) }
  | newLock {m m' : Manager} {has : Stakes} {handle : LockHandle} {mode : LockMode}
      {extent : Option Extent} {l : LockKey} (run : Act.newLock handle mode extent m = .ok l m') :
      Call m has m' has
  | disown {m m' : Manager} {has : Stakes} {l : LockKey} (run : Act.disown l m = .ok () m') :
      Call m has m' has
  | bind {m m' : Manager} {has : Stakes} {hands : Multiset ResourceRef} {l : LockKey}
      {r : ResourceRef} (owned : has.hands = r ::ₘ hands) (run : Act.bind l r m = .ok () m') :
      Call m has m' { has with hands }
  | unbind {m m' : Manager} {has : Stakes} {l : LockKey} {r : ResourceRef}
      (run : Act.unbind l m = .ok (some r) m') :
      Call m has m' { has with hands := r ::ₘ has.hands }
  | unbound {m m' : Manager} {has : Stakes} {l : LockKey} (run : Act.unbind l m = .ok none m') :
      Call m has m' has
  | add {m m' : Manager} {has : Stakes} {r : ResourceRef} {q : Queue} {l : LockKey}
      (referenced : (m.resource r).refcount ≠ 0) (run : addLock r q l m = .ok () m') :
      Call m has m' has
  | insert {m m' : Manager} {has : Stakes} {r : ResourceRef} {anchor l : LockKey}
      (referenced : (m.resource r).refcount ≠ 0) (run : insertAfter r anchor l m = .ok () m') :
      Call m has m' has
  | unlink {m m' : Manager} {has : Stakes} {r : ResourceRef} {l : LockKey}
      (referenced : (m.resource r).refcount ≠ 0) (run : Act.unlink r l m = .ok () m') :
      Call m has m' has
  | destroy {m m' : Manager} {has : Stakes} {n : SpaceKey} {l : LockKey}
      (run : destroyLock n l m = .ok () m') : Call m has m' has
  | move {m m' : Manager} {has : Stakes} {side : Side} {n : SpaceKey} {target : NamespaceLink}
      (on : target ≠ .detached) (run : moveTo side n target m = .ok () m') : Call m has m' has
  /-- A handle on a namespace goes, be it the last one. -/
  | leave {m m' : Manager} {has : Stakes} {n : SpaceKey} (run : disownSpace n m = .ok () m') :
      Call m has m' has
  | free {m m' : Manager} {has : Stakes} {n : SpaceKey} {freed : Bool} (built : n ∈ has.built)
      (run : freePost n m = .ok freed m') : Call m has m' has
  /-- The estimate of the bucket of a resource takes in an observed time. -/
  | observe {m m' : Manager} {has : Stakes} {r : ResourceRef} {elapsed : Duration}
      (referenced : (m.resource r).refcount ≠ 0)
      (run : Perform.recordTime r elapsed m = .ok () m') : Call m has m' has
  /-- The value block of a resource is written. -/
  | write {m m' : Manager} {has : Stakes} {r : ResourceRef} {lvb : Lvb}
      (referenced : (m.resource r).refcount ≠ 0)
      (run : modifyResource r (fun res => { res with lvb }) m = .ok () m') : Call m has m' has
  /-- Anything else: handles and lists of unused locks, flags and holders of locks, settings,
  listings, clocks and notes. -/
  | aside {m m' : Manager} {has : Stakes} (harmless : Harmless m m') : Call m has m' has

/-- Any number of calls, by any callers. -/
def Calls : Manager × Stakes → Manager × Stakes → Prop :=
  Relation.ReflTransGen fun before after => Call before.1 before.2 after.1 after.2

namespace Manager

/-- What holds between any two calls: the books are kept, and the registry agrees with what became
of the namespaces that were set up. -/
structure Upheld (m : Manager) (has : Stakes) : Prop extends Kept m has where
  enrolled : ∃ roll : Roll, roll.Matches m ∧ roll.built = has.built

end Manager

namespace Call

variable {m m' : Manager} {has has' : Stakes}

/-- References of somebody else do not matter to a call. -/
theorem beside (call : Call m has m' has') (refs : Multiset ResourceRef) :
    Call m (has.beside refs) m' (has'.beside refs) := by
  have more (r : ResourceRef) (hands : Multiset ResourceRef) :
      refs + r ::ₘ hands = r ::ₘ (refs + hands) := Multiset.add_cons ..
  cases call with
  | build run => exact .build run
  | refused run => exact .refused run
  | get built run =>
    simp only [Stakes.beside, more]
    exact @Call.get m m' (has.beside refs) _ _ _ _ _ built run
  | missed built run => exact .missed built run
  | clone referenced run =>
    simp only [Stakes.beside, more]
    exact @Call.clone m m' (has.beside refs) _ referenced run
  | put owned run => exact .put (by simp only [Stakes.beside, owned, more]) run
  | list built run =>
    simp only [Stakes.beside, add_left_comm refs]
    exact @Call.list m m' (has.beside refs) _ _ built run
  | hold built run => exact .hold built run
  | yield held run => exact .yield held run
  | newLock run => exact .newLock run
  | disown run => exact .disown run
  | bind owned run => exact .bind (by simp only [Stakes.beside, owned, more]) run
  | unbind run =>
    simp only [Stakes.beside, more]
    exact @Call.unbind m m' (has.beside refs) _ _ run
  | unbound run => exact .unbound run
  | add referenced run => exact .add referenced run
  | insert referenced run => exact .insert referenced run
  | unlink referenced run => exact .unlink referenced run
  | destroy run => exact .destroy run
  | move on run => exact .move on run
  | leave run => exact .leave run
  | free built run => exact .free built run
  | observe referenced run => exact .observe referenced run
  | write referenced run => exact .write referenced run
  | aside harmless => exact .aside harmless

/-- Whatever is called, nobody's last reference goes without a signal. -/
theorem wakes (call : Call m has m' has') : Wakes m m' := by
  cases call with
  | build run => exact (wakes_build _ m).of_ok run
  | refused run => exact (wakes_build _ m).of_ok run
  | get _ run => exact (wakes_getOrCreate _ _ _ m).of_ok run
  | missed _ run => exact (wakes_getOrCreate _ _ _ m).of_ok run
  | clone _ run => exact (wakes_retain m).of_ok run
  | put _ run => exact (wakes_drops.put _ m).of_ok run
  | list _ run => exact (wakes_resources m).of_ok run
  | hold _ run => exact (wakes_takeHold m).of_ok run
  | yield _ run => exact (wakes_dropHold m).of_ok run
  | newLock run =>
    cases run
    exact .of_spaces rfl
  | disown run => exact (wakes_drops.disown _ m).of_ok run
  | bind _ run => exact (wakes_locks.bind wakes_drops _ _ m).of_ok run
  | unbind run => exact (wakes_drops.unbind _ m).of_ok run
  | unbound run => exact (wakes_drops.unbind _ m).of_ok run
  | add _ run => exact (wakes_locks.addLock _ _ _ m).of_ok run
  | insert _ run => exact (wakes_locks.insertAfter _ _ _ m).of_ok run
  | unlink _ run => exact (wakes_locks.unlink _ _ m).of_ok run
  | destroy run => exact (wakes_locks.destroyLock wakes_drops _ _ m).of_ok run
  | move _ run => exact (wakes_moveTo _ _ m).of_ok run
  | leave run => exact (wakes_disownSpace m).of_ok run
  | free _ run => exact (wakes_freePost m).of_ok run
  | observe _ run =>
    cases run
    exact .modifySpace (.of_le rfl le_rfl)
  | write _ run => exact (wakes_locks.resource _ _ m).of_ok run
  | aside harmless =>
    intro n
    exact .of_le (harmless.signals n) (by rw [harmless.table])

theorem built (call : Call m has m' has') : has.built ⊆ has'.built := by
  cases call with
  | build run => exact List.subset_cons_self _ _
  | _ => exact List.Subset.refl _

/-- Which namespaces were set up and freed goes on to agree with the registry. -/
theorem enrolls (call : Call m has m' has')
    (enrolled : ∃ roll : Roll, roll.Matches m ∧ roll.built = has.built) :
    ∃ roll : Roll, roll.Matches m' ∧ roll.built = has'.built := by
  obtain ⟨roll, matched, built⟩ := enrolled
  have moves (moves : Shuffled m m') : ∃ roll : Roll, roll.Matches m' ∧ roll.built = has.built :=
    ⟨roll, matched.shuffled moves, built⟩
  have stays (same : SameRoll m m') : ∃ roll : Roll, roll.Matches m' ∧ roll.built = has.built :=
    moves same.shuffled
  cases call with
  | @build _ _ setup n run =>
    cases given : setup.preset with
    | error e => cases (run_build_of_error given).symm.trans run
    | ok preset =>
      obtain ⟨_, same, anew, spaces, alive⟩ := run_build_of_ok given matched.listed
      cases same.symm.trans run
      exact ⟨_, matched.built anew spaces alive, by rw [built]⟩
  | @refused _ _ setup e run =>
    cases given : setup.preset with
    | error e =>
      cases (run_build_of_error given).symm.trans run
      exact stays .rfl
    | ok preset =>
      obtain ⟨_, other, -⟩ := run_build_of_ok given matched.listed
      cases other.symm.trans run
  | get _ run => exact moves ((shuffled_getOrCreate _ _ _ m).of_ok run)
  | missed _ run => exact moves ((shuffled_getOrCreate _ _ _ m).of_ok run)
  | clone _ run => exact stays ((sameRoll_retain m).of_ok run)
  | put _ run => exact stays ((sameRoll_put m).of_ok run)
  | list _ run => exact stays ((sameRoll_resources m).of_ok run)
  | hold _ run =>
    cases run
    exact stays (Manager.sameRoll_modifySpace _ rfl)
  | yield _ run => exact stays ((sameRoll_dropHold m).of_ok run)
  | newLock run =>
    cases run
    exact stays (.of_eq rfl rfl)
  | disown run => exact stays ((sameRoll_disown m).of_ok run)
  | bind _ run => exact stays ((sameRoll_locks.bind sameRoll_drops _ _ m).of_ok run)
  | unbind run => exact stays ((sameRoll_drops.unbind _ m).of_ok run)
  | unbound run => exact stays ((sameRoll_drops.unbind _ m).of_ok run)
  | add _ run => exact stays ((sameRoll_locks.addLock _ _ _ m).of_ok run)
  | insert _ run => exact stays ((sameRoll_locks.insertAfter _ _ _ m).of_ok run)
  | unlink _ run => exact stays ((sameRoll_locks.unlink _ _ m).of_ok run)
  | destroy run => exact stays ((sameRoll_locks.destroyLock sameRoll_drops _ _ m).of_ok run)
  | move on run => exact moves ((shuffled_moveTo _ on m).of_ok run)
  | leave run => exact stays ((sameRoll_disownSpace m).of_ok run)
  | @free _ _ n freed known run =>
    rw [← built] at known
    cases freed with
    | true => exact ⟨_, matched.freed_of_run known run, built⟩
    | false => exact ⟨roll, matched.kept_of_run known run, built⟩
  | observe _ run =>
    cases run
    exact stays (Manager.sameRoll_modifySpace _ rfl)
  | write _ run =>
    cases run
    exact stays (Manager.sameRoll_modifySpace _ rfl)
  | aside harmless => exact stays harmless.toSameRoll

/-- The books are kept, and the locks are counted. -/
theorem keeps (call : Call m has m' has') (upheld : Upheld m has) : Kept m' has' := by
  obtain ⟨roll, matched, built⟩ := upheld.enrolled
  have kept := upheld.toKept
  have unknown : m.spaces.nextKey ∉ has.built := by
    rw [← built]
    exact fun old => lt_irrefl _ (matched.known _ old)
  have quietly {α : Type} {act : Act α} {a : α} (steady : act.Preserves SameQueues)
      (run : act m = .ok a m') {hands : Multiset ResourceRef}
      (booked : BookedIn (· ∈ has.built) m' hands has.holds) : Kept m' { has with hands } :=
    kept.sameQueues ((steady m).of_ok run) booked
  cases call with
  | build run => exact (kept.ends_build unknown _).of_ok run
  | refused run => exact (kept.ends_build unknown _).of_ok run
  | get known run =>
    have still := ((unmoved_getOrCreate _ _ _ m).of_ok run).sameQueues
    exact kept.sameQueues still ((kept.booked.ends_getOrCreate known _ _ _).of_ok run)
  | missed known run =>
    have still := ((unmoved_getOrCreate _ _ _ m).of_ok run).sameQueues
    exact kept.sameQueues still ((kept.booked.ends_getOrCreate known _ _ _).of_ok run)
  | clone referenced run =>
    exact quietly (sameQueues_of_steady steady_retain) run
      ((kept.booked.ends_retain referenced).of_ok run)
  | put owned run =>
    have booked := kept.booked
    rw [owned] at booked
    exact quietly (sameQueues_drops.put _) run (booked.ends_put.of_ok run)
  | list known run =>
    exact quietly (sameQueues_of_steady steady_resources) run
      ((kept.booked.ends_resources known).of_ok run)
  | hold known run =>
    refine ⟨(kept.booked.ends_takeHold known).of_ok run,
      kept.totals.sameQueues ((sameQueues_takeHold m).of_ok run), fun k unknown => ?_⟩
    have other : k ≠ _ := fun here => unknown (here ▸ known)
    exact (Function.update_of_ne other _ _).trans (kept.unheld k unknown)
  | @yield _ _ n _ held run =>
    have known : n ∈ has.built := by
      by_contra unknown
      exact absurd (kept.unheld n unknown) held.ne'
    refine ⟨(kept.booked.ends_dropHold known held).of_ok run,
      kept.totals.sameQueues ((sameQueues_dropHold m).of_ok run), fun k unknown => ?_⟩
    have other : k ≠ n := fun here => unknown (here ▸ known)
    exact (Function.update_of_ne other _ _).trans (kept.unheld k unknown)
  | newLock run => exact (kept.ends_newLock _ _ _).of_ok run
  | disown run =>
    exact quietly (sameQueues_drops.disown _) run (kept.booked.ends_disown.of_ok run)
  | @bind _ _ hands l r owned run =>
    have before : Kept m { has with hands := r ::ₘ hands } := by rwa [← owned]
    exact before.ends_bind_lock.of_ok run
  | unbind run =>
    exact quietly (sameQueues_drops.unbind _) run (kept.booked.ends_unbind.of_ok run)
  | unbound run =>
    exact quietly (sameQueues_drops.unbind _) run (kept.booked.ends_unbind.of_ok run)
  | add referenced run => exact (kept.ends_addLock referenced).of_ok run
  | insert referenced run => exact (kept.ends_insertAfter referenced).of_ok run
  | unlink _ run => exact kept.ends_unlink.of_ok run
  | destroy run => exact kept.ends_destroyLock.of_ok run
  | move _ run =>
    exact kept.sameQueues ((unmoved_moveTo _ _ m).of_ok run).sameQueues
      (kept.booked.agrees ((Quiet.ends_all fun k => quiet_moveTo (n := k) _ _).of_ok run))
  | @leave _ _ n run =>
    let m₁ := m.modifySpace n fun s => { s with owners := s.owners - 1 }
    have fewer : BookedIn (· ∈ has.built) m₁ has.hands has.holds :=
      kept.booked.same (view_modifySpace (·.table) rfl) rfl
    refine quietly sameQueues_disownSpace run ?_
    exact (fewer.ends_dropDesertedUpTo m₁.spaces.size n).of_ok run
  | @free _ _ n freed known run =>
    refine quietly sameQueues_freePost run (((kept.booked.ends_freePost known matched.listed
      fun unfreed => ?_).of_ok run).1)
    exact matched.alive_ne_zero (built ▸ known) unfreed
  | @observe _ _ r elapsed referenced run =>
    cases run
    have known := kept.booked.held r referenced
    have books := kept.booked.tallied r.space known
    have member := kept.booked.mem_of_referenced referenced
    refine kept.sameQueues (.modifySpace rfl rfl) (kept.booked.retable (n := r.space) ?_
      (fun _ _ => rfl) known fun key => kept.booked.alive ⟨r.space, key⟩)
    exact books.estimated (books.bucket_lt (by simpa using member)) _
  | write referenced run =>
    cases run
    refine kept.sameQueues (.modifyResource rfl rfl) ?_
    exact kept.booked.moved referenced rfl rfl rfl
      (fun _ => space_modifyResource m _ _) fun _ => rfl
  | aside harmless => exact kept.harmless harmless

theorem upholds (call : Call m has m' has') (upheld : Upheld m has) : Upheld m' has' :=
  ⟨call.keeps upheld, call.enrolls upheld.enrolled⟩

end Call

theorem Manager.Upheld.empty : Upheld {} {} :=
  ⟨.empty, {}, .empty, rfl⟩

namespace Calls

variable {before after : Manager × Stakes}

theorem single {m m' : Manager} {has has' : Stakes} (call : Call m has m' has') :
    Calls (m, has) (m', has') :=
  Relation.ReflTransGen.single call

theorem aside {m m' : Manager} {has : Stakes} (harmless : Harmless m m') :
    Calls (m, has) (m', has) :=
  .single (.aside harmless)

/-- Whatever is called, and how often, what holds between calls goes on to hold. -/
theorem upholds (calls : Calls before after) (upheld : Upheld before.1 before.2) :
    Upheld after.1 after.2 := by
  induction calls with
  | refl => exact upheld
  | tail _ call ih => exact call.upholds ih

theorem wakes (calls : Calls before after) : Wakes before.1 after.1 := by
  induction calls with
  | refl => exact refl_of Wakes _
  | tail _ call ih => exact trans_of Wakes ih call.wakes

theorem built (calls : Calls before after) : before.2.built ⊆ after.2.built := by
  induction calls with
  | refl => exact List.Subset.refl _
  | tail _ call ih => exact List.Subset.trans ih call.built

theorem beside (calls : Calls before after) (refs : Multiset ResourceRef) :
    Calls (before.1, before.2.beside refs) (after.1, after.2.beside refs) := by
  induction calls with
  | refl => exact .refl
  | tail _ call ih => exact ih.tail (call.beside refs)

end Calls

end Lockspace
