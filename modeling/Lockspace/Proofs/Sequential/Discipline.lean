import Lockspace.Proofs.Standing
import Lockspace.Manager.Spaces
import Lockspace.Waiting.Task

namespace Lockspace

open Manager Act

/-- The operation that goes on after a turn. -/
def Turn.next? {σ α : Type} : Turn σ α → Option σ
  | goes s | asks _ s | parks _ s => some s
  | returns _ => none

/-- The answer that an operation returns with a turn. -/
def Turn.answer? {σ α : Type} : Turn σ α → Option α
  | goes _ | asks _ _ | parks _ _ => none
  | returns answer => some answer

theorem Turn.eq_returns {σ α : Type} {turn : Turn σ α} {answer : α}
    (returned : turn.answer? = some answer) : turn = .returns answer := by
  cases turn with
  | returns a => exact congrArg returns (Option.some.inj returned)
  | _ => cases returned

/-- What a caller of one namespace has: references, holds, and a waiting operation that has not
returned yet. -/
structure Caller where
  hands : Multiset ResourceKey := 0
  holds : Nat := 0
  busy : Option Task := none

/-- A call on a namespace or on what belongs to it. A waiting operation is started by one call and
then goes on by turns, with anything in between. -/
inductive Command where
  | get (id : ResourceId) (rtype : ResourceType) (create : Bool)
  | clone (key : ResourceKey)
  | put (key : ResourceKey)
  | newLock (handle : LockHandle) (mode : LockMode) (extent : Option Extent)
  /-- A change of flags, holders or owners of a lock. -/
  | alter (l : LockKey) (f : Lock → Lock)
  | disown (l : LockKey)
  | bind (l : LockKey) (key : ResourceKey)
  | unbind (l : LockKey)
  | add (key : ResourceKey) (q : Queue) (l : LockKey)
  | insertAfter (key : ResourceKey) (anchor l : LockKey)
  | unlink (key : ResourceKey) (l : LockKey)
  | destroy (l : LockKey)
  | unused (l : LockKey)
  | reused (l : LockKey)
  | hold
  | yield
  | cleanup (flags : LockFlags)
  | cancelLru (count : Nat) (flags : LockFlags)
  | setLruSize (size : LruSize)
  | freePrior (force hasImport : Bool)
  | free (force hasImport : Bool)
  | turn
  | expired
  | answered (l : LockKey) (failure : Option LockError)
  | pressed (step : Escalation) (failure : Option LockError)
  | abandon
  | freePost

namespace Command

/-- Runs a call and tells what the caller has afterwards. -/
def perform (n : SpaceKey) (caller : Caller) : Command → Act Caller
  | get id rtype create => do
    match ← Act.getOrCreate n id rtype create with
    | .ok r => return { caller with hands := r.key ::ₘ caller.hands }
    | .error _ => return caller
  | clone key => do
    Act.retain ⟨n, key⟩
    return { caller with hands := key ::ₘ caller.hands }
  | put key => do
    discard (Act.put ⟨n, key⟩)
    return { caller with hands := caller.hands.erase key }
  | newLock handle mode extent => do
    discard (Act.newLock handle mode extent)
    return caller
  | alter l f => do
    Act.modifyLock l f
    return caller
  | disown l => do
    Act.disown l
    return caller
  | bind l key => do
    Act.bind l ⟨n, key⟩
    return { caller with hands := caller.hands.erase key }
  | unbind l => do
    match ← Act.unbind l with
    | some r => return { caller with hands := r.key ::ₘ caller.hands }
    | none => return caller
  | add key q l => do
    Act.addLock ⟨n, key⟩ q l
    return caller
  | insertAfter key anchor l => do
    Act.insertAfter ⟨n, key⟩ anchor l
    return caller
  | unlink key l => do
    Act.unlink ⟨n, key⟩ l
    return caller
  | destroy l => do
    Act.destroyLock n l
    return caller
  | unused l => do
    discard (Act.lockUnused n l)
    return caller
  | reused l => do
    discard (Act.lockReused n l)
    return caller
  | hold => do
    discard (Act.takeHold n)
    return { caller with holds := caller.holds + 1 }
  | yield => do
    discard (Act.dropHold n)
    return { caller with holds := caller.holds - 1 }
  | cleanup flags => do
    return { caller with busy := some (.cleanup (← Cleanup.start n flags)) }
  | cancelLru count flags => do
    return { caller with busy := some (.cancel (← Act.cancelLru .default n count flags) .keep) }
  | setLruSize size => do
    let (cancel, last) ← Act.setLruSize .default n size
    return { caller with busy := some (.cancel cancel last) }
  | freePrior force hasImport => do
    return { caller with busy := some (.prior (← Teardown.start n force hasImport)) }
  | free force hasImport => do
    return { caller with busy := some (.free (← Teardown.start n force hasImport)) }
  | turn =>
    match caller.busy with
    | none => return caller
    | some t => return { caller with busy := (← t.turn .default).next? }
  | expired =>
    match caller.busy with
    | none => return caller
    | some t => return { caller with busy := (← t.expired).next? }
  | answered l failure =>
    match caller.busy with
    | none => return caller
    | some t => return { caller with busy := some (← t.answered l failure) }
  | pressed step failure =>
    match caller.busy with
    | none => return caller
    | some t => return { caller with busy := some (← t.pressed step failure) }
  | abandon =>
    match caller.busy with
    | none => return caller
    | some t => do
      t.abandon
      return { caller with busy := none }
  | freePost => do
    discard (Act.freePost n)
    return caller

/-- The discipline of callers. They only give away what they have. A lock is bound to a resource
before it joins a queue of that resource, and neither bound elsewhere nor unbound as long as it is
on a queue. It joins a queue only where it is on none, behind a lock that is on a queue of the same
resource, and it leaves its queue by way of that resource. One waiting operation goes on at a
time. -/
def Allowed (n : SpaceKey) (m : Manager) (caller : Caller) : Command → Prop
  | clone key | put key => key ∈ caller.hands
  | alter l f => (f (m.lock l)).standing = (m.lock l).standing
  | bind l key => key ∈ caller.hands ∧ (m.lock l).link = none
  | unbind l => (m.lock l).link = none
  | add key _ l => (m.lock l).link = none ∧ (m.lock l).bound = some ⟨n, key⟩
  | insertAfter key anchor l => (m.lock l).link = none ∧ (m.lock l).bound = some ⟨n, key⟩ ∧
      ∃ q ∈ (m.lock anchor).link, anchor ∈ ((m.space n).table.resource key).queues.get q
  | unlink key l => ∀ q ∈ (m.lock l).link, l ∈ ((m.space n).table.resource key).queues.get q
  | yield => 0 < caller.holds
  | cleanup _ | cancelLru .. | setLruSize _ | freePrior .. | free .. => caller.busy = none
  | pressed .. => ∀ t ∈ caller.busy, t.escalation?.isSome
  | _ => True

instance (n : SpaceKey) (m : Manager) (caller : Caller) : DecidablePred (Allowed n m caller)
  | clone key | put key => inferInstanceAs (Decidable (key ∈ caller.hands))
  | alter l f => inferInstanceAs (Decidable ((f (m.lock l)).standing = (m.lock l).standing))
  | bind l key => inferInstanceAs (Decidable (key ∈ caller.hands ∧ (m.lock l).link = none))
  | unbind l => inferInstanceAs (Decidable ((m.lock l).link = none))
  | add key _ l =>
    inferInstanceAs (Decidable ((m.lock l).link = none ∧ (m.lock l).bound = some ⟨n, key⟩))
  | insertAfter key anchor l =>
    inferInstanceAs (Decidable ((m.lock l).link = none ∧ (m.lock l).bound = some ⟨n, key⟩ ∧
      ∃ q ∈ (m.lock anchor).link, anchor ∈ ((m.space n).table.resource key).queues.get q))
  | unlink key l =>
    inferInstanceAs (Decidable (∀ q ∈ (m.lock l).link,
      l ∈ ((m.space n).table.resource key).queues.get q))
  | yield => inferInstanceAs (Decidable (0 < caller.holds))
  | cleanup _ | cancelLru .. | setLruSize _ | freePrior .. | free .. =>
    decidable_of_iff (caller.busy.isNone = true) Option.isNone_iff_eq_none
  | pressed .. => inferInstanceAs (Decidable (∀ t ∈ caller.busy, t.escalation?.isSome))
  | get .. | newLock .. | disown _ | destroy _ | unused _ | reused _ | hold | turn | expired
  | answered .. | abandon | freePost => isTrue trivial

/-- Makes calls one after another, up to one that is not allowed or ends in a fault. -/
def performAll? (n : SpaceKey) : List Command → Caller → Manager → Option (Caller × Manager)
  | [], caller, m => some (caller, m)
  | c :: rest, caller, m =>
    if c.Allowed n m caller then
      match c.perform n caller m with
      | .ok caller m => performAll? n rest caller m
      | .error .. => none
    else none

end Command

/-- The runs of a namespace, freshly set up alone, whose callers keep to the discipline. -/
inductive Sequential (setup : Setup) (n : SpaceKey) : Manager → Caller → Prop
  | built {m : Manager} (run : Act.build setup {} = .ok (.ok n) m) : Sequential setup n m {}
  | call {m m' : Manager} {caller caller' : Caller} {c : Command}
      (reach : Sequential setup n m caller) (allowed : c.Allowed n m caller)
      (run : c.perform n caller m = .ok caller' m') : Sequential setup n m' caller'

theorem Sequential.all {setup : Setup} {n : SpaceKey} {m m' : Manager} {caller caller' : Caller}
    {calls : List Command} (reach : Sequential setup n m caller)
    (run : Command.performAll? n calls caller m = some (caller', m')) :
    Sequential setup n m' caller' := by
  induction calls generalizing caller m with
  | nil =>
    cases run
    exact reach
  | cons c rest ih =>
    unfold Command.performAll? at run
    split at run
    · rename_i allowed
      split at run
      · rename_i once
        exact ih (reach.call allowed once) run
      · cases run
    · cases run

end Lockspace
