import Lockspace.Proofs.Destruction.Wholes
import Lockspace.Proofs.Quiescence.Stages

namespace Lockspace

open Manager Act

/-- A lock has been given a reference since its destruction began. -/
def Fate.Late (fate : Fate) : Prop :=
  ∃ e, fate.ending = some e ∧ e.serial < fate.given

namespace Manager

/-- A lock is destroyed, and has been given no reference since. -/
def Spent (m : Manager) (fates : LockKey → Fate) (l : LockKey) : Prop :=
  (m.lock l).isDestroyed ∧ ¬ (fates l).Late

/-- What the destruction of locks leaves behind. A lock that is destroyed owns nothing, unless it
was given a reference since. A resource on which nobody else has a reference is gone from its table,
and a namespace of such resources has nobody to wait for. -/
structure Unburdened (m : Manager) (has : Stakes) (fates : LockKey → Fate) : Prop where
  owns : ∀ l, Spent m fates l → (m.lock l).bound = none
  gone : ∀ r, r.space ∈ has.built → r ∉ has.hands →
    (∀ l, (m.lock l).bound = some r → Spent m fates l) → ¬ m.Hashes r
  drained : ∀ n ∈ has.built, has.holds n = 0 → (∀ r ∈ has.hands, r.space ≠ n) →
    (∀ l r, (m.lock l).bound = some r → r.space = n → Spent m fates l) →
    (m.space n).table.bref = 0 ∧ Waiter.outside.poll (m.space n) = .finished

end Manager

namespace Manager.BookedIn

variable {covered : SpaceKey → Prop} {m : Manager} {hands : Multiset ResourceRef}
  {holds : SpaceKey → Nat} {n : SpaceKey}

/-- A namespace on which there are no references and no holds counts none. -/
theorem bref_eq_zero (booked : BookedIn covered m hands holds) (known : covered n)
    (none : ∀ r ∈ hands + m.boundRefs, r.space ≠ n) (unheld : holds n = 0) :
    (m.space n).table.bref = 0 := by
  have books := booked.tallied n known
  have empty : refKeys (hands + m.boundRefs) n = 0 :=
    Multiset.eq_zero_of_forall_notMem fun key member => none _ (mem_refKeys.mp member) rfl
  rw [books.held, unheld, Nat.add_zero, Table.occupied_eq_zero]
  refine fun b => List.eq_nil_iff_forall_not_mem.mpr fun entry member => ?_
  have filed := (books.filed b entry.1 entry.2 member).1
  rw [empty] at filed
  exact Multiset.notMem_zero _ filed

end Manager.BookedIn

namespace Unmaking

variable {m : Manager} {has : Stakes} {fates : LockKey → Fate}

/-- Between any two calls, with no destruction under way, a destroyed lock owns nothing unless it
was bound after its destruction. -/
theorem disburdens (reach : Unmaking m has fates) (between : ∀ l, ¬ (fates l).Open) :
    Unburdened m has fates := by
  have booked := reach.upheld.booked
  have owns : ∀ l, Spent m fates l → (m.lock l).bound = none := by
    rintro l ⟨gone, early⟩
    have fits := reach.fits l
    obtain ⟨e, ending⟩ := Option.ne_none_iff_exists'.mp (fits.destroyed.mp gone)
    have closing := fits.closing e ending
    have ended : e.stage = .ended := not_not.mp fun further => between l ⟨e, ending, further⟩
    have last : (fates l).given = e.serial :=
      (not_lt.mp fun later => early ⟨e, ending, later⟩).antisymm closing.serial
    exact closing.spent ended last
  -- A reference on a resource is in the hands of a caller, or some lock owns it.
  have unowned : ∀ r, r ∉ has.hands → (∀ l, (m.lock l).bound = some r → Spent m fates l) →
      r ∉ has.hands + m.boundRefs := by
    intro r unhanded spent member
    obtain ⟨l, bound⟩ := mem_boundRefs.mp ((Multiset.mem_add.mp member).resolve_left unhanded)
    have none := owns l (spent l bound)
    rw [none] at bound
    cases bound
  refine ⟨owns, fun r known unhanded spent hashed => ?_, fun n known unheld elsewhere spent => ?_⟩
  · exact unowned r unhanded spent ((booked.hashes_iff known).mp hashed)
  · have none : (m.space n).table.bref = 0 := by
      refine booked.bref_eq_zero known (fun r member here => ?_) unheld
      exact unowned r (fun handed => elsewhere r handed here)
        (fun l bound => spent l r bound here) member
    refine ⟨none, ?_⟩
    rw [Waiter.poll_outside, if_pos none]

/-- A lock owns the last reference on a resource and is destroyed. -/
theorem disburdens_of_destroyed_owner : ∃ m₀ m has fates, (m₀.lock ⟨0⟩).bound = some ⟨⟨0⟩, ⟨0⟩⟩ ∧
    Act.destroyLock ⟨0⟩ ⟨0⟩ m₀ = .ok () m ∧ Unmaking m has fates ∧ (∀ l, ¬ (fates l).Open) ∧
    Spent m fates ⟨0⟩ ∧ (m.lock ⟨0⟩).bound = none ∧ ¬ m.Hashes ⟨⟨0⟩, ⟨0⟩⟩ ∧
    Waiter.outside.poll (m.space ⟨0⟩) = .finished := by
  let r : ResourceRef := ⟨⟨0⟩, ⟨0⟩⟩
  obtain ⟨_, m₂, setUp, _, m₃, handed, ⟨owned, whole⟩, _, m, destroyed, gone, single⟩ :
      setUpOne.Returns {} fun _ m₂ => (Act.bind ⟨0⟩ r).Returns m₂ fun _ m₃ =>
        ((m₃.lock ⟨0⟩).bound = some r ∧ (m₃.lock ⟨0⟩).isDestroyed = false) ∧
          (Act.destroyLock ⟨0⟩ ⟨0⟩).Returns m₃ fun _ m => (m.lock ⟨0⟩).isDestroyed ∧
            m.locks.size ≤ 1 := by
    decide +kernel
  obtain ⟨fates, reach, idle⟩ := of_setUpOne setUp
  have reach : Unmaking m₃ { built := [⟨0⟩] } _ :=
    reach.call (.bind rfl handed) (.bind ..) nofun handed
  obtain ⟨fates, reach, completes, ending⟩ := reach.destroyLock destroyed
  have between : ∀ l, ¬ (fates l).Open := fun l busy => idle l (completes.ended l busy)
  have spent : Spent m fates ⟨0⟩ := by
    refine ⟨gone, ?_⟩
    rintro ⟨e, same, late⟩
    obtain rfl := Option.some.inj ((ending whole).symm.trans same)
    exact late.ne (completes.given ⟨0⟩).symm
  have unburdened := reach.disburdens between
  have owners : ∀ l s, (m.lock l).bound = some s → Spent m fates l := by
    intro l s bound
    by_cases here : l = ⟨0⟩
    · rw [here]
      exact spent
    · have unknown : m.lock l = default := by
        refine Store.get_of_size_le _ (single.trans ?_)
        exact Nat.one_le_iff_ne_zero.mpr fun zero => here (congrArg Key.mk zero)
      rw [unknown] at bound
      cases bound
  have unwatched := (unburdened.drained ⟨0⟩ List.mem_cons_self rfl
    (fun s none => absurd none (Multiset.notMem_zero s)) fun l s bound _ => owners l s bound).2
  exact ⟨m₃, m, _, fates, owned, destroyed, reach, between, spent, unburdened.owns _ spent,
    unburdened.gone r List.mem_cons_self (Multiset.notMem_zero r) fun l => owners l r, unwatched⟩

/-- A lock that is bound after its destruction owns a reference that nothing releases. Nobody else
refers to the resource, which stays in its table and holds up whoever waits for the namespace. -/
theorem keeps_late_reference : ∃ m has fates, Unmaking m has fates ∧ (∀ l, ¬ (fates l).Open) ∧
    (m.lock ⟨0⟩).isDestroyed ∧ (m.lock ⟨0⟩).bound = some ⟨⟨0⟩, ⟨0⟩⟩ ∧ has.hands = 0 ∧
    has.holds = (fun _ => 0) ∧ m.Hashes ⟨⟨0⟩, ⟨0⟩⟩ ∧ (m.space ⟨0⟩).table.bref = 1 ∧
    ∃ seen, Waiter.outside.poll (m.space ⟨0⟩) = .parked seen := by
  let r : ResourceRef := ⟨⟨0⟩, ⟨0⟩⟩
  obtain ⟨_, m₂, setUp, _, m₃, destroyed, _, m, handed, gone, owned, counted⟩ :
      setUpOne.Returns {} fun _ m₂ => (Act.destroyLock ⟨0⟩ ⟨0⟩).Returns m₂ fun _ m₃ =>
        (Act.bind ⟨0⟩ r).Returns m₃ fun _ m => (m.lock ⟨0⟩).isDestroyed ∧
          (m.lock ⟨0⟩).bound = some r ∧ (m.space ⟨0⟩).table.bref = 1 := by
    decide +kernel
  obtain ⟨fates, reach, idle⟩ := of_setUpOne setUp
  obtain ⟨fates, reach, completes, -⟩ := reach.destroyLock destroyed
  have reach : Unmaking m { built := [⟨0⟩] } _ :=
    reach.call (.bind rfl handed) (.bind ..) nofun handed
  have hashed : m.Hashes r := by
    refine (reach.upheld.booked.hashes_iff List.mem_cons_self).mpr ?_
    exact Multiset.mem_add.mpr (Or.inr (mem_boundRefs.mpr ⟨_, owned⟩))
  have between : ∀ l, ¬ (fates l).Open := fun l busy => idle l (completes.ended l busy)
  refine ⟨m, _, _, reach, between, gone, owned, rfl, rfl, hashed, counted,
    (m.space ⟨0⟩).signals, ?_⟩
  rw [Waiter.poll_outside, counted]
  rfl

end Unmaking

end Lockspace
