import Lockspace.Proofs.Concurrent.TakingSteps

namespace Lockspace

open Manager Table

namespace InOrder

variable {n : SpaceKey} {m : Manager} {a : Activity} {rest : Multiset Activity} {id : ResourceId}
  {rtype : ResourceType} {key : ResourceKey} {l : LockKey} {b : BucketKey}

/-- An activity that holds one reference and stands for nothing else. -/
structure Carries (a : Activity) (key : ResourceKey) : Prop where
  hands : a.hands = {key}
  leaving : a.leaving = 0
  holds : a.holds = 0
  fits : ∀ t, a.Fits t
  frees : ∀ k, a.frees k = false

theorem carries_handle (key : ResourceKey) : Carries (.handle key) key :=
  ⟨rfl, rfl, rfl, fun _ => trivial, fun _ => rfl⟩

theorem carries_releasing (key : ResourceKey) : Carries (.releasing key) key :=
  ⟨rfl, rfl, rfl, fun _ => trivial, fun _ => rfl⟩

/-- A lock loses the reference that it owned, to an activity of its own. -/
theorem loses (inOrder : InOrder n m (a ::ₘ rest)) {m' : Manager} {make : ResourceKey → Activity}
    (carries : ∀ key, Carries (make key) key) (leaving : a.leaving = 0) (holds : a.holds = 0)
    (frees : ∀ k, a.frees k = false) (table : (m'.space n).table = (m.space n).table)
    (spaces : ∀ l r, (m'.lock l).bound = some r → r.space = n)
    (balance : m'.boundKeys n + (m.lock l).ownedKeys n = a.hands + m.boundKeys n) :
    Leads n m m' (↑((m.lock l).bound.toList.map fun r => make r.key) + rest) := by
  have hands : handsOf ↑((m.lock l).bound.toList.map fun r => make r.key) =
      (m.lock l).ownedKeys n := by
    cases bound : (m.lock l).bound with
    | none => simp [handsOf, Lock.ownedKeys, bound]
    | some r =>
      simp [handsOf, Lock.ownedKeys, bound, inOrder.spaces l r bound, (carries r.key).hands]
  refine inOrder.relock table spaces ?_ ?_ ?_ ?_ ?_
  · rw [hands, add_comm]
    exact balance
  · rw [leaving]
    cases (m.lock l).bound <;> simp [leavingOf, (carries _).leaving]
  · rw [holds]
    cases (m.lock l).bound <;> simp [holdsOf, (carries _).holds]
  · intro b member t
    obtain ⟨r, -, rfl⟩ := List.mem_map.mp member
    exact (carries r.key).fits t
  · intro key
    cases (m.lock l).bound <;> simp [frees, (carries _).frees]

/-- The lock is left without a reference. -/
theorem unbound (inOrder : InOrder n m (a ::ₘ rest)) {make : ResourceKey → Activity}
    (carries : ∀ key, Carries (make key) key) (empty : a.hands = 0) (leaving : a.leaving = 0)
    (holds : a.holds = 0) (frees : ∀ k, a.frees k = false) :
    Leads n m (m.modifyLock l fun lk => { lk with bound := none })
      (↑((m.lock l).bound.toList.map fun r => make r.key) + rest) := by
  refine inOrder.loses carries leaving holds frees rfl ?_ ?_
  · intro k r bound
    rw [lock_modifyLock] at bound
    split at bound
    · cases bound
    · exact inOrder.spaces k r bound
  · rw [empty, zero_add, m.boundKeys_modifyLock l]
    exact add_zero _

theorem steps_unbinding (inOrder : InOrder n m (.unbinding l ::ₘ rest)) :
    Steps n m (.unbinding l) rest := by
  unfold Steps
  simp only [Activity.advance, Act.unbind, Act.ends_bind, Act.ends_lock, Act.ends_modifyLock,
    Act.ends_pure]
  exact inOrder.unbound carries_handle rfl rfl rfl fun _ => rfl

theorem steps_forgetting (inOrder : InOrder n m (.forgetting l ::ₘ rest)) :
    Steps n m (.forgetting l) rest := by
  unfold Steps
  simp only [Activity.advance, Act.unbind, Act.ends_bind, Act.ends_lock, Act.ends_modifyLock,
    Act.ends_pure]
  exact inOrder.unbound carries_releasing rfl rfl rfl fun _ => rfl

theorem steps_binding (inOrder : InOrder n m (.binding l key ::ₘ rest)) :
    Steps n m (.binding l key) rest := by
  have homed : Keeps n m (m.modifyLock l fun lk => { lk with home := some ⟨n, key⟩ }) :=
    keeps_modifyLock l rfl
  unfold Steps
  simp only [Activity.advance, Act.rebind, Act.ends_bind, Act.ends_modifyLock, Act.ends_lock,
    Act.ends_pure, homed.bound]
  refine inOrder.loses carries_releasing rfl rfl (fun _ => rfl) rfl ?_ ?_
  · intro k r bound
    rw [lock_modifyLock] at bound
    split at bound
    · cases bound
      rfl
    · rw [homed.bound] at bound
      exact inOrder.spaces k r bound
  · have change := boundKeys_of_bound (m.modifyLock l fun lk => { lk with home := some ⟨n, key⟩ })
      n l key
    rw [boundKeys_congr homed.bound] at change
    simp only [Lock.ownedKeys, homed.bound] at change ⊢
    rw [change]
    exact (Multiset.singleton_add key _).symm

theorem steps_destroying (inOrder : InOrder n m (.destroying l ::ₘ rest)) :
    Steps n m (.destroying l) rest := by
  unfold Steps
  simp only [Activity.advance, Act.ends_bind, Act.ends_pure]
  refine (Act.ends_unlinkAndMark (n := n)).imp fun first m' keeps => ?_
  cases first
  · exact inOrder.keeps keeps rfl rfl rfl (by simp) (by simp [Activity.frees])
  · exact inOrder.keeps keeps rfl rfl rfl (by simp [Activity.Fits]) (by simp [Activity.frees])

theorem steps_reaping (inOrder : InOrder n m (.reaping l ::ₘ rest)) :
    Steps n m (.reaping l) rest := by
  unfold Steps
  simp only [Activity.advance, Act.ends_bind, Act.ends_discard, Act.ends_pure]
  refine (Act.quiet_lockReused (n := n)).ends
    (fun _ => Fault.not_isMiscount_of_not_isDisorder) fun _ m' agrees => ?_
  exact inOrder.keeps agrees.keeps rfl rfl rfl (by simp [Activity.Fits]) (by simp [Activity.frees])

end InOrder

end Lockspace
