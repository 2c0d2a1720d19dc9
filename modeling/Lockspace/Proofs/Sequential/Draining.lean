import Lockspace.Proofs.Sequential.LockCalls
import Lockspace.Waiting.Drain

namespace Lockspace

open Manager Act

/-- Whether what a turn leads to is as expected: the operation that goes on, or its end. -/
def Turn.Leads {σ α : Type} (next : σ → Prop) (done : Prop) : Turn σ α → Prop
  | goes s | asks _ s | parks _ s => next s
  | returns _ => done

theorem Turn.leads_map {σ τ α : Type} {f : σ → τ} {next : τ → Prop} {done : Prop}
    (turn : Turn σ α) : (turn.map f).Leads next done ↔ turn.Leads (next <| f ·) done := by
  cases turn <;> rfl

theorem Turn.Leads.imp {σ α : Type} {next weaker : σ → Prop} {done : Prop} {turn : Turn σ α}
    (leads : turn.Leads next done) (each : ∀ s, next s → weaker s) : turn.Leads weaker done := by
  cases turn with
  | goes s => exact each s leads
  | asks l s => exact each s leads
  | parks bound s => exact each s leads
  | returns answer => exact leads

/-- An operation in progress holds references on resources of a namespace besides those of
callers. -/
structure Underway (n : SpaceKey) (m : Manager) (held : List ResourceRef)
    (hands : Multiset ResourceKey) (holds : Nat) : Prop where
  within : ∀ r ∈ held, r.space = n
  orderly : Orderly n m (↑(held.map (·.key)) + hands) holds

variable {α : Type} {n k : SpaceKey} {m m' : Manager} {refs : List ResourceRef}
  {hands : Multiset ResourceKey} {holds : Nat} {l : LockKey} {r : ResourceRef}

namespace Underway

theorem nil : Underway n m [] hands holds ↔ Orderly n m hands holds := by
  constructor
  · intro underway
    simpa using underway.orderly
  · intro orderly
    exact ⟨by simp, by simpa using orderly⟩

theorem ends_tidy (underway : Underway n m refs hands holds) {act : Act α} (tidy : act.Tidy n) :
    act.Ends m (·.isDisorder = false) fun _ m' => Underway n m' refs hands holds :=
  (tidy m _ holds underway.orderly).imp fun _ _ after => ⟨underway.within, after⟩

theorem ends_putAll (underway : Underway n m refs hands holds) :
    (putAll refs).Ends m (·.isDisorder = false) fun _ m' => Orderly n m' hands holds :=
  underway.orderly.ends_putAll underway.within

end Underway

namespace Cleanup

theorem ends_start (orderly : Orderly n m hands holds) (flags : LockFlags) :
    (start n flags).Ends m (·.isDisorder = false) fun c m' =>
      Underway n m' c.held hands holds := by
  unfold start
  rw [ends_bind]
  exact orderly.ends_resources.imp fun held m' after => ends_pure.mpr ⟨after.1, after.2⟩

theorem quiet_pick? (q : Queue) (flags : LockFlags) : (pick? r q flags).Quiet n := by
  unfold pick?
  refine quiet_get.bind fun m => ?_
  split
  · exact quiet_pure _
  · refine (quiet_modifyLock ?_).bind fun _ => quiet_pure _
    exact fun _ => rfl

theorem tidy_treat (flags : LockFlags) : (treat .default k flags l).Tidy n := by
  unfold treat
  refine quiet_lock.tidy.bind fun lk => ?_
  split
  · exact (tidy_complete _).bind fun _ => tidy_pure false
  · refine tidy_cancelLocal.bind fun _ => ?_
    refine quiet_space.tidy.bind fun s => ?_
    exact quiet_lock.tidy.bind fun lk => tidy_pure _

theorem quiet_complain : (complain k r).Quiet n := by
  unfold complain
  refine quiet_resource.bind fun res => ?_
  split
  · refine quiet_space.bind fun s => ?_
    exact (quiet_log _ _).bind fun _ => quiet_dumpResource _
  · exact quiet_pure _

theorem quiet_askPeer (arg : LockFlags) (others : Nat) : (askPeer k l arg others).Quiet n :=
  quiet_lock.bind fun _ => quiet_note _

/-- A drain has its references until it is done, and then gives all of them back. -/
theorem ends_turn {c : Cleanup} (underway : Underway n m c.held hands holds) :
    (c.turn .default).Ends m (·.isDisorder = false) fun turn m' =>
      turn.Leads (fun c => Underway n m' c.held hands holds) (Orderly n m' hands holds) := by
  unfold turn
  split
  · rw [ends_bind]
    have complains : (c.held.forM (complain c.space)).Quiet n := quiet_forM fun r => quiet_complain
    refine (underway.ends_tidy complains.tidy).imp fun _ m₁ still => ?_
    rw [ends_bind]
    exact still.ends_putAll.imp fun _ m' done => ends_pure.mpr done
  · rename_i r q rest _
    rw [ends_bind]
    refine (underway.ends_tidy (quiet_pick? q c.flags).tidy).imp fun picked m₁ still => ?_
    cases picked with
    | none => exact ends_pure.mpr still
    | some l =>
      simp only [ends_bind]
      refine (still.ends_tidy quiet_own.tidy).imp fun _ m₂ still => ?_
      refine (still.ends_tidy (tidy_treat c.flags)).imp fun asks m₃ still => ?_
      cases asks with
      | true =>
        simp only [if_true, ends_bind]
        refine (still.ends_tidy (quiet_askPeer c.flags 0).tidy).imp fun _ m' still => ?_
        exact ends_pure.mpr still
      | false =>
        simp only [Bool.false_eq_true, if_false, ends_bind]
        exact (still.ends_tidy tidy_disown).imp fun _ m' still => ends_pure.mpr still

theorem ends_answered {c : Cleanup} (underway : Underway n m c.held hands holds)
    (failure : Option LockError) :
    (c.answered l failure).Ends m (·.isDisorder = false) fun c m' =>
      Underway n m' c.held hands holds := by
  have rest : ∀ m₁, Underway n m₁ c.held hands holds →
      (do disown l; return { c with asking := none } : Act Cleanup).Ends m₁
        (·.isDisorder = false) fun c m' => Underway n m' c.held hands holds := by
    intro m₁ still
    rw [ends_bind]
    exact (still.ends_tidy tidy_disown).imp fun _ m' still => ends_pure.mpr still
  unfold answered
  cases failure with
  | none => exact rest m underway
  | some e =>
    simp only [ends_bind, ends_lock, ends_space]
    refine (underway.ends_tidy (quiet_log _ _).tidy).imp fun _ m₁ still => ?_
    simpa only [ends_bind] using rest m₁ still

theorem ends_abandon {c : Cleanup} (underway : Underway n m c.held hands holds) :
    c.abandon.Ends m (·.isDisorder = false) fun _ m' => Orderly n m' hands holds := by
  unfold abandon
  cases c.asking with
  | none => exact underway.ends_putAll
  | some l =>
    show (_ >>= fun _ => putAll c.held).Ends m _ _
    rw [ends_bind]
    exact (underway.ends_tidy tidy_disown).imp fun _ m₁ still => still.ends_putAll

end Cleanup

namespace Drain

/-- The references of a drain, which has none once it waits. -/
def held (d : Drain) : List ResourceRef :=
  match d.stage with
  | .cleaning c => c.held
  | .waiting .. => []

variable {d : Drain}

theorem ends_start (orderly : Orderly n m hands holds) (force : Bool) :
    (start n force).Ends m (·.isDisorder = false) fun d m' =>
      Underway n m' d.held hands holds := by
  unfold start
  rw [ends_bind]
  exact (Cleanup.ends_start orderly _).imp fun c m' underway => ends_pure.mpr underway

theorem ends_park (orderly : Orderly n m hands holds) (bound : Duration) :
    (d.park bound).Ends m (·.isDisorder = false) fun turn m' =>
      turn.Leads (fun d => Underway n m' d.held hands holds) (Orderly n m' hands holds) := by
  unfold park
  rw [ends_bind, ends_space]
  split
  · exact ends_pure.mpr orderly
  · exact ends_pure.mpr (Underway.nil.mpr orderly)

theorem ends_turn (underway : Underway n m d.held hands holds) :
    (d.turn .default).Ends m (·.isDisorder = false) fun turn m' =>
      turn.Leads (fun d => Underway n m' d.held hands holds) (Orderly n m' hands holds) := by
  unfold turn
  obtain ⟨space, force, stage⟩ := d
  cases stage with
  | cleaning c =>
    rw [ends_bind]
    refine (Cleanup.ends_turn underway).imp fun turn m₁ after => ?_
    cases turn with
    | goes c => exact ends_pure.mpr after
    | asks l c => exact ends_pure.mpr after
    | parks bound c => exact ends_pure.mpr after
    | returns cleaned =>
      rw [ends_bind, ends_space]
      exact ends_park after _
  | waiting w bound =>
    have orderly := Underway.nil.mp underway
    rw [ends_bind, ends_space]
    split
    · exact ends_pure.mpr orderly
    · exact ends_pure.mpr (Underway.nil.mpr orderly)

theorem ends_expired (underway : Underway n m d.held hands holds) :
    d.expired.Ends m (·.isDisorder = false) fun turn m' =>
      turn.Leads (fun d => Underway n m' d.held hands holds) (Orderly n m' hands holds) := by
  unfold expired
  obtain ⟨space, force, stage⟩ := d
  cases stage with
  | cleaning c => exact ends_pure.mpr underway
  | waiting w bound =>
    have orderly := Underway.nil.mp underway
    rw [ends_bind, ends_space]
    cases force with
    | true =>
      simp only [if_true, ends_bind]
      exact ((quiet_log _ _).tidy m _ _ orderly).imp fun _ m₁ after => ends_park after _
    | false =>
      simp only [Bool.false_eq_true, if_false, ends_bind]
      exact ((quiet_log _ _).tidy m _ _ orderly).imp fun _ m₁ after => ends_pure.mpr after

theorem ends_answered (underway : Underway n m d.held hands holds) (failure : Option LockError) :
    (d.answered l failure).Ends m (·.isDisorder = false) fun d m' =>
      Underway n m' d.held hands holds := by
  unfold answered
  obtain ⟨space, force, stage⟩ := d
  cases stage with
  | cleaning c =>
    rw [ends_bind]
    exact (Cleanup.ends_answered underway failure).imp fun c m' after => ends_pure.mpr after
  | waiting w bound => exact ends_pure.mpr underway

theorem ends_abandon (underway : Underway n m d.held hands holds) :
    d.abandon.Ends m (·.isDisorder = false) fun _ m' => Orderly n m' hands holds := by
  obtain ⟨space, force, stage⟩ := d
  cases stage with
  | cleaning c => exact Cleanup.ends_abandon underway
  | waiting w bound => exact ends_pure.mpr (Underway.nil.mp underway)

end Drain

end Lockspace
