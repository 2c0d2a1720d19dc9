import Lockspace.Proofs.Standing

namespace Lockspace

open Manager

namespace Act

variable {α β : Type} {n k : SpaceKey} {l : LockKey} {r : ResourceRef}

/-- An action that leaves the table of a namespace and the standing of every lock alone. -/
def Quiet (n : SpaceKey) (act : Act α) : Prop :=
  ∀ m, act.Ends m (·.isDisorder = false) fun _ m' => Agrees n m m'

theorem Quiet.ends {act : Act α} (quiet : act.Quiet n) {m : Manager} {excused : Fault → Prop}
    {post : α → Manager → Prop} (faults : ∀ fault, fault.isDisorder = false → excused fault)
    (answers : ∀ a m', Agrees n m m' → post a m') : act.Ends m excused post :=
  (quiet m).mono faults answers

theorem quiet_pure (a : α) : (pure a : Act α).Quiet n :=
  fun _ => ends_pure.mpr .rfl

theorem quiet_throw {fault : Fault} (calm : fault.isDisorder = false) :
    (throw fault : Act α).Quiet n :=
  fun _ => ends_throw.mpr calm

theorem Quiet.bind {act : Act α} {next : α → Act β} (first : act.Quiet n)
    (second : ∀ a, (next a).Quiet n) : (act >>= next).Quiet n := by
  intro m
  rw [ends_bind]
  refine (first m).imp fun a m' agrees => ?_
  exact (second a m').imp fun _ _ after => agrees.trans after

/-- A check that stops on a fault of another kind. -/
theorem quiet_guard {condition : Prop} [Decidable condition] {fault : Fault} {next : PUnit → Act β}
    (calm : fault.isDisorder = false) (pass : ¬ condition → (next ()).Quiet n) :
    (if condition then throw fault >>= next else next ()).Quiet n := by
  split
  · exact fun _ => ends_bind.mpr (ends_throw.mpr calm)
  · rename_i fails
    exact pass fails

theorem Quiet.discard {act : Act α} (quiet : act.Quiet n) : (discard act : Act Unit).Quiet n := by
  intro m
  rw [ends_discard]
  exact quiet m

theorem quiet_get : (get : Act Manager).Quiet n :=
  fun _ => ends_get.mpr .rfl

theorem quiet_space : (space k).Quiet n :=
  fun _ => ends_space.mpr .rfl

theorem quiet_lock : (lock l).Quiet n :=
  fun _ => ends_lock.mpr .rfl

theorem quiet_resource : (resource r).Quiet n :=
  fun _ => ends_resource.mpr .rfl

theorem quiet_note (call : Callback) : (note call).Quiet n :=
  fun _ => ends_note.mpr ⟨rfl, fun _ => rfl⟩

theorem quiet_log (level : Level) (text : String) : (log level text).Quiet n :=
  fun _ => ends_log.mpr ⟨rfl, fun _ => rfl⟩

theorem quiet_tick : tick.Quiet n :=
  fun _ => ends_tick.mpr ⟨rfl, fun _ => rfl⟩

theorem quiet_modifySpace {f : Namespace → Namespace}
    (keeps : ∀ s, (f s).standing = s.standing) : (modifySpace k f).Quiet n :=
  fun _ => ends_modifySpace.mpr (agrees_modifySpace k (keeps _))

theorem quiet_modifyLock {f : Lock → Lock} (keeps : ∀ lk, (f lk).standing = lk.standing) :
    (modifyLock l f).Quiet n :=
  fun _ => ends_modifyLock.mpr (agrees_modifyLock l (keeps _))

theorem quiet_forM {items : List α} {step : α → Act Unit} (each : ∀ a, (step a).Quiet n) :
    (items.forM step).Quiet n := by
  intro m
  refine ends_forM (.rfl : Agrees n m m) fun a _ m' agrees => ?_
  exact (each a m').imp fun _ _ after => agrees.trans after

theorem quiet_modify {f : Manager → Manager} (agrees : ∀ m, Agrees n m (f m)) :
    (modify f : Act Unit).Quiet n :=
  fun m => ends_modify.mpr (agrees m)

theorem quiet_dump (level : Level) (lines : List DumpLine) : (dump level lines).Quiet n :=
  quiet_forM fun line => quiet_log level line.text

theorem quiet_dumpResource (level : Level) : (dumpResource level r).Quiet n :=
  quiet_get.bind fun _ => quiet_dump level _

theorem quiet_emit (event : ResourceEvent) : (emit r event).Quiet n :=
  quiet_space.bind fun _ => quiet_resource.bind fun _ => quiet_note _

theorem quiet_signal : (signal k).Quiet n :=
  quiet_modifySpace fun _ => rfl

theorem quiet_moveTo (side : Side) (link : NamespaceLink) : (moveTo side k link).Quiet n := by
  refine quiet_space.bind fun s => ?_
  refine quiet_guard rfl fun _ => quiet_guard rfl fun _ => quiet_get.bind fun m => ?_
  split
  · exact quiet_throw rfl
  · refine (quiet_modify ?_).bind fun _ => quiet_modifySpace ?_
    · exact fun _ => ⟨rfl, fun _ => rfl⟩
    · exact fun _ => rfl

theorem quiet_announce (first : Bool) (bref : Nat) : (announce r first bref).Quiet n := by
  refine (quiet_emit _).bind fun _ => ?_
  split
  · refine (quiet_emit _).bind fun _ => quiet_space.bind fun s => ?_
    split
    · exact quiet_moveTo _ _
    · exact quiet_pure _
  · exact quiet_pure _

/-- What waiters and the policy hear of a release moves no reference. -/
theorem ends_afterRelease {m : Manager} {emptied : Bool} {bref : Nat} :
    (afterRelease r (.freed emptied bref)).Ends m (·.isDisorder = false) fun gone m' =>
      gone = true ∧ Agrees n m m' := by
  have told : ∀ m₁ : Manager, Agrees n m m₁ → (do
      emit r .freed
      if emptied then emit r .bucketEmptied
      return true).Ends m₁ (·.isDisorder = false) fun gone m' => gone = true ∧ Agrees n m m' := by
    intro m₁ before
    rw [ends_bind]
    refine (quiet_emit (n := n) .freed m₁).imp fun _ m₂ freed => ?_
    split
    · refine ends_bind.mpr ((quiet_emit (n := n) _ m₂).imp fun _ m' also => ?_)
      exact ends_pure.mpr ⟨rfl, (before.trans freed).trans also⟩
    · exact ends_pure.mpr ⟨rfl, before.trans freed⟩
  show (if _ then _ else _ : Act Bool).Ends m _ _
  split
  · exact ends_bind.mpr ((quiet_signal (n := n) m).imp fun _ m' signalled => told m' signalled)
  · exact told m .rfl

theorem quiet_lockReused : (lockReused k l).Quiet n := by
  refine quiet_space.bind fun s => (quiet_modifySpace ?_).bind fun _ => quiet_pure _
  exact fun _ => rfl

theorem quiet_markDestroyed : (markDestroyed l).Quiet n := by
  refine quiet_lock.bind fun lk => (quiet_modifyLock ?_).bind fun _ => quiet_pure _
  exact fun _ => rfl

end Act

end Lockspace
