import Lockspace.Proofs.Outcomes
import Lockspace.Waiting.Cleanup

namespace Lockspace

/-- The state with another log. -/
def Manager.relog (m : Manager) (log : Array LogLine) : Manager :=
  { m with log }

namespace Act

/-- An action that does not look at the log. With another log it does the same. -/
def Blind {α : Type} (act : Act α) : Prop :=
  ∀ m log, ∃ log', act (m.relog log) =
    match act m with
    | .ok a m' => .ok a (m'.relog log')
    | .error fault m' => .error fault (m'.relog log')

variable {α β : Type} {act : Act α} {n : SpaceKey} {l : LockKey} {r : ResourceRef}

theorem Blind.of_ok (blind : act.Blind) {a : α} {m m' : Manager} (run : act m = .ok a m')
    (log : Array LogLine) : ∃ log', act (m.relog log) = .ok a (m'.relog log') := by
  obtain ⟨log', same⟩ := blind m log
  rw [run] at same
  exact ⟨log', same⟩

theorem blind_pure (a : α) : (pure a : Act α).Blind :=
  fun _ log => ⟨log, rfl⟩

theorem blind_throw (fault : Fault) : (throw fault : Act α).Blind :=
  fun _ log => ⟨log, rfl⟩

theorem Blind.bind {next : α → Act β} (first : act.Blind) (second : ∀ a, (next a).Blind) :
    (act >>= next).Blind := by
  intro m log
  obtain ⟨log₁, run⟩ := first m log
  show ∃ log', EStateM.bind act next (m.relog log) = _
  have same : (act >>= next) m = EStateM.bind act next m := rfl
  rw [same]
  unfold EStateM.bind
  rw [run]
  cases act m with
  | ok a m₁ => exact second a m₁ log₁
  | error fault m₁ => exact ⟨log₁, rfl⟩

/-- A check that stops on a fault. -/
theorem blind_guard {condition : Prop} [Decidable condition] {fault : Fault} {next : PUnit → Act β}
    (pass : (next ()).Blind) : (if condition then throw fault >>= next else next ()).Blind := by
  split
  · exact fun _ log => ⟨log, rfl⟩
  · exact pass

/-- What depends on the state may depend on all of it but the log. -/
theorem blind_get {next : Manager → Act β} (same : ∀ m log, next (m.relog log) = next m)
    (each : ∀ m, (next m).Blind) : ((get : Act Manager) >>= next).Blind := by
  intro m log
  have first : ((get : Act Manager) >>= next) (m.relog log) = next m (m.relog log) :=
    congrArg (· (m.relog log)) (same m log)
  rw [first]
  exact each m m log

theorem blind_modify {f : Manager → Manager} (comm : ∀ m log, f (m.relog log) = (f m).relog log) :
    (modify f : Act Unit).Blind :=
  fun m log => ⟨log, congrArg (EStateM.Result.ok ()) (comm m log)⟩

theorem blind_space : (space n).Blind :=
  fun _ log => ⟨log, rfl⟩

theorem blind_lock : (lock l).Blind :=
  fun _ log => ⟨log, rfl⟩

theorem blind_resource : (resource r).Blind :=
  fun _ log => ⟨log, rfl⟩

theorem blind_log (level : Level) (text : String) : (log level text).Blind :=
  fun _ log => ⟨log.push ⟨level, text⟩, rfl⟩

theorem blind_note (call : Callback) : (note call).Blind :=
  blind_modify fun _ _ => rfl

theorem blind_modifySpace (f : Namespace → Namespace) : (modifySpace n f).Blind :=
  blind_modify fun _ _ => rfl

theorem blind_modifyLock (f : Lock → Lock) : (modifyLock l f).Blind :=
  blind_modify fun _ _ => rfl

theorem blind_modifyResource (f : Resource → Resource) : (modifyResource r f).Blind :=
  blind_modify fun _ _ => rfl

theorem blind_setTable (t : Table) : (setTable n t).Blind :=
  blind_modify fun _ _ => rfl

theorem blind_ofExcept (answer : Except Fault α) : (ofExcept answer).Blind := by
  cases answer with
  | ok a => exact blind_pure a
  | error fault => exact blind_throw fault

theorem Blind.discard (blind : act.Blind) : (Functor.discard act : Act Unit).Blind := by
  intro m log
  obtain ⟨log', same⟩ := blind m log
  refine ⟨log', ?_⟩
  show EStateM.map _ act (m.relog log) = _
  have whole : (Functor.discard act : Act Unit) m = EStateM.map (fun _ => ()) act m := rfl
  rw [whole]
  unfold EStateM.map
  rw [same]
  cases act m with
  | ok a m' => rfl
  | error fault m' => rfl

theorem blind_forM {items : List α} {step : α → Act Unit} (each : ∀ a, (step a).Blind) :
    (items.forM step).Blind := by
  induction items with
  | nil => exact blind_pure _
  | cons a rest ih => exact (each a).bind fun _ => ih

theorem blind_dumpResource (level : Level) : (dumpResource level r).Blind :=
  blind_get (fun _ _ => rfl) fun _ => blind_forM fun line => blind_log level line.text

theorem blind_emit (event : ResourceEvent) : (emit r event).Blind :=
  blind_space.bind fun _ => blind_resource.bind fun _ => blind_note _

theorem blind_releaseLocked : (releaseLocked r).Blind := by
  refine blind_space.bind fun s => ?_
  split
  rename_i t released _
  refine (blind_setTable t).bind fun _ => ?_
  split
  · exact blind_pure _
  · split
    · exact (blind_dumpResource _).bind fun _ => blind_throw _
    · exact blind_throw _

theorem blind_afterRelease (answer : Release) : (afterRelease r answer).Blind := by
  have told : ∀ emptied : Bool, (do
      emit r .freed
      if emptied then emit r .bucketEmptied
      return true : Act Bool).Blind := by
    intro emptied
    refine (blind_emit _).bind fun _ => ?_
    split
    · exact (blind_emit _).bind fun _ => blind_pure _
    · exact blind_pure _
  cases answer with
  | kept => exact blind_pure _
  | freed emptied bref =>
    show (if _ then _ else _ : Act Bool).Blind
    split
    · exact (blind_modifySpace _).bind fun _ => told emptied
    · exact told emptied

theorem blind_release : (release r).Blind :=
  blind_releaseLocked.bind blind_afterRelease

theorem blind_dropUnused : (dropUnused l).Blind := by
  refine blind_get (fun _ _ => rfl) fun m => ?_
  split
  · exact blind_pure _
  split
  · exact blind_pure _
  · exact (blind_modifyLock _).bind fun _ =>
      blind_release.discard.bind fun _ => blind_pure _

theorem blind_dropDesertedUpTo (depth : Nat) (n : SpaceKey) : (dropDesertedUpTo depth n).Blind := by
  induction depth generalizing n with
  | zero => exact blind_pure _
  | succ depth ih =>
    refine blind_space.bind fun s => ?_
    split
    · exact blind_pure _
    refine blind_forM fun l => (blind_modifySpace _).bind fun _ => ?_
    refine blind_dropUnused.bind fun next => ?_
    cases next with
    | none => exact blind_pure _
    | some next => exact ih next

theorem blind_put : (put r).Blind := by
  refine blind_release.bind fun gone => Blind.bind ?_ fun _ => blind_pure _
  exact blind_get (fun _ _ => rfl) fun m => blind_dropDesertedUpTo _ _

theorem blind_putAll (refs : List ResourceRef) : (putAll refs).Blind :=
  blind_forM fun _ => blind_put.discard

theorem blind_dropBound : (dropBound l).Blind := by
  refine blind_lock.bind fun lk => ?_
  split
  · exact blind_pure _
  · exact (blind_modifyLock _).bind fun _ => blind_put.discard

theorem blind_disown : (disown l).Blind := by
  refine (blind_modifyLock _).bind fun _ => blind_get (fun _ _ => rfl) fun m => ?_
  split
  · exact blind_dropBound
  · exact blind_pure _

theorem blind_unlink : (unlink r l).Blind := by
  refine blind_lock.bind fun lk => ?_
  split
  · exact blind_pure _
  · refine blind_resource.bind fun res => blind_guard ?_
    exact (blind_ofExcept _).bind fun _ => (blind_modifyResource _).bind fun _ =>
      (blind_modifyLock _).bind fun _ => blind_modifySpace _

/-- The destruction of a lock does not depend on what was logged. -/
theorem blind_destroyLock : (destroyLock n l).Blind := by
  have marks : (markDestroyed l).Blind :=
    blind_lock.bind fun _ => (blind_modifyLock _).bind fun _ => blind_pure _
  have unlinks : (unlinkAndMark l).Blind := by
    refine Blind.bind (blind_get (fun _ _ => rfl) fun _ => blind_pure _) fun home => ?_
    cases home with
    | none => exact marks
    | some r => exact blind_unlink.bind fun _ => marks
  refine unlinks.bind fun first => ?_
  split
  · refine Blind.bind (Blind.discard ?_) fun _ => blind_dropBound
    exact blind_space.bind fun _ => (blind_modifySpace _).bind fun _ => blind_pure _
  · exact blind_pure _

end Act

end Lockspace
