import Lockspace.Manager.Locks
import Lockspace.Proofs.Outcomes
import Lockspace.Proofs.Tally

namespace Lockspace

/-- The assertions of the release of a reference. -/
def Fault.isRelease : Fault → Bool
  | releasedTooOften _ | releasedWithLocks .. | notInBucket _ | emptiedUnreferenced _ => true
  | _ => false

/-- An outcome in which no mode was found uncounted. -/
def CountsModes {α : Type} (outcome : Except Fault α) : Prop :=
  ∀ mode, outcome ≠ .error (.modeGroupUnderflow mode)

theorem CountsModes.error {α β : Type} {fault : Fault}
    (counts : CountsModes (.error fault : Except Fault α)) :
    CountsModes (.error fault : Except Fault β) :=
  fun mode same => counts mode (congrArg _ (Except.error.inj same))

theorem Table.isRelease_of_release {t : Table} {key : ResourceKey} {fault : Fault}
    (failed : (t.release key).2 = .error fault) : fault.isRelease := by
  have evicts : ∀ t : Table, (t.evict key).2 = .error fault → fault.isRelease := by
    intro t failed
    simp only [evict] at failed
    split at failed
    · cases failed
      rfl
    split at failed
    · cases failed
      rfl
    split at failed
    · cases failed
    split at failed
    · cases failed
      rfl
    · cases failed
  rcases t.release_cases key with run | run | run <;> rw [run] at failed
  · cases failed
    rfl
  · cases failed
  · exact evicts _ failed

namespace Act

variable {α β : Type} {n : SpaceKey} {l : LockKey} {r : ResourceRef}

/-- An action that fails in no assertion but those of a release. -/
def OnlyReleases (act : Act α) : Prop :=
  ∀ m, act.Ends m (fun fault => fault.isRelease) fun _ _ => True

theorem onlyReleases_of_returns {act : Act α} (returns : ∀ m, ∃ a m', act m = .ok a m') :
    act.OnlyReleases := by
  intro m
  obtain ⟨a, m', run⟩ := returns m
  exact ends_of_run run trivial

theorem OnlyReleases.bind {act : Act α} {next : α → Act β} (first : act.OnlyReleases)
    (second : ∀ a, (next a).OnlyReleases) : (act >>= next).OnlyReleases := by
  intro m
  rw [ends_bind]
  exact (first m).imp fun a m' _ => second a m'

theorem OnlyReleases.discard {act : Act α} (only : act.OnlyReleases) :
    (discard act : Act Unit).OnlyReleases := by
  intro m
  rw [ends_discard]
  exact only m

theorem onlyReleases_pure (a : α) : (pure a : Act α).OnlyReleases :=
  onlyReleases_of_returns fun _ => ⟨_, _, rfl⟩

theorem onlyReleases_get : (get : Act Manager).OnlyReleases :=
  onlyReleases_of_returns fun _ => ⟨_, _, rfl⟩

theorem onlyReleases_lock : (lock l).OnlyReleases :=
  onlyReleases_of_returns fun _ => ⟨_, _, rfl⟩

theorem onlyReleases_modifyLock (f : Lock → Lock) : (modifyLock l f).OnlyReleases :=
  onlyReleases_of_returns fun _ => ⟨_, _, rfl⟩

theorem onlyReleases_modifySpace (f : Namespace → Namespace) : (modifySpace n f).OnlyReleases :=
  onlyReleases_of_returns fun _ => ⟨_, _, rfl⟩

theorem onlyReleases_forM {items : List α} {step : α → Act Unit}
    (each : ∀ a, (step a).OnlyReleases) : (items.forM step).OnlyReleases := by
  intro m
  have start : (fun _ : Manager => True) m := trivial
  exact ends_forM start fun a _ m _ => each a m

theorem onlyReleases_release : (release r).OnlyReleases := by
  have tells : ∀ event, (emit r event).OnlyReleases :=
    fun _ => onlyReleases_of_returns fun _ => ⟨_, _, rfl⟩
  have told : ∀ emptied : Bool, (do
      emit r .freed
      if emptied then emit r .bucketEmptied
      return true : Act Bool).OnlyReleases := by
    intro emptied
    refine (tells _).bind fun _ => ?_
    split
    · exact (tells _).bind fun _ => onlyReleases_pure _
    · exact onlyReleases_pure _
  refine OnlyReleases.bind (fun m => ?_) fun answer => ?_
  · simp only [releaseLocked, ends_bind, ends_space, ends_setTable]
    cases released : ((m.space r.space).table.release r.key).2 with
    | ok answer => exact ends_pure.mpr trivial
    | error fault =>
      have throws : (throw fault : Act Release).OnlyReleases :=
        fun _ => ends_throw.mpr (Table.isRelease_of_release released)
      dsimp only
      split
      · exact (onlyReleases_of_returns fun m => by
          obtain ⟨log, shown⟩ := run_dumpResource .error r m
          exact ⟨_, _, shown⟩).bind (fun _ => throws) _
      · exact throws _
  · cases answer with
    | kept => exact onlyReleases_pure _
    | freed emptied bref =>
      show (if _ then _ else _ : Act Bool).OnlyReleases
      split
      · exact (onlyReleases_modifySpace _).bind fun _ => told emptied
      · exact told emptied

theorem onlyReleases_dropUnused : (dropUnused l).OnlyReleases := by
  refine onlyReleases_get.bind fun m => ?_
  split
  · exact onlyReleases_pure _
  split
  · exact onlyReleases_pure _
  · exact (onlyReleases_modifyLock _).bind fun _ =>
      onlyReleases_release.discard.bind fun _ => onlyReleases_pure _

theorem onlyReleases_dropDesertedUpTo (depth : Nat) :
    (dropDesertedUpTo depth n).OnlyReleases := by
  induction depth generalizing n with
  | zero => exact onlyReleases_pure _
  | succ depth ih =>
    refine (onlyReleases_of_returns fun m => ⟨m.space n, m, rfl⟩).bind fun s => ?_
    split
    · exact onlyReleases_pure _
    refine onlyReleases_forM fun l => (onlyReleases_modifySpace _).bind fun _ => ?_
    refine onlyReleases_dropUnused.bind fun next => ?_
    cases next with
    | none => exact onlyReleases_pure _
    | some next => exact ih

theorem onlyReleases_dropBound : (dropBound l).OnlyReleases := by
  refine onlyReleases_lock.bind fun lk => ?_
  split
  · exact onlyReleases_pure _
  · refine (onlyReleases_modifyLock _).bind fun _ => OnlyReleases.discard ?_
    refine onlyReleases_release.bind fun _ => OnlyReleases.bind ?_ fun _ => onlyReleases_pure _
    exact onlyReleases_get.bind fun _ => onlyReleases_dropDesertedUpTo _

theorem onlyReleases_lockReused : (lockReused n l).OnlyReleases :=
  onlyReleases_of_returns fun _ => ⟨_, _, rfl⟩

/-- Such an action has nothing to do with the counts of modes. -/
theorem OnlyReleases.leaves {act : Act α} (only : act.OnlyReleases) (m : Manager) :
    act.Leaves m fun answer _ => CountsModes answer := by
  refine (ends_iff_leaves.mp (only m)).imp fun answer m' holds mode => ?_
  rintro rfl
  cases holds

end Act

end Lockspace
