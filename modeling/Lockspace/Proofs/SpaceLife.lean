import Lockspace.Manager.Spaces
import Lockspace.Proofs.HashRange
import Lockspace.Proofs.QuietActs

namespace Lockspace

open Manager

/-- The setup of a namespace with a single bucket. -/
def Setup.oneBucket : Setup where
  name := "m"
  side := .server
  type := .mgc

/-- The setup of a client that has a peer. -/
def Setup.peered : Setup where
  name := "m"
  side := .client
  type := .mgc
  hasPeer := true

/-- A namespace as it is right after its setup: an empty table of a sound size, one owner and no
lock on any queue or with any reference. -/
structure Fresh (n : SpaceKey) (m : Manager) : Prop where
  table : ∃ preset salt least, preset.isSound ∧ (m.space n).table = .new preset salt least
  owners : (m.space n).owners = 1
  locks : ∀ l, (m.lock l).standing = Lock.standing {}

theorem Fresh.agrees {n : SpaceKey} {m m' : Manager} (fresh : Fresh n m)
    (agrees : Agrees n m m') : Fresh n m' where
  table := by
    rw [agrees.table]
    exact fresh.table
  owners := agrees.owners.trans fresh.owners
  locks l := (agrees.locks l).trans (fresh.locks l)

namespace Act

variable {α : Type} {n : SpaceKey} {m : Manager}

theorem quiet_register (k : SpaceKey) : (register k).Quiet n := by
  refine quiet_space.bind fun s => ?_
  refine quiet_guard rfl fun _ => ?_
  refine (quiet_modify ?_).bind fun _ => ?_
  · exact fun _ => ⟨rfl, fun _ => rfl⟩
  · exact quiet_modifySpace fun _ => rfl

/-- A setup that succeeds makes a fresh namespace. -/
theorem fresh_of_build {setup : Setup} (run : build setup {} = .ok (.ok n) m) : Fresh n m := by
  suffices made : (build setup).Ends {} (fun _ => True) fun answer m' =>
      ∀ n, answer = .ok n → Fresh n m' from made.of_ok run n rfl
  unfold build
  split
  · rw [ends_pure]
    intro n refused
    cases refused
  · rename_i preset given
    simp only [ends_bind, ends_discard, ends_modifyGet, takeGate, ends_pure]
    refine (quiet_register (n := ⟨0⟩) _).ends (fun _ _ => trivial) fun _ m' agrees n made => ?_
    obtain rfl := Except.ok.inj made
    refine Fresh.agrees ?_ agrees
    exact ⟨⟨preset, setup.salt, setup.config.enqueueMin, Setup.isSound_of_preset given, rfl⟩, rfl,
      fun _ => rfl⟩

/-- An attempt to free a namespace that is refused changes nothing in its table. -/
theorem agrees_of_refused {m' : Manager} (run : freePost n m = .ok false m') : Agrees n m m' := by
  suffices kept : (freePost n).Ends m (fun _ => True) fun gone m' =>
      gone = false → Agrees n m m' from kept.of_ok run rfl
  unfold freePost
  simp only [ends_bind, ends_space, ends_ite, ends_log, ends_pure]
  split
  · exact fun _ => ⟨rfl, fun _ => rfl⟩
  rw [claimFreed]
  simp only [ends_bind, ends_space, ends_modifySpace, ends_pure]
  have claimed : Agrees n m (m.modifySpace n fun s => { s with freed := true }) :=
    agrees_modifySpace n rfl
  split
  · exact fun _ => claimed.trans ⟨rfl, fun _ => rfl⟩
  · refine ends_always fun _ _ gone => ?_
    cases gone

end Act

end Lockspace
