import Lockspace.Namespace

namespace Lockspace

/-- The connect flags that a running namespace may switch. -/
def switchable : UInt64 :=
  connectLruResize ||| connectCancelSet

/-- Connect flags are among the original ones and differ from them only in what may be switched. -/
structure FlagsFit (flags orig : UInt64) : Prop where
  subset : flags &&& orig = flags
  others : flags ||| switchable = orig ||| switchable

namespace FlagsFit

variable {flags orig flag : UInt64}

theorem rfl : FlagsFit orig orig :=
  ⟨UInt64.and_self, Eq.refl _⟩

/-- A flag that may be switched is switched off. -/
theorem without (fit : FlagsFit flags orig) (may : flag ||| switchable = switchable) :
    FlagsFit (flags &&& ~~~flag) orig := by
  refine ⟨?_, ?_⟩
  · rw [UInt64.and_assoc, UInt64.and_comm (~~~flag), ← UInt64.and_assoc, fit.subset]
  · have outside : (flags &&& ~~~flag) ||| (flag ||| switchable) = flags ||| (flag ||| switchable) := by
      rw [← UInt64.toBitVec_inj]
      simp only [UInt64.toBitVec_or, UInt64.toBitVec_and, UInt64.toBitVec_not]
      ext i bound
      simp only [BitVec.getElem_or, BitVec.getElem_and, BitVec.getElem_not]
      cases flag.toBitVec[i] <;> simp
    rw [may] at outside
    rw [outside, fit.others]

/-- A flag that may be switched and is among the original ones is switched on. -/
theorem union (fit : FlagsFit flags orig) (may : flag ||| switchable = switchable)
    (supported : flag &&& orig = flag) : FlagsFit (flags ||| flag) orig := by
  refine ⟨?_, ?_⟩
  · have apart : (flags ||| flag) &&& orig = (flags &&& orig) ||| (flag &&& orig) := by
      rw [← UInt64.toBitVec_inj]
      exact BitVec.and_or_distrib_right ..
    rw [apart, fit.subset, supported]
  · rw [UInt64.or_assoc, may, fit.others]

end FlagsFit

/-- A word has a single flag entirely or not at all. -/
theorem and_flag_eq {flag orig : UInt64} {i : Nat} (single : flag.toBitVec = BitVec.twoPow 64 i)
    (some : orig &&& flag ≠ 0) : flag &&& orig = flag := by
  have bit : (orig &&& flag).toBitVec = if orig.toBitVec.getLsbD i then flag.toBitVec else 0#64 := by
    rw [UInt64.toBitVec_and, single]
    exact BitVec.and_twoPow ..
  rw [UInt64.and_comm, ← UInt64.toBitVec_inj, bit]
  split
  · rfl
  · rename_i off
    refine absurd ?_ some
    rw [← UInt64.toBitVec_inj, bit, if_neg off]
    rfl

theorem and_connectLruResize {orig : UInt64} (some : orig &&& connectLruResize ≠ 0) :
    connectLruResize &&& orig = connectLruResize :=
  and_flag_eq (i := 25) rfl some

theorem and_connectCancelSet {orig : UInt64} (some : orig &&& connectCancelSet ≠ 0) :
    connectCancelSet &&& orig = connectCancelSet :=
  and_flag_eq (i := 22) rfl some

theorem connectLruResize_switchable : connectLruResize ||| switchable = switchable := by
  decide

theorem connectCancelSet_switchable : connectCancelSet ||| switchable = switchable := by
  decide

theorem without_and_self (flags flag : UInt64) : flags &&& ~~~flag &&& flag = 0 := by
  rw [UInt64.and_assoc, UInt64.not_and_self, UInt64.and_zero]

theorem union_and_self (flags flag : UInt64) : (flags ||| flag) &&& flag = flag := by
  rw [← UInt64.toBitVec_inj]
  simp only [UInt64.toBitVec_or, UInt64.toBitVec_and]
  ext i bound
  simp only [BitVec.getElem_or, BitVec.getElem_and]
  cases flag.toBitVec[i] <;> simp

namespace Namespace

variable {s s' : Namespace}

/-- No setting takes the connect flags of a namespace out of the original ones. -/
theorem fits_tune {setting : Tunable} (fit : FlagsFit s.connectFlags s.origConnectFlags)
    (run : s.tune setting = .ok s') : FlagsFit s'.connectFlags s'.origConnectFlags := by
  cases setting with
  | earlyLockCancel enable =>
    cases run
    unfold setEarlyLockCancel
    cases enable with
    | false => exact fit.without connectCancelSet_switchable
    | true =>
      rw [if_pos rfl]
      split
      · rename_i supported
        exact fit.union connectCancelSet_switchable
          (and_connectCancelSet (bne_iff_ne.mp supported))
      · exact fit
  | maxParallelAst ast =>
    change (if ast = 0 then _ else _) = _ at run
    split at run
    · cases run
    · cases run
      exact fit
  | _ =>
    cases run
    exact fit

/-- Settings have nothing to do with the unused locks and the holders of a namespace. -/
theorem tune_keeps {setting : Tunable} (run : s.tune setting = .ok s') :
    s'.lru = s.lru ∧ s'.owners = s.owners ∧ s'.origConnectFlags = s.origConnectFlags := by
  cases setting with
  | earlyLockCancel enable =>
    cases run
    unfold setEarlyLockCancel
    split
    · split <;> exact ⟨rfl, rfl, rfl⟩
    · exact ⟨rfl, rfl, rfl⟩
  | maxParallelAst ast =>
    change (if ast = 0 then _ else _) = _ at run
    split at run
    · cases run
    · cases run
      exact ⟨rfl, rfl, rfl⟩
  | _ =>
    cases run
    exact ⟨rfl, rfl, rfl⟩

end Namespace

end Lockspace
