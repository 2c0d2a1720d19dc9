import Lockspace.Session.Basic

namespace Lockspace

namespace Perform

def lockStep : LockStep → Perform Reply
  | .new label mode extent => do
    -- Handles follow the order of creation, and answers name locks by their labels.
    let handle : LockHandle := ⟨UInt64.ofNat ((← get).manager.locks.size + 1)⟩
    let l ← act (Act.newLock handle mode extent)
    act (Act.modifyLock l fun lk => { lk with label := some label })
    modify fun s => { s with locks := s.locks ++ [(label, l)] }
    return .nothing
  | .drop label => do
    let l ← lock label
    modify fun s => { s with locks := s.locks.filter (·.1 != label) }
    act (Act.disown l)
    return .nothing
  | .info label => do
    let l ← lock label
    let home ← act (Act.homeOf l)
    let m := (← get).manager
    return .lock (m.lock l) (home.map fun r => (m.resource r).id)
  | .detail label => do
    let l ← lock label
    return .text (← act (Act.lock l)).detail
  | .setFlags label flags => do
    let l ← lock label
    act (Act.modifyLock l (·.setFlags flags))
    return .flags (← act (Act.lock l)).flags
  | .clearFlags label flags => do
    let l ← lock label
    act (Act.modifyLock l (·.clearFlags flags))
    return .flags (← act (Act.lock l)).flags
  | .addHold label mode => do
    let l ← lock label
    act (Act.modifyLock l (·.addHold mode))
    let lk ← act (Act.lock l)
    return .counts [lk.readers, lk.writers]
  | .dropHold label mode => do
    let l ← lock label
    return .truth (← act (Act.dropHolder l mode))
  | .bind label handleLabel => do
    let l ← lock label
    let r ← handle handleLabel
    forgetHandle handleLabel
    act (Act.bind l r)
    return .nothing
  | .unbind label as => do
    let l ← lock label
    match ← act (Act.unbind l) with
    | none => return .maybe none
    | some r =>
      keepHandle as r
      return .text (← act (Act.resource r)).id.text
  | .destroy spaceLabel label => do
    let n ← space spaceLabel
    let l ← lock label
    act (Act.destroyLock n l)
    return .nothing
  | .completion spaceLabel label flags => do
    let n ← space spaceLabel
    let l ← lock label
    act (LockPolicy.default.completion n l flags)
    return .nothing
  | .cancelLocal spaceLabel label => do
    let n ← space spaceLabel
    let l ← lock label
    act (LockPolicy.default.cancelLocal n l)
    return .nothing
  | .unused spaceLabel label => do
    let n ← space spaceLabel
    let l ← lock label
    return .truth (← act (Act.lockUnused n l))
  | .reused spaceLabel label => do
    let n ← space spaceLabel
    let l ← lock label
    return .truth (← act (Act.lockReused n l))

end Perform

end Lockspace
