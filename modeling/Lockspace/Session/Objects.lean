import Lockspace.Session.Resources

namespace Lockspace

namespace Perform

def intervals (label : String) : Perform IntervalIndex := do
  match ← object label with
  | .intervals ix => return ix
  | _ => throw (.unknownLabel label)

def unusedLru (label : String) : Perform UnusedLru := do
  match ← object label with
  | .unused u => return u
  | _ => throw (.unknownLabel label)

def counters (label : String) : Perform Stats := do
  match ← object label with
  | .stats s => return s
  | _ => throw (.unknownLabel label)

/-- Stores a list of unused locks and reports its size with an answer. -/
def reportUnused (label : String) (answer : Reply) (u : UnusedLru) : Perform Reply := do
  setObject label (.unused u)
  return .unused answer u.size

def disownAll (ls : List LockKey) : Perform Unit :=
  act (ls.forM Act.disown)

def reportStats (label : String) (s : Stats) (resources unused : Nat) : Perform Reply := do
  setObject label (.stats s)
  return .counters
    { registered := s.registered
      timeouts := s.timeouts
      snapshot := s.snapshot resources unused
      gauges := (← get).manager.gauges }

def setGauges (f : Gauges → Gauges) : Perform Unit :=
  act (modify fun m => { m with gauges := f m.gauges })

def intervalStep (label : String) (ix : IntervalIndex) (lockLabel : String)
    (insert : Bool) : Perform Reply := do
  let l ← lock lockLabel
  let lk ← act (Act.lock l)
  let there := ix.contains l lk
  if insert then
    setObject label (.intervals (ix.insert l lk))
    if !there && lk.extent.isSome then act (Act.own l)
    return .nothing
  setObject label (.intervals (ix.remove l lk))
  if there then act (Act.disown l)
  return .truth there

def objectStep : ObjectStep → Perform Reply
  | .newIntervals label => do
    newObject label (.intervals {})
    return .nothing
  | .insertInterval label lockLabel => do
    intervalStep label (← intervals label) lockLabel true
  | .removeInterval label lockLabel => do
    intervalStep label (← intervals label) lockLabel false
  | .overlapping label mode extent => do
    return .labels (← lockTexts ((← intervals label).overlapping mode extent))
  | .intervalSizes label => do
    let ix ← intervals label
    return .sizes (LockMode.all.map ix.size) ix.isEmpty
  | .newUnused label => do
    newObject label (.unused {})
    return .nothing
  | .addUnused label lockLabel => do
    let u ← unusedLru label
    let l ← lock lockLabel
    let (added, u') := u.add l (← act (Act.lock l)).isDestroyed
    if added then
      let now ← act Act.tick
      act (Act.modifyLock l fun lk => { lk with lastUsed := now })
      if !u.contains l then act (Act.own l)
    reportUnused label (.truth added) u'
  | .removeUnused label lockLabel => do
    let u ← unusedLru label
    let l ← lock lockLabel
    let (removed, u) := u.remove l
    if removed then act (Act.disown l)
    reportUnused label (.truth removed) u
  | .containsUnused label lockLabel => do
    let u ← unusedLru label
    let l ← lock lockLabel
    reportUnused label (.truth (u.contains l)) u
  | .takeAllUnused label => do
    let (ls, u) := (← unusedLru label).takeAll
    let texts ← lockTexts ls
    disownAll ls
    reportUnused label (.labels texts) u
  | .finalizeUnused label => do
    let (ls, u) := (← unusedLru label).finalize
    disownAll ls
    reportUnused label (.count ls.length) u
  | .takeVictims label limits age lockLabel => do
    let u ← unusedLru label
    let base ← match lockLabel with
      | some lockLabel => do pure (← act (Act.lock (← lock lockLabel))).lastUsed
      | none => act Act.tick
    let m := (← get).manager
    let ageOf := fun l => (base + age - (m.lock l).lastUsed : Int).toNat
    let (ls, u) := u.takeVictims limits ageOf
    let texts ← lockTexts ls
    disownAll ls
    reportUnused label (.labels texts) u
  | .newStats label name => do
    newObject label (.stats { name })
    return .nothing
  | .registerStats label => do
    let s := (← counters label).register
    setGauges (s.publish 0 0)
    reportStats label s 0 0
  | .unregisterStats label => do
    let s ← counters label
    setGauges s.retire
    reportStats label s.unregister 0 0
  | .recordTimeout label => do
    reportStats label (← counters label).recordTimeout 0 0
  | .publishStats label resources unused => do
    let s ← counters label
    setGauges (s.publish resources unused)
    reportStats label s resources unused
  | .snapshotStats label resources unused => do
    reportStats label (← counters label) resources unused

end Perform

end Lockspace
