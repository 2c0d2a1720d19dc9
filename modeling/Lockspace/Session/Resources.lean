import Lockspace.Session.Basic

namespace Lockspace

namespace Perform

def estimateOf (r : ResourceRef) : Act Duration := do
  let s ← Act.space r.space
  return (s.table.bucket (s.table.resource r.key).bucket).estimate.duration

/-- Feeds an observed time into the bucket of a resource. -/
def recordTime (r : ResourceRef) (elapsed : Duration) : Act Unit :=
  Act.modifySpace r.space fun s =>
    { s with table := s.table.modifyBucket (s.table.resource r.key).bucket fun b =>
      { b with estimate := b.estimate.record elapsed } }

def lockTexts (ls : List LockKey) : Perform (List String) := do
  let m := (← get).manager
  return ls.map fun l => (m.lock l).handleText

def isLinked (l : LockKey) : Perform Reply :=
  return .truth (← act (Act.lock l)).isLinked

def resourceStep : ResourceStep → Perform Reply
  | .get label id rtype create as => do
    let n ← space label
    let r ← ofExcept (← act (Act.getOrCreate n id rtype create))
    keepHandle as r
    let res ← act (Act.resource r)
    return .reference res.id res.rtype res.refcount
  | .clone label as => do
    let r ← handle label
    act (Act.retain r)
    keepHandle as r
    return .count (← act (Act.resource r)).refcount
  | .put label => do
    let r ← handle label
    forgetHandle label
    return .truth (← act (Act.put r))
  | .drop label => do
    let r ← handle label
    forgetHandle label
    discard (act (Act.put r))
    return .nothing
  | .same label other => do
    let r ← handle label
    let s ← handle other
    return .truth (r = s)
  | .info label => do
    let r ← handle label
    return .resource
      { resource := ← act (Act.resource r)
        space := (← act (Act.space r.space)).name
        estimate := ← act (estimateOf r) }
  | .detail label => do
    let r ← handle label
    return .text ("ResourceHandle(" ++ (← act (Act.resource r)).detail ++ ")")
  | .recordTime label elapsed => do
    let r ← handle label
    act (recordTime r elapsed)
    return .duration (← act (estimateOf r))
  | .add label lockLabel queue => do
    let r ← handle label
    let l ← lock lockLabel
    act (Act.addLock r queue l)
    isLinked l
  | .insertAfter label anchorLabel lockLabel => do
    let r ← handle label
    let anchor ← lock anchorLabel
    let l ← lock lockLabel
    act (Act.insertAfter r anchor l)
    isLinked l
  | .unlink label lockLabel => do
    let r ← handle label
    let l ← lock lockLabel
    act (Act.unlink r l)
    isLinked l
  | .queues label => do
    let r ← handle label
    let res ← act (Act.resource r)
    return .queues
      { queues := ← Queue.all.mapM fun q => lockTexts (res.queues.get q)
        modes := res.grantedModes
        queued := res.queued }
  | .firstUncleaned label queue => do
    let r ← handle label
    let m := (← get).manager
    return .maybe (((m.resource r).firstUncleaned m.lock queue).map (Play.handleText m))
  | .overlapping label mode extent => do
    let r ← handle label
    return .labels (← lockTexts ((← act (Act.resource r)).overlapping mode extent))
  | .dump label level style => do
    let r ← handle label
    match style with
    | .free | .guarded => act (Act.dumpResource level r)
    | .locked => act (Act.dump level [(← act (Act.resource r)).headerLine])
    return .nothing

end Perform

end Lockspace
