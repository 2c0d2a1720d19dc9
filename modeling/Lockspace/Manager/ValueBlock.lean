import Lockspace.Manager.Resources

namespace Lockspace

/-- The owner of value blocks: it works on the block itself, from the id of a resource and a hint,
and may report a failure after that. -/
abbrev LvbOwner := ResourceId → LvbHint → Lvb → Act (Lvb × Option LockError)

namespace Act

/-- Lets the owner bring the value block of a resource up to date. The block is as the owner left it
even where that fails; a success makes it initialized. -/
def refreshLvb (owner : LvbOwner) (r : ResourceRef) (hint : LvbHint) : Act (Option LockError) := do
  let res ← resource r
  note (.lvbUpdate r.space res.id hint res.lvb.data)
  let (left, failure) ← owner res.id hint res.lvb
  modifyResource r fun res => { res with lvb := left }
  if failure.isNone then
    modifyResource r fun res => { res with lvb := { res.lvb with initialized := true } }
  return failure

/-- The value block of a resource, which its owner fills on first access. Without an owner it is
taken as it is. -/
def lvb (owner : Option LvbOwner) (r : ResourceRef) : Act (Except LockError Lvb) := do
  if !(← resource r).lvb.initialized then
    match owner with
    | none => modifyResource r fun res => { res with lvb := { res.lvb with initialized := true } }
    | some owner =>
      if let some e ← refreshLvb owner r .init then
        return .error e
  return .ok (← resource r).lvb

/-- Brings the value block of a resource up to date, if it has an owner. -/
def updateLvb (owner : Option LvbOwner) (r : ResourceRef) (hint : LvbHint) :
    Act (Except LockError Unit) := do
  match owner with
  | none => return .ok ()
  | some owner =>
    match ← refreshLvb owner r hint with
    | some e => return .error e
    | none => return .ok ()

def setLvb (r : ResourceRef) (data : List UInt8) : Act Unit :=
  modifyResource r fun res => { res with lvb := { res.lvb with data } }

end Act

end Lockspace
