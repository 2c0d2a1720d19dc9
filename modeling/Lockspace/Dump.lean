import Lockspace.Lock
import Lockspace.Log
import Lockspace.Resource

namespace Lockspace

/-- One line of a listing of namespaces, resources and locks. -/
inductive DumpLine where
  | space (name : String) (bref : Nat) (side : Side)
  | resource (id : ResourceId) (rtype : ResourceType) (refcount : Nat)
  | grantedTitle
  | convertingTitle
  | waitingTitle
  | lock (handle : String) (mode : LockMode) (extent : Option Extent) (flags : LockFlags)
      (readers writers : Nat)
  | cutShort (listed : Nat)
deriving DecidableEq

namespace DumpLine

def text : DumpLine → String
  | space name bref side =>
    "--- Namespace: " ++ name ++ " (rc: " ++ toString bref ++ ", side: " ++ side.text ++ ")"
  | resource id rtype refcount =>
    "--- Resource: " ++ id.text ++ " (" ++ rtype.text ++ ") refcount = " ++ toString refcount
  | grantedTitle => "Granted locks (in reverse order):"
  | convertingTitle => "Converting locks:"
  | waitingTitle => "Waiting locks:"
  | lock handle mode extent flags readers writers =>
    "### handle=" ++ handle ++ " mode=" ++ mode.text ++ " extent=" ++ Extent.optionDetail extent ++
      " flags=" ++ toString flags.bits.toNat ++ " readers=" ++ toString readers ++
      " writers=" ++ toString writers
  | cutShort listed => "only dump " ++ toString listed ++ " granted locks to avoid DDOS."

def ofLock (l : Lock) : DumpLine :=
  .lock l.handleText l.mode l.extent l.flags l.readers l.writers

end DumpLine

/-- The lines of granted locks, the newest first. A capped listing stops once it has shown at
least its number of locks and others are left. -/
def grantedLines (capped : Bool) (cap total : Nat) : Nat → List Lock → List DumpLine
  | _, [] => []
  | listed, l :: rest =>
    .ofLock l ::
      (if capped && listed + 1 ≥ cap && listed + 1 < total then [.cutShort (listed + 1)]
        else grantedLines capped cap total (listed + 1) rest)

/-- The lines of a queue under its title. An empty queue has none. -/
def queueLines (title : DumpLine) : List Lock → List DumpLine
  | [] => []
  | locks => title :: locks.map .ofLock

namespace Resource

/-- The line that a listing of a resource starts with. -/
def headerLine (r : Resource) : DumpLine :=
  .resource r.id r.rtype r.refcount

/-- The lines of a resource: its header, its granted locks from the newest on, then the locks of
the other queues in order. -/
def dumpLines (r : Resource) (lockOf : LockKey → Lock) (level : Level) : List DumpLine :=
  let granted := r.queues.granted.reverse.map lockOf
  let shown := if granted.isEmpty then [] else
    .grantedTitle :: grantedLines level.isCapped r.dumpGrantedMax granted.length 0 granted
  r.headerLine :: (shown ++ queueLines .convertingTitle (r.queues.converting.map lockOf) ++
    queueLines .waitingTitle (r.queues.waiting.map lockOf))

end Resource

end Lockspace
