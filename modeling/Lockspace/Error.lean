import Lockspace.Config.Basic
import Lockspace.LockFlags
import Lockspace.Mode

namespace Lockspace

/-- What an operation may refuse. A broken invariant is a `Fault` instead. -/
inductive LockError where
  | notFound (id : ResourceId)
  | outOfMemory (what : String)
  | drainTimeout (space : String) (inUse : Nat)
  | remoteCancelFailed (handle message : String)
  | lvbUpdate (id : ResourceId) (message : String)
  | unknownNamespaceType (space : String) (type : NamespaceType)
  | configuration (problem : ConfigProblem)
  | internal (message : String)
deriving DecidableEq

namespace LockError

def message : LockError → String
  | notFound id => "Resource not found: " ++ id.text
  | outOfMemory what => "Out of memory allocating " ++ what
  | drainTimeout space inUse =>
    "Namespace '" ++ space ++ "' still exists with " ++ toString inUse ++ " resources in use"
  | remoteCancelFailed handle message => "Cancel of lock " ++ handle ++ " failed: " ++ message
  | lvbUpdate id message => "LVB update failed for resource " ++ id.text ++ ": " ++ message
  | unknownNamespaceType space type =>
    "Unknown type " ++ Named.name type ++ " for namespace '" ++ space ++ "'"
  | configuration problem => "Configuration error: " ++ problem.message
  | internal message => "Internal error: " ++ message

def isRetryable : LockError → Bool
  | drainTimeout .. | remoteCancelFailed .. | outOfMemory _ => true
  | _ => false

/-- Whether trying again cannot help. -/
def isFatal : LockError → Bool
  | unknownNamespaceType .. | configuration _ => true
  | _ => false

/-- Whether a resource was looked up that does not exist. -/
def isNotFound : LockError → Bool
  | notFound _ => true
  | _ => false

end LockError

/-- A broken invariant. It ends everything. -/
inductive Fault where
  | emptyFirstWord (id : ResourceId)
  | referencedAfterRelease (id : ResourceId)
  | releasedTooOften (id : ResourceId)
  | releasedWithLocks (id : ResourceId) (queued : Nat)
  | notInBucket (id : ResourceId)
  | emptiedUnreferenced (bucket : Nat)
  | modeGroupUnderflow (mode : LockMode)
  | alreadyQueued (handle : String) (on target : Queue) (id : ResourceId)
  | anchorNotQueued (handle : String) (id : ResourceId)
  | anchorElsewhere (handle : String) (on : Queue) (id : ResourceId)
  | claimsAbsent (handle : String) (on : Queue) (id : ResourceId)
  | tooManyReleases (handle : String) (mode : LockMode)
  | registeredTwice (space : String)
  | wrongSide (space : String) (side : Side)
  | notRegistered (space : String)
  | missingFromRegistry (space : String) (side : Side)
  | gateUnderflow
  | referenceUnderflow (space : String)
  | stillLinked (space : String)
  | momentOverflow
deriving DecidableEq

def Fault.message : Fault → String
  | emptyFirstWord id => "resource name " ++ id.text ++ " has an empty first word"
  | referencedAfterRelease id => "resource " ++ id.text ++ " referenced after release"
  | releasedTooOften id => "resource " ++ id.text ++ " released more often than referenced"
  | releasedWithLocks id queued =>
    "resource " ++ id.text ++ " released with " ++ toString queued ++ " locks still queued"
  | notInBucket id => "resource " ++ id.text ++ " released but not found in its bucket"
  | emptiedUnreferenced bucket =>
    "bucket " ++ toString bucket ++ " emptied with no namespace reference"
  | modeGroupUnderflow mode => "mode group " ++ mode.text ++ " underflow"
  | alreadyQueued handle on target id =>
    "lock " ++ handle ++ " is already on the " ++ on.text ++ " queue, cannot add it to " ++
      target.text ++ " of " ++ id.text
  | anchorNotQueued handle id => "anchor lock " ++ handle ++ " is not queued on " ++ id.text
  | anchorElsewhere handle on id =>
    "anchor lock " ++ handle ++ " is not on " ++ on.text ++ " of " ++ id.text
  | claimsAbsent handle on id =>
    "lock " ++ handle ++ " claims " ++ on.text ++ " of " ++ id.text ++ " but is not there"
  | tooManyReleases handle mode =>
    "lock " ++ handle ++ " released more " ++ mode.text ++ " holds than taken"
  | registeredTwice space => "namespace " ++ space ++ " registered twice"
  | wrongSide space side =>
    "namespace " ++ space ++ " is not a " ++ side.text ++ " namespace"
  | notRegistered space => "namespace " ++ space ++ " is not registered"
  | missingFromRegistry space side =>
    "namespace " ++ space ++ " missing from the " ++ side.text ++ " registry"
  | gateUnderflow => "namespace gate released more often than taken"
  | referenceUnderflow space => "namespace " ++ space ++ " reference count underflow"
  | stillLinked space => "namespace " ++ space ++ " still linked in the registry"
  | momentOverflow => "overflow when adding duration to instant"

end Lockspace
