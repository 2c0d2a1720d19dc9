import Lockspace.Named

namespace Lockspace

/-- What kind of object a resource names. The kind selects how its granted locks are indexed. -/
inductive ResourceType where
  | plain
  | extent
  | flock
  | ibits
deriving DecidableEq, Inhabited

namespace ResourceType

/-- Whether granted locks are indexed by the range that they cover. -/
def hasIntervalIndex : ResourceType → Bool
  | extent => true
  | _ => false

/-- Whether granted locks are counted by mode. -/
def hasModeGroups : ResourceType → Bool
  | plain | ibits => true
  | _ => false

def text : ResourceType → String
  | plain => "PLN"
  | extent => "EXT"
  | flock => "FLK"
  | ibits => "IBT"

instance : Named ResourceType where
  all := [plain, extent, flock, ibits]
  name
    | plain => "Plain"
    | extent => "Extent"
    | flock => "Flock"
    | ibits => "Ibits"

end ResourceType

/-- The end of the protocol that a namespace serves. -/
inductive Side where
  | server
  | client
deriving DecidableEq, Inhabited

namespace Side

def isClient : Side → Bool
  | server => false
  | client => true

def text : Side → String
  | server => "server"
  | client => "client"

instance : Named Side where
  all := [server, client]
  name
    | server => "Server"
    | client => "Client"

end Side

/-- How readily locks are kept. Only the lock policy looks at it. -/
inductive Appetite where
  | recoverable
  | cautious
deriving DecidableEq, Inhabited

instance : Named Appetite where
  all := [.recoverable, .cautious]
  name
    | .recoverable => "Recoverable"
    | .cautious => "Cautious"

/-- The type of a namespace: the client or the target of metadata, of object storage or of
management. It selects the preset of the resource table. -/
inductive NamespaceType where
  | mdc
  | mdt
  | osc
  | ost
  | mgc
  | mgt
deriving DecidableEq, Inhabited

instance : Named NamespaceType where
  all := [.mdc, .mdt, .osc, .ost, .mgc, .mgt]
  name
    | .mdc => "Mdc"
    | .mdt => "Mdt"
    | .osc => "Osc"
    | .ost => "Ost"
    | .mgc => "Mgc"
    | .mgt => "Mgt"

/-- The three queues of a resource. -/
inductive Queue where
  | granted
  | converting
  | waiting
deriving DecidableEq

namespace Queue

/-- All queues in the order in which a drain visits them. -/
def all : List Queue :=
  [granted, converting, waiting]

def text : Queue → String
  | granted => "granted"
  | converting => "converting"
  | waiting => "waiting"

instance : Named Queue where
  all := all
  name := text

def label : Queue → String
  | granted => "Granted"
  | converting => "Converting"
  | waiting => "Waiting"

end Queue

/-- The level at which a line is logged, the gravest first. -/
inductive Level where
  | error
  | warn
  | info
  | debug
  | trace
deriving DecidableEq

namespace Level

/-- Whether a listing at this level may be cut short. Errors and warnings never are. -/
def isCapped : Level → Bool
  | error | warn => false
  | _ => true

/-- Whether a line at this level is always shown. Others are shown only where a listing is asked
for. -/
def isAlert : Level → Bool
  | error | warn => true
  | _ => false

def rank : Level → Nat
  | error => 0
  | warn => 1
  | info => 2
  | debug => 3
  | trace => 4

def text : Level → String
  | error => "ERROR"
  | warn => "WARN"
  | info => "INFO"
  | debug => "DEBUG"
  | trace => "TRACE"

instance : Named Level where
  all := [error, warn, info, debug, trace]
  name
    | error => "Error"
    | warn => "Warn"
    | info => "Info"
    | debug => "Debug"
    | trace => "Trace"

end Level

/-- How a table spreads ids over its buckets. -/
inductive HashStrategy where
  | plain
  | identity
deriving DecidableEq, Inhabited

instance : Named HashStrategy where
  all := [.plain, .identity]
  name
    | .plain => "Plain"
    | .identity => "Identity"

/-- Why the value block of a resource is brought up to date. With `increaseOnly` only fields
that are sizes may grow. -/
inductive LvbHint where
  | init
  | refresh
  | increaseOnly
deriving DecidableEq

instance : Named LvbHint where
  all := [.init, .refresh, .increaseOnly]
  name
    | .init => "Init"
    | .refresh => "Refresh"
    | .increaseOnly => "IncreaseOnly"

/-- The registry list that a namespace is on. -/
inductive NamespaceLink where
  | detached
  | active
  | inactive
deriving DecidableEq, Inhabited

instance : Named NamespaceLink where
  all := [.detached, .active, .inactive]
  name
    | .detached => "Detached"
    | .active => "Active"
    | .inactive => "Inactive"

def NamespaceLink.text : NamespaceLink → String
  | detached => "detached"
  | active => "active"
  | inactive => "inactive"

end Lockspace
