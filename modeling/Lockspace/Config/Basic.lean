import Lockspace.Config.Preset
import Lockspace.Duration

namespace Lockspace

/-- How a namespace is set up. -/
structure NamespaceConfig where
  lruSize : UInt32
  lruMaxAge : Duration
  lruResize : Bool
  earlyLockCancel : Bool
  ctimeAgeLimit : Duration
  maxNolockBytes : UInt64
  contentionTime : Duration
  contendedLocks : UInt32
  maxParallelAst : UInt32
  enqueueMin : Duration
  forceWaitTimeout : Duration
  forceWaitMax : Duration
  drainWaitTimeout : Duration
  dumpGrantedMax : UInt64
  dumpInterval : Duration
  hashPresets : List HashPreset
deriving DecidableEq

/-- Why a setting is refused. -/
inductive ConfigProblem where
  | noParallelAst
  | noForceWait
  | forceCapBelowWait
  | noDrainWait
  | badPreset (preset : HashPreset)
  | badMaxAge (input : String)
  | badLruSize (input : String)
  | malformed
  | stated (message : String)
deriving DecidableEq

def ConfigProblem.message : ConfigProblem → String
  | noParallelAst => "Max parallel AST must be greater than zero"
  | noForceWait => "Forced wait timeout must be greater than zero"
  | forceCapBelowWait => "Forced wait cap must not be below the forced wait timeout"
  | noDrainWait => "Drain wait timeout must be greater than zero"
  | badPreset p =>
    "Invalid hash preset for " ++ Named.name p.type ++ ": " ++ toString p.bucketBits.toNat ++
      " bucket bits of " ++ toString p.allBits.toNat ++ " total"
  | badMaxAge input => "invalid lru_max_age '" ++ input ++ "'"
  | badLruSize input => "invalid lru_size '" ++ input ++ "'"
  | malformed => "invalid namespace config"
  | stated message => message

namespace NamespaceConfig

/-- The settings that hold where none are given, on a machine with so many processors. -/
def initial (processors : Nat) : NamespaceConfig where
  lruSize := 100 * UInt32.ofNat processors
  lruMaxAge := .ofSecs 3900
  lruResize := false
  earlyLockCancel := false
  ctimeAgeLimit := .ofSecs 10
  maxNolockBytes := 0
  contentionTime := .ofSecs 2
  contendedLocks := 32
  maxParallelAst := 1024
  enqueueMin := .zero
  forceWaitTimeout := .ofSecs 25
  forceWaitMax := .ofSecs 200
  drainWaitTimeout := .ofSecs 100
  dumpGrantedMax := 256
  dumpInterval := .ofSecs 10
  hashPresets := HashPreset.defaults

instance : Inhabited NamespaceConfig := ⟨initial 1⟩

/-- The first problem of a configuration, if it has one. -/
def problem? (c : NamespaceConfig) : Option ConfigProblem :=
  if c.maxParallelAst = 0 then some .noParallelAst
  else if c.forceWaitTimeout.nanos = 0 then some .noForceWait
  else if c.forceWaitMax.nanos < c.forceWaitTimeout.nanos then some .forceCapBelowWait
  else if c.drainWaitTimeout.nanos = 0 then some .noDrainWait
  else (c.hashPresets.find? (!·.isSound)).map .badPreset

/-- Whether a namespace may be set up like this. -/
def IsValid (c : NamespaceConfig) : Prop :=
  c.problem? = none

instance (c : NamespaceConfig) : Decidable c.IsValid :=
  inferInstanceAs (Decidable (_ = _))

/-- The wait bound of a forced teardown after one that ran out: twice as long, up to the cap. -/
def nextForceWait (c : NamespaceConfig) (current : Duration) : Duration :=
  current.double.shorter c.forceWaitMax

/-- The wait bounds that follow one that ran out, so many of them. -/
def laterForceWaits (c : NamespaceConfig) : Nat → Duration → List Duration
  | 0, _ => []
  | n + 1, current => c.nextForceWait current :: c.laterForceWaits n (c.nextForceWait current)

/-- The wait bounds of a forced teardown in order of use. -/
def forceWait (c : NamespaceConfig) : Nat → Duration
  | 0 => c.forceWaitTimeout
  | k + 1 => c.nextForceWait (c.forceWait k)

end NamespaceConfig

end Lockspace
