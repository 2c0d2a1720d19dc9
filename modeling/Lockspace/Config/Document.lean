import Lockspace.Config.Basic
import Lockspace.Json.Codec
import Lockspace.Json.Printer
import Lockspace.Json.Reader

namespace Lockspace

/-- The settings that a document gives. The others keep what held before. -/
structure ConfigPatch where
  lruSize : Option UInt32 := none
  lruMaxAge : Option Duration := none
  lruResize : Option Bool := none
  earlyLockCancel : Option Bool := none
  ctimeAgeLimit : Option Duration := none
  maxNolockBytes : Option UInt64 := none
  contentionTime : Option Duration := none
  contendedLocks : Option UInt32 := none
  maxParallelAst : Option UInt32 := none
  enqueueMin : Option Duration := none
  forceWaitTimeout : Option Duration := none
  forceWaitMax : Option Duration := none
  drainWaitTimeout : Option Duration := none
  dumpGrantedMax : Option UInt64 := none
  dumpInterval : Option Duration := none
  hashPresets : Option (List HashPreset) := none

namespace ConfigPatch

/-- The configuration in which the settings of a document replace those of another. -/
def applyTo (p : ConfigPatch) (c : NamespaceConfig) : NamespaceConfig where
  lruSize := p.lruSize.getD c.lruSize
  lruMaxAge := p.lruMaxAge.getD c.lruMaxAge
  lruResize := p.lruResize.getD c.lruResize
  earlyLockCancel := p.earlyLockCancel.getD c.earlyLockCancel
  ctimeAgeLimit := p.ctimeAgeLimit.getD c.ctimeAgeLimit
  maxNolockBytes := p.maxNolockBytes.getD c.maxNolockBytes
  contentionTime := p.contentionTime.getD c.contentionTime
  contendedLocks := p.contendedLocks.getD c.contendedLocks
  maxParallelAst := p.maxParallelAst.getD c.maxParallelAst
  enqueueMin := p.enqueueMin.getD c.enqueueMin
  forceWaitTimeout := p.forceWaitTimeout.getD c.forceWaitTimeout
  forceWaitMax := p.forceWaitMax.getD c.forceWaitMax
  drainWaitTimeout := p.drainWaitTimeout.getD c.drainWaitTimeout
  dumpGrantedMax := p.dumpGrantedMax.getD c.dumpGrantedMax
  dumpInterval := p.dumpInterval.getD c.dumpInterval
  hashPresets := p.hashPresets.getD c.hashPresets

/-- The members of a written configuration, in the order of its array form. -/
def members : List (Member ConfigPatch) :=
  [⟨"lru_size", fun v p => (readWord32? v).map fun a => { p with lruSize := some a }⟩,
    ⟨"lru_max_age", fun v p => (Duration.ofJson? v).map fun a => { p with lruMaxAge := some a }⟩,
    ⟨"lru_resize", fun v p => v.flag?.map fun a => { p with lruResize := some a }⟩,
    ⟨"early_lock_cancel", fun v p => v.flag?.map fun a => { p with earlyLockCancel := some a }⟩,
    ⟨"ctime_age_limit", fun v p =>
      (Duration.ofJson? v).map fun a => { p with ctimeAgeLimit := some a }⟩,
    ⟨"max_nolock_bytes", fun v p =>
      (readWord64? v).map fun a => { p with maxNolockBytes := some a }⟩,
    ⟨"contention_time", fun v p =>
      (Duration.ofJson? v).map fun a => { p with contentionTime := some a }⟩,
    ⟨"contended_locks", fun v p =>
      (readWord32? v).map fun a => { p with contendedLocks := some a }⟩,
    ⟨"max_parallel_ast", fun v p =>
      (readWord32? v).map fun a => { p with maxParallelAst := some a }⟩,
    ⟨"enqueue_min", fun v p => (Duration.ofJson? v).map fun a => { p with enqueueMin := some a }⟩,
    ⟨"force_wait_timeout", fun v p =>
      (Duration.ofJson? v).map fun a => { p with forceWaitTimeout := some a }⟩,
    ⟨"force_wait_max", fun v p =>
      (Duration.ofJson? v).map fun a => { p with forceWaitMax := some a }⟩,
    ⟨"drain_wait_timeout", fun v p =>
      (Duration.ofJson? v).map fun a => { p with drainWaitTimeout := some a }⟩,
    ⟨"dump_granted_max", fun v p =>
      (readWord64? v).map fun a => { p with dumpGrantedMax := some a }⟩,
    ⟨"dump_interval", fun v p =>
      (Duration.ofJson? v).map fun a => { p with dumpInterval := some a }⟩,
    ⟨"hash_presets", fun v p =>
      (HashPreset.listOfJson? v).map fun a => { p with hashPresets := some a }⟩]

/-- The settings that a document gives, if it is a configuration at all. -/
def ofJson? (v : Json) : Option ConfigPatch :=
  readRecord false members {} v

def read (text : String) : Except ConfigProblem ConfigPatch :=
  match (Json.read? text).bind ofJson? with
  | some patch => .ok patch
  | none => .error .malformed

end ConfigPatch

namespace NamespaceConfig

/-- The settings of a configuration with their keys. -/
def members (c : NamespaceConfig) : List (String × Json) :=
  [("lru_size", .ofWord32 c.lruSize), ("lru_max_age", c.lruMaxAge.toJson),
    ("lru_resize", .flag c.lruResize), ("early_lock_cancel", .flag c.earlyLockCancel),
    ("ctime_age_limit", c.ctimeAgeLimit.toJson), ("max_nolock_bytes", .ofWord64 c.maxNolockBytes),
    ("contention_time", c.contentionTime.toJson), ("contended_locks", .ofWord32 c.contendedLocks),
    ("max_parallel_ast", .ofWord32 c.maxParallelAst), ("enqueue_min", c.enqueueMin.toJson),
    ("force_wait_timeout", c.forceWaitTimeout.toJson), ("force_wait_max", c.forceWaitMax.toJson),
    ("drain_wait_timeout", c.drainWaitTimeout.toJson),
    ("dump_granted_max", .ofWord64 c.dumpGrantedMax), ("dump_interval", c.dumpInterval.toJson),
    ("hash_presets", HashPreset.listToJson c.hashPresets)]

/-- A configuration is written as a record of all its settings. -/
def toJson (c : NamespaceConfig) : Json :=
  .ofMembers c.members

/-- A configuration itself, if it is a valid one. -/
def validate (c : NamespaceConfig) : Except ConfigProblem NamespaceConfig :=
  match c.problem? with
  | none => .ok c
  | some problem => .error problem

/-- The valid configuration that a text gives, with the initial settings where it gives none. -/
def read (processors : Nat) (text : String) : Except ConfigProblem NamespaceConfig := do
  let patch ← ConfigPatch.read text
  (patch.applyTo (initial processors)).validate

end NamespaceConfig

end Lockspace
