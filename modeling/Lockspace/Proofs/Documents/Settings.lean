import Lockspace.Config.Document
import Lockspace.Proofs.Documents.Records
import Mathlib.Data.List.Perm.Basic

namespace Lockspace

/-- A configuration with some settings of another, those of the given keys. -/
def NamespaceConfig.mixed (c base : NamespaceConfig) (keys : List String) : NamespaceConfig where
  lruSize := if "lru_size" ∈ keys then c.lruSize else base.lruSize
  lruMaxAge := if "lru_max_age" ∈ keys then c.lruMaxAge else base.lruMaxAge
  lruResize := if "lru_resize" ∈ keys then c.lruResize else base.lruResize
  earlyLockCancel := if "early_lock_cancel" ∈ keys then c.earlyLockCancel else base.earlyLockCancel
  ctimeAgeLimit := if "ctime_age_limit" ∈ keys then c.ctimeAgeLimit else base.ctimeAgeLimit
  maxNolockBytes := if "max_nolock_bytes" ∈ keys then c.maxNolockBytes else base.maxNolockBytes
  contentionTime := if "contention_time" ∈ keys then c.contentionTime else base.contentionTime
  contendedLocks := if "contended_locks" ∈ keys then c.contendedLocks else base.contendedLocks
  maxParallelAst := if "max_parallel_ast" ∈ keys then c.maxParallelAst else base.maxParallelAst
  enqueueMin := if "enqueue_min" ∈ keys then c.enqueueMin else base.enqueueMin
  forceWaitTimeout :=
    if "force_wait_timeout" ∈ keys then c.forceWaitTimeout else base.forceWaitTimeout
  forceWaitMax := if "force_wait_max" ∈ keys then c.forceWaitMax else base.forceWaitMax
  drainWaitTimeout :=
    if "drain_wait_timeout" ∈ keys then c.drainWaitTimeout else base.drainWaitTimeout
  dumpGrantedMax := if "dump_granted_max" ∈ keys then c.dumpGrantedMax else base.dumpGrantedMax
  dumpInterval := if "dump_interval" ∈ keys then c.dumpInterval else base.dumpInterval
  hashPresets := if "hash_presets" ∈ keys then c.hashPresets else base.hashPresets

namespace ConfigPatch

/-- The settings of a configuration with some keys, as a document gives them. -/
def part (c : NamespaceConfig) (keys : List String) : ConfigPatch where
  lruSize := if "lru_size" ∈ keys then some c.lruSize else none
  lruMaxAge := if "lru_max_age" ∈ keys then some c.lruMaxAge else none
  lruResize := if "lru_resize" ∈ keys then some c.lruResize else none
  earlyLockCancel := if "early_lock_cancel" ∈ keys then some c.earlyLockCancel else none
  ctimeAgeLimit := if "ctime_age_limit" ∈ keys then some c.ctimeAgeLimit else none
  maxNolockBytes := if "max_nolock_bytes" ∈ keys then some c.maxNolockBytes else none
  contentionTime := if "contention_time" ∈ keys then some c.contentionTime else none
  contendedLocks := if "contended_locks" ∈ keys then some c.contendedLocks else none
  maxParallelAst := if "max_parallel_ast" ∈ keys then some c.maxParallelAst else none
  enqueueMin := if "enqueue_min" ∈ keys then some c.enqueueMin else none
  forceWaitTimeout := if "force_wait_timeout" ∈ keys then some c.forceWaitTimeout else none
  forceWaitMax := if "force_wait_max" ∈ keys then some c.forceWaitMax else none
  drainWaitTimeout := if "drain_wait_timeout" ∈ keys then some c.drainWaitTimeout else none
  dumpGrantedMax := if "dump_granted_max" ∈ keys then some c.dumpGrantedMax else none
  dumpInterval := if "dump_interval" ∈ keys then some c.dumpInterval else none
  hashPresets := if "hash_presets" ∈ keys then some c.hashPresets else none

variable {c base : NamespaceConfig} {keys : List String}

theorem getD_part {α : Type} {given : Prop} [Decidable given] (a b : α) :
    (if given then some a else none).getD b = if given then a else b := by
  split <;> rfl

theorem applyTo_part : (part c keys).applyTo base = c.mixed base keys := by
  simp only [applyTo, part, NamespaceConfig.mixed, getD_part]

/-- Every member of a written configuration has a reader of its key, which adds that setting. -/
theorem members_read {e : String × Json} (member : e ∈ c.members) :
    ∃ m, members.find? (·.key == e.1) = some m ∧
      ∀ keys, m.read e.2 (part c keys) = some (part c (e.1 :: keys)) := by
  simp only [NamespaceConfig.members, List.mem_cons, List.not_mem_nil, or_false] at member
  rcases member with rfl | rfl | rfl | rfl | rfl | rfl | rfl | rfl | rfl | rfl | rfl | rfl | rfl |
    rfl | rfl | rfl
  all_goals
    refine ⟨_, rfl, fun keys => ?_⟩
    simp [part, readWord32?_ofWord32, readWord64?_ofWord64, Duration.ofJson?_toJson,
      HashPreset.listOfJson?_listToJson, Json.flag?]

theorem ofJson?_written {written : List (String × Json)} (given : ∀ e ∈ written, e ∈ c.members)
    (distinct : (written.map (·.1)).Nodup) :
    ofJson? (.ofMembers written) = some (part c (written.map (·.1)).reverse) := by
  have read : readMembers false members [] _ (part c []) = _ :=
    readMembers_eq (part c) (fun e member => members_read (given e member)) distinct
      fun _ _ => List.not_mem_nil
  rw [List.append_nil] at read
  exact read

end ConfigPatch

namespace NamespaceConfig

variable {c base : NamespaceConfig} {keys : List String}

theorem plain_of_mem_members {e : String × Json} (member : e ∈ c.members) : e.2.Plain := by
  simp only [members, List.mem_cons, List.not_mem_nil, or_false] at member
  rcases member with rfl | rfl | rfl | rfl | rfl | rfl | rfl | rfl | rfl | rfl | rfl | rfl | rfl |
    rfl | rfl | rfl
  all_goals
    first
    | exact .natural _
    | exact .flag _
    | exact Duration.plain_toJson _
    | exact HashPreset.plain_listToJson _

theorem nodup_keys : (c.members.map (·.1)).Nodup := by
  show ["lru_size", "lru_max_age", "lru_resize", "early_lock_cancel", "ctime_age_limit",
    "max_nolock_bytes", "contention_time", "contended_locks", "max_parallel_ast", "enqueue_min",
    "force_wait_timeout", "force_wait_max", "drain_wait_timeout", "dump_granted_max",
    "dump_interval", "hash_presets"].Nodup
  decide

theorem mixed_congr {others : List String} (same : ∀ key, key ∈ keys ↔ key ∈ others) :
    c.mixed base keys = c.mixed base others := by
  simp only [mixed, same]

theorem mixed_self : c.mixed base (c.members.map (·.1)) = c := by
  simp [mixed, members]

theorem plain_written {written : List (String × Json)} (given : ∀ e ∈ written, e ∈ c.members) :
    (Json.ofMembers written).Plain :=
  Json.plain_ofMembers fun e member => plain_of_mem_members (given e member)

theorem nodup_of_subperm {written : List (String × Json)} (given : written.Subperm c.members) :
    (written.map (·.1)).Nodup := by
  obtain ⟨ordered, perm, sublist⟩ := given
  exact (perm.map _).nodup_iff.mp (nodup_keys.sublist (sublist.map _))

/-- A document of some settings is read as the mixture of those with the initial ones. -/
theorem read_eq_validate (processors : Nat) {written : List (String × Json)}
    (given : written.Subperm c.members) : read processors (Json.render (.ofMembers written)) =
      (c.mixed (initial processors) (written.map (·.1))).validate := by
  have members : ∀ e ∈ written, e ∈ c.members := fun e member => given.subset member
  have patch : ConfigPatch.read (Json.render (.ofMembers written)) =
      .ok (.part c (written.map (·.1)).reverse) := by
    rw [ConfigPatch.read, (plain_written members).read?_render, Option.bind_some,
      ConfigPatch.ofJson?_written members (nodup_of_subperm given)]
  show (ConfigPatch.read _).bind _ = _
  rw [patch]
  show (ConfigPatch.applyTo _ _).validate = _
  rw [ConfigPatch.applyTo_part, mixed_congr fun _ => List.mem_reverse]

/-- A document of some settings of a configuration, in whatever order, gives that configuration with
the initial settings elsewhere if it is valid, and else the problem of that. A document of all settings
gives the configuration itself. -/
theorem read_written (processors : Nat) (c : NamespaceConfig) {written : List (String × Json)}
    (given : written.Subperm c.members) :
    let text := Json.render (.ofMembers written)
    let c' := c.mixed (initial processors) (written.map (·.1))
    (c'.IsValid → read processors text = .ok c') ∧
    (∀ problem, c'.problem? = some problem → read processors text = .error problem) ∧
    (written.Perm c.members → c.IsValid → read processors text = .ok c) := by
  intro text c'
  have read : read processors text = c'.validate := read_eq_validate processors given
  have valid : c'.IsValid → NamespaceConfig.read processors text = .ok c' := fun valid => by
    rw [read, validate, show c'.problem? = none from valid]
  refine ⟨valid, fun problem found => ?_, fun whole sound => ?_⟩
  · rw [read, validate, found]
  · have same : c' = c :=
      (mixed_congr fun _ => (whole.map _).mem_iff).trans mixed_self
    rw [same] at valid
    exact valid sound

/-- Two of sixteen settings, the later one first, with the initial ones for the rest. -/
theorem read_written_of_two_settings :
    let c : NamespaceConfig :=
      { initial 1 with maxParallelAst := 7, dumpInterval := .ofMillis 1500 }
    let written := (c.members.filter fun e =>
      e.1 = "max_parallel_ast" ∨ e.1 = "dump_interval").reverse
    Json.render (.ofMembers written) =
      "\x7b\"dump_interval\":\x7b\"secs\":1,\"nanos\":500000000\x7d,\"max_parallel_ast\":7\x7d" ∧
    read 4 (Json.render (.ofMembers written)) =
      .ok { initial 4 with maxParallelAst := 7, dumpInterval := .ofMillis 1500 } := by
  intro c written
  have given : written.Subperm c.members :=
    ⟨_, (List.reverse_perm _).symm, List.filter_sublist⟩
  have same : c.mixed (initial 4) (written.map (·.1)) =
      { initial 4 with maxParallelAst := 7, dumpInterval := .ofMillis 1500 } := by
    decide +kernel
  obtain ⟨reads, -⟩ := read_written 4 c given
  rw [same] at reads
  exact ⟨by decide +kernel, reads (by decide +kernel)⟩

end NamespaceConfig

end Lockspace
