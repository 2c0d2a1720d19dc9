import Lockspace.Config.MaxAge
import Lockspace.Error
import Lockspace.Log

namespace Lockspace

/-- The variables of an environment with their texts. -/
abbrev Environment := List (String × String)

namespace Environment

def get? (env : Environment) (name : String) : Option String :=
  env.lookup name

/-- The number below the limit that a variable holds, with blanks around it. Anything else counts
as unset. -/
def number? (env : Environment) (limit : Nat) (name : String) : Option Nat :=
  (env.get? name).bind fun s => unsigned? limit (trimBlanks s.toList)

end Environment

/-- The variables that override settings. -/
inductive Setting where
  | lruSize
  | lruMaxAge
  | maxParallelAst
  | contendedLocks
  | contentionSeconds

def Setting.variableName : Setting → String
  | lruSize => "RUSTFS_DLM_LRU_SIZE"
  | lruMaxAge => "RUSTFS_DLM_LRU_MAX_AGE"
  | maxParallelAst => "RUSTFS_DLM_MAX_PARALLEL_AST"
  | contendedLocks => "RUSTFS_DLM_CONTENDED_LOCKS"
  | contentionSeconds => "RUSTFS_DLM_CONTENTION_SECONDS"

namespace NamespaceConfig

/-- The configuration with the overrides of an environment. An LRU size of zero also asks for a
size that the server drives. -/
def withEnvironment (c : NamespaceConfig) (env : Environment) : NamespaceConfig :=
  let size := env.number? (wordCount 32) Setting.lruSize.variableName
  let age := (env.get? Setting.lruMaxAge.variableName).bind fun s => (parseMaxAge s).toOption
  let ast := env.number? (wordCount 32) Setting.maxParallelAst.variableName
  let locks := env.number? (wordCount 32) Setting.contendedLocks.variableName
  let seconds := env.number? (wordCount 64) Setting.contentionSeconds.variableName
  { c with
    lruSize := (size.map UInt32.ofNat).getD c.lruSize
    lruResize := (size.map (· == 0)).getD c.lruResize
    lruMaxAge := age.getD c.lruMaxAge
    maxParallelAst := (ast.map UInt32.ofNat).getD c.maxParallelAst
    contendedLocks := (locks.map UInt32.ofNat).getD c.contendedLocks
    contentionTime := (seconds.map Duration.ofSecs).getD c.contentionTime }

/-- The warning about an age in an environment that cannot be read and is ignored. -/
def environmentLog (env : Environment) : List LogLine :=
  let name := Setting.lruMaxAge.variableName
  match (env.get? name).map parseMaxAge with
  | some (.error problem) =>
    [⟨.warn, "Ignoring " ++ name ++ ": " ++ (LockError.configuration problem).message⟩]
  | _ => []

end NamespaceConfig

end Lockspace
