import Lockspace.Kinds

namespace Lockspace

/-- A line that was logged. -/
structure LogLine where
  level : Level
  text : String
deriving DecidableEq

def LogLine.render (line : LogLine) : String :=
  line.level.text ++ " " ++ line.text

end Lockspace
