namespace Lockspace

/-- A document in the JSON data model. Members keep their order and may repeat a key. A string
is missing its text where an escape names only one half of a surrogate pair. Numbers other than
plain natural ones only keep their spelling. -/
inductive Json where
  | null
  | flag (value : Bool)
  | natural (value : Nat)
  | other (spelling : String)
  | text (value : Option String)
  | array (items : List Json)
  | object (members : List (Option String × Json))

namespace Json

instance : Inhabited Json := ⟨null⟩

def ofText (s : String) : Json :=
  text (some s)

def ofMembers (members : List (String × Json)) : Json :=
  object (members.map fun m => (some m.1, m.2))

/-- The natural number below the limit that a document is. -/
def below? (limit : Nat) : Json → Option Nat
  | natural n => if n < limit then some n else none
  | _ => none

def flag? : Json → Option Bool
  | flag b => some b
  | _ => none

def items? : Json → Option (List Json)
  | array items => some items
  | _ => none

end Json

end Lockspace
