namespace Lockspace

/-- A type of finitely many values, each written by a name of its own. -/
class Named (α : Type) where
  all : List α
  name : α → String

def Named.ofName? {α : Type} [Named α] (s : String) : Option α :=
  (Named.all : List α).find? fun a => Named.name a == s

end Lockspace
