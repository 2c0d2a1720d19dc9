import Lockspace.Json.Value
import Lockspace.Named
import Lockspace.Word

namespace Lockspace

/-- One member of a written record: its key, and how its value changes what has been read. -/
structure Member (σ : Type) where
  key : String
  read : Json → σ → Option σ

/-- Reads the members of an object one after another. A known key must not come twice, and an
unknown one is skipped unless the record is strict. -/
def readMembers {σ : Type} (strict : Bool) (known : List (Member σ)) :
    List String → List (Option String × Json) → σ → Option σ
  | _, [], s => some s
  | seen, (key, v) :: rest, s =>
    match key with
    | none => none
    | some key =>
      match known.find? (·.key == key) with
      | none => if strict then none else readMembers strict known seen rest s
      | some m =>
        if key ∈ seen then none
        else (m.read v s).bind (readMembers strict known (key :: seen) rest)

/-- Reads the items of an array as the members of a record in order. There may be fewer items than
members, but not more. -/
def readItems {σ : Type} : List (Member σ) → List Json → σ → Option σ
  | _, [], s => some s
  | [], _ :: _, _ => none
  | m :: rest, v :: items, s => (m.read v s).bind (readItems rest items)

/-- Reads a record, written as an object or as an array of its members in order. -/
def readRecord {σ : Type} (strict : Bool) (known : List (Member σ)) (start : σ) :
    Json → Option σ
  | .object members => readMembers strict known [] members start
  | .array items => readItems known items start
  | _ => none

/-- Reads a value by its name, written as a text or as the only key of an object that holds
nothing. -/
def readNamed? {α : Type} [Named α] : Json → Option α
  | .text (some s) => Named.ofName? s
  | .object [(some s, .null)] => Named.ofName? s
  | _ => none

def writeNamed {α : Type} [Named α] (a : α) : Json :=
  .ofText (Named.name a)

/-- Reads a word of 64 bits. -/
def readWord64? (v : Json) : Option UInt64 :=
  (v.below? (wordCount 64)).map UInt64.ofNat

/-- Reads a word of 32 bits. -/
def readWord32? (v : Json) : Option UInt32 :=
  (v.below? (wordCount 32)).map UInt32.ofNat

def readList? {α : Type} (read : Json → Option α) (v : Json) : Option (List α) :=
  v.items?.bind (List.mapM read)

end Lockspace
