import Lockspace.Config.Basic
import Lockspace.Text.Blank

namespace Lockspace

/-- The characters in front of an ending, where a text has that ending. -/
def stripEnding? (ending cs : List Char) : Option (List Char) :=
  if ending.isSuffixOf cs then some (cs.take (cs.length - ending.length)) else none

/-- Reads the number of an age in whatever unit, with blanks around it. -/
def ageNumber? (cs : List Char) : Option Nat :=
  unsigned? (wordCount 64) (trimBlanks cs)

/-- Reads an age: a number with the unit `ms` or `s`, or a bare number of milliseconds. -/
def maxAge? (cs : List Char) : Option Duration :=
  match stripEnding? ['m', 's'] cs with
  | some number => (ageNumber? number).map Duration.ofMillis
  | none =>
    match stripEnding? ['s'] cs with
    | some number => (ageNumber? number).map Duration.ofSecs
    | none => (ageNumber? cs).map Duration.ofMillis

/-- Reads the greatest age of an unused lock, with blanks around it. -/
def parseMaxAge (input : String) : Except ConfigProblem Duration :=
  let trimmed := trimBlanks input.toList
  match maxAge? trimmed with
  | some age => .ok age
  | none => .error (.badMaxAge (String.ofList trimmed))

/-- What a write to the LRU size asks for: to cancel all unused locks, or a size, where zero asks
for a size that the server drives. -/
inductive LruSize where
  | clear
  | value (size : UInt32)
deriving DecidableEq

/-- Reads an LRU size with blanks around it. Whatever starts with `clear` asks to cancel all. -/
def parseLruSize (input : String) : Except ConfigProblem LruSize :=
  let trimmed := trimBlanks input.toList
  if "clear".toList.isPrefixOf trimmed then .ok .clear
  else match unsigned? (wordCount 32) trimmed with
    | some n => .ok (.value (UInt32.ofNat n))
    | none => .error (.badLruSize (String.ofList trimmed))

end Lockspace
