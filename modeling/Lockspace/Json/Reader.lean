import Lockspace.Json.Value
import Lockspace.Text.Numeral

namespace Lockspace

/-- The value of a hexadecimal digit of either case. -/
def hexDigit? (c : Char) : Option Nat :=
  if '0' ≤ c ∧ c ≤ '9' then some (c.toNat - '0'.toNat)
  else if 'a' ≤ c ∧ c ≤ 'f' then some (c.toNat - 'a'.toNat + 10)
  else if 'A' ≤ c ∧ c ≤ 'F' then some (c.toNat - 'A'.toNat + 10)
  else none

/-- The characters of a row of code points in which an escaped character beyond the basic plane
stands as a surrogate pair. Nothing if a surrogate stands alone. -/
def joinSurrogates : List Nat → Option (List Char)
  | [] => some []
  | high :: low :: rest =>
    if 0xd800 ≤ high ∧ high < 0xdc00 ∧ 0xdc00 ≤ low ∧ low < 0xe000 then
      (joinSurrogates rest).map
        (Char.ofNat (0x10000 + (high - 0xd800) * 0x400 + (low - 0xdc00)) :: ·)
    else if 0xd800 ≤ high ∧ high < 0xe000 then none
    else (joinSurrogates (low :: rest)).map (Char.ofNat high :: ·)
  | [last] => if 0xd800 ≤ last ∧ last < 0xe000 then none else some [Char.ofNat last]

namespace Json

/-- Where a reader stands inside the spelling of a number. -/
inductive NumberPart where
  | sign
  | zero
  | digits
  | point
  | fraction
  | mark
  | markSign
  | exponent
deriving DecidableEq

/-- Where a reader stands inside an escape of a string. -/
inductive EscapePart where
  | plain
  | backslash
  | hex (left value : Nat)
deriving DecidableEq

/-- An array or object that has been opened and not yet closed. The parts read so far stand in
reverse. -/
inductive Frame where
  | items (read : List Json)
  | members (read : List (Option String × Json)) (key : Option String)

/-- What a reader is in the middle of. -/
inductive Mode where
  | value
  | firstItem
  | firstKey (read : List (Option String × Json))
  | nextKey (read : List (Option String × Json))
  | colon (read : List (Option String × Json)) (key : Option String)
  | after (value : Json)
  | word (left : List Char) (value : Json)
  | number (part : NumberPart) (spelling : List Char)
  | text (codes : List Nat) (part : EscapePart)
  | key (read : List (Option String × Json)) (codes : List Nat) (part : EscapePart)

/-- A reader between two characters: the open arrays and objects, the innermost first, and what
it is in the middle of. -/
structure Reader where
  frames : List Frame
  mode : Mode

/-- The blanks that may stand between the tokens of a document. -/
def isGap (c : Char) : Bool :=
  c == ' ' || c == '\n' || c == '\t' || c == '\r'

def NumberPart.complete : NumberPart → Bool
  | zero | digits | fraction | exponent => true
  | _ => false

/-- The part of a number after one more character, if that character belongs to it. -/
def NumberPart.step? (part : NumberPart) (c : Char) : Option NumberPart :=
  match part with
  | sign => if c = '0' then some zero else if isDigit c then some digits else none
  | zero => if c = '.' then some point else if c = 'e' ∨ c = 'E' then some mark else none
  | digits =>
    if isDigit c then some digits
    else if c = '.' then some point
    else if c = 'e' ∨ c = 'E' then some mark else none
  | point => if isDigit c then some fraction else none
  | fraction =>
    if isDigit c then some fraction else if c = 'e' ∨ c = 'E' then some mark else none
  | mark =>
    if c = '+' ∨ c = '-' then some markSign else if isDigit c then some exponent else none
  | markSign | exponent => if isDigit c then some exponent else none

/-- The number of a spelling: a natural one where it is made of digits only. -/
def ofSpelling (spelling : List Char) : Json :=
  if spelling.all isDigit then natural (decimalValue spelling) else other (String.ofList spelling)

/-- Reads one character of a string outside its closing quote. A control character must not stand
in a string, and an escape must be one of the known ones. -/
def readText? (codes : List Nat) (part : EscapePart) (c : Char) :
    Option (List Nat × EscapePart) :=
  match part with
  | .plain =>
    if c.toNat < 32 then none
    else if c = '\\' then some (codes, .backslash)
    else some (c.toNat :: codes, .plain)
  | .backslash =>
    if c = '"' ∨ c = '\\' ∨ c = '/' then some (c.toNat :: codes, .plain)
    else if c = 'b' then some (8 :: codes, .plain)
    else if c = 'f' then some (12 :: codes, .plain)
    else if c = 'n' then some (10 :: codes, .plain)
    else if c = 'r' then some (13 :: codes, .plain)
    else if c = 't' then some (9 :: codes, .plain)
    else if c = 'u' then some (codes, .hex 4 0)
    else none
  | .hex left value =>
    match hexDigit? c with
    | none => none
    | some d =>
      if left ≤ 1 then some ((value * 16 + d) :: codes, .plain)
      else some (codes, .hex (left - 1) (value * 16 + d))

/-- The text of a string whose code points were read in reverse. -/
def textOf (codes : List Nat) : Option String :=
  (joinSurrogates codes.reverse).map String.ofList

namespace Reader

/-- Starts a value with its first character. -/
def start? (frames : List Frame) (c : Char) : Option Reader :=
  if c = '[' then some ⟨.items [] :: frames, .firstItem⟩
  else if c = '\x7b' then some ⟨frames, .firstKey []⟩
  else if c = '"' then some ⟨frames, .text [] .plain⟩
  else if c = 't' then some ⟨frames, .word "rue".toList (.flag true)⟩
  else if c = 'f' then some ⟨frames, .word "alse".toList (.flag false)⟩
  else if c = 'n' then some ⟨frames, .word "ull".toList .null⟩
  else if c = '-' then some ⟨frames, .number .sign [c]⟩
  else if c = '0' then some ⟨frames, .number .zero [c]⟩
  else if isDigit c then some ⟨frames, .number .digits [c]⟩
  else none

/-- Goes on after a whole value with the next character. -/
def after? (frames : List Frame) (v : Json) (c : Char) : Option Reader :=
  if isGap c then some ⟨frames, .after v⟩
  else match frames with
  | .items read :: outer =>
    if c = ',' then some ⟨.items (v :: read) :: outer, .value⟩
    else if c = ']' then some ⟨outer, .after (.array (v :: read).reverse)⟩
    else none
  | .members read key :: outer =>
    if c = ',' then some ⟨outer, .nextKey ((key, v) :: read)⟩
    else if c = '\x7d' then some ⟨outer, .after (.object ((key, v) :: read).reverse)⟩
    else none
  | [] => none

/-- Reads one character. Nothing if no document goes on like this. -/
def step? (r : Reader) (c : Char) : Option Reader :=
  match r.mode with
  | .value => if isGap c then some r else start? r.frames c
  | .firstItem =>
    if isGap c then some r
    else if c = ']' then some ⟨r.frames.tail, .after (.array [])⟩
    else start? r.frames c
  | .firstKey read =>
    if isGap c then some r
    else if c = '\x7d' then some ⟨r.frames, .after (.object [])⟩
    else if c = '"' then some ⟨r.frames, .key read [] .plain⟩
    else none
  | .nextKey read =>
    if isGap c then some r
    else if c = '"' then some ⟨r.frames, .key read [] .plain⟩
    else none
  | .colon read key =>
    if isGap c then some r
    else if c = ':' then some ⟨.members read key :: r.frames, .value⟩
    else none
  | .after v => after? r.frames v c
  | .word [] v => after? r.frames v c
  | .word (w :: left) v =>
    if c = w then
      some ⟨r.frames, match left with
        | [] => .after v
        | _ => .word left v⟩
    else none
  | .number part spelling =>
    match part.step? c with
    | some next => some ⟨r.frames, .number next (c :: spelling)⟩
    | none => if part.complete then after? r.frames (ofSpelling spelling.reverse) c else none
  | .text codes part =>
    if part = .plain ∧ c = '"' then some ⟨r.frames, .after (.text (textOf codes))⟩
    else (readText? codes part c).map fun next => ⟨r.frames, .text next.1 next.2⟩
  | .key read codes part =>
    if part = .plain ∧ c = '"' then some ⟨r.frames, .colon read (textOf codes)⟩
    else (readText? codes part c).map fun next => ⟨r.frames, .key read next.1 next.2⟩

def finish? (r : Reader) : Option Json :=
  match r.frames, r.mode with
  | [], .after v => some v
  | [], .number part spelling =>
    if part.complete then some (ofSpelling spelling.reverse) else none
  | _, _ => none

end Reader

/-- The document that a text spells, with nothing around it but gaps. -/
def read? (s : String) : Option Json := do
  let r ← s.toList.foldlM Reader.step? ⟨[], .value⟩
  r.finish?

end Json

end Lockspace
