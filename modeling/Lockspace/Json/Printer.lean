import Lockspace.Json.Value
import Lockspace.Text.Numeral

namespace Lockspace

def twoHexDigits (n : Nat) : List Char :=
  [Nat.digitChar (n / 16), Nat.digitChar (n % 16)]

/-- A character inside a written string. Only quotes, backslashes and control characters are
escaped. -/
def writeChar (c : Char) : List Char :=
  if c = '"' then ['\\', '"']
  else if c = '\\' then ['\\', '\\']
  else if c = '\n' then ['\\', 'n']
  else if c = '\r' then ['\\', 'r']
  else if c = '\t' then ['\\', 't']
  else if c.toNat = 8 then ['\\', 'b']
  else if c.toNat = 12 then ['\\', 'f']
  else if c.toNat < 32 then '\\' :: 'u' :: '0' :: '0' :: twoHexDigits c.toNat
  else [c]

def writeText (s : String) : List Char :=
  '"' :: (s.toList.flatMap writeChar ++ ['"'])

namespace Json

mutual

/-- A document written without any blanks. -/
def write : Json → List Char
  | null => "null".toList
  | flag true => "true".toList
  | flag false => "false".toList
  | natural n => Nat.toDigits 10 n
  | other spelling => spelling.toList
  | text s => writeText (s.getD "")
  | array items => '[' :: (writeItems items ++ [']'])
  | object members => '\x7b' :: (writeMembers members ++ ['\x7d'])

def writeItems : List Json → List Char
  | [] => []
  | [v] => write v
  | v :: w :: rest => write v ++ ',' :: writeItems (w :: rest)

def writeMembers : List (Option String × Json) → List Char
  | [] => []
  | [(key, v)] => writeText (key.getD "") ++ ':' :: write v
  | (key, v) :: next :: rest =>
    writeText (key.getD "") ++ ':' :: (write v ++ ',' :: writeMembers (next :: rest))

end

def render (v : Json) : String :=
  String.ofList v.write

end Json

end Lockspace
