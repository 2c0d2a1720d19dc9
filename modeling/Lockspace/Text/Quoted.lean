import Lockspace.Text.Invisible
import Lockspace.Text.Joining

namespace Lockspace

/-- Whether a quoted text names a character by its code point. A reader could not tell such a
character from none, or from its neighbour. -/
def isEscaped (c : Char) : Bool :=
  isInvisible c || isJoining c

/-- A character as it stands between the quotes of a detailed listing. -/
def quotedChar (c : Char) : List Char :=
  if c = '"' then ['\\', '"']
  else if c = '\\' then ['\\', '\\']
  else if c = '\n' then ['\\', 'n']
  else if c = '\r' then ['\\', 'r']
  else if c = '\t' then ['\\', 't']
  else if c.toNat = 0 then ['\\', '0']
  else if isEscaped c then
    '\\' :: 'u' :: '\x7b' :: (Nat.toDigits 16 c.toNat ++ ['\x7d'])
  else [c]

/-- A text in quotes as a detailed listing shows it. -/
def quoted (s : String) : String :=
  String.ofList ('"' :: (s.toList.flatMap quotedChar ++ ['"']))

end Lockspace
