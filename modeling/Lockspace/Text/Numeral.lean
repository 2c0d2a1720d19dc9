namespace Lockspace

/-- Whether a character is one of the ten decimal digits. -/
def isDigit (c : Char) : Bool :=
  '0' ≤ c && c ≤ '9'

/-- The number that a row of decimal digits denotes. -/
def decimalValue (ds : List Char) : Nat :=
  ds.foldl (fun n d => n * 10 + (d.toNat - '0'.toNat)) 0

/-- Reads a number below the limit: an optional plus sign and then decimal digits, at least one
of them, and nothing else. -/
def unsigned? (limit : Nat) (cs : List Char) : Option Nat :=
  let ds := match cs with
    | '+' :: rest => rest
    | other => other
  if ds ≠ [] ∧ ds.all isDigit ∧ decimalValue ds < limit then some (decimalValue ds) else none

/-- A number in lower-case hexadecimal digits after the sign `0x`. -/
def hexText (n : Nat) : String :=
  "0x" ++ String.ofList (Nat.toDigits 16 n)

/-- A byte as exactly two hexadecimal digits. -/
def byteText (b : UInt8) : String :=
  String.ofList [Nat.digitChar (b.toNat / 16), Nat.digitChar (b.toNat % 16)]

def bytesText (bs : List UInt8) : String :=
  String.join (bs.map byteText)

end Lockspace
