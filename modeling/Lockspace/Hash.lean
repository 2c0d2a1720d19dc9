import Lockspace.ResourceId

namespace Lockspace

/-- The multiplier of the golden ratio for words of 64 bits. -/
def goldenRatio : UInt64 := 0x61C8864680B583EB

/-- A word turned to the left by fewer bits than it has. -/
def rotateLeft (w : UInt64) (bits : UInt64) : UInt64 :=
  (w <<< bits) ||| (w >>> (64 - bits))

/-- The multiplicative hash of a word: the upper bits of its product with the golden ratio. -/
def hashLong (w : UInt64) (bits : Nat) : UInt64 :=
  if bits = 0 then 0 else (w * goldenRatio) >>> UInt64.ofNat (64 - min bits 64)

def bitMask (bits : Nat) : UInt64 :=
  if 64 ≤ bits then 0xffffffffffffffff else UInt64.ofNat ((1 <<< bits) - 1)

/-- The sum of the words of an id, masked. -/
def hashPlain (id : ResourceId) (mask : UInt64) : UInt64 :=
  (id.words.foldl (· + ·) 0) &&& mask

/-- Sequence, number and version of an object folded into 32 bits. -/
def flattenIdentity (id : ResourceId) : UInt32 :=
  let mixed := rotateLeft id.seq 24 ^^^ id.oid.toUInt64 ^^^ (id.ver.toUInt64 <<< 48)
  (mixed ^^^ (mixed >>> 32)).toUInt32

/-- A hash that sets the parts of one object apart: the identity of the object is mixed with the
hash of its part and with a salt of the table. -/
def hashByIdentity (id : ResourceId) (salt : UInt64) (bits : Nat) : UInt64 :=
  let mask := bitMask bits
  let flat := (flattenIdentity id).toUInt64
  let spread := flat + ((flat >>> 4) + (flat <<< 12))
  let hash := if id.subHash ≠ 0 then
      spread + (rotateLeft id.subHash 59 ^^^ rotateLeft id.subHash 11)
    else spread
  let val := if id.subHash ≠ 0 then id.subHash else id.oid.toUInt64
  let mixed := hashLong hash 32 - hashLong salt (val.toNat % 11 + 3)
  (hashLong (mixed ^^^ rotateLeft salt 17) bits ^^^ hashPlain id mask) &&& mask

/-- The hash of an id into so many bits. -/
def HashStrategy.hash (s : HashStrategy) (id : ResourceId) (salt : UInt64) (bits : Nat) : UInt64 :=
  match s with
  | .plain => hashPlain id (bitMask bits)
  | .identity => hashByIdentity id salt bits

end Lockspace
