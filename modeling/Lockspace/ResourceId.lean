import Lockspace.Kinds
import Lockspace.Text.Numeral

namespace Lockspace

/-- The name of a resource: four words. The first holds the sequence of the object, the second
its number in the low half and its version in the high half, the last an optional hash of a part
of the object. -/
structure ResourceId where
  seq : UInt64
  object : UInt64
  extra : UInt64
  subHash : UInt64
deriving DecidableEq, Inhabited

namespace ResourceId

/-- The id of an object in a version. -/
def ofObject (seq : UInt64) (oid ver : UInt32) : ResourceId :=
  ⟨seq, oid.toUInt64 ||| (ver.toUInt64 <<< 32), 0, 0⟩

/-- The same object, with the hash of one of its parts. -/
def withSubHash (id : ResourceId) (hash : UInt64) : ResourceId :=
  { id with subHash := hash }

def oid (id : ResourceId) : UInt32 :=
  id.object.toUInt32

def ver (id : ResourceId) : UInt32 :=
  (id.object >>> 32).toUInt32

/-- The four words in order. -/
def words (id : ResourceId) : List UInt64 :=
  [id.seq, id.object, id.extra, id.subHash]

def ofWords? : List UInt64 → Option ResourceId
  | [a, b, c, d] => some ⟨a, b, c, d⟩
  | _ => none

/-- Ids in order of their words, the first word first. -/
def compare (a b : ResourceId) : Ordering :=
  (Ord.compare a.seq b.seq).then <| (Ord.compare a.object b.object).then <|
    (Ord.compare a.extra b.extra).then <| Ord.compare a.subHash b.subHash

/-- The text of an id: three words in brackets and the last after a point. -/
def text (id : ResourceId) : String :=
  "[" ++ hexText id.seq.toNat ++ ":" ++ hexText id.object.toNat ++ ":" ++ hexText id.extra.toNat ++
    "]." ++ hexText id.subHash.toNat

end ResourceId

/-- What peers are told about a resource. -/
structure ResourceDesc where
  rtype : ResourceType
  id : ResourceId
deriving DecidableEq, Inhabited

end Lockspace
