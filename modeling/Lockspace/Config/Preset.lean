import Lockspace.Hash

namespace Lockspace

/-- The sizes of the resource table of one namespace type. -/
structure HashPreset where
  type : NamespaceType
  bucketBits : UInt32
  allBits : UInt32
  strategy : HashStrategy
deriving DecidableEq, Inhabited

namespace HashPreset

/-- The bits that select a bucket: those of the whole hash beyond those inside a bucket. -/
def shardBits (p : HashPreset) : Nat :=
  p.allBits.toNat - p.bucketBits.toNat

def shardCount (p : HashPreset) : Nat :=
  1 <<< p.shardBits

/-- Whether the bits inside a bucket fit the whole hash, which has at most thirty. -/
def isSound (p : HashPreset) : Bool :=
  p.bucketBits ≤ p.allBits && p.allBits ≤ 30

def defaults : List HashPreset :=
  [⟨.mdc, 11, 16, .identity⟩, ⟨.mdt, 14, 21, .identity⟩, ⟨.osc, 8, 12, .plain⟩,
    ⟨.ost, 11, 17, .plain⟩, ⟨.mgc, 4, 4, .plain⟩, ⟨.mgt, 4, 4, .plain⟩]

/-- The first preset of a namespace type. -/
def find? (presets : List HashPreset) (type : NamespaceType) : Option HashPreset :=
  List.find? (fun p => p.type == type) presets

end HashPreset

end Lockspace
