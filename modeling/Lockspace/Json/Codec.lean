import Lockspace.Config.Preset
import Lockspace.Duration
import Lockspace.Extent
import Lockspace.Json.Record
import Lockspace.Mode

namespace Lockspace

namespace Json

def ofWord64 (w : UInt64) : Json :=
  natural w.toNat

def ofWord32 (w : UInt32) : Json :=
  natural w.toNat

end Json

/-- An id is written as the array of its four words. -/
def ResourceId.toJson (id : ResourceId) : Json :=
  .array (id.words.map Json.ofWord64)

def ResourceId.ofJson? (v : Json) : Option ResourceId :=
  (readList? readWord64? v).bind ResourceId.ofWords?

/-- What a record of two members has shown so far. -/
structure Halves (α β : Type) where
  first : Option α := none
  second : Option β := none

/-- The value of a record of two members once both are there. -/
def Halves.join {α β γ : Type} (make : α → β → γ) (h : Halves α β) : Option γ :=
  h.first.bind fun a => h.second.map (make a)

def Halves.members {α β : Type} (firstKey secondKey : String) (readFirst : Json → Option α)
    (readSecond : Json → Option β) : List (Member (Halves α β)) :=
  [⟨firstKey, fun v h => (readFirst v).map fun a => { h with first := some a }⟩,
    ⟨secondKey, fun v h => (readSecond v).map fun b => { h with second := some b }⟩]

def Extent.toJson (e : Extent) : Json :=
  .ofMembers [("start", .ofWord64 e.start), ("end", .ofWord64 e.stop)]

def Extent.ofJson? (v : Json) : Option Extent :=
  (readRecord false (Halves.members "start" "end" readWord64? readWord64?) {} v).bind
    (Halves.join Extent.mk)

/-- A description is a record of the kind and the id of a resource. -/
def ResourceDesc.toJson (d : ResourceDesc) : Json :=
  .ofMembers [("rtype", writeNamed d.rtype), ("id", d.id.toJson)]

def ResourceDesc.ofJson? (v : Json) : Option ResourceDesc :=
  (readRecord false (Halves.members "rtype" "id" readNamed? ResourceId.ofJson?) {} v).bind
    (Halves.join ResourceDesc.mk)

/-- A span of time is a record of seconds and nanoseconds. It has no other members. -/
def Duration.toJson (d : Duration) : Json :=
  .ofMembers [("secs", .natural d.secs), ("nanos", .natural d.subsecNanos)]

def Duration.ofJson? (v : Json) : Option Duration :=
  (readRecord true (Halves.members "secs" "nanos" readWord64? readWord32?) {} v).bind fun h =>
    h.first.bind fun secs => h.second.bind fun nanos =>
      Duration.ofParts? secs.toNat nanos.toNat

/-- What a written preset has shown so far. -/
structure PresetParts where
  type : Option NamespaceType := none
  bucketBits : Option UInt32 := none
  allBits : Option UInt32 := none
  strategy : Option HashStrategy := none

namespace HashPreset

/-- A preset is a record of the namespace type, both numbers of bits and the strategy. -/
def toJson (p : HashPreset) : Json :=
  .ofMembers [("ns_type", writeNamed p.type), ("bkt_bits", .ofWord32 p.bucketBits),
    ("all_bits", .ofWord32 p.allBits), ("strategy", writeNamed p.strategy)]

def members : List (Member PresetParts) :=
  [⟨"ns_type", fun v s => (readNamed? v).map fun a => { s with type := some a }⟩,
    ⟨"bkt_bits", fun v s => (readWord32? v).map fun a => { s with bucketBits := some a }⟩,
    ⟨"all_bits", fun v s => (readWord32? v).map fun a => { s with allBits := some a }⟩,
    ⟨"strategy", fun v s => (readNamed? v).map fun a => { s with strategy := some a }⟩]

def ofParts? (s : PresetParts) : Option HashPreset := do
  some ⟨← s.type, ← s.bucketBits, ← s.allBits, ← s.strategy⟩

def ofJson? (v : Json) : Option HashPreset :=
  (readRecord false members {} v).bind ofParts?

def listToJson (presets : List HashPreset) : Json :=
  .array (presets.map toJson)

def listOfJson? (v : Json) : Option (List HashPreset) :=
  readList? ofJson? v

end HashPreset

end Lockspace
