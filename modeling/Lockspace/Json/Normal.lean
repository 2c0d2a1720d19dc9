import Lockspace.Json.Codec
import Lockspace.Json.Printer
import Lockspace.Json.Reader

namespace Lockspace

/-- The types of values that peers and tools exchange as documents. -/
inductive DocumentType where
  | resourceId
  | resourceType
  | side
  | appetite
  | namespaceType
  | lockMode
  | extent
  | resourceDesc
  | dumpLevel
  | hashStrategy
  | hashPreset
  | hashPresets

instance : Named DocumentType where
  all := [.resourceId, .resourceType, .side, .appetite, .namespaceType, .lockMode, .extent,
    .resourceDesc, .dumpLevel, .hashStrategy, .hashPreset, .hashPresets]
  name
    | .resourceId => "ResourceId"
    | .resourceType => "ResourceType"
    | .side => "Side"
    | .appetite => "Appetite"
    | .namespaceType => "NamespaceType"
    | .lockMode => "LockMode"
    | .extent => "Extent"
    | .resourceDesc => "ResourceDesc"
    | .dumpLevel => "DumpLevel"
    | .hashStrategy => "HashStrategy"
    | .hashPreset => "HashPreset"
    | .hashPresets => "HashPresets"

namespace DocumentType

def renameAs (α : Type) [Named α] (v : Json) : Option Json :=
  (readNamed? v : Option α).map writeNamed

/-- The one way in which the library writes the value that a document spells. -/
def normal? (v : Json) : DocumentType → Option Json
  | resourceId => (ResourceId.ofJson? v).map ResourceId.toJson
  | resourceType => renameAs ResourceType v
  | side => renameAs Side v
  | appetite => renameAs Appetite v
  | namespaceType => renameAs NamespaceType v
  | lockMode => renameAs LockMode v
  | extent => (Extent.ofJson? v).map Extent.toJson
  | resourceDesc => (ResourceDesc.ofJson? v).map ResourceDesc.toJson
  | dumpLevel => renameAs Level v
  | hashStrategy => renameAs HashStrategy v
  | hashPreset => (HashPreset.ofJson? v).map HashPreset.toJson
  | hashPresets => (HashPreset.listOfJson? v).map HashPreset.listToJson

/-- The compact text of the value that a text spells. -/
def normalText? (type : DocumentType) (text : String) : Option String :=
  ((Json.read? text).bind type.normal?).map Json.render

end DocumentType

end Lockspace
