import ThreatGraph.Descriptor.Basic

/-!
# Tags and tagged objects

What the graph answers when a tag is looked up, and the entries of a tag's listing.
-/

namespace ThreatGraph

open Json (Value Mismatch RecordShape)

/-- The `type` of those tagged objects that are threat descriptors. -/
def descriptorType : String := "THREAT_DESCRIPTOR"

/-- An entry of a tag's listing.  The name is the indicator. -/
structure TaggedObject where
  id : String
  objectType : String
  name : Option String
  deriving DecidableEq, Inhabited, Repr

namespace TaggedObject

def shape : RecordShape := ⟨"TaggedObject", ["id", "type", "name"], ["id", "type"]⟩

def decode (v : Value) : Except Mismatch TaggedObject := do
  let ms ← shape.members v
  let id ← shape.require v ms "id"
  let objectType ← shape.require v ms "type"
  return { id, objectType, name := Json.textAt? "name" ms }

def toJson (o : TaggedObject) : Value :=
  .object ([("id", .string o.id), ("type", .string o.objectType)] ++
    memberOf "name" .string o.name)

def line (o : TaggedObject) : String := o.toJson.text

def isDescriptor (o : TaggedObject) : Bool := o.objectType == descriptorType

end TaggedObject

/-- A tag as its lookup returns it. -/
structure TagRef where
  id : String
  text : String
  deriving DecidableEq, Inhabited, Repr

namespace TagRef

def shape : RecordShape := ⟨"TagRef", ["id", "text"], ["id", "text"]⟩

def decode (v : Value) : Except Mismatch TagRef := do
  let ms ← shape.members v
  let id ← shape.require v ms "id"
  let text ← shape.require v ms "text"
  return { id, text }

def toJson (t : TagRef) : Value := .object [("id", .string t.id), ("text", .string t.text)]

def line (t : TagRef) : String := t.toJson.text

end TagRef
end ThreatGraph
