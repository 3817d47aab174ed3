import ThreatGraph.Json.Decode

/-!
# Threat descriptors

The typed form of a descriptor, its JSON form, and reading one from the other.  Members that the
type has no field for are kept in `extra`.
-/

namespace ThreatGraph

open Json (Value Members Mismatch RecordShape)

/-- The app that owns a descriptor. -/
structure Owner where
  id : String
  name : Option String
  email : Option String
  deriving DecidableEq, Inhabited, Repr

namespace Owner

def shape : RecordShape := ⟨"Owner", ["id", "name", "email"], ["id"]⟩

def decode (v : Value) : Except Mismatch Owner := do
  let ms ← shape.members v
  let id ← shape.require v ms "id"
  return { id, name := Json.textAt? "name" ms, email := Json.textAt? "email" ms }

end Owner

structure Descriptor where
  id : String
  rawIndicator : Option String
  indicatorType : Option String
  addedOn : Option String
  lastUpdated : Option String
  confidence : Option Int
  owner : Option Owner
  privacyType : Option String
  reviewStatus : Option String
  status : Option String
  severity : Option String
  shareLevel : Option String
  tags : List String
  description : String
  reactions : Option Value
  myReactions : Option Value
  extra : Members Value
  deriving DecidableEq, Inhabited, Repr

def memberOf {α : Type} (name : String) (write : α → Value) : Option α → Members Value
  | some a => [(name, write a)]
  | none => []

def Owner.toJson (o : Owner) : Value :=
  .object ([("id", .string o.id)] ++ memberOf "name" .string o.name ++
    memberOf "email" .string o.email)

namespace Descriptor

/-- The members with a field of their own, in the order in which they are written. -/
def fieldNames : List String :=
  ["id", "raw_indicator", "type", "added_on", "last_updated", "confidence", "owner",
   "privacy_type", "review_status", "status", "severity", "share_level", "tags", "description",
   "reactions", "my_reactions"]

def textFields : List String :=
  ["raw_indicator", "type", "added_on", "last_updated", "privacy_type", "review_status", "status",
   "severity", "share_level"]

def members (d : Descriptor) : Members Value :=
  [("id", .string d.id)] ++
    memberOf "raw_indicator" .string d.rawIndicator ++
    memberOf "type" .string d.indicatorType ++
    memberOf "added_on" .string d.addedOn ++
    memberOf "last_updated" .string d.lastUpdated ++
    memberOf "confidence" .ofInt d.confidence ++
    memberOf "owner" Owner.toJson d.owner ++
    memberOf "privacy_type" .string d.privacyType ++
    memberOf "review_status" .string d.reviewStatus ++
    memberOf "status" .string d.status ++
    memberOf "severity" .string d.severity ++
    memberOf "share_level" .string d.shareLevel ++
    [("tags", .array (d.tags.map .string)), ("description", .string d.description)] ++
    memberOf "reactions" (fun v => v) d.reactions ++
    memberOf "my_reactions" (fun v => v) d.myReactions ++
    d.extra

def toJson (d : Descriptor) : Value := .object d.members.sorted

def line (d : Descriptor) : String := (Value.object d.members).text

def check (name : String) (v : Value) : Option Mismatch :=
  if name = "id" ∨ name = "description" then Json.mismatch? (Json.readText v)
  else if name ∈ textFields then Json.mismatch? (Json.readOptional Json.readText v)
  else if name = "confidence" then Json.mismatch? (Json.readOptional Json.readInt64 v)
  else if name = "owner" then Json.mismatch? (Json.readOptional Owner.decode v)
  else if name = "tags" then Json.mismatch? (Json.readSequence Json.readText v)
  else none

/-- The value at `name` as `read` sees it, nothing if it is not there. -/
def readAt {α : Type} (read : Value → Except Mismatch α) (name : String) (ms : Members Value) :
    Option α :=
  match (ms.get? name).map read with
  | some (.ok a) => some a
  | _ => none

/-- A member that is there and not `null`. -/
def valueAt (name : String) (ms : Members Value) : Option Value :=
  match ms.get? name with
  | some .null => none
  | v => v

/-- The fields that members fill, once they are known to be well formed. -/
def ofMembers (id : String) (ms : Members Value) : Descriptor :=
  { id
    rawIndicator := Json.textAt? "raw_indicator" ms
    indicatorType := Json.textAt? "type" ms
    addedOn := Json.textAt? "added_on" ms
    lastUpdated := Json.textAt? "last_updated" ms
    confidence := readAt Json.readInt64 "confidence" ms
    owner := readAt Owner.decode "owner" ms
    privacyType := Json.textAt? "privacy_type" ms
    reviewStatus := Json.textAt? "review_status" ms
    status := Json.textAt? "status" ms
    severity := Json.textAt? "severity" ms
    shareLevel := Json.textAt? "share_level" ms
    tags := (readAt (Json.readSequence Json.readText) "tags" ms).getD []
    description := (Json.textAt? "description" ms).getD ""
    reactions := valueAt "reactions" ms
    myReactions := valueAt "my_reactions" ms
    extra := ms.filter fun m => m.1 ∉ fieldNames }

/-- Reads the members of an object.  Only `id` has to be there. -/
def decode (ms : Members Value) : Except Mismatch Descriptor :=
  match Json.firstMismatch check ms with
  | some e => .error e
  | none =>
    match Json.textAt? "id" ms with
    | none => .error (.missingField "id")
    | some id => .ok (ofMembers id ms)

end Descriptor
end ThreatGraph
