import ThreatGraph.Post.Fields

/-!
# Validation of a post

The checks before a post is sent.  They look at which fields are there and leave the values to the
server.
-/

namespace ThreatGraph
namespace Post

/-- What a post does: create a descriptor, edit one, or create one after the model of another. -/
inductive Kind where
  | submit
  | update
  | copy
  deriving DecidableEq, Inhabited, Repr

def Kind.name : Kind → String
  | .submit => "submit"
  | .update => "update"
  | .copy => "copy"

/-- What a submit has to have. -/
def submitRequired : List Field :=
  [.indicator, .type, .description, .shareLevel, .status, .privacyType]

inductive ValidationError where
  | descriptorIdForbidden
  | missingFields (fields : List Field)
  | descriptorIdRequired
  | indicatorImmutable
  | typeImmutable
  | sourceIdRequired
  | privacyTypeRequired
  | privacyMembersRequired
  deriving DecidableEq, Repr

def missingFieldsMessage (fields : List Field) : String :=
  (if fields.length = 1 then "Missing field " else "Missing fields ") ++
    String.intercalate "," (fields.map Field.name)

def ValidationError.message : ValidationError → String
  | .descriptorIdForbidden => "descriptor_id must not be specified for submit."
  | .missingFields fields => missingFieldsMessage fields
  | .descriptorIdRequired => "Descriptor ID must be specified for update."
  | .indicatorImmutable => "Indicator must not be specified for update."
  | .typeImmutable => "Type must not be specified for update."
  | .sourceIdRequired => "Source-descriptor ID must be specified for copy."
  | .privacyTypeRequired => "Privacy type must be specified for copy."
  | .privacyMembersRequired => "Privacy members must be specified for copy."

/-- The first error of a post, or nothing if it may be sent. -/
def validate (kind : Kind) (fs : Fields) : Option ValidationError :=
  match kind with
  | .submit =>
    if fs.contains .descriptorId then some .descriptorIdForbidden
    else
      match submitRequired.filter fun f => !fs.contains f with
      | [] => none
      | missing => some (.missingFields missing)
  | .update =>
    if !fs.contains .descriptorId then some .descriptorIdRequired
    else if fs.contains .indicator then some .indicatorImmutable
    else if fs.contains .type then some .typeImmutable
    else none
  | .copy =>
    if !fs.contains .descriptorId then some .sourceIdRequired
    else if !fs.contains .privacyType then some .privacyTypeRequired
    else if !fs.contains .privacyMembers then some .privacyMembersRequired
    else none

end Post
end ThreatGraph
