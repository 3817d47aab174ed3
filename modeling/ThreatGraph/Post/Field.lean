/-!
# Post fields

The fields that the write endpoints of the graph accept, in the order in which a request lists
them, and their names: those on the wire stand in a table, those in JSON are spelled from the
identifiers of the fields.
-/

namespace ThreatGraph
namespace Post

inductive Field where
  | indicator
  | type
  | descriptorId
  | description
  | shareLevel
  | status
  | privacyType
  | privacyMembers
  | tags
  | addTags
  | removeTags
  | confidence
  | precision
  | reviewStatus
  | severity
  | expiredOn
  | firstActive
  | lastActive
  | relatedIdsForUpload
  | relatedTriplesForUploadAsJson
  | reactions
  | reactionsToRemove
  deriving DecidableEq, Inhabited, Repr

namespace Field

def all : List Field :=
  [.indicator, .type, .descriptorId, .description, .shareLevel, .status, .privacyType,
   .privacyMembers, .tags, .addTags, .removeTags, .confidence, .precision, .reviewStatus,
   .severity, .expiredOn, .firstActive, .lastActive, .relatedIdsForUpload,
   .relatedTriplesForUploadAsJson, .reactions, .reactionsToRemove]

def name : Field → String
  | .indicator => "indicator"
  | .type => "type"
  | .descriptorId => "descriptor_id"
  | .description => "description"
  | .shareLevel => "share_level"
  | .status => "status"
  | .privacyType => "privacy_type"
  | .privacyMembers => "privacy_members"
  | .tags => "tags"
  | .addTags => "add_tags"
  | .removeTags => "remove_tags"
  | .confidence => "confidence"
  | .precision => "precision"
  | .reviewStatus => "review_status"
  | .severity => "severity"
  | .expiredOn => "expired_on"
  | .firstActive => "first_active"
  | .lastActive => "last_active"
  | .relatedIdsForUpload => "related_ids_for_upload"
  | .relatedTriplesForUploadAsJson => "related_triples_for_upload_as_json"
  | .reactions => "reactions"
  | .reactionsToRemove => "reactions_to_remove"

def ofName? (s : String) : Option Field := all.find? fun f => f.name == s

/-- The words of a field, capitalised. -/
def identifier : Field → String
  | .indicator => "Indicator"
  | .type => "Type"
  | .descriptorId => "DescriptorId"
  | .description => "Description"
  | .shareLevel => "ShareLevel"
  | .status => "Status"
  | .privacyType => "PrivacyType"
  | .privacyMembers => "PrivacyMembers"
  | .tags => "Tags"
  | .addTags => "AddTags"
  | .removeTags => "RemoveTags"
  | .confidence => "Confidence"
  | .precision => "Precision"
  | .reviewStatus => "ReviewStatus"
  | .severity => "Severity"
  | .expiredOn => "ExpiredOn"
  | .firstActive => "FirstActive"
  | .lastActive => "LastActive"
  | .relatedIdsForUpload => "RelatedIdsForUpload"
  | .relatedTriplesForUploadAsJson => "RelatedTriplesForUploadAsJson"
  | .reactions => "Reactions"
  | .reactionsToRemove => "ReactionsToRemove"

/-- Capitalised words in lower case, with an underscore between any two. -/
def snakeCase : List Char → List Char
  | [] => []
  | c :: cs => c.toLower :: cs.flatMap fun c => if c.isUpper then ['_', c.toLower] else [c]

def jsonName (f : Field) : String := String.ofList (snakeCase f.identifier.toList)

def ofJsonName? (s : String) : Option Field := all.find? fun f => f.jsonName == s

def index (f : Field) : Nat := all.idxOf f

theorem mem_all (f : Field) : f ∈ all := by cases f <;> decide

theorem nodup_all : all.Nodup := by decide

theorem name_chars (f : Field) : ∀ c ∈ f.name.toList, 95 ≤ c.toNat ∧ c.toNat ≤ 122 := by
  have h : (f.name.toList.all fun c => 95 ≤ c.toNat && c.toNat ≤ 122) = true := by cases f <;> rfl
  simpa using h

@[simp] theorem jsonName_eq (f : Field) : f.jsonName = f.name := by cases f <;> decide

@[simp] theorem ofJsonName?_eq (s : String) : ofJsonName? s = ofName? s := by
  simp [ofJsonName?, ofName?]

@[simp] theorem ofName?_name (f : Field) : ofName? f.name = some f := by cases f <;> decide

theorem name_of_ofName? {s : String} {f : Field} (h : ofName? s = some f) : f.name = s := by
  simpa using List.find?_some h

theorem name_injective {f g : Field} (h : f.name = g.name) : f = g := by
  have := ofName?_name f
  rw [h, ofName?_name] at this
  exact (Option.some.inj this).symm

end Field
end Post
end ThreatGraph
