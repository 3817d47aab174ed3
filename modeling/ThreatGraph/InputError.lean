import ThreatGraph.Json.Decode

/-!
# Errors of the input

What can be wrong with a descriptor, an id, or the fields of a post.
-/

namespace ThreatGraph

open Json (Value Mismatch)

/-- Why a value is no descriptor, before its fields are looked at. -/
inductive Malformation where
  | notObject (found : Value)
  | missingId
  | tagDataNotList (found : Value)
  | unexpectedTags (found : Value)
  | tagWithoutText
  | unexpectedTag (found : Value)
  deriving DecidableEq, Repr

def Malformation.message : Malformation → String
  | .notObject found => "expected a JSON object, got " ++ found.text
  | .missingId => "missing id"
  | .tagDataNotList found => "tags.data is not a list: " ++ found.text
  | .unexpectedTags found => "unexpected tags value: " ++ found.text
  | .tagWithoutText => "tag without text"
  | .unexpectedTag found => "unexpected tag entry: " ++ found.text

inductive InputError where
  | malformedDescriptorId (id : String)
  | malformedDescriptor (reason : Malformation)
  | unknownField (name : String)
  | malformedAssignment (text : String)
  | mismatch (m : Mismatch)
  deriving DecidableEq, Repr

def InputError.message : InputError → String
  | .malformedDescriptorId id => "Malformed descriptor ID \"" ++ id ++ "\""
  | .malformedDescriptor reason => "malformed descriptor: " ++ reason.message
  | .unknownField name => "unknown post parameter: " ++ Text.quote name
  | .malformedAssignment text => "expected NAME=VALUE, got " ++ Text.quote text
  | .mismatch m => "serialization error: " ++ m.message

end ThreatGraph
