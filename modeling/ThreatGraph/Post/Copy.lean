import ThreatGraph.Descriptor.Basic
import ThreatGraph.Post.Fields

/-!
# Copies

The fields of a submit that takes an existing descriptor for its model.  What the graph answers on
reading differs from what it accepts on writing, so the model is reshaped before the caller's fields
are laid over it.
-/

namespace ThreatGraph
namespace Post

open Json (Value Members)

/-- The members of a descriptor as a post names them: the indicator under its write name, and
neither reactions nor an empty tag list. -/
def postable (source : Descriptor) : Members Value :=
  let ms := source.members.sorted
  let ms := match ms.get? "raw_indicator" with
    | some indicator => (ms.erase "raw_indicator").insert Field.indicator.name indicator
    | none => ms
  let ms := ms.erase "reactions"
  match ms.get? "tags" with
  | some .null => ms.erase "tags"
  | some (.array []) => ms.erase "tags"
  | _ => ms

/-- The members that are post fields and have a text. -/
def recognised (ms : Members Value) : List (Field × String) :=
  ms.filterMap fun m =>
    match Field.ofName? m.1, render m.2 with
    | some f, some s => some (f, s)
    | _, _ => none

/-- The model's fields under the caller's.  The id names the model and never goes into the new
descriptor. -/
def copyFields (source : Descriptor) (overrides : Fields) : Fields :=
  ((Fields.ofEntries (recognised (postable source))).extend
    (overrides.erase .descriptorId)).erase .descriptorId

end Post
end ThreatGraph
