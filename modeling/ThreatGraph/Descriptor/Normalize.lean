import ThreatGraph.Descriptor.Basic
import ThreatGraph.InputError

/-!
# Normal descriptors

The graph sends descriptors in a loose shape: tags wrapped in an envelope, a description that may be
`null`, and an indicator that is sometimes unwanted.  `normalize` brings one into its typed form.
-/

namespace ThreatGraph
namespace Descriptor

open Json (Value Members)

/-- The text of one entry of a tag list: the entry itself, or its `text`. -/
def tagText : Value → Except Malformation String
  | .string s => .ok s
  | .object tag =>
    match Members.get? "text" tag with
    | some (.string s) => .ok s
    | _ => .error .tagWithoutText
  | v => .error (.unexpectedTag v)

/-- The entries of a tag collection, out of its envelope. -/
def tagEntries : Option Value → Except Malformation (List Value)
  | none => .ok []
  | some .null => .ok []
  | some (.object envelope) =>
    match Members.get? "data" envelope with
    | some (.array items) => .ok items
    | none => .ok []
    | some .null => .ok []
    | some v => .error (.tagDataNotList v)
  | some (.array items) => .ok items
  | some v => .error (.unexpectedTags v)

def sortTexts (texts : List String) : List String := texts.mergeSort fun a b => decide (a ≤ b)

def tagTexts (tags : Option Value) : Except Malformation (List String) := do
  let items ← tagEntries tags
  let texts ← items.mapM tagText
  return sortTexts texts

/-- The members in the shape that `decode` reads: flat sorted tags, a description that is no `null`,
and no indicator unless it is wanted. -/
def reshape (ms : Members Value) (tags : List String) (includeIndicator : Bool) :
    Members Value :=
  let ms := ms.insert "tags" (.array (tags.map .string))
  let ms := match ms.get? "description" with
    | none => ms.insert "description" (.string "")
    | some .null => ms.insert "description" (.string "")
    | some _ => ms
  if includeIndicator then ms else ms.erase "raw_indicator"

def normalize (raw : Value) (includeIndicator : Bool) : Except InputError Descriptor :=
  match raw with
  | .object members =>
    let ms := Members.sorted members
    match ms.get? "id" with
    | none => .error (.malformedDescriptor .missingId)
    | some _ =>
      match tagTexts (ms.get? "tags") with
      | .error e => .error (.malformedDescriptor e)
      | .ok tags =>
        match decode (reshape ms tags includeIndicator) with
        | .error e => .error (.mismatch e)
        | .ok d => .ok d
  | v => .error (.malformedDescriptor (.notObject v))

end Descriptor
end ThreatGraph
