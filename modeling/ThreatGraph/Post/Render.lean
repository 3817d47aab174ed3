import ThreatGraph.Json.Print

/-!
# Values of post fields

The text in which the write endpoints expect a value: a string as it is, a scalar as it prints, the
items of a list with commas between them, and an object as JSON text.  `null` has no text.
-/

namespace ThreatGraph
namespace Post

open Json (Value)

mutual

def render : Value → Option String
  | .null => none
  | .string s => some s
  | .bool true => some "true"
  | .bool false => some "false"
  | .number n => some (String.ofList n.print)
  | .array items => some (String.intercalate "," (renderItems items))
  | .object members => some (Value.object members).text

def renderItems : List Value → List String
  | [] => []
  | v :: rest => (render v).toList ++ renderItems rest

end

theorem renderItems_eq_filterMap (items : List Value) :
    renderItems items = items.filterMap render := by
  induction items with
  | nil => rfl
  | cons v rest ih => cases h : render v <;> simp [renderItems, h, ih]

theorem render_eq_none_iff (v : Value) : render v = none ↔ v = .null := by
  cases v with
  | bool b => cases b <;> simp [render]
  | _ => simp [render]

end Post
end ThreatGraph
