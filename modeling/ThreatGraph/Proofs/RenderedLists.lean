import ThreatGraph.Post.Render
import ThreatGraph.Proofs.EncodedText

/-!
# Lists in post fields

A list is sent as the texts of its leaves with commas between them, however deep they are nested.
If no list in it is without items and no leaf has a comma in its text, then nothing but the nesting
is lost: at its commas the text comes apart into the texts of the leaves.
-/

namespace ThreatGraph

namespace Text

theorem toList_intercalate_comma (texts : List String) :
    (String.intercalate "," texts).toList = join ',' (texts.map String.toList) := by
  have hjoin (parts : List (List Char)) : List.intercalate [','] parts = join ',' parts := by
    induction parts with
    | nil => rfl
    | cons part parts ih =>
      cases parts with
      | nil => simp [join]
      | cons next rest => simp [join, ← ih, List.intercalate_cons_cons]
  rw [String.toList_intercalate, ← hjoin]
  rfl

end Text

namespace Post

open Json (Value)
open Text (join split)

mutual

/-- What stands in a value, at any depth of lists, that is neither `null` nor a list, from left to
right. -/
def leaves : Value → List Value
  | .null => []
  | .array items => leavesOf items
  | v => [v]

def leavesOf : List Value → List Value
  | [] => []
  | v :: rest => leaves v ++ leavesOf rest

end

/-- Every list, at any depth of lists, has an item that is not `null`. -/
inductive Filled : Value → Prop
  | list {items : List Value} (hitem : ∃ v ∈ items, v ≠ .null) (hitems : ∀ v ∈ items, Filled v) :
    Filled (.array items)
  | leaf {v : Value} (h : ∀ items, v ≠ .array items) : Filled v

theorem leavesOf_eq_flatMap (items : List Value) : leavesOf items = items.flatMap leaves := by
  induction items with
  | nil => rfl
  | cons v rest ih => rw [leavesOf, ih, List.flatMap_cons]

theorem leaves_of_leaf {v : Value} (hnull : v ≠ .null) (harray : ∀ items, v ≠ .array items) :
    leaves v = [v] := by
  cases v with
  | null => exact absurd rfl hnull
  | array items => exact absurd rfl (harray items)
  | _ => rfl

mutual

theorem ne_null_of_mem_leaves : ∀ {v leaf : Value}, leaf ∈ leaves v → leaf ≠ .null
  | .null, _, h => by cases h
  | .array items, _, h => ne_null_of_mem_leavesOf h
  | .bool _, _, h | .number _, _, h | .string _, _, h | .object _, _, h => by
    rw [List.mem_singleton.1 h]
    simp

theorem ne_null_of_mem_leavesOf : ∀ {items : List Value} {leaf : Value},
    leaf ∈ leavesOf items → leaf ≠ .null
  | [], _, h => by cases h
  | _ :: _, _, h => (List.mem_append.1 h).elim ne_null_of_mem_leaves ne_null_of_mem_leavesOf

end

/-- The parts between the commas of the text of a value; none if it has no text. -/
def parts (v : Value) : List (List Char) :=
  (render v).elim [] fun text => split (· == ',') text.toList

theorem parts_of_free {v : Value} {text : String} (h : render v = some text)
    (hfree : ',' ∉ text.toList) : parts v = [text.toList] := by
  rw [parts, h]
  refine Text.split_of_free fun c hc => ?_
  simp only [beq_eq_false_iff_ne]
  rintro rfl
  exact hfree hc

theorem parts_array {items : List Value} (h : ∃ v ∈ items, v ≠ .null) :
    parts (.array items) = items.flatMap parts := by
  have hne : (items.filterMap render).map String.toList ≠ [] := by
    obtain ⟨v, hv, hnull⟩ := h
    obtain ⟨text, htext⟩ := Option.ne_none_iff_exists'.1 (mt (render_eq_none_iff v).1 hnull)
    exact List.ne_nil_of_mem (List.mem_map_of_mem (List.mem_filterMap.2 ⟨v, hv, htext⟩))
  have hparts (items : List Value) :
      (items.filterMap render).flatMap (fun text => split (· == ',') text.toList) =
        items.flatMap parts := by
    induction items with
    | nil => rfl
    | cons v rest ih =>
      rw [List.flatMap_cons, ← ih, parts]
      cases hv : render v with
      | none => simp [hv]
      | some text => simp [hv]
  rw [parts, render, renderItems_eq_filterMap, Option.elim_some, Text.toList_intercalate_comma,
    Text.split_join_eq_flatMap (by decide) hne, List.flatMap_map, hparts]

theorem parts_eq {v : Value} (h : Filled v) : parts v = (leaves v).flatMap parts := by
  induction h with
  | @list items hitem _ ih =>
    rw [parts_array hitem, leaves, leavesOf_eq_flatMap, List.flatMap_assoc]
    exact List.flatMap_congr ih
  | @leaf v harray =>
    by_cases hnull : v = .null
    · subst hnull
      rfl
    · rw [leaves_of_leaf hnull harray, List.flatMap_singleton]

/-- No leaf of a value has a comma in its text. -/
def CommaFree (v : Value) : Prop :=
  ∀ leaf ∈ leaves v, ∀ text, render leaf = some text → ',' ∉ text.toList

/-- The text of a list comes apart at its commas into the texts of its leaves, in their order, and
only `null` has no text. -/
theorem rendered_lists_split :
    (∀ items, Filled (.array items) → CommaFree (.array items) →
      ∃ text, render (.array items) = some text ∧
        (split (· == ',') text.toList).map (fun part => some (String.ofList part)) =
          (leaves (.array items)).map render) ∧
    ∀ v, render v = none ↔ v = .null := by
  refine ⟨fun items hfilled hfree => ⟨_, by rw [render], ?_⟩, render_eq_none_iff⟩
  have hsplit : split (· == ',') (String.intercalate "," (renderItems items)).toList =
      parts (.array items) := by rw [parts, render, Option.elim_some]
  have hleaf : ∀ leaf ∈ leaves (.array items),
      (parts leaf).map (fun part => some (String.ofList part)) = [render leaf] := by
    intro leaf hmem
    have hnull := mt (render_eq_none_iff leaf).1 (ne_null_of_mem_leaves hmem)
    obtain ⟨text, htext⟩ := Option.ne_none_iff_exists'.1 hnull
    rw [parts_of_free htext (hfree leaf hmem text htext), htext, List.map_singleton,
      String.ofList_toList]
  rw [hsplit, parts_eq hfilled, List.map_flatMap, List.flatMap_congr hleaf]
  exact List.flatMap_pure_eq_map render _

def nestedItems : List Value :=
  [.string "a", .null, .array [.string "", .array [.bool true]], .string "b"]

theorem nested_items_split : ∃ text, render (.array nestedItems) = some text ∧
    (split (· == ',') text.toList).map (fun part => some (String.ofList part)) =
      [some "a", some "", some "true", some "b"] := by
  have hfilled : Filled (.array nestedItems) := by
    have hleaf {v : Value} (h : ∀ items, v ≠ .array items) : Filled v := .leaf h
    have hinner : Filled (.array [.bool true]) :=
      .list ⟨.bool true, by simp, by simp⟩ (by simp [hleaf])
    have houter : Filled (.array [.string "", .array [.bool true]]) :=
      .list ⟨.string "", by simp, by simp⟩ (by simp [hleaf, hinner])
    exact .list ⟨.string "a", by simp [nestedItems], by simp⟩ (by simp [nestedItems, hleaf, houter])
  have hfree : CommaFree (.array nestedItems) := by
    simp [CommaFree, nestedItems, leaves, leavesOf, render]
  exact rendered_lists_split.1 nestedItems hfilled hfree

end Post
end ThreatGraph
