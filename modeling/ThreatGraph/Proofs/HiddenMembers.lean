import ThreatGraph.Client.Lookup
import ThreatGraph.Proofs.Grammar
import ThreatGraph.Proofs.Lockstep

/-!
# Members that are left out

Where the indicator is not wanted, nothing that is read of a descriptor depends on it, nor what is
read of a tagged object on its name: values that differ in these members only are read into the
same, or fail in the same way.
-/

namespace ThreatGraph

open Json (Value Members Mismatch RecordShape firstMismatch textAt?)
open Json.Members (get?_erase get?_insert get?_sorted ordered_sorted)

/-- Values that are the same but for one member, which either of them may lack. -/
inductive SameBut (name : String) : Value → Value → Prop
  | same (v : Value) : SameBut name v v
  | member {ms ms' : Members Value} (h : ms.erase name = ms'.erase name) :
    SameBut name (.object ms) (.object ms')

/-- Descriptors that differ in the indicator. -/
abbrev DescriptorTwins : Value → Value → Prop := SameBut "raw_indicator"

def NamedByText (ms : Members Value) : Prop :=
  ∀ v, ("name", v) ∈ ms → v = .null ∨ ∃ s, v = .string s

/-- Tagged objects that differ in the name. -/
inductive TaggedTwins : Value → Value → Prop
  | same (v : Value) : TaggedTwins v v
  | named {ms ms' : Members Value} (h : ms.erase "name" = ms'.erase "name")
    (hname : NamedByText ms) (hname' : NamedByText ms') :
    TaggedTwins (.object ms) (.object ms')

theorem get?_of_erase {name n : String} {ms ms' : Members Value}
    (h : ms.erase name = ms'.erase name) (hn : n ≠ name) : ms.get? n = ms'.get? n := by
  have hget := congrArg (Members.get? n) h
  rwa [get?_erase, get?_erase, if_neg hn, if_neg hn] at hget

namespace Descriptor

theorem reshape_hidden {ms ms' : Members Value}
    (h : ∀ name, name ≠ "raw_indicator" → ms.get? name = ms'.get? name) (tags : List String) :
    reshape ms.sorted tags false = reshape ms'.sorted tags false := by
  have hordered := ordered_reshape (ordered_sorted ms) tags false
  have hordered' := ordered_reshape (ordered_sorted ms') tags false
  refine hordered.ext hordered' fun name => ?_
  by_cases hindicator : name = "raw_indicator"
  · rw [hindicator, get?_indicator_reshape_false, get?_indicator_reshape_false]
  · have hagree := h name hindicator
    by_cases htags : name = "tags"
    · rw [htags, get?_tags_reshape, get?_tags_reshape]
    · by_cases hdescription : name = "description"
      · subst hdescription
        rcases get?_description_reshape ms tags false with ⟨habsent, hd⟩ | ⟨v, hv, hms, hd⟩ <;>
          rcases get?_description_reshape ms' tags false with ⟨habsent', hd'⟩ | ⟨v', hv', hms', hd'⟩
        · rw [hd, hd']
        · rcases habsent with habsent | habsent <;> simp_all
        · rcases habsent' with habsent' | habsent' <;> simp_all
        · rw [hd, hd', ← hms, ← hms', hagree]
      · have hshown : name = "raw_indicator" → false = true := fun h => absurd h hindicator
        rw [get?_reshape_of_ne htags hdescription hshown,
          get?_reshape_of_ne htags hdescription hshown, hagree]

theorem normalize_hidden {ms ms' : Members Value}
    (h : ∀ name, name ≠ "raw_indicator" → ms.get? name = ms'.get? name) :
    normalize (.object ms) false = normalize (.object ms') false := by
  simp only [normalize, get?_sorted]
  rw [h "id" (by decide), h "tags" (by decide)]
  cases ms'.get? "id" with
  | none => rfl
  | some id =>
    cases tagTexts (ms'.get? "tags") with
    | error e => rfl
    | ok tags => simp only [reshape_hidden h tags]

end Descriptor

theorem normalize_withId {id : String} {raw raw' : Value} (h : DescriptorTwins raw raw') :
    Descriptor.normalize (withId id raw) false = Descriptor.normalize (withId id raw') false := by
  cases h with
  | same => rfl
  | @member ms ms' h =>
    have hagree : ∀ name, name ≠ "raw_indicator" → ms.get? name = ms'.get? name :=
      fun name hname => get?_of_erase h hname
    unfold withId
    dsimp only
    rw [hagree "id" (by decide)]
    by_cases hid : (ms'.get? "id").isSome = true
    · rw [if_pos hid, if_pos hid]
      exact Descriptor.normalize_hidden hagree
    · rw [if_neg hid, if_neg hid]
      refine Descriptor.normalize_hidden fun name hname => ?_
      rw [get?_insert, get?_insert, hagree name hname]

theorem normalize_twins {raw raw' : Value} (h : DescriptorTwins raw raw') :
    Descriptor.normalize raw false = Descriptor.normalize raw' false := by
  cases h with
  | same => rfl
  | member h => exact Descriptor.normalize_hidden fun name hname => get?_of_erase h hname

theorem firstMismatch_erase {check : String → Value → Option Mismatch} {name : String}
    {ms : Members Value} (h : ∀ v, (name, v) ∈ ms → check name v = none) :
    firstMismatch check (ms.erase name) = firstMismatch check ms := by
  unfold firstMismatch Members.erase
  induction ms with
  | nil => rfl
  | cons m ms ih =>
    obtain ⟨n, v⟩ := m
    have hrest := ih fun w hw => h w (List.mem_cons_of_mem _ hw)
    by_cases hn : n = name
    · subst hn
      rw [List.filter_cons_of_neg (by simp), List.findSome?_cons, h v List.mem_cons_self, hrest]
    · rw [List.filter_cons_of_pos (by simp [hn]), List.findSome?_cons, List.findSome?_cons, hrest]

theorem firstMismatch_eq {check : String → Value → Option Mismatch} {name : String}
    {ms ms' : Members Value} (h : ms.erase name = ms'.erase name)
    (hms : ∀ v, (name, v) ∈ ms → check name v = none)
    (hms' : ∀ v, (name, v) ∈ ms' → check name v = none) :
    firstMismatch check ms = firstMismatch check ms' := by
  rw [← firstMismatch_erase hms, ← firstMismatch_erase hms', h]

theorem require_eq (r : RecordShape) {name n : String} {ms ms' : Members Value}
    (h : ms.erase name = ms'.erase name) (hn : n ≠ name) :
    r.require (.object ms) ms n = r.require (.object ms') ms' n := by
  have htext : textAt? n ms = textAt? n ms' := by
    rw [textAt?, textAt?, get?_of_erase h hn]
  unfold RecordShape.require
  rw [htext]
  cases textAt? n ms' <;> rfl

theorem TaggedObject.decode_twins {ms ms' : Members Value}
    (h : ms.erase "name" = ms'.erase "name") (hname : NamedByText ms) (hname' : NamedByText ms')
    {opts : QueryOptions} (hopts : opts.includeIndicator = false) :
    (TaggedObject.decode (.object ms)).map (stripName opts) =
      (TaggedObject.decode (.object ms')).map (stripName opts) := by
  have hpasses : ∀ ms : Members Value, NamedByText ms →
      ∀ v, ("name", v) ∈ ms → shape.check "name" v = none := by
    intro ms hname v hv
    rcases hname v hv with rfl | ⟨s, rfl⟩ <;> rfl
  have hcheck := firstMismatch_eq h (hpasses ms hname) (hpasses ms' hname')
  have hid := require_eq shape h (show "id" ≠ "name" by decide)
  have htype := require_eq shape h (show "type" ≠ "name" by decide)
  simp only [TaggedObject.decode, RecordShape.members, hcheck]
  cases firstMismatch shape.check ms' with
  | some e => rfl
  | none =>
    simp only [bind, Except.bind, hid, htype]
    cases shape.require (.object ms') ms' "id" with
    | error e => rfl
    | ok id =>
      cases shape.require (.object ms') ms' "type" with
      | error e => rfl
      | ok objectType => simp [Except.map, stripName, hopts, pure, Except.pure]

theorem alikeTagged_of_twins {opts : QueryOptions} (hopts : opts.includeIndicator = false)
    {item item' : Value} (h : TaggedTwins item item') : AlikeTagged opts item item' := by
  cases h with
  | same => exact ⟨rfl, fun _ => rfl⟩
  | named h hname hname' =>
    refine ⟨?_, fun _ => TaggedObject.decode_twins h hname hname' hopts⟩
    have htype := get?_of_erase h (show "type" ≠ "name" by decide)
    simp only [claimsDescriptor, Value.get?, htype]

theorem TagRef.decode_twins {name : String} (hname : name ∉ ["id", "text"]) {v v' : Value}
    (h : SameBut name v v') : TagRef.decode v = TagRef.decode v' := by
  cases h with
  | same => rfl
  | @member ms ms' h =>
    have hpasses : ∀ v, shape.check name v = none := by
      intro v
      have hshape : shape.check name v = if name ∈ ["id", "text"] then
        Json.mismatch? (Json.readText v) else if name ∈ ["id", "text"] then
        Json.mismatch? (Json.readOptional Json.readText v) else none := rfl
      rw [hshape, if_neg hname, if_neg hname]
    have hcheck := firstMismatch_eq h (fun v _ => hpasses v) fun v _ => hpasses v
    simp only [List.mem_cons, List.not_mem_nil, or_false, not_or] at hname
    have hid := require_eq shape h (Ne.symm hname.1)
    have htext := require_eq shape h (Ne.symm hname.2)
    simp only [TagRef.decode, RecordShape.members, hcheck]
    cases firstMismatch shape.check ms' with
    | some e => rfl
    | none => simp only [bind, Except.bind, hid, htext]

theorem TaggedTwins.sameBut {v v' : Value} (h : TaggedTwins v v') : SameBut "name" v v' := by
  cases h with
  | same => exact .same v
  | named h _ _ => exact .member h

end ThreatGraph
