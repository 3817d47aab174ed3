import ThreatGraph.Post.Copy
import ThreatGraph.Proofs.NormalForm

/-!
# What a copy posts

`copied` says which text a model gives to each field.  The fields of a copy are the caller's over
these, without the id.  So the model's id, its dates, its owner, its reactions and the members that
no field is named after make no difference.
-/

namespace ThreatGraph
namespace Post

open Json (Value Members)
open Json.Members (get?_cons get?_insert get?_erase get?_sorted ordered_sorted)

/-- The text of a member that is kept as it came. -/
def keptText (source : Descriptor) (f : Field) : Option String :=
  (source.extra.get? f.name).bind render

/-- What a model gives to each field. -/
def copied (source : Descriptor) : Field → Option String
  | .descriptorId => none
  | .indicator => source.rawIndicator.or (keptText source .indicator)
  | .type => source.indicatorType
  | .shareLevel => source.shareLevel
  | .status => source.status
  | .privacyType => source.privacyType
  | .reviewStatus => source.reviewStatus
  | .severity => source.severity
  | .confidence => source.confidence.map toString
  | .description => some source.description
  | .tags => if source.tags = [] then none else some (String.intercalate "," source.tags)
  | .reactions => none
  | f => keptText source f

theorem printInt_eq (n : Int) : String.ofList (Json.printInt n) = toString n := by
  cases n with
  | ofNat n => rfl
  | negSucc n =>
    have hprint : Json.printInt (Int.negSucc n) = '-' :: Nat.toDigits 10 (n + 1) := by
      simp [Json.printInt, Text.minus, Int.negSucc_lt_zero]
    have hrepr : toString (Int.negSucc n) = "-" ++ Nat.repr (n + 1) := rfl
    rw [hprint, hrepr, Nat.repr]
    exact @String.ofList_append ['-'] _

theorem render_ofInt (n : Int) : render (.ofInt n) = some (toString n) := by
  rw [← printInt_eq]
  rfl

theorem bind_render_string (o : Option String) : (o.map Value.string).bind render = o := by
  cases o <;> rfl

theorem render_strings (texts : List String) :
    render (.array (texts.map .string)) = some (String.intercalate "," texts) := by
  have htexts : (texts.map Value.string).filterMap render = texts := by
    induction texts with
    | nil => rfl
    | cons s texts ih => simp [render, ih]
  simp only [render, renderItems_eq_filterMap, htexts]

theorem recognised_cons (name : String) (v : Value) (ms : Members Value) :
    recognised ((name, v) :: ms) =
      match Field.ofName? name, render v with
      | some f, some s => (f, s) :: recognised ms
      | _, _ => recognised ms := by
  unfold recognised
  rw [List.filterMap_cons]
  cases Field.ofName? name <;> cases render v <;> rfl

/-- Members of different names fill different fields, so no entry hides another. -/
theorem get?_foldl_recognised {ms : Members Value} (h : Members.Ordered ms) (fs : Fields)
    (f : Field) :
    ((recognised ms).foldl (fun fs e => fs.insert e.1 e.2) fs).get? f =
      ((ms.get? f.name).bind render).or (fs.get? f) := by
  induction ms generalizing fs with
  | nil => rfl
  | cons m ms ih =>
    obtain ⟨name, v⟩ := m
    obtain ⟨hlt, hms⟩ := Members.ordered_cons.1 h
    rw [recognised_cons, get?_cons]
    by_cases hname : name = f.name
    · have hrest : Members.get? f.name ms = none := hname ▸ Members.get?_of_lt hlt
      subst hname
      rw [Field.ofName?_name]
      cases hv : render v <;> simp [ih hms, hrest, hv]
    · have hother : ∀ g, Field.ofName? name = some g → f ≠ g := by
        rintro g hg rfl
        exact hname (Field.name_of_ofName? hg).symm
      rw [if_neg hname]
      cases hg : Field.ofName? name with
      | none => simp [ih hms]
      | some g => cases render v <;> simp [ih hms, hother g hg]

theorem get?_ofEntries_recognised {ms : Members Value} (h : Members.Ordered ms) (f : Field) :
    (Fields.ofEntries (recognised ms)).get? f = (ms.get? f.name).bind render := by
  rw [Fields.ofEntries, get?_foldl_recognised h, Fields.get?_empty, Option.or_none]

section Model

variable {source : Descriptor}

theorem ordered_postable (source : Descriptor) : Members.Ordered (postable source) := by
  have hordered := ordered_sorted source.members
  simp only [postable]
  generalize source.members.sorted = ms at hordered ⊢
  have hrenamed : ∀ indicator, Members.Ordered
      ((ms.erase "raw_indicator").insert Field.indicator.name indicator) :=
    fun indicator => (hordered.erase _).insert _ indicator
  cases ms.get? "raw_indicator" with
  | none =>
    dsimp only
    split
    · exact (hordered.erase _).erase _
    · exact (hordered.erase _).erase _
    · exact hordered.erase _
  | some indicator =>
    dsimp only
    split
    · exact ((hrenamed indicator).erase _).erase _
    · exact ((hrenamed indicator).erase _).erase _
    · exact (hrenamed indicator).erase _

/-- The indicator takes the place of a member of that name, and reactions and an empty list of tags
are gone. -/
theorem get?_postable (h : source.Normal) {name : String} (hname : name ≠ "raw_indicator") :
    (postable source).get? name =
      if name = "tags" ∧ source.tags = [] then none
      else if name = "reactions" then none
      else if name = "indicator" then
        (source.rawIndicator.map .string).or (source.members.get? name)
      else source.members.get? name := by
  obtain ⟨-, hindicator, -, -, -, -, -, -, -, -, -, -, htags, -⟩ := h.get?_members
  simp only [postable, get?_sorted, hindicator]
  generalize hms : source.members.sorted = ms
  have hget : ∀ n, ms.get? n = source.members.get? n := fun n => hms ▸ get?_sorted n _
  rw [← hget "tags"] at htags
  cases hsource : source.tags with
  | nil =>
    rw [hsource] at htags
    cases source.rawIndicator with
    | none => simp [get?_erase, htags, hget]
    | some s =>
      simp [get?_insert, get?_erase, htags, hget, hname, Field.name, @eq_comm _ "indicator"]
  | cons t tags =>
    rw [hsource] at htags
    cases source.rawIndicator with
    | none => simp [get?_erase, htags, hget]
    | some s =>
      simp [get?_insert, get?_erase, htags, hget, hname, Field.name, @eq_comm _ "indicator"]

theorem bind_render_postable (h : source.Normal) {f : Field} (hf : f ≠ .descriptorId) :
    ((postable source).get? f.name).bind render = copied source f := by
  have hname : f.name ≠ "raw_indicator" := by cases f <;> decide
  obtain ⟨-, -, htype, -, -, hconfidence, -, hprivacy, hreview, hstatus, hseverity, hshare, htags,
    hdescription, -, -⟩ := h.get?_members
  have hkept : ∀ g : Field, g.name ∉ Descriptor.fieldNames →
      source.members.get? g.name = source.extra.get? g.name :=
    fun g hg => Descriptor.get?_members_of_notMem hg
  rw [get?_postable h hname]
  cases f with
  | descriptorId => exact absurd rfl hf
  | indicator =>
    have hindicator := hkept .indicator (by decide)
    simp only [Field.name] at hindicator
    cases hraw : source.rawIndicator <;>
      simp [copied, keptText, Field.name, hraw, hindicator, render]
  | type => simp [copied, Field.name, htype, bind_render_string]
  | description => simp [copied, Field.name, hdescription, render]
  | shareLevel => simp [copied, Field.name, hshare, bind_render_string]
  | status => simp [copied, Field.name, hstatus, bind_render_string]
  | privacyType => simp [copied, Field.name, hprivacy, bind_render_string]
  | reviewStatus => simp [copied, Field.name, hreview, bind_render_string]
  | severity => simp [copied, Field.name, hseverity, bind_render_string]
  | confidence =>
    cases hn : source.confidence <;> simp [copied, Field.name, hconfidence, hn, render_ofInt]
  | tags =>
    by_cases hempty : source.tags = []
    · simp [copied, Field.name, hempty]
    · simp [copied, Field.name, hempty, htags, render_strings]
  | reactions => simp [copied, Field.name]
  | _ =>
    rw [hkept _ (by decide)]
    simp [copied, keptText, Field.name]

theorem get?_copyFields (h : source.Normal) (overrides : Fields) (f : Field) :
    (copyFields source overrides).get? f =
      if f = .descriptorId then none else (overrides.get? f).or (copied source f) := by
  unfold copyFields
  rw [Fields.get?_erase]
  by_cases hf : f = .descriptorId
  · simp only [hf, if_true]
  · rw [if_neg hf, if_neg hf, Fields.get?_extend, Fields.get?_erase, if_neg hf,
      get?_ofEntries_recognised (ordered_postable source), bind_render_postable h hf]

end Model

/-- Models that a copy does not tell apart. -/
structure SameModel (source source' : Descriptor) : Prop where
  rawIndicator : source.rawIndicator = source'.rawIndicator
  indicatorType : source.indicatorType = source'.indicatorType
  shareLevel : source.shareLevel = source'.shareLevel
  status : source.status = source'.status
  privacyType : source.privacyType = source'.privacyType
  reviewStatus : source.reviewStatus = source'.reviewStatus
  severity : source.severity = source'.severity
  confidence : source.confidence = source'.confidence
  description : source.description = source'.description
  tags : source.tags = source'.tags
  extra : ∀ f : Field, f ≠ .descriptorId → keptText source f = keptText source' f

theorem SameModel.copied_eq {source source' : Descriptor} (h : SameModel source source')
    (f : Field) : copied source f = copied source' f := by
  cases f with
  | indicator => simp only [copied, h.rawIndicator, h.extra .indicator (by decide)]
  | descriptorId => rfl
  | reactions => rfl
  | type => exact h.indicatorType
  | shareLevel => exact h.shareLevel
  | status => exact h.status
  | privacyType => exact h.privacyType
  | reviewStatus => exact h.reviewStatus
  | severity => exact h.severity
  | confidence => simp only [copied, h.confidence]
  | description => simp only [copied, h.description]
  | tags => simp only [copied, h.tags]
  | _ => exact h.extra _ (by decide)

/-- A copy posts the caller's fields over the model's, without the id.  Nothing else of the model
goes into it, nor does the id that the caller gave. -/
theorem copyFields_exact (raw : Value) (wanted : Bool) (source : Descriptor)
    (h : Descriptor.normalize raw wanted = .ok source) :
    (∀ overrides f, (copyFields source overrides).get? f =
      if f = .descriptorId then none else (overrides.get? f).or (copied source f)) ∧
    (∀ raw' wanted' source', Descriptor.normalize raw' wanted' = .ok source' →
      SameModel source source' → ∀ overrides overrides' : Fields,
      overrides.erase .descriptorId = overrides'.erase .descriptorId →
      copyFields source overrides = copyFields source' overrides') := by
  have hsource := Descriptor.normal_of_normalize h
  refine ⟨get?_copyFields hsource, ?_⟩
  intro raw' wanted' source' h' hsame overrides overrides' hoverrides
  have hsource' := Descriptor.normal_of_normalize h'
  ext1
  funext f
  rw [get?_copyFields hsource, get?_copyFields hsource', hsame.copied_eq f]
  by_cases hf : f = .descriptorId
  · rw [if_pos hf, if_pos hf]
  · have hgiven := congrArg (fun fs : Fields => fs.get? f) hoverrides
    simp only [Fields.get?_erase, hf, if_false] at hgiven
    rw [hgiven]

def model : Members Value :=
  [("id", .string "7"), ("raw_indicator", .string "evil.example.com"), ("confidence", .ofInt 50),
    ("owner", .object [("id", .string "42")]), ("reactions", .object [("42", .string "HELPFUL")]),
    ("precision", .null), ("indicator", .string "1"), ("first_active", .array [.ofInt 2020, .null]),
    ("kind", .bool true)]

def otherModel : Members Value :=
  [("id", .string "8"), ("raw_indicator", .string "evil.example.com"), ("confidence", .ofInt 50),
    ("added_on", .string "2020"), ("my_reactions", .array []), ("descriptor_id", .string "9"),
    ("indicator", .string "1"), ("first_active", .array [.ofInt 2020, .null])]

theorem copyFields_model : ∃ source source',
    Descriptor.normalize (.object model) true = .ok source ∧
    Descriptor.normalize (.object otherModel) true = .ok source' ∧
    (copyFields source Fields.empty).get? .indicator = some "evil.example.com" ∧
    (copyFields source Fields.empty).get? .confidence = some "50" ∧
    (copyFields source Fields.empty).get? .firstActive = some "2020" ∧
    (copyFields source Fields.empty).get? .reactions = none ∧
    copyFields source (Fields.empty.insert .descriptorId "7") =
      copyFields source' (Fields.empty.insert .descriptorId "8") := by
  have hread : ∀ ms d, Members.get? "id" ms ≠ none → Members.get? "tags" ms = none →
      Descriptor.decode (Descriptor.reshape ms.sorted [] true) = .ok d →
      Descriptor.normalize (.object ms) true = .ok d := by
    intro ms d hid htags hdecode
    have hempty : Descriptor.tagTexts (ms.get? "tags") = .ok [] := by
      rw [htags]
      exact congrArg Except.ok List.mergeSort_nil
    exact Descriptor.normalize_ok_iff.2 ⟨ms, [], rfl, hid, hempty, hdecode⟩
  have hmodel := hread model _ (by decide) (by decide) rfl
  have hother := hread otherModel _ (by decide) (by decide) rfl
  obtain ⟨hget, hindependent⟩ := copyFields_exact _ _ _ hmodel
  refine ⟨_, _, hmodel, hother, ?_, ?_, ?_, ?_, ?_⟩
  · rw [hget, if_neg (by decide)]
    rfl
  · rw [hget, if_neg (by decide)]
    decide +kernel
  · rw [hget, if_neg (by decide)]
    decide +kernel
  · rw [hget, if_neg (by decide)]
    rfl
  · refine hindependent _ _ _ hother ?_ _ _ ?_
    · have hextra : ∀ f ∈ Field.all, f ≠ .descriptorId →
          keptText (Descriptor.ofMembers "7" (Descriptor.reshape model.sorted [] true)) f =
          keptText (Descriptor.ofMembers "8" (Descriptor.reshape otherModel.sorted [] true)) f := by
        decide +kernel
      refine ⟨?_, ?_, ?_, ?_, ?_, ?_, ?_, ?_, ?_, ?_, fun f => hextra f (Field.mem_all f)⟩ <;>
        decide +kernel
    · ext1
      funext f
      by_cases hf : f = .descriptorId <;> simp [hf]

end Post
end ThreatGraph
