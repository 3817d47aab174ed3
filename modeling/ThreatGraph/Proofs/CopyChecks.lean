import ThreatGraph.Post.Validation
import ThreatGraph.Proofs.CopiedFields

/-!
# The second check of a copy

The fields of a copy are checked like those of a submit before they are posted.  A copy always has a
description, which every model has, and a privacy type, which its caller had to give.  So the check
can only miss the other four fields, each of them when neither the caller nor the model gives it.
-/

namespace ThreatGraph
namespace Post

open Json (Value Members)

/-- What a copy may lack. -/
def copyNeeds : List Field := [.indicator, .type, .shareLevel, .status]

/-- The fields of `copyNeeds` that a model has. -/
inductive Supplies (source : Descriptor) : Field → Prop
  | rawIndicator {s : String} (h : source.rawIndicator = some s) : Supplies source .indicator
  /-- An indicator among the members that the graph does not document. -/
  | indicator {v : Value} (h : Members.get? "indicator" source.extra = some v) (hv : v ≠ .null) :
    Supplies source .indicator
  | type {s : String} (h : source.indicatorType = some s) : Supplies source .type
  | shareLevel {s : String} (h : source.shareLevel = some s) : Supplies source .shareLevel
  | status {s : String} (h : source.status = some s) : Supplies source .status

/-- A field that the caller of a copy gives, or the model. -/
def Given (source : Descriptor) (overrides : Fields) (f : Field) : Prop :=
  overrides.contains f = true ∨ Supplies source f

theorem isSome_keptText (source : Descriptor) (f : Field) :
    (keptText source f).isSome = true ↔
      ∃ v, Members.get? f.name source.extra = some v ∧ v ≠ .null := by
  unfold keptText
  cases Members.get? f.name source.extra with
  | none => simp
  | some v => simp [Option.isSome_iff_ne_none, render_eq_none_iff]

theorem supplies_iff {source : Descriptor} {f : Field} (h : f ∈ copyNeeds) :
    Supplies source f ↔ (copied source f).isSome = true := by
  simp only [copyNeeds, List.mem_cons, List.not_mem_nil, or_false] at h
  rcases h with rfl | rfl | rfl | rfl
  · -- Only the indicator can come from two places.
    rw [copied, Option.isSome_or, Bool.or_eq_true, isSome_keptText]
    constructor
    · intro hsupplies
      cases hsupplies with
      | rawIndicator h => exact .inl (Option.isSome_of_eq_some h)
      | indicator h hv => exact .inr ⟨_, h, hv⟩
    · rintro (h | ⟨v, h, hv⟩)
      · exact .rawIndicator (Option.eq_some_of_isSome h)
      · exact .indicator h hv
  · refine ⟨fun hsupplies => ?_, fun h => .type (Option.eq_some_of_isSome h)⟩
    cases hsupplies with
    | type h => exact Option.isSome_of_eq_some h
  · refine ⟨fun hsupplies => ?_, fun h => .shareLevel (Option.eq_some_of_isSome h)⟩
    cases hsupplies with
    | shareLevel h => exact Option.isSome_of_eq_some h
  · refine ⟨fun hsupplies => ?_, fun h => .status (Option.eq_some_of_isSome h)⟩
    cases hsupplies with
    | status h => exact Option.isSome_of_eq_some h

section Checked

variable {source : Descriptor} {overrides : Fields}

theorem contains_copyFields (h : source.Normal) (overrides : Fields) {f : Field}
    (hf : f ≠ .descriptorId) : (copyFields source overrides).contains f =
      (overrides.contains f || (copied source f).isSome) := by
  rw [Fields.contains, get?_copyFields h, if_neg hf, Option.isSome_or, Fields.contains]

theorem not_contains_copyFields_iff (h : source.Normal) (overrides : Fields) {f : Field}
    (hf : f ∈ copyNeeds) : (copyFields source overrides).contains f = false ↔
      ¬ Given source overrides f := by
  have hid : f ≠ .descriptorId := by
    rintro rfl
    exact absurd hf (by decide)
  rw [contains_copyFields h overrides hid, Given, supplies_iff hf, ← Bool.or_eq_true,
    Bool.not_eq_true]

/-- Of what a submit has to have, a copy lacks nothing but what is in `copyNeeds`. -/
theorem filter_submitRequired (h : source.Normal) (hcopy : validate .copy overrides = none) :
    submitRequired.filter (fun f => !(copyFields source overrides).contains f) =
      copyNeeds.filter fun f => !(copyFields source overrides).contains f := by
  have hprivacy : overrides.contains .privacyType = true := by
    cases hcontains : overrides.contains .privacyType with
    | true => rfl
    | false =>
      simp only [validate, hcontains] at hcopy
      split at hcopy <;> cases hcopy
  have hdescription : (copyFields source overrides).contains .description = true := by
    simp [contains_copyFields h, copied]
  have hprivacy : (copyFields source overrides).contains .privacyType = true := by
    simp [contains_copyFields h, hprivacy]
  simp [submitRequired, copyNeeds, List.filter_cons, hdescription, hprivacy]

/-- A copy that its caller may make is refused for the fields that neither the caller nor the model
gives, and for nothing else. -/
theorem copy_lacks_what_nobody_gives (raw : Value) (wanted : Bool) (source : Descriptor)
    (h : Descriptor.normalize raw wanted = .ok source) (overrides : Fields)
    (hcopy : validate .copy overrides = none) :
    (validate .submit (copyFields source overrides) = none ↔
      ∀ f ∈ copyNeeds, Given source overrides f) ∧
    ∀ e, validate .submit (copyFields source overrides) = some e →
      ∃ missing, e = .missingFields missing ∧ missing ≠ [] ∧ missing.Sublist copyNeeds ∧
        ∀ f, f ∈ missing ↔ f ∈ copyNeeds ∧ ¬ Given source overrides f := by
  have hsource := Descriptor.normal_of_normalize h
  have hid : (copyFields source overrides).contains .descriptorId = false := by
    rw [Fields.contains, get?_copyFields hsource, if_pos rfl]
    rfl
  have hmem : ∀ f, f ∈ copyNeeds.filter (fun f => !(copyFields source overrides).contains f) ↔
      f ∈ copyNeeds ∧ ¬ Given source overrides f := by
    intro f
    rw [List.mem_filter]
    refine and_congr_right fun hf => ?_
    rw [Bool.not_eq_true', not_contains_copyFields_iff hsource overrides hf]
  have hsublist := List.filter_sublist (p := fun f => !(copyFields source overrides).contains f)
    (l := copyNeeds)
  simp only [validate, hid, Bool.false_eq_true, if_false, filter_submitRequired hsource hcopy]
  generalize copyNeeds.filter (fun f => !(copyFields source overrides).contains f) = missing at *
  cases missing with
  | nil =>
    refine ⟨?_, by simp⟩
    simp only [true_iff]
    intro f hf
    exact Classical.not_not.1 fun hnot => List.not_mem_nil ((hmem f).2 ⟨hf, hnot⟩)
  | cons f rest =>
    constructor
    · simp only [reduceCtorEq, false_iff]
      intro hall
      obtain ⟨hf, hnot⟩ := (hmem f).1 List.mem_cons_self
      exact hnot (hall f hf)
    · intro e he
      exact ⟨_, (Option.some.inj he).symm, List.cons_ne_nil _ _, hsublist, hmem⟩

end Checked

/-- A model with a status, an indicator that the graph does not document, and neither a type nor a
share level. -/
def sparseModel : Members Value :=
  [("id", .string "7"), ("type", .null), ("status", .string "MALICIOUS"),
    ("indicator", .string "evil.example.com")]

def leastOverrides : Fields :=
  ((Fields.empty.insert .descriptorId "7").insert .privacyType "VISIBLE").insert .privacyMembers "1"

/-- A copy of it lacks the type, but not the indicator. -/
theorem copy_of_sparseModel : ∃ source,
    Descriptor.normalize (.object sparseModel) true = .ok source ∧
    validate .copy leastOverrides = none ∧
    validate .submit (copyFields source leastOverrides) ≠ none ∧
    ∀ missing, validate .submit (copyFields source leastOverrides) = some (.missingFields missing) →
      Field.type ∈ missing ∧ Field.shareLevel ∈ missing ∧ Field.indicator ∉ missing := by
  have htags : Descriptor.tagTexts (sparseModel.get? "tags") = .ok [] :=
    congrArg Except.ok List.mergeSort_nil
  have hread : Descriptor.normalize (.object sparseModel) true =
      .ok (Descriptor.ofMembers "7" (Descriptor.reshape sparseModel.sorted [] true)) :=
    Descriptor.normalize_ok_iff.2 ⟨sparseModel, [], rfl, by decide, htags, rfl⟩
  generalize hsource : Descriptor.ofMembers "7" (Descriptor.reshape sparseModel.sorted [] true) =
    source at hread
  have hindicator : Given source leastOverrides .indicator :=
    .inr (.indicator (v := .string "evil.example.com") (hsource ▸ rfl) (by simp))
  have htype : ¬ Given source leastOverrides .type := by
    rintro (h | h)
    · cases h
    · have hnone : source.indicatorType = none := hsource ▸ rfl
      cases h with
      | type h => cases hnone.symm.trans h
  have hshare : ¬ Given source leastOverrides .shareLevel := by
    rintro (h | h)
    · cases h
    · have hnone : source.shareLevel = none := hsource ▸ rfl
      cases h with
      | shareLevel h => cases hnone.symm.trans h
  have hcopy : validate .copy leastOverrides = none := rfl
  obtain ⟨hok_iff, herror⟩ := copy_lacks_what_nobody_gives _ _ _ hread _ hcopy
  refine ⟨source, hread, hcopy, fun hok => htype (hok_iff.1 hok _ (by decide)), ?_⟩
  intro missing hmissing
  obtain ⟨missing', heq, -, -, hmem⟩ := herror _ hmissing
  obtain rfl := ValidationError.missingFields.inj heq
  exact ⟨(hmem _).2 ⟨by decide, htype⟩, (hmem _).2 ⟨by decide, hshare⟩,
    fun h => ((hmem _).1 h).2 hindicator⟩

end Post
end ThreatGraph
