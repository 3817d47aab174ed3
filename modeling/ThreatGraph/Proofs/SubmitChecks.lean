import ThreatGraph.Post.Validation
import ThreatGraph.Proofs.RenderedLists

/-!
# The check of a submit

A submit without a descriptor id is refused for the required fields that it lacks, and for nothing
else.  Whatever is put in afterwards, the fields that are still lacking are the ones that the error
named and that were not put in, so the submit passes as soon as none is left.  The message names
just these fields.  What a check says depends on which fields are there and not on their values, and
what passes as a submit passes as no other post.
-/

namespace ThreatGraph
namespace Post

namespace Fields

def insertAll (fs : Fields) (es : List (Field × String)) : Fields :=
  es.foldl (fun fs e => fs.insert e.1 e.2) fs

@[simp] theorem contains_insert (fs : Fields) (f g : Field) (v : String) :
    (fs.insert f v).contains g = (decide (g = f) || fs.contains g) := by
  by_cases h : g = f <;> simp [contains, h]

theorem contains_insertAll (fs : Fields) (es : List (Field × String)) (f : Field) :
    (fs.insertAll es).contains f = (decide (f ∈ es.map (·.1)) || fs.contains f) := by
  induction es generalizing fs with
  | nil => rfl
  | cons e es ih =>
    rw [insertAll, List.foldl_cons]
    refine (ih (fs.insert e.1 e.2)).trans ?_
    simp only [contains_insert, List.map_cons, List.mem_cons, Bool.decide_or]
    rw [Bool.or_left_comm, Bool.or_assoc]

end Fields

/-- The required fields that are not there, in the order in which they are required. -/
def lacking (fs : Fields) : List Field := submitRequired.filter fun f => !fs.contains f

theorem mem_lacking {fs : Fields} {f : Field} :
    f ∈ lacking fs ↔ f ∈ submitRequired ∧ fs.contains f = false := by
  rw [lacking, List.mem_filter, Bool.not_eq_true']

theorem lacking_insertAll (fs : Fields) (es : List (Field × String)) :
    lacking (fs.insertAll es) = (lacking fs).filter fun f => decide (f ∉ es.map (·.1)) := by
  rw [lacking, lacking, List.filter_filter]
  refine List.filter_congr fun f _ => ?_
  rw [Fields.contains_insertAll, Bool.not_or, decide_not]

theorem validate_submit {fs : Fields} (h : fs.contains .descriptorId = false) :
    validate .submit fs =
      if lacking fs = [] then none else some (.missingFields (lacking fs)) := by
  simp only [validate, h, Bool.false_eq_true, if_false]
  rw [← lacking]
  cases lacking fs <;> simp

theorem validate_submit_eq_some_iff {fs : Fields} (h : fs.contains .descriptorId = false)
    {m : List Field} : validate .submit fs = some (.missingFields m) ↔ m = lacking fs ∧ m ≠ [] := by
  rw [validate_submit h]
  by_cases hnil : lacking fs = []
  · rw [if_pos hnil]
    simp only [reduceCtorEq, false_iff, not_and, not_not]
    exact fun hm => hm.trans hnil
  · rw [if_neg hnil]
    simp only [Option.some.injEq, ValidationError.missingFields.injEq]
    exact ⟨fun hm => ⟨hm.symm, hm ▸ hnil⟩, fun hm => hm.1.symm⟩

theorem name_ne_comma (f : Field) : ∀ c ∈ f.name.toList, (c == ',') = false := by
  intro c hc
  rw [beq_eq_false_iff_ne]
  rintro rfl
  simpa using f.name_chars _ hc

theorem split_names {m : List Field} (h : m ≠ []) :
    (Text.split (· == ',') (String.intercalate "," (m.map Field.name)).toList).map String.ofList =
      m.map Field.name := by
  have hparts : ∀ part ∈ (m.map Field.name).map String.toList, ∀ c ∈ part, (c == ',') = false := by
    simp only [List.mem_map, forall_exists_index, and_imp, forall_apply_eq_imp_iff₂]
    exact fun f _ => name_ne_comma f
  rw [Text.toList_intercalate_comma, Text.split_join (by decide) (by simpa using h) hparts,
    List.map_map]
  simp [Function.comp_def]

/-- The message is a wording for one field or for several, and their names between commas. -/
def Names (m : List Field) (message : String) : Prop :=
  ∃ wording names : String, message = wording ++ names ∧
    (wording = "Missing field " ↔ m.length = 1) ∧ (wording = "Missing fields " ↔ m.length ≠ 1) ∧
    (Text.split (· == ',') names.toList).map String.ofList = m.map Field.name

theorem names_message {m : List Field} (h : m ≠ []) :
    Names m (ValidationError.missingFields m).message := by
  refine ⟨_, _, rfl, ?_, ?_, split_names h⟩ <;> by_cases hone : m.length = 1 <;> simp [hone]

/-- A submit that is refused for lacking the fields `m`. -/
structure Lacks (fs : Fields) (m : List Field) : Prop where
  sublist : m.Sublist submitRequired
  mem_iff : ∀ f, f ∈ m ↔ f ∈ submitRequired ∧ fs.contains f = false
  message : Names m (ValidationError.missingFields m).message
  /-- It passes once they are all put in, with any values and together with any other fields. -/
  repaired : ∀ es : List (Field × String), .descriptorId ∉ es.map (·.1) →
    (∀ f ∈ m, f ∈ es.map (·.1)) → validate .submit (fs.insertAll es) = none
  /-- Until then it is refused for those that are left, in the same order. -/
  remaining : ∀ es : List (Field × String), .descriptorId ∉ es.map (·.1) →
    (∃ f ∈ m, f ∉ es.map (·.1)) → validate .submit (fs.insertAll es) =
      some (.missingFields (m.filter fun f => decide (f ∉ es.map (·.1))))

theorem contains_descriptorId_insertAll {fs : Fields} (h : fs.contains .descriptorId = false)
    {es : List (Field × String)} (hes : .descriptorId ∉ es.map (·.1)) :
    (fs.insertAll es).contains .descriptorId = false := by
  rw [Fields.contains_insertAll, h, decide_eq_false hes]
  rfl

theorem lacks_lacking {fs : Fields} (h : fs.contains .descriptorId = false)
    (hne : lacking fs ≠ []) : Lacks fs (lacking fs) where
  sublist := List.filter_sublist
  mem_iff f := mem_lacking
  message := names_message hne
  repaired es hes hall := by
    rw [validate_submit (contains_descriptorId_insertAll h hes), if_pos]
    rw [lacking_insertAll, List.filter_eq_nil_iff]
    intro f hf
    simpa using hall f hf
  remaining es hes hleft := by
    obtain ⟨f, hf, hnot⟩ := hleft
    refine (validate_submit_eq_some_iff (contains_descriptorId_insertAll h hes)).2
      ⟨(lacking_insertAll fs es).symm, ?_⟩
    exact List.ne_nil_of_mem (List.mem_filter.2 ⟨hf, decide_eq_true hnot⟩)

theorem validate_congr (kind : Kind) {fs gs : Fields} (h : ∀ f, fs.contains f = gs.contains f) :
    validate kind fs = validate kind gs := by
  cases kind <;> simp only [validate, h]

theorem contains_descriptorId_of_validate {kind : Kind} {fs : Fields}
    (h : validate kind fs = none) : fs.contains .descriptorId = decide (kind ≠ .submit) := by
  cases hid : fs.contains .descriptorId <;> cases kind <;> simp_all [validate]

/-- A submit without a descriptor id passes or lacks required fields; what it lacks is what has to
be put in.  The verdict on any post depends on which fields it has, and no post is both a submit and
something else. -/
theorem submit_lacks_what_is_missing :
    (∀ fs : Fields, fs.contains .descriptorId = false →
      (validate .submit fs = none ∨
        ∃ m, m ≠ [] ∧ validate .submit fs = some (.missingFields m)) ∧
      ∀ m, validate .submit fs = some (.missingFields m) → Lacks fs m) ∧
    (∀ (kind : Kind) (fs gs : Fields), (∀ f, fs.contains f = gs.contains f) →
      validate kind fs = validate kind gs) ∧
    ∀ fs : Fields, validate .submit fs = none →
      validate .update fs ≠ none ∧ validate .copy fs ≠ none := by
  refine ⟨fun fs h => ⟨?_, fun m hm => ?_⟩, fun kind _ _ h => validate_congr kind h, ?_⟩
  · rw [validate_submit h]
    by_cases hnil : lacking fs = []
    · exact .inl (if_pos hnil)
    · exact .inr ⟨_, hnil, if_neg hnil⟩
  · obtain ⟨rfl, hne⟩ := (validate_submit_eq_some_iff h).1 hm
    exact lacks_lacking h hne
  · intro fs hsubmit
    have hid := contains_descriptorId_of_validate hsubmit
    constructor <;> intro hother <;>
      simp [contains_descriptorId_of_validate hother] at hid

def twoGiven : Fields := (Fields.empty.insert .indicator "x").insert .status "UNKNOWN"

/-- It lacks four fields, and still two of them when the other two are put in. -/
theorem twoGiven_lacks :
    Lacks twoGiven [.type, .description, .shareLevel, .privacyType] ∧
    validate .submit (twoGiven.insertAll
        [(.privacyType, "VISIBLE"), (.tags, "a,b"), (.description, "d")]) =
      some (.missingFields [.type, .shareLevel]) ∧
    validate .submit (twoGiven.insertAll [(.type, "DOMAIN"), (.shareLevel, "AMBER"),
      (.privacyType, "VISIBLE"), (.description, "d")]) = none ∧
    validate .update (twoGiven.insert .descriptorId "1") =
      validate .update (twoGiven.insert .descriptorId "") ∧
    validate .copy (twoGiven.insertAll [(.type, "DOMAIN"), (.shareLevel, "AMBER"),
      (.privacyType, "VISIBLE"), (.description, "d")]) ≠ none := by
  have hlacks := (submit_lacks_what_is_missing.1 twoGiven rfl).2 _ rfl
  have hpasses := hlacks.repaired [(.type, "DOMAIN"), (.shareLevel, "AMBER"),
    (.privacyType, "VISIBLE"), (.description, "d")] (by decide) (by decide)
  refine ⟨hlacks, hlacks.remaining _ (by decide) (by decide), hpasses, ?_,
    (submit_lacks_what_is_missing.2.2 _ hpasses).2⟩
  refine submit_lacks_what_is_missing.2.1 .update _ _ fun f => ?_
  rw [Fields.contains_insert, Fields.contains_insert]

end Post
end ThreatGraph
