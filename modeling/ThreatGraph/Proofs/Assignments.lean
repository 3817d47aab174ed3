import Mathlib.Data.List.TakeWhile
import ThreatGraph.Proofs.FieldEdits
import ThreatGraph.Proofs.Lines

/-!
# Assignments of fields

An assignment on the command line is the name of a field, perhaps with white space around it, an
equals sign, and whatever stands behind it.  Every text is read as this grammar says.  Some
assignments together give each field the value of its last one, and the first text that is none
decides the error.
-/

namespace ThreatGraph

namespace Text

structure IsTrimmed (cs : List Char) : Prop where
  head : ∀ c ∈ cs.head?, isBlank c = false
  last : ∀ c ∈ cs.getLast?, isBlank c = false

theorem dropWhile_isBlank {cs : List Char} (h : ∀ c ∈ cs.head?, isBlank c = false) :
    cs.dropWhile isBlank = cs := by
  cases cs with
  | nil => rfl
  | cons c cs => simp [h c rfl]

theorem trim_of_isTrimmed {cs : List Char} (h : IsTrimmed cs) : trim cs = cs := by
  have hlast : ∀ c ∈ cs.reverse.head?, isBlank c = false := by
    rw [List.head?_reverse]
    exact h.last
  rw [trim, trimStart, trimEnd, dropWhile_isBlank h.head, dropWhile_isBlank hlast,
    List.reverse_reverse]

theorem trim_append_blank {after : List Char} (h : ∀ c ∈ after, isBlank c = true)
    (cs : List Char) : trim (cs ++ after) = trim cs := by
  induction after generalizing cs with
  | nil => rw [List.append_nil]
  | cons c after ih =>
    obtain ⟨hc, hafter⟩ := List.forall_mem_cons.1 h
    rw [List.append_cons, ih hafter, trim_snoc hc]

theorem trim_surrounded {before core after : List Char} (hbefore : ∀ c ∈ before, isBlank c = true)
    (hafter : ∀ c ∈ after, isBlank c = true) (hcore : IsTrimmed core) :
    trim (before ++ core ++ after) = core := by
  rw [trim_append_blank hafter, trim, trimStart, List.dropWhile_append_of_pos hbefore]
  exact trim_of_isTrimmed hcore

theorem isTrimmed_trim (cs : List Char) : IsTrimmed (trim cs) := by
  have hnot (l : List Char) : ∀ c ∈ (l.dropWhile isBlank).head?, isBlank c = false := by
    intro c hc
    have h := List.head?_dropWhile_not isBlank l
    rw [Option.mem_def.1 hc] at h
    simpa using h
  have hlast : ∀ c ∈ (trim cs).getLast?, isBlank c = false := by
    rw [trim, trimEnd, List.getLast?_reverse]
    exact hnot _
  refine ⟨fun c hc => ?_, hlast⟩
  -- What is left of the end of a text starts where the text starts.
  have hsuffix : (trimStart cs).reverse.dropWhile isBlank <:+ (trimStart cs).reverse :=
    List.dropWhile_suffix _
  obtain ⟨rest, hrest⟩ := List.reverse_prefix.2 hsuffix
  rw [List.reverse_reverse] at hrest
  refine hnot cs c ?_
  rw [trim, trimEnd] at hc
  change c ∈ (trimStart cs).head?
  rw [← hrest, List.head?_append, Option.mem_def.1 hc]
  rfl

theorem exists_surrounded (cs : List Char) : ∃ before after, (∀ c ∈ before, isBlank c = true) ∧
    (∀ c ∈ after, isBlank c = true) ∧ cs = before ++ trim cs ++ after := by
  have hblank (l : List Char) : ∀ c ∈ l.takeWhile isBlank, isBlank c = true :=
    fun c hc => List.mem_takeWhile_imp hc
  refine ⟨cs.takeWhile isBlank, ((trimStart cs).reverse.takeWhile isBlank).reverse, hblank cs,
    fun c hc => hblank _ c (List.mem_reverse.1 hc), ?_⟩
  rw [List.append_assoc, trim, trimEnd, ← List.reverse_append, List.takeWhile_append_dropWhile,
    List.reverse_reverse, trimStart, List.takeWhile_append_dropWhile]

end Text

namespace Post

open Fields (readAssignment readAssignments readName readName_ok_iff ofName?_eq_none_iff)
open Text (IsTrimmed isBlank)

/-- White space, the name of the field, white space, an equals sign, and the value as it is. -/
def IsAssignment (text : String) (f : Field) (v : String) : Prop :=
  ∃ before after : List Char, (∀ c ∈ before, isBlank c = true) ∧ (∀ c ∈ after, isBlank c = true) ∧
    text.toList = before ++ f.name.toList ++ after ++ '=' :: v.toList

/-- What a text is read as. -/
inductive ReadsAs (text : String) : Except InputError (Field × String) → Prop
  | assignment {f : Field} {v : String} (h : IsAssignment text f v) : ReadsAs text (.ok (f, v))
  | malformed (h : '=' ∉ text.toList) : ReadsAs text (.error (.malformedAssignment text))
  /-- What stands before the first equals sign, without the white space around it, is no name. -/
  | unknown {before name after value : List Char} (hbefore : ∀ c ∈ before, isBlank c = true)
    (hafter : ∀ c ∈ after, isBlank c = true) (hname : IsTrimmed name) (hfree : '=' ∉ name)
    (htext : text.toList = before ++ name ++ after ++ '=' :: value)
    (hunknown : ∀ f : Field, f.name.toList ≠ name) :
    ReadsAs text (.error (.unknownField (String.ofList name)))

theorem not_isBlank_name (f : Field) : ∀ c ∈ f.name.toList, isBlank c = false := by
  intro c hc
  obtain ⟨hlow, hhigh⟩ := f.name_chars c hc
  simp only [isBlank, Bool.or_eq_false_iff, Bool.and_eq_false_iff, decide_eq_false_iff_not,
    beq_eq_false_iff_ne]
  omega

theorem isTrimmed_name (f : Field) : IsTrimmed f.name.toList :=
  ⟨fun c hc => not_isBlank_name f c (List.mem_of_head? hc),
    fun c hc => not_isBlank_name f c (List.mem_of_getLast? hc)⟩

theorem equals_not_mem {before name after : List Char} (hbefore : ∀ c ∈ before, isBlank c = true)
    (hafter : ∀ c ∈ after, isBlank c = true) (hfree : '=' ∉ name) :
    '=' ∉ before ++ name ++ after := by
  have hequals : isBlank '=' ≠ true := by decide
  simp only [List.mem_append, not_or]
  exact ⟨⟨fun h => hequals (hbefore _ h), hfree⟩, fun h => hequals (hafter _ h)⟩

theorem assigns_iff {text : String} {f : Field} {v : String} :
    Assigns text (f, v) ↔ IsAssignment text f v := by
  constructor
  · rintro ⟨front, -, hname, htext⟩
    obtain ⟨before, after, hbefore, hafter, hfront⟩ := Text.exists_surrounded front
    have htrim : Text.trim front = f.name.toList := by rw [← hname, String.toList_ofList]
    rw [htrim] at hfront
    exact ⟨before, after, hbefore, hafter, hfront ▸ htext⟩
  · rintro ⟨before, after, hbefore, hafter, htext⟩
    have hfree : '=' ∉ f.name.toList := fun h => by simpa using f.name_chars _ h
    refine ⟨_, equals_not_mem hbefore hafter hfree, ?_, htext⟩
    rw [Text.trim_surrounded hbefore hafter (isTrimmed_name f), String.ofList_toList]

theorem readAssignment_ok {text : String} {f : Field} {v : String} :
    readAssignment text = .ok (f, v) ↔ IsAssignment text f v :=
  readAssignment_ok_iff.trans assigns_iff

theorem readAssignment_unknown {text : String} {front value : List Char} (hfree : '=' ∉ front)
    (htext : text.toList = front ++ '=' :: value)
    (hunknown : ∀ f : Field, f.name.toList ≠ Text.trim front) :
    readAssignment text = .error (.unknownField (String.ofList (Text.trim front))) := by
  have hsplit : Text.splitFirst '=' text.toList = some (front, value) :=
    Text.splitFirst_eq_some_iff.2 ⟨hfree, htext⟩
  have hname : Field.ofName? (String.ofList (Text.trim front)) = none := by
    refine ofName?_eq_none_iff.2 fun f hf => hunknown f ?_
    rw [hf, String.toList_ofList]
  simp only [readAssignment, hsplit, readName, hname]

theorem readAssignment_malformed {text : String} (h : '=' ∉ text.toList) :
    readAssignment text = .error (.malformedAssignment text) := by
  simp only [readAssignment, Text.splitFirst_eq_none_iff.2 h]

/-- Every text is read as the grammar says, and in no other way. -/
theorem readAssignment_eq_iff {text : String} {r : Except InputError (Field × String)} :
    readAssignment text = r ↔ ReadsAs text r := by
  constructor
  · rintro rfl
    by_cases hequals : '=' ∈ text.toList
    · obtain ⟨front, value, htext, hfree⟩ := List.eq_append_cons_of_mem hequals
      by_cases hknown : ∃ f : Field, f.name.toList = Text.trim front
      · obtain ⟨f, hf⟩ := hknown
        have hok : readAssignment text = .ok (f, String.ofList value) :=
          readAssignment_ok_iff.2 ⟨front, hfree, by rw [← hf, String.ofList_toList],
            by rw [htext, String.toList_ofList]⟩
        rw [hok]
        exact .assignment (readAssignment_ok.1 hok)
      · have hunknown := not_exists.1 hknown
        rw [readAssignment_unknown hfree htext hunknown]
        obtain ⟨before, after, hbefore, hafter, hfront⟩ := Text.exists_surrounded front
        have hname : '=' ∉ Text.trim front := by
          intro h
          apply hfree
          rw [hfront]
          exact List.mem_append_left _ (List.mem_append_right _ h)
        exact .unknown hbefore hafter (Text.isTrimmed_trim front) hname (hfront ▸ htext) hunknown
    · rw [readAssignment_malformed hequals]
      exact .malformed hequals
  · intro h
    cases h with
    | assignment h => exact readAssignment_ok.2 h
    | malformed h => exact readAssignment_malformed h
    | unknown hbefore hafter hname hfree htext hunknown =>
      have htrim := Text.trim_surrounded hbefore hafter hname
      have hread := readAssignment_unknown (equals_not_mem hbefore hafter hfree) htext
        (by rwa [htrim])
      rwa [htrim] at hread

example : readAssignment " status = a=b " = .ok (.status, " a=b ") := by decide +kernel

def valueOf? (f : Field) (text : String) : Option String :=
  match readAssignment text with
  | .ok e => if e.1 = f then some e.2 else none
  | .error _ => none

theorem valueOf?_eq_some_iff {f : Field} {text v : String} :
    valueOf? f text = some v ↔ IsAssignment text f v := by
  rw [← readAssignment_ok, valueOf?]
  cases readAssignment text with
  | error e => simp
  | ok e =>
    obtain ⟨g, w⟩ := e
    by_cases h : g = f <;> simp [h]

theorem valueOf?_eq_none_iff {f : Field} {text : String} :
    valueOf? f text = none ↔ ∀ v, ¬ IsAssignment text f v := by
  simp only [← valueOf?_eq_some_iff, Option.eq_none_iff_forall_ne_some, ne_eq]

theorem filterMap_leaves {texts : List String} {es : List (Field × String)}
    (h : List.Forall₂ Assigns texts es) (f : Field) :
    (puts es).filterMap (·.leaves f) = (texts.filterMap (valueOf? f)).map some := by
  induction h with
  | nil => rfl
  | @cons text e texts es htext _ ih =>
    have hread := readAssignment_ok_iff.2 htext
    simp only [puts, List.map_cons, List.filterMap_cons] at ih ⊢
    rw [valueOf?, hread, ih]
    by_cases he : e.1 = f <;> simp [Write.leaves, he]

theorem get?_readAssignments {texts : List String} {fs : Fields}
    (h : readAssignments texts = .ok fs) (f : Field) :
    fs.get? f = (texts.filterMap (valueOf? f)).getLast? := by
  obtain ⟨es, hes, rfl⟩ := readAssignments_ok_iff.1 h
  rw [Fields.ofEntries, ← foldl_apply_puts, get?_after_writes, held, filterMap_leaves hes,
    List.getLast?_map]
  cases (texts.filterMap (valueOf? f)).getLast? <;> rfl

theorem getLast?_filterMap_eq_some_iff {α β : Type} {p : α → Option β} {as : List α} {b : β} :
    (as.filterMap p).getLast? = some b ↔ ∃ front a back, as = front ++ a :: back ∧
      p a = some b ∧ ∀ c ∈ back, p c = none := by
  rw [List.getLast?_eq_head?_reverse, ← List.filterMap_reverse, List.head?_filterMap,
    List.findSome?_eq_some_iff]
  constructor
  · rintro ⟨back, a, front, has, ha, hback⟩
    refine ⟨front.reverse, a, back.reverse, ?_, ha, fun c hc => hback c (List.mem_reverse.1 hc)⟩
    rw [← List.reverse_reverse as, has]
    simp
  · rintro ⟨front, a, back, rfl, ha, hback⟩
    exact ⟨back.reverse, a, front.reverse, by simp, ha, fun c hc => hback c (List.mem_reverse.1 hc)⟩

theorem readAssignments_error_iff {texts : List String} {e : InputError} :
    readAssignments texts = .error e ↔ texts.mapM readAssignment = .error e := by
  rw [readAssignments]
  cases texts.mapM readAssignment <;> simp [Except.map]

/-- The fields of some assignments. -/
structure ReadsTogether (texts : List String) : Prop where
  ok_iff : (∃ fs, readAssignments texts = .ok fs) ↔ ∀ text ∈ texts, ∃ f v, IsAssignment text f v
  /-- A field holds the value of the last assignment to it, and nothing if there is none. -/
  last : ∀ fs, readAssignments texts = .ok fs → ∀ f v, fs.get? f = some v ↔
    ∃ front text back, texts = front ++ text :: back ∧ IsAssignment text f v ∧
      ∀ later ∈ back, ∀ w, ¬ IsAssignment later f w
  error_iff : ∀ e, readAssignments texts = .error e ↔
    ∃ front text back, texts = front ++ text :: back ∧
      (∀ earlier ∈ front, ∃ f v, IsAssignment earlier f v) ∧ ReadsAs text (.error e)

/-- One text, and any number of them, are read by the grammar of assignments. -/
theorem assignments_read :
    (∀ text r, readAssignment text = r ↔ ReadsAs text r) ∧ ∀ texts, ReadsTogether texts := by
  have hok (text : String) : (∃ e, readAssignment text = .ok e) ↔ ∃ f v, IsAssignment text f v := by
    simp only [Prod.exists, readAssignment_ok]
  refine ⟨fun text r => readAssignment_eq_iff, fun texts => ⟨?_, fun fs h f v => ?_, fun e => ?_⟩⟩
  · simp only [readAssignments_ok_iff, exists_comm (α := Fields), exists_and_left, exists_eq,
      and_true, exists_forall₂_iff, ← readAssignment_ok_iff, hok]
  · simp only [get?_readAssignments h, getLast?_filterMap_eq_some_iff, valueOf?_eq_some_iff,
      valueOf?_eq_none_iff]
  · simp only [readAssignments_error_iff, mapM_error_iff, hok]
    simp only [readAssignment_eq_iff]

end Post
end ThreatGraph
