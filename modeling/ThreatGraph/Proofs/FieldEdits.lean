import Mathlib.Data.List.Induction
import ThreatGraph.Proofs.FieldReading
import ThreatGraph.Proofs.Grammar

/-!
# Edits of the fields of a post

Whatever is done to the fields of a post comes down to single writes: a text is put into a field, a
field is taken out, or all of them are.  After any run of edits a field holds what the last write
about it left, and the fields that hold something are listed in the order of their declaration.  An
edit that is refused writes nothing.
-/

namespace ThreatGraph
namespace Post

open Json (Value Members)
open Fields (readAssignment readName readName_ok_iff)

inductive Write where
  | put (f : Field) (v : String)
  | drop (f : Field)
  | clear

/-- What a write leaves a field with, if it is about this field. -/
def Write.leaves (f : Field) : Write → Option (Option String)
  | .put g v => if g = f then some (some v) else none
  | .drop g => if g = f then some none else none
  | .clear => some none

def held (ws : List Write) (f : Field) : Option String :=
  (ws.filterMap (·.leaves f)).getLast?.join

def puts (es : List (Field × String)) : List Write := es.map fun e => .put e.1 e.2

def Write.apply (fs : Fields) : Write → Fields
  | .put f v => fs.insert f v
  | .drop f => fs.erase f
  | .clear => .empty

theorem get?_apply (fs : Fields) (w : Write) (f : Field) :
    (w.apply fs).get? f = (w.leaves f).getD (fs.get? f) := by
  cases w with
  | put g v => by_cases h : f = g <;> simp [Write.apply, Write.leaves, h, eq_comm]
  | drop g => by_cases h : f = g <;> simp [Write.apply, Write.leaves, h, eq_comm]
  | clear => rfl

theorem get?_foldl_apply (fs : Fields) (ws : List Write) (f : Field) :
    (ws.foldl Write.apply fs).get? f =
      (ws.filterMap (·.leaves f)).getLast?.getD (fs.get? f) := by
  induction ws generalizing fs with
  | nil => rfl
  | cons w ws ih =>
    rw [List.foldl_cons, ih, get?_apply]
    cases h : w.leaves f with
    | none => simp [h]
    | some left => simp [h, List.getLast?_cons]

theorem get?_after_writes (ws : List Write) (f : Field) :
    (ws.foldl Write.apply .empty).get? f = held ws f := by
  rw [get?_foldl_apply, held]
  cases (ws.filterMap (·.leaves f)).getLast? <;> rfl

theorem foldl_apply_puts (fs : Fields) (es : List (Field × String)) :
    (puts es).foldl Write.apply fs = es.foldl (fun fs e => fs.insert e.1 e.2) fs := by
  rw [puts, List.foldl_map]
  rfl

theorem extend_ofEntries (fs : Fields) (es : List (Field × String)) :
    fs.extend (.ofEntries es) = (puts es).foldl Write.apply fs := by
  ext1
  funext f
  have hentries : (Fields.ofEntries es).get? f =
      ((puts es).filterMap (·.leaves f)).getLast?.getD none := by
    rw [Fields.ofEntries, ← foldl_apply_puts, get?_foldl_apply]
    rfl
  rw [Fields.get?_extend, hentries, get?_foldl_apply]
  cases hlast : ((puts es).filterMap (·.leaves f)).getLast? with
  | none => rfl
  | some left =>
    -- What is put in is never nothing.
    have hmem := List.mem_of_getLast? hlast
    obtain ⟨w, hw, hleaves⟩ := List.mem_filterMap.1 hmem
    obtain ⟨e, -, rfl⟩ := List.mem_map.1 hw
    by_cases he : e.1 = f <;> simp [Write.leaves, he] at hleaves
    simp [← hleaves]

inductive Edit where
  | insert (f : Field) (v : String)
  | remove (f : Field)
  /-- More entries over what is there, the later ones over the earlier ones. -/
  | extend (es : List (Field × String))
  /-- Fields of entries only. -/
  | collect (es : List (Field × String))
  /-- Fields of assignments only. -/
  | collectAssignments (texts : List String)
  /-- Fields of a JSON object only. -/
  | readObject (ms : Members Value)
  /-- One assignment, put in. -/
  | assign (text : String)
  /-- Fields only of what is written of fields. -/
  | decode (v : Value)

/-- New fields, unless there is an error; then the old ones stay. -/
def replace (fs : Fields) : Except InputError Fields → Except InputError (Option String) × Fields
  | .ok new => (.ok none, new)
  | .error e => (.error e, fs)

/-- What an edit answers, and the fields that it leaves.  An edit of one field answers with the text
that the field held. -/
def Edit.run (fs : Fields) : Edit → Except InputError (Option String) × Fields
  | .insert f v => (.ok (fs.get? f), fs.insert f v)
  | .remove f => (.ok (fs.get? f), fs.erase f)
  | .extend es => (.ok none, fs.extend (.ofEntries es))
  | .collect es => (.ok none, .ofEntries es)
  | .collectAssignments texts => replace fs (Fields.readAssignments texts)
  | .readObject ms => replace fs (Fields.ofMembers ms)
  | .assign text =>
    match readAssignment text with
    | .ok (f, v) => (.ok (fs.get? f), fs.insert f v)
    | .error e => (.error e, fs)
  | .decode v => replace fs ((Fields.decode v).mapError .mismatch)

def fieldsAfter (edits : List Edit) : Fields := edits.foldl (fun fs e => (e.run fs).2) .empty

/-- The text is a name, perhaps with white space around it, an equals sign and a value. -/
def Assigns (text : String) (e : Field × String) : Prop :=
  ∃ front : List Char, '=' ∉ front ∧ String.ofList (Text.trim front) = e.1.name ∧
    text.toList = front ++ '=' :: e.2.toList

/-- The writes that an edit comes down to.  An edit without any is refused. -/
inductive Edit.Writes : Edit → List Write → Prop
  | insert (f : Field) (v : String) : Writes (.insert f v) [.put f v]
  | remove (f : Field) : Writes (.remove f) [.drop f]
  | extend (es : List (Field × String)) : Writes (.extend es) (puts es)
  | collect (es : List (Field × String)) : Writes (.collect es) (.clear :: puts es)
  | collectAssignments {texts : List String} {es : List (Field × String)}
    (h : List.Forall₂ Assigns texts es) : Writes (.collectAssignments texts) (.clear :: puts es)
  | readObject {ms : Members Value} (h : ∀ m ∈ ms, ∃ f : Field, f.name = m.1) :
    Writes (.readObject ms) (.clear :: puts (recognised ms))
  | assign {text : String} {f : Field} {v : String} (h : Assigns text (f, v)) :
    Writes (.assign text) [.put f v]
  | decode {ms : Members Value}
    (h : ∀ m ∈ ms, ∃ (f : Field) (s : String), f.name = m.1 ∧ m.2 = .string s) :
    Writes (.decode (.object ms)) (.clear :: puts (recognised ms))

/-- The edit is of this one field. -/
inductive Edit.IsOf : Edit → Field → Prop
  | insert (f : Field) (v : String) : IsOf (.insert f v) f
  | remove (f : Field) : IsOf (.remove f) f
  | assign {text : String} {f : Field} {v : String} (h : Assigns text (f, v)) :
    IsOf (.assign text) f

theorem readAssignment_ok_iff {text : String} {e : Field × String} :
    readAssignment text = .ok e ↔ Assigns text e := by
  obtain ⟨f, v⟩ := e
  unfold readAssignment Assigns
  cases hsplit : Text.splitFirst '=' text.toList with
  | none =>
    have hfree := Text.splitFirst_eq_none_iff.1 hsplit
    simp only [reduceCtorEq, false_iff, not_exists, not_and]
    rintro front - - htext
    exact hfree (by simp [htext])
  | some p =>
    obtain ⟨front, back⟩ := p
    obtain ⟨hfront, htext⟩ := Text.splitFirst_eq_some_iff.1 hsplit
    constructor
    · intro h
      cases hname : readName (String.ofList (Text.trim front)) with
      | error e => simp [hname] at h
      | ok g =>
        simp only [hname, Except.ok.injEq, Prod.mk.injEq] at h
        obtain ⟨rfl, rfl⟩ := h
        exact ⟨front, hfront, (readName_ok_iff.1 hname).symm, by simpa using htext⟩
    · rintro ⟨front', hfront', hname, htext'⟩
      have hsame : Text.splitFirst '=' text.toList = some (front', v.toList) :=
        Text.splitFirst_eq_some_iff.2 ⟨hfront', htext'⟩
      rw [hsplit] at hsame
      obtain ⟨rfl, rfl⟩ := Prod.mk.inj (Option.some.inj hsame)
      simp [readName_ok_iff.2 hname.symm]

theorem readAssignments_ok_iff {texts : List String} {fs : Fields} :
    Fields.readAssignments texts = .ok fs ↔
      ∃ es, List.Forall₂ Assigns texts es ∧ fs = .ofEntries es := by
  have hall : ∀ es, texts.mapM readAssignment = .ok es ↔ List.Forall₂ Assigns texts es := by
    intro es
    rw [mapM_ok_iff]
    simp only [readAssignment_ok_iff]
  unfold Fields.readAssignments
  constructor
  · intro h
    cases hes : texts.mapM readAssignment with
    | error e => simp [hes, Except.map] at h
    | ok es =>
      simp only [hes, Except.map, Except.ok.injEq] at h
      exact ⟨es, (hall es).1 hes, h.symm⟩
  · rintro ⟨es, hes, rfl⟩
    rw [(hall es).2 hes]
    rfl

theorem replace_ok {fs new : Fields} {es : List (Field × String)} {x : Except InputError Fields}
    (hx : x = .ok new) (hnew : new = .ofEntries es) :
    replace fs x = (.ok none, (Write.clear :: puts es).foldl Write.apply fs) := by
  rw [hx, hnew, List.foldl_cons, foldl_apply_puts]
  rfl

theorem Edit.Writes.run_eq {e : Edit} {ws : List Write} (h : e.Writes ws) (fs : Fields) :
    ∃ answer, e.run fs = (.ok answer, ws.foldl Write.apply fs) ∧
      ∀ f, e.IsOf f → answer = fs.get? f := by
  cases h with
  | insert f v =>
    refine ⟨fs.get? f, rfl, ?_⟩
    rintro _ ⟨⟩
    rfl
  | remove f =>
    refine ⟨fs.get? f, rfl, ?_⟩
    rintro _ ⟨⟩
    rfl
  | extend es => exact ⟨none, by rw [← extend_ofEntries]; rfl, nofun⟩
  | collect es => exact ⟨none, replace_ok rfl rfl, nofun⟩
  | @collectAssignments texts es h =>
    have hread := readAssignments_ok_iff.2 ⟨es, h, rfl⟩
    exact ⟨none, replace_ok hread rfl, nofun⟩
  | readObject h => exact ⟨none, replace_ok (Fields.ofMembersFrom_eq h) rfl, nofun⟩
  | @assign text f v h =>
    have hread := readAssignment_ok_iff.2 h
    refine ⟨fs.get? f, by simp only [Edit.run, hread]; rfl, ?_⟩
    rintro g hg
    cases hg with
    | @assign _ _ v' h' =>
      have hsame := hread.symm.trans (readAssignment_ok_iff.2 h')
      obtain ⟨rfl, -⟩ := Prod.mk.inj (Except.ok.inj hsame)
      rfl
  | @decode ms h =>
    have hread := Fields.decode_ok_iff.2 ⟨ms, rfl, h, rfl⟩
    exact ⟨none, replace_ok (by rw [hread]; rfl) rfl, nofun⟩

theorem Edit.run_refused {e : Edit} (h : ∀ ws, ¬ e.Writes ws) (fs : Fields) :
    ∃ err, e.run fs = (.error err, fs) := by
  cases e with
  | insert f v => exact absurd (.insert f v) (h _)
  | remove f => exact absurd (.remove f) (h _)
  | extend es => exact absurd (.extend es) (h _)
  | collect es => exact absurd (.collect es) (h _)
  | collectAssignments texts =>
    cases hread : Fields.readAssignments texts with
    | error err => exact ⟨err, by simp [Edit.run, hread, replace]⟩
    | ok new =>
      obtain ⟨es, hes, -⟩ := readAssignments_ok_iff.1 hread
      exact absurd (.collectAssignments hes) (h _)
  | readObject ms =>
    cases hread : Fields.ofMembers ms with
    | error err => exact ⟨err, by simp [Edit.run, hread, replace]⟩
    | ok new => exact absurd (.readObject (Fields.ofMembersFrom_ok_iff.1 ⟨new, hread⟩)) (h _)
  | assign text =>
    cases hread : readAssignment text with
    | error err => exact ⟨err, by simp [Edit.run, hread]⟩
    | ok e => exact absurd (.assign (readAssignment_ok_iff.1 hread)) (h _)
  | decode v =>
    cases hread : Fields.decode v with
    | error m => exact ⟨.mismatch m, by simp [Edit.run, hread, replace, Except.mapError]⟩
    | ok new =>
      obtain ⟨ms, rfl, hms, -⟩ := Fields.decode_ok_iff.1 hread
      exact absurd (.decode hms) (h _)

/-- The writes of some edits, one after the other; an edit that is refused adds none. -/
inductive History : List Edit → List Write → Prop
  | start : History [] []
  | done {edits : List Edit} {ws more : List Write} {e : Edit} (h : History edits ws)
    (h' : e.Writes more) : History (edits ++ [e]) (ws ++ more)
  | refused {edits : List Edit} {ws : List Write} {e : Edit} (h : History edits ws)
    (h' : ∀ more, ¬ e.Writes more) : History (edits ++ [e]) ws

theorem fieldsAfter_snoc (edits : List Edit) (e : Edit) :
    fieldsAfter (edits ++ [e]) = (e.run (fieldsAfter edits)).2 := by
  simp [fieldsAfter]

theorem exists_history (edits : List Edit) : ∃ ws, History edits ws := by
  induction edits using List.reverseRecOn with
  | nil => exact ⟨[], .start⟩
  | append_singleton edits e ih =>
    obtain ⟨ws, hws⟩ := ih
    by_cases he : ∃ more, e.Writes more
    · obtain ⟨more, hmore⟩ := he
      exact ⟨ws ++ more, .done hws hmore⟩
    · exact ⟨ws, .refused hws fun more hmore => he ⟨more, hmore⟩⟩

theorem History.fieldsAfter_eq {edits : List Edit} {ws : List Write} (h : History edits ws) :
    fieldsAfter edits = ws.foldl Write.apply .empty := by
  induction h with
  | start => rfl
  | @done edits ws more e _ h' ih =>
    obtain ⟨answer, hrun, -⟩ := h'.run_eq (fieldsAfter edits)
    rw [fieldsAfter_snoc, hrun, List.foldl_append, ← ih]
  | @refused edits ws e _ h' ih =>
    obtain ⟨err, hrun⟩ := Edit.run_refused h' (fieldsAfter edits)
    rw [fieldsAfter_snoc, hrun, ih]

/-- The fields are the map that some writes make, listed in the order of declaration. -/
structure Mirrors (fs : Fields) (ws : List Write) : Prop where
  get : ∀ f, fs.get? f = held ws f
  contains : ∀ f, fs.contains f = (held ws f).isSome
  size : fs.size = Field.all.countP fun f => (held ws f).isSome
  isEmpty : fs.isEmpty = true ↔ ∀ f, held ws f = none
  pairs : ∀ name v, (name, v) ∈ fs.pairs ↔ ∃ f, f.name = name ∧ held ws f = some v
  /-- Each name is that of a field declared before those of the names behind it. -/
  ascending : fs.pairs.Pairwise fun p q =>
    ∃ f g : Field, f.name = p.1 ∧ g.name = q.1 ∧ f.ctorIdx < g.ctorIdx

theorem ascending_all : Field.all.Pairwise fun f g => f.ctorIdx < g.ctorIdx := by decide

theorem Fields.ascending_entries (fs : Fields) :
    fs.entries.Pairwise fun a b => a.1.ctorIdx < b.1.ctorIdx := by
  have h : (fs.entries.map (·.1)).Pairwise fun f g => f.ctorIdx < g.ctorIdx := by
    rw [fs.entries_fields]
    exact ascending_all.filter _
  rw [List.pairwise_map] at h
  exact h

theorem mirrors_of_get {fs : Fields} {ws : List Write} (h : ∀ f, fs.get? f = held ws f) :
    Mirrors fs ws := by
  have hcontains : ∀ f, fs.contains f = (held ws f).isSome := fun f => congrArg _ (h f)
  have hlength : fs.size = (Field.all.filter fs.contains).length := by
    rw [← fs.entries_fields, List.length_map]
    rfl
  constructor
  case get => exact h
  case contains => exact hcontains
  case size =>
    rw [hlength, List.countP_eq_length_filter]
    simp only [← hcontains]
  case isEmpty =>
    have hnil : fs.isEmpty = true ↔ Field.all.filter fs.contains = [] := by
      rw [← fs.entries_fields, List.map_eq_nil_iff]
      exact List.isEmpty_iff
    rw [hnil, List.filter_eq_nil_iff]
    simp only [hcontains, Option.not_isSome_iff_eq_none]
    exact ⟨fun hall f => hall f (Field.mem_all f), fun hall f _ => hall f⟩
  case pairs =>
    intro name v
    simp only [Fields.pairs, List.mem_map, Prod.exists, Prod.mk.injEq, Fields.mem_entries, h]
    constructor
    · rintro ⟨f, _, hheld, hname, rfl⟩
      exact ⟨f, hname, hheld⟩
    · rintro ⟨f, hname, hheld⟩
      exact ⟨f, v, hheld, hname, rfl⟩
  case ascending =>
    refine List.Pairwise.map _ ?_ fs.ascending_entries
    exact fun a b hab => ⟨a.1, b.1, rfl, rfl, hab⟩

/-- After any run of edits the fields of a post are the map in which the latest write to a field
counts.  One more edit makes its writes and answers with what its field held, or it is refused and
changes nothing. -/
theorem fields_hold_last_writes (edits : List Edit) :
    (∃ ws, History edits ws) ∧ ∀ ws, History edits ws →
      Mirrors (fieldsAfter edits) ws ∧
      ∀ e : Edit,
        (∀ more, e.Writes more → ∃ answer,
          e.run (fieldsAfter edits) = (.ok answer, fieldsAfter (edits ++ [e])) ∧
          ∀ f, e.IsOf f → answer = held ws f) ∧
        ((∀ more, ¬ e.Writes more) → ∃ err,
          e.run (fieldsAfter edits) = (.error err, fieldsAfter edits)) := by
  refine ⟨exists_history edits, fun ws hws => ?_⟩
  have hget : ∀ f, (fieldsAfter edits).get? f = held ws f := by
    intro f
    rw [hws.fieldsAfter_eq, get?_after_writes]
  refine ⟨mirrors_of_get hget, fun e => ⟨fun more hmore => ?_, fun hrefused => ?_⟩⟩
  · obtain ⟨answer, hrun, hanswer⟩ := hmore.run_eq (fieldsAfter edits)
    refine ⟨answer, ?_, fun f hf => ?_⟩
    · rw [fieldsAfter_snoc, hrun]
    · rw [hanswer f hf, hget]
  · exact Edit.run_refused hrefused (fieldsAfter edits)

def mixedEdits : List Edit :=
  [.insert .tags "a", .assign " status =UNKNOWN", .readObject [("owner", .null)], .remove .tags]

theorem not_writes_owner (more : List Write) :
    ¬ (Edit.readObject [("owner", .null)]).Writes more := by
  intro h
  cases h with
  | readObject hnamed =>
    obtain ⟨f, hf⟩ := hnamed ("owner", .null) (by simp)
    revert hf
    cases f <;> decide

theorem not_writes_bare_name (more : List Write) : ¬ (Edit.assign "status").Writes more := by
  intro h
  cases h with
  | assign hassigns =>
    obtain ⟨front, -, -, htext⟩ := hassigns
    have heq : '=' ∈ "status".toList := by simp [htext]
    revert heq
    decide

theorem history_mixedEdits :
    History mixedEdits [.put .tags "a", .put .status "UNKNOWN", .drop .tags] := by
  have hassign : Assigns " status =UNKNOWN" (.status, "UNKNOWN") :=
    ⟨" status ".toList, by decide, by decide +kernel, by decide⟩
  have htagged : History [.insert .tags "a"] [.put .tags "a"] := .done .start (.insert _ _)
  exact .done (.refused (.done htagged (.assign hassign)) not_writes_owner) (.remove .tags)

theorem fields_hold_last_writes_mixed :
    ((fieldsAfter mixedEdits).get? .status = some "UNKNOWN" ∧
      (fieldsAfter mixedEdits).size = 1) ∧
    (∃ answer, (Edit.remove .status).run (fieldsAfter mixedEdits) =
        (.ok answer, fieldsAfter (mixedEdits ++ [.remove .status])) ∧
      answer = some "UNKNOWN") ∧
    ∃ err, (Edit.assign "status").run (fieldsAfter mixedEdits) =
      (.error err, fieldsAfter mixedEdits) := by
  obtain ⟨hmirrors, hnext⟩ := (fields_hold_last_writes mixedEdits).2 _ history_mixedEdits
  refine ⟨⟨?_, ?_⟩, ?_, ?_⟩
  · rw [hmirrors.get]
    rfl
  · rw [hmirrors.size]
    rfl
  · obtain ⟨answer, hrun, hanswer⟩ := (hnext (.remove .status)).1 _ (.remove .status)
    exact ⟨answer, hrun, hanswer .status (.remove .status)⟩
  · exact (hnext (.assign "status")).2 not_writes_bare_name

end Post
end ThreatGraph
