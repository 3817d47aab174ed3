import Mathlib.Data.List.Nodup
import ThreatGraph.Proofs.CopiedFields
import ThreatGraph.Proofs.JsonText

/-!
# Reading the fields of a post

Fields are read from JSON in two ways: strictly, from what was written of fields, and as they come
in a batch, where a value is rendered and `null` leaves its field out.  Where the strict reader
succeeds the other one reads the same, and both undo what is written, through its text as well.
-/

namespace ThreatGraph
namespace Post

open Json (Value Members)
open Json.Members (get?_cons get?_sorted ordered_sorted mem_of_mem_sorted)

namespace Fields

theorem entries_fields (fs : Fields) : fs.entries.map (·.1) = Field.all.filter fs.contains := by
  have hlist : ∀ l : List Field,
      (l.filterMap fun f => (fs.get? f).map (f, ·)).map (·.1) = l.filter fs.contains := by
    intro l
    induction l with
    | nil => rfl
    | cons f l ih => cases h : fs.get? f <;> simp [contains, h, ih]
  exact hlist Field.all

theorem get?_foldl_entries (fs before : Fields) (l : List Field) (f : Field) :
    ((l.filterMap fun g => (fs.get? g).map (g, ·)).foldl
        (fun fs e => fs.insert e.1 e.2) before).get? f =
      if f ∈ l then (fs.get? f).or (before.get? f) else before.get? f := by
  induction l generalizing before with
  | nil => rfl
  | cons g l ih =>
    by_cases hg : f = g
    · subst hg
      cases h : fs.get? f <;> by_cases hl : f ∈ l <;> simp [h, hl, ih]
    · cases h : fs.get? g <;> by_cases hl : f ∈ l <;> simp [h, hg, hl, ih]

@[simp] theorem ofEntries_entries (fs : Fields) : ofEntries fs.entries = fs := by
  ext1
  funext f
  have h := get?_foldl_entries fs empty Field.all f
  simp only [Field.mem_all, if_true, get?_empty, Option.or_none] at h
  exact h

theorem get?_toMembers (fs : Fields) (f : Field) :
    Members.get? f.name fs.toMembers = (fs.get? f).map .string := by
  have hlist : ∀ l : List Field,
      Members.get? f.name ((l.filterMap fun g => (fs.get? g).map (g, ·)).map
          fun e => (e.1.jsonName, Value.string e.2)) =
        if f ∈ l then (fs.get? f).map .string else none := by
    intro l
    induction l with
    | nil => rfl
    | cons g l ih =>
      by_cases hg : f = g
      · subst hg
        cases h : fs.get? f <;> simp_all
      · have hname : g.name ≠ f.name := fun h => hg (Field.name_injective h).symm
        cases h : fs.get? g <;> simp_all [get?_cons]
  have h := hlist Field.all
  rw [if_pos (Field.mem_all f)] at h
  exact h

theorem named_of_mem_toMembers {fs : Fields} {m : String × Value} (h : m ∈ fs.toMembers) :
    ∃ (f : Field) (s : String), f.name = m.1 ∧ m.2 = .string s := by
  obtain ⟨e, -, rfl⟩ := List.mem_map.1 h
  exact ⟨e.1, e.2, (Field.jsonName_eq e.1).symm, rfl⟩

theorem nodup_names_toMembers (fs : Fields) : fs.toMembers.names.Nodup := by
  have hnames : fs.toMembers.names = (Field.all.filter fs.contains).map Field.name := by
    rw [← entries_fields]
    simp [toMembers, Members.names, Function.comp_def]
  rw [hnames]
  exact List.Nodup.map (fun f g h => Field.name_injective h) (Field.nodup_all.filter _)

theorem recognised_toMembers (fs : Fields) : recognised fs.toMembers = fs.entries := by
  simp [recognised, toMembers, List.filterMap_map, Function.comp_def, render]

theorem ofEntries_recognised_sorted (fs : Fields) :
    ofEntries (recognised fs.toMembers.sorted) = fs := by
  ext1
  funext f
  rw [get?_ofEntries_recognised (ordered_sorted _), get?_sorted, get?_toMembers,
    bind_render_string]

theorem ofName?_eq_some_iff {name : String} {f : Field} :
    Field.ofName? name = some f ↔ f.name = name := by
  constructor
  · exact Field.name_of_ofName?
  · rintro rfl
    exact Field.ofName?_name f

theorem ofName?_eq_none_iff {name : String} :
    Field.ofName? name = none ↔ ∀ f : Field, f.name ≠ name := by
  simp only [← ofName?_eq_some_iff, Option.eq_none_iff_forall_ne_some, ne_eq]

theorem readName_ok_iff {name : String} {f : Field} : readName name = .ok f ↔ f.name = name := by
  rw [← ofName?_eq_some_iff, readName]
  cases Field.ofName? name <;> simp

theorem ofMembersFrom_eq {fs : Fields} {ms : Members Value}
    (h : ∀ m ∈ ms, ∃ f : Field, f.name = m.1) :
    ofMembersFrom fs ms = .ok ((recognised ms).foldl (fun fs e => fs.insert e.1 e.2) fs) := by
  induction ms generalizing fs with
  | nil => rfl
  | cons m ms ih =>
    obtain ⟨name, v⟩ := m
    obtain ⟨⟨f, rfl⟩, hms⟩ := List.forall_mem_cons.1 h
    rw [ofMembersFrom, readName_ok_iff.2 rfl, recognised_cons, Field.ofName?_name]
    cases render v <;> simp [ih hms]

theorem ofMembersFrom_ok_iff {fs : Fields} {ms : Members Value} :
    (∃ fs', ofMembersFrom fs ms = .ok fs') ↔ ∀ m ∈ ms, ∃ f : Field, f.name = m.1 := by
  induction ms generalizing fs with
  | nil => simp [ofMembersFrom]
  | cons m ms ih =>
    obtain ⟨name, v⟩ := m
    simp only [← ofName?_eq_some_iff] at ih ⊢
    rw [ofMembersFrom, readName, List.forall_mem_cons]
    cases Field.ofName? name with
    | none => simp
    | some f => cases render v <;> simp [ih]

theorem ofMembersFrom_error_iff {fs : Fields} {ms : Members Value} :
    (∃ e, ofMembersFrom fs ms = .error e) ↔ ∃ m ∈ ms, ∀ f : Field, f.name ≠ m.1 := by
  have herror : (∃ e, ofMembersFrom fs ms = .error e) ↔
      ¬ ∃ fs', ofMembersFrom fs ms = .ok fs' := by
    cases ofMembersFrom fs ms <;> simp
  rw [herror, ofMembersFrom_ok_iff]
  simp

theorem decodeMembers_ok_iff {fs fs' : Fields} {ms : Members Value} :
    decodeMembers fs ms = .ok fs' ↔
      (∀ m ∈ ms, ∃ (f : Field) (s : String), f.name = m.1 ∧ m.2 = .string s) ∧
      fs' = (recognised ms).foldl (fun fs e => fs.insert e.1 e.2) fs := by
  induction ms generalizing fs with
  | nil => simp [decodeMembers, recognised, eq_comm]
  | cons m ms ih =>
    obtain ⟨name, v⟩ := m
    rw [decodeMembers, Field.ofJsonName?_eq, recognised_cons, List.forall_mem_cons]
    cases hname : Field.ofName? name with
    | none =>
      have hnone := ofName?_eq_none_iff.1 hname
      simp [hnone]
    | some f =>
      obtain rfl := Field.name_of_ofName? hname
      cases v with
      | string s => simp [Json.readText, render, ih]
      | _ => simp [Json.readText, Json.invalidType]

theorem decode_ok_iff {fs : Fields} {v : Value} :
    decode v = .ok fs ↔ ∃ ms, v = .object ms ∧
      (∀ m ∈ ms, ∃ (f : Field) (s : String), f.name = m.1 ∧ m.2 = .string s) ∧
      fs = ofEntries (recognised ms) := by
  cases v with
  | object ms => simp [decode, decodeMembers_ok_iff, ofEntries]
  | _ => simp [decode, Json.invalidType]

theorem ofMembers_of_decode {fs : Fields} {ms : Members Value}
    (h : decode (.object ms) = .ok fs) : ofMembers ms = .ok fs := by
  obtain ⟨ms', heq, hstrings, rfl⟩ := decode_ok_iff.1 h
  obtain rfl := Value.object.inj heq
  refine ofMembersFrom_eq fun m hm => ?_
  obtain ⟨f, s, hname, -⟩ := hstrings m hm
  exact ⟨f, hname⟩

theorem decode_error_of_ofMembers {ms : Members Value} (h : ∃ e, ofMembers ms = .error e) :
    ∃ e, decode (.object ms) = .error e := by
  obtain ⟨e, he⟩ := h
  cases hdecode : decode (.object ms) with
  | error m => exact ⟨m, rfl⟩
  | ok fs =>
    rw [ofMembers_of_decode hdecode] at he
    cases he

def readPair (p : String × String) : Except InputError (Field × String) :=
  (readName p.1).map fun f => (f, p.2)

theorem mapM_readPair (fs : Fields) : fs.pairs.mapM readPair = .ok fs.entries := by
  have hpair : ∀ e : Field × String, readPair (e.1.name, e.2) = .ok e := by
    intro e
    simp [readPair, readName_ok_iff.2 rfl, Except.map]
  exact mapM_map_ok hpair fs.entries

/-- Fields are what is read back from all that is written of them. -/
structure ReadBack (fs : Fields) : Prop where
  decoded : decode fs.toJson = .ok fs
  taken : ofMembers fs.toMembers = .ok fs
  /-- As JSON text they are an object whose names ascend. -/
  text : Json.read fs.toJson.text = .ok (.object fs.toMembers.sorted)
  decodedText : decode (.object fs.toMembers.sorted) = .ok fs
  takenText : ofMembers fs.toMembers.sorted = .ok fs
  collected : (fs.pairs.mapM readPair).map ofEntries = .ok fs

theorem readBack (fs : Fields) : ReadBack fs := by
  have hdecoded : decode fs.toJson = .ok fs :=
    decode_ok_iff.2 ⟨fs.toMembers, rfl, fun m hm => named_of_mem_toMembers hm,
      by rw [recognised_toMembers, ofEntries_entries]⟩
  have hsorted : decode (.object fs.toMembers.sorted) = .ok fs :=
    decode_ok_iff.2 ⟨_, rfl, fun m hm => named_of_mem_toMembers (mem_of_mem_sorted hm),
      (ofEntries_recognised_sorted fs).symm⟩
  constructor
  case decoded => exact hdecoded
  case taken => exact ofMembers_of_decode hdecoded
  case text =>
    refine Json.read_text_strings fs.nodup_names_toMembers fun m hm => ?_
    obtain ⟨f, s, -, hs⟩ := named_of_mem_toMembers hm
    exact ⟨s, hs⟩
  case decodedText => exact hsorted
  case takenText => exact ofMembers_of_decode hsorted
  case collected =>
    rw [mapM_readPair]
    exact congrArg Except.ok fs.ofEntries_entries

/-- The two readers undo what is written and agree with each other.  Where the strict one succeeds
the other one reads the same; the other one refuses nothing but names that no field has, and these
the strict one refuses as well. -/
theorem readers_agree :
    (∀ fs : Fields, ReadBack fs) ∧
    ∀ ms : Members Value,
      (∀ fs, decode (.object ms) = .ok fs → ofMembers ms = .ok fs) ∧
      ((∃ e, ofMembers ms = .error e) ↔ ∃ m ∈ ms, ∀ f : Field, f.name ≠ m.1) ∧
      ((∃ e, ofMembers ms = .error e) → ∃ e, decode (.object ms) = .error e) :=
  ⟨readBack, fun _ => ⟨fun _ => ofMembers_of_decode, ofMembersFrom_error_iff,
    decode_error_of_ofMembers⟩⟩

/-- Two members that are read, and two of which one is refused. -/
theorem readers_agree_on_status :
    ofMembers [("status", .string "UNKNOWN"), ("tags", .string "a,b")] =
      .ok ((empty.insert .status "UNKNOWN").insert .tags "a,b") ∧
    ∃ e, decode (.object [("status", .string "UNKNOWN"), ("owner", .null)]) = .error e := by
  have hstrings : ∀ m ∈ [("status", Value.string "UNKNOWN"), ("tags", .string "a,b")],
      ∃ (f : Field) (s : String), f.name = m.1 ∧ m.2 = .string s := by
    simp only [List.forall_mem_cons, List.not_mem_nil, false_implies, implies_true, and_true]
    exact ⟨⟨.status, "UNKNOWN", rfl, rfl⟩, ⟨.tags, "a,b", rfl, rfl⟩⟩
  have hentries : recognised [("status", .string "UNKNOWN"), ("tags", .string "a,b")] =
      [(.status, "UNKNOWN"), (.tags, "a,b")] := by
    decide +kernel
  have howner : ∀ f : Field, f.name ≠ "owner" := by
    intro f
    cases f <;> decide
  have hdecoded : decode (.object [("status", .string "UNKNOWN"), ("tags", .string "a,b")]) =
      .ok ((empty.insert .status "UNKNOWN").insert .tags "a,b") :=
    decode_ok_iff.2 ⟨_, rfl, hstrings, by rw [hentries]; rfl⟩
  have hrefused : ∃ e, ofMembers [("status", .string "UNKNOWN"), ("owner", .null)] = .error e :=
    (readers_agree.2 _).2.1.2 ⟨("owner", .null), by simp, howner⟩
  exact ⟨(readers_agree.2 _).1 _ hdecoded, (readers_agree.2 _).2.2 hrefused⟩

end Fields
end Post
end ThreatGraph
