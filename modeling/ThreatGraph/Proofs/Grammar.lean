import Mathlib.Data.List.Forall2
import Mathlib.Data.List.Perm.Basic
import ThreatGraph.Proofs.ByteOrder
import ThreatGraph.Proofs.NormalForm

/-!
# What is read as a descriptor

`Accepted` is the shape that the members of a raw descriptor have to have, and `Describes` says what
a descriptor holds of them.  Normalizing succeeds on exactly the accepted objects, and gives the one
descriptor that describes them.
-/

namespace ThreatGraph

open Json (Value Members Mismatch firstMismatch textAt?)
open Json.Members (get?_filter get?_insert get?_erase get?_sorted ordered_sorted)

/-- A member that is missing or `null`. -/
def Absent (v : Option Value) : Prop := v = none ∨ v = some .null

/-- A member that may be absent and has a shape otherwise. -/
def Optionally (shape : Value → Prop) (v : Option Value) : Prop :=
  Absent v ∨ ∃ w, v = some w ∧ shape w

def IsText (v : Value) : Prop := ∃ s, v = .string s

def IsInt64 (v : Value) : Prop := ∃ n, v = .ofInt n ∧ Text.int64Min ≤ n ∧ n ≤ Text.int64Max

def IsOwner (v : Value) : Prop := ∃ o, Owner.decode v = .ok o

/-- An entry of a tag collection and its text. -/
inductive TagEntry : Value → String → Prop
  | plain (s : String) : TagEntry (.string s) s
  | labelled {tag : Members Value} {s : String} (h : tag.get? "text" = some (.string s)) :
    TagEntry (.object tag) s

/-- A tag collection and its entries: a list, or an envelope with a list in it. -/
inductive TagEntries : Option Value → List Value → Prop
  | absent {tags : Option Value} (h : Absent tags) : TagEntries tags []
  | list (items : List Value) : TagEntries (some (.array items)) items
  | emptyEnvelope {envelope : Members Value} (h : Absent (envelope.get? "data")) :
    TagEntries (some (.object envelope)) []
  | envelope {envelope : Members Value} {items : List Value}
    (h : envelope.get? "data" = some (.array items)) : TagEntries (some (.object envelope)) items

/-- A field that holds what its member reads as, and nothing if that is absent. -/
def Holds {α : Type} (reads : Value → α → Prop) (v : Option Value) : Option α → Prop
  | some a => ∃ w, v = some w ∧ w ≠ .null ∧ reads w a
  | none => Absent v

/-- A field that holds the text of its member. -/
abbrev HoldsText : Option Value → Option String → Prop := Holds fun v s => v = .string s

theorem optionally_iff {shape : Value → Prop} {v : Option Value} :
    Optionally shape v ↔ ∀ w, v = some w → w = .null ∨ shape w := by
  cases v with
  | none => simp [Optionally, Absent]
  | some w => simp [Optionally, Absent]

theorem holds_unique {α : Type} {reads : Value → α → Prop} {v : Option Value}
    {field field' : Option α} (hreads : ∀ w a b, reads w a → reads w b → a = b)
    (h : Holds reads v field) (h' : Holds reads v field') : field = field' := by
  cases field with
  | none =>
    cases field' with
    | none => rfl
    | some b =>
      obtain ⟨w, rfl, hne, -⟩ := h'
      rcases h with h | h <;> simp [hne] at h
  | some a =>
    obtain ⟨w, rfl, hne, ha⟩ := h
    cases field' with
    | none => rcases h' with h' | h' <;> simp [hne] at h'
    | some b =>
      obtain ⟨w', hw, -, hb⟩ := h'
      obtain rfl := Option.some.inj hw
      rw [hreads w a b ha hb]

theorem Holds.imp {α : Type} {reads reads' : Value → α → Prop} {v : Option Value} {field : Option α}
    (hreads : ∀ w a, reads w a → reads' w a) (h : Holds reads v field) : Holds reads' v field := by
  cases field with
  | none => exact h
  | some a =>
    obtain ⟨w, hv, hne, ha⟩ := h
    exact ⟨w, hv, hne, hreads w a ha⟩

theorem mismatch?_eq_none_iff {α : Type} {x : Except Mismatch α} :
    Json.mismatch? x = none ↔ ∃ a, x = .ok a := by
  cases x <;> simp [Json.mismatch?]

theorem readText_ok_iff {v : Value} {s : String} : Json.readText v = .ok s ↔ v = .string s := by
  cases v <;> simp [Json.readText, Json.invalidType]

theorem readInt64_ok_iff {v : Value} {n : Int} :
    Json.readInt64 v = .ok n ↔ v = .ofInt n ∧ Text.int64Min ≤ n ∧ n ≤ Text.int64Max := by
  unfold Json.readInt64 Value.ofInt
  split
  · next m =>
    by_cases hfits : Text.fitsInt64 m
    · have hrange : Text.int64Min ≤ m ∧ m ≤ Text.int64Max := by simpa [Text.fitsInt64] using hfits
      simp only [hfits, if_true, Except.ok.injEq, Value.number.injEq, Json.Number.int.injEq]
      constructor
      · rintro rfl
        exact ⟨rfl, hrange⟩
      · exact fun h => h.1
    · simp only [hfits, Bool.false_eq_true, if_false, reduceCtorEq, Value.number.injEq,
        Json.Number.int.injEq, false_iff, not_and]
      rintro rfl hmin hmax
      exact hfits (by simp [Text.fitsInt64, hmin, hmax])
  · next hnumber =>
    simp only [Json.invalidType, reduceCtorEq, false_iff, not_and]
    exact fun h => absurd h (hnumber n)

theorem readOptional_ok_iff {α : Type} {read : Value → Except Mismatch α} {v : Value} :
    (∃ o, Json.readOptional read v = .ok o) ↔ v = .null ∨ ∃ a, read v = .ok a := by
  unfold Json.readOptional
  split
  · simp
  · next hnull =>
    have hne : v ≠ .null := hnull
    cases read v <;> simp [hne, Except.map]

theorem mapM_ok_iff {α β ε : Type} {f : α → Except ε β} {as : List α} {bs : List β} :
    as.mapM f = .ok bs ↔ List.Forall₂ (fun a b => f a = .ok b) as bs := by
  induction as generalizing bs with
  | nil => cases bs <;> simp [pure, Except.pure]
  | cons a as ih =>
    rw [List.mapM_cons]
    cases ha : f a with
    | error e => cases bs <;> simp [bind, Except.bind, ha]
    | ok b =>
      cases has : as.mapM f <;> cases bs <;>
        simp [bind, Except.bind, pure, Except.pure, ← ih, ha, has]

theorem mapM_error_iff {α β ε : Type} {f : α → Except ε β} {as : List α} {e : ε} :
    as.mapM f = .error e ↔ ∃ front a back, as = front ++ a :: back ∧
      (∀ b ∈ front, ∃ c, f b = .ok c) ∧ f a = .error e := by
  induction as with
  | nil => simp [pure, Except.pure]
  | cons a as ih =>
    rw [List.mapM_cons]
    cases ha : f a with
    | error e' =>
      constructor
      · intro h
        cases h
        exact ⟨[], a, as, rfl, by simp, ha⟩
      · rintro ⟨_ | ⟨b, front⟩, a', back, has, hfront, ha'⟩ <;>
          obtain ⟨rfl, rfl⟩ := List.cons.inj has
        · rw [← ha, ha']
          rfl
        · obtain ⟨c, hc⟩ := hfront _ List.mem_cons_self
          cases ha.symm.trans hc
    | ok c =>
      have hrest : (do let b ← Except.ok c; let bs ← as.mapM f; pure (b :: bs)) = .error e ↔
          as.mapM f = .error e := by
        cases as.mapM f <;> simp [bind, Except.bind, pure, Except.pure]
      rw [hrest, ih]
      constructor
      · rintro ⟨front, a', back, rfl, hfront, ha'⟩
        exact ⟨a :: front, a', back, rfl, List.forall_mem_cons.2 ⟨⟨c, ha⟩, hfront⟩, ha'⟩
      · rintro ⟨_ | ⟨b, front⟩, a', back, has, hfront, ha'⟩ <;>
          obtain ⟨rfl, rfl⟩ := List.cons.inj has
        · cases ha.symm.trans ha'
        · exact ⟨front, a', back, rfl, (List.forall_mem_cons.1 hfront).2, ha'⟩

theorem forall₂_congr {α β : Type} {R S : α → β → Prop} {as : List α} {bs : List β}
    (h : ∀ a ∈ as, ∀ b, R a b ↔ S a b) : List.Forall₂ R as bs ↔ List.Forall₂ S as bs := by
  induction as generalizing bs with
  | nil => simp
  | cons a as ih =>
    obtain ⟨ha, has⟩ := List.forall_mem_cons.1 h
    cases bs with
    | nil => simp
    | cons b bs => rw [List.forall₂_cons, List.forall₂_cons, ha, ih has]

theorem exists_forall₂_iff {α β : Type} {R : α → β → Prop} {as : List α} :
    (∃ bs, List.Forall₂ R as bs) ↔ ∀ a ∈ as, ∃ b, R a b := by
  induction as with
  | nil => simp
  | cons a as ih =>
    rw [List.forall_mem_cons, ← ih]
    constructor
    · rintro ⟨_, (_ | ⟨h, hrest⟩)⟩
      exact ⟨⟨_, h⟩, ⟨_, hrest⟩⟩
    · rintro ⟨⟨b, h⟩, ⟨bs, hrest⟩⟩
      exact ⟨b :: bs, .cons h hrest⟩

namespace Descriptor

theorem check_text_iff {name : String} (h : name ∈ textFields) (v : Value) :
    check name v = none ↔ v = .null ∨ IsText v := by
  have hname : ∀ name ∈ textFields, ¬ (name = "id" ∨ name = "description") := by decide
  simp only [check, hname name h, h, if_false, if_true]
  rw [mismatch?_eq_none_iff, readOptional_ok_iff]
  simp only [readText_ok_iff, IsText]

theorem check_id_iff (v : Value) : check "id" v = none ↔ IsText v := by
  change Json.mismatch? (Json.readText v) = none ↔ _
  rw [mismatch?_eq_none_iff]
  simp only [readText_ok_iff, IsText]

theorem check_description_iff (v : Value) : check "description" v = none ↔ IsText v := by
  change Json.mismatch? (Json.readText v) = none ↔ _
  rw [mismatch?_eq_none_iff]
  simp only [readText_ok_iff, IsText]

theorem check_confidence_iff (v : Value) :
    check "confidence" v = none ↔ v = .null ∨ IsInt64 v := by
  change Json.mismatch? (Json.readOptional Json.readInt64 v) = none ↔ _
  rw [mismatch?_eq_none_iff, readOptional_ok_iff]
  simp only [readInt64_ok_iff, IsInt64]

theorem check_owner_iff (v : Value) : check "owner" v = none ↔ v = .null ∨ IsOwner v := by
  change Json.mismatch? (Json.readOptional Owner.decode v) = none ↔ _
  rw [mismatch?_eq_none_iff, readOptional_ok_iff, IsOwner]

theorem tagText_ok_iff {item : Value} {s : String} : tagText item = .ok s ↔ TagEntry item s := by
  constructor
  · intro h
    unfold tagText at h
    split at h
    · cases h
      exact .plain s
    · split at h
      · next htext =>
        cases h
        exact .labelled htext
      · cases h
    · cases h
  · intro h
    cases h with
    | plain => rfl
    | labelled h => simp only [tagText, h]

theorem mapM_tagText_ok_iff {items : List Value} {texts : List String} :
    items.mapM tagText = .ok texts ↔ List.Forall₂ TagEntry items texts := by
  simp only [mapM_ok_iff, tagText_ok_iff]

theorem tagEntries_ok_iff {tags : Option Value} {items : List Value} :
    tagEntries tags = .ok items ↔ TagEntries tags items := by
  constructor
  · intro h
    unfold tagEntries at h
    split at h
    · cases h
      exact .absent (.inl rfl)
    · cases h
      exact .absent (.inr rfl)
    · split at h
      · next hdata =>
        cases h
        exact .envelope hdata
      · next hdata =>
        cases h
        exact .emptyEnvelope (.inl hdata)
      · next hdata =>
        cases h
        exact .emptyEnvelope (.inr hdata)
      · cases h
    · cases h
      exact .list _
    · cases h
  · intro h
    cases h with
    | absent h => rcases h with rfl | rfl <;> rfl
    | list => rfl
    | emptyEnvelope h => rcases h with h | h <;> simp only [tagEntries, h]
    | envelope h => simp only [tagEntries, h]

theorem tagTexts_ok_iff {tags : Option Value} {texts : List String} :
    tagTexts tags = .ok texts ↔ ∃ items unsorted, TagEntries tags items ∧
      List.Forall₂ TagEntry items unsorted ∧ sortTexts unsorted = texts := by
  simp only [← tagEntries_ok_iff, ← mapM_tagText_ok_iff]
  unfold tagTexts
  cases tagEntries tags with
  | error e => simp [bind, Except.bind]
  | ok items =>
    cases hm : items.mapM tagText <;> simp [bind, Except.bind, pure, Except.pure, hm]

theorem sortTexts_perm (texts : List String) : (sortTexts texts).Perm texts :=
  List.mergeSort_perm _ _

theorem ascends_iff {texts : List String} : texts.Pairwise (· ≤ ·) ↔
    texts.Pairwise fun s t => Text.Utf8.encode s.toList ≤ Text.Utf8.encode t.toList := by
  simp only [Text.Utf8.encode_le_iff]

/-- The optional texts, whether the indicator is wanted or not. -/
def plainTexts : List String :=
  ["type", "added_on", "last_updated", "privacy_type", "review_status", "status", "severity",
   "share_level"]

/-- What the members of an object have to be for it to be read. -/
structure Accepted (wanted : Bool) (ms : Members Value) : Prop where
  id : ∃ s, ms.get? "id" = some (.string s)
  tags : ∃ items, TagEntries (ms.get? "tags") items ∧ ∀ item ∈ items, ∃ s, TagEntry item s
  description : Optionally IsText (ms.get? "description")
  indicator : wanted = true → Optionally IsText (ms.get? "raw_indicator")
  texts : ∀ name ∈ plainTexts, Optionally IsText (ms.get? name)
  confidence : Optionally IsInt64 (ms.get? "confidence")
  owner : Optionally IsOwner (ms.get? "owner")

/-- What a descriptor holds of the members that it was read from. -/
structure Describes (wanted : Bool) (ms : Members Value) (d : Descriptor) : Prop where
  id : ms.get? "id" = some (.string d.id)
  rawIndicator : if wanted then HoldsText (ms.get? "raw_indicator") d.rawIndicator
    else d.rawIndicator = none
  indicatorType : HoldsText (ms.get? "type") d.indicatorType
  addedOn : HoldsText (ms.get? "added_on") d.addedOn
  lastUpdated : HoldsText (ms.get? "last_updated") d.lastUpdated
  confidence : Holds (fun v n => v = .ofInt n) (ms.get? "confidence") d.confidence
  owner : Holds (fun v o => Owner.decode v = .ok o) (ms.get? "owner") d.owner
  privacyType : HoldsText (ms.get? "privacy_type") d.privacyType
  reviewStatus : HoldsText (ms.get? "review_status") d.reviewStatus
  status : HoldsText (ms.get? "status") d.status
  severity : HoldsText (ms.get? "severity") d.severity
  shareLevel : HoldsText (ms.get? "share_level") d.shareLevel
  tags : ∃ items texts, TagEntries (ms.get? "tags") items ∧ List.Forall₂ TagEntry items texts ∧
    d.tags.Perm texts
  tags_ascend :
    d.tags.Pairwise fun s t => Text.Utf8.encode s.toList ≤ Text.Utf8.encode t.toList
  description : ms.get? "description" = some (.string d.description) ∨
    Absent (ms.get? "description") ∧ d.description = ""
  reactions : Holds (fun v w => v = w) (ms.get? "reactions") d.reactions
  myReactions : Holds (fun v w => v = w) (ms.get? "my_reactions") d.myReactions
  /-- The other members, in the order of their names and as they are. -/
  extra : d.extra = ms.sorted.filter fun m => m.1 ∉ fieldNames

section Reshaped

variable {ms : Members Value} {tags : List String} {wanted : Bool} {name : String}

theorem get?_reshape_of_ne (htags : name ≠ "tags") (hdescription : name ≠ "description")
    (hindicator : name = "raw_indicator" → wanted = true) :
    Members.get? name (reshape ms.sorted tags wanted) = Members.get? name ms := by
  have hshown : Members.get? name (reshape ms.sorted tags true) = Members.get? name ms := by
    simp only [reshape, if_true]
    split <;> simp [get?_insert, htags.symm, hdescription.symm]
  cases wanted with
  | true => exact hshown
  | false =>
    have hne : name ≠ "raw_indicator" := fun h => by simpa using hindicator h
    rw [reshape_false, get?_erase, if_neg hne]
    exact hshown

theorem get?_indicator_reshape_false :
    Members.get? "raw_indicator" (reshape ms.sorted tags false) = none := by
  rw [reshape_false, get?_erase, if_pos rfl]

theorem get?_description_reshape (ms : Members Value) (tags : List String) (wanted : Bool) :
    (Absent (Members.get? "description" ms) ∧
      Members.get? "description" (reshape ms.sorted tags wanted) = some (.string "")) ∨
    ∃ v, v ≠ .null ∧ Members.get? "description" ms = some v ∧
      Members.get? "description" (reshape ms.sorted tags wanted) = some v := by
  have hkept : Members.get? "description" (reshape ms.sorted tags wanted) =
      Members.get? "description" (reshape ms.sorted tags true) := by
    cases wanted with
    | true => rfl
    | false => rw [reshape_false, get?_erase, if_neg (by decide)]
  have htags : Members.get? "description" (ms.sorted.insert "tags" (.array (tags.map .string))) =
      Members.get? "description" ms := by
    rw [get?_insert, if_neg (by decide), get?_sorted]
  rw [hkept]
  simp only [reshape, if_true, htags]
  cases hd : Members.get? "description" ms with
  | none => exact .inl ⟨.inl rfl, by simp [get?_insert]⟩
  | some v =>
    by_cases hv : v = .null
    · subst hv
      exact .inl ⟨.inr rfl, by simp [get?_insert]⟩
    · refine .inr ⟨v, hv, rfl, ?_⟩
      cases v with
      | null => exact absurd rfl hv
      | _ => simp [htags, hd]

theorem checked_iff : firstMismatch check (reshape ms.sorted tags wanted) = none ↔
    ∀ name v, Members.get? name (reshape ms.sorted tags wanted) = some v → check name v = none := by
  have hordered := ordered_reshape (ordered_sorted ms) tags wanted
  rw [firstMismatch_eq_none_iff]
  constructor
  · intro h name v hv
    exact h (name, v) (Members.mem_of_get? hv)
  · intro h m hm
    exact h m.1 m.2 (hordered.get?_of_mem hm)

end Reshaped

theorem plainTexts_names : ∀ name ∈ plainTexts, name ∈ textFields ∧ name ≠ "tags" ∧
    name ≠ "description" ∧ name ≠ "raw_indicator" := by decide

theorem fieldNames_cases : ∀ name ∈ fieldNames, name ∈ plainTexts ∨ name = "id" ∨
    name = "raw_indicator" ∨ name = "confidence" ∨ name = "owner" ∨ name = "tags" ∨
    name = "description" ∨ name = "reactions" ∨ name = "my_reactions" := by decide

variable {ms : Members Value} {wanted : Bool}

theorem Accepted.checked (h : Accepted wanted ms) (tags : List String) :
    firstMismatch check (reshape ms.sorted tags wanted) = none := by
  refine checked_iff.2 fun name v hv => ?_
  by_cases hname : name ∈ fieldNames
  · rcases fieldNames_cases name hname with
      hplain | rfl | rfl | rfl | rfl | rfl | rfl | rfl | rfl
    · obtain ⟨htext, htags, hdescription, hindicator⟩ := plainTexts_names name hplain
      rw [get?_reshape_of_ne htags hdescription (fun h => absurd h hindicator)] at hv
      exact (check_text_iff htext v).2 (optionally_iff.1 (h.texts name hplain) v hv)
    · rw [get?_reshape_of_ne (by decide) (by decide) (by simp)] at hv
      obtain ⟨s, hs⟩ := h.id
      rw [hs] at hv
      exact (check_id_iff v).2 ⟨s, (Option.some.inj hv).symm⟩
    · cases wanted with
      | true =>
        rw [get?_reshape_of_ne (by decide) (by decide) (fun _ => rfl)] at hv
        exact (check_text_iff (by decide) v).2 (optionally_iff.1 (h.indicator rfl) v hv)
      | false =>
        rw [get?_indicator_reshape_false] at hv
        cases hv
    · rw [get?_reshape_of_ne (by decide) (by decide) (by simp)] at hv
      exact (check_confidence_iff v).2 (optionally_iff.1 h.confidence v hv)
    · rw [get?_reshape_of_ne (by decide) (by decide) (by simp)] at hv
      exact (check_owner_iff v).2 (optionally_iff.1 h.owner v hv)
    · rw [get?_tags_reshape] at hv
      exact Option.some.inj hv ▸ check_tags tags
    · rcases get?_description_reshape ms tags wanted with
        ⟨-, hd⟩ | ⟨w, hw, hms, hd⟩
      · rw [hd] at hv
        exact (check_description_iff v).2 ⟨"", (Option.some.inj hv).symm⟩
      · rw [hd] at hv
        obtain rfl := Option.some.inj hv
        exact (check_description_iff w).2
          ((optionally_iff.1 h.description w hms).resolve_left hw)
    · rfl
    · rfl
  · exact check_of_notMem hname v

theorem accepted_of_checked {tags : List String} {id : String}
    (hchecked : firstMismatch check (reshape ms.sorted tags wanted) = none)
    (hid : textAt? "id" (reshape ms.sorted tags wanted) = some id)
    (htags : tagTexts (ms.get? "tags") = .ok tags) : Accepted wanted ms := by
  have hcheck := checked_iff.1 hchecked
  have hget : ∀ name, name ≠ "tags" → name ≠ "description" →
      (name = "raw_indicator" → wanted = true) → ∀ v, ms.get? name = some v →
      check name v = none := by
    intro name h₁ h₂ h₃ v hv
    rw [← @get?_reshape_of_ne _ tags _ _ h₁ h₂ h₃] at hv
    exact hcheck name v hv
  refine ⟨?_, ?_, ?_, fun hwanted => ?_, fun name hname => ?_, ?_, ?_⟩
  · rw [textAt?, get?_reshape_of_ne (by decide) (by decide) (by simp)] at hid
    obtain ⟨v, hv, hs⟩ := Option.bind_eq_some_iff.1 hid
    obtain ⟨s, rfl⟩ := (check_id_iff v).1 (hget "id" (by decide) (by decide) (by simp) v hv)
    exact ⟨s, hv⟩
  · obtain ⟨items, unsorted, hitems, hentries, -⟩ := tagTexts_ok_iff.1 htags
    refine ⟨items, hitems, fun item hitem => ?_⟩
    exact exists_forall₂_iff.1 ⟨unsorted, hentries⟩ item hitem
  · refine optionally_iff.2 fun v hv => ?_
    rcases get?_description_reshape ms tags wanted with
      ⟨habsent | habsent, -⟩ | ⟨w, -, hw, hd⟩
    · rw [habsent] at hv
      cases hv
    · rw [habsent] at hv
      exact .inl (Option.some.inj hv).symm
    · rw [hw] at hv
      obtain rfl := Option.some.inj hv
      exact .inr ((check_description_iff w).1 (hcheck _ _ hd))
  · have htext : "raw_indicator" ∈ textFields := by decide
    refine optionally_iff.2 fun v hv => (check_text_iff htext v).1 ?_
    exact hget "raw_indicator" (by decide) (by decide) (fun _ => hwanted) v hv
  · obtain ⟨htext, h₁, h₂, h₃⟩ := plainTexts_names name hname
    refine optionally_iff.2 fun v hv => (check_text_iff htext v).1 ?_
    exact hget name h₁ h₂ (fun h => absurd h h₃) v hv
  · refine optionally_iff.2 fun v hv => (check_confidence_iff v).1 ?_
    exact hget "confidence" (by decide) (by decide) (by simp) v hv
  · refine optionally_iff.2 fun v hv => (check_owner_iff v).1 ?_
    exact hget "owner" (by decide) (by decide) (by simp) v hv

theorem holdsText_textAt? {name : String} (h : Optionally IsText (ms.get? name)) :
    HoldsText (ms.get? name) (textAt? name ms) := by
  unfold textAt?
  rcases h with (h | h) | ⟨w, h, s, rfl⟩
  · rw [h]
    exact .inl rfl
  · rw [h]
    exact .inr rfl
  · rw [h]
    exact ⟨.string s, rfl, by simp, rfl⟩

theorem holds_readAt {α : Type} {read : Value → Except Mismatch α} {name : String}
    (hnull : ∀ a, read .null ≠ .ok a)
    (h : Optionally (fun v => ∃ a, read v = .ok a) (ms.get? name)) :
    Holds (fun v a => read v = .ok a) (ms.get? name) (readAt read name ms) := by
  unfold readAt
  rcases h with (h | h) | ⟨w, h, a, ha⟩
  · rw [h]
    exact .inl rfl
  · rw [h]
    cases hread : read .null with
    | ok a => exact absurd hread (hnull a)
    | error e =>
      simp only [Option.map_some, hread]
      exact .inr rfl
  · rw [h, Option.map_some, ha]
    refine ⟨w, rfl, ?_, ha⟩
    rintro rfl
    exact hnull a ha

theorem holds_valueAt (name : String) (ms : Members Value) :
    Holds (fun v w => v = w) (ms.get? name) (valueAt name ms) := by
  unfold valueAt
  split
  · next h =>
    rw [h]
    exact .inr rfl
  · next hne =>
    cases hv : ms.get? name with
    | none => exact .inl rfl
    | some v => exact ⟨v, rfl, fun h => hne (h ▸ hv), rfl⟩

theorem describes_ofMembers {tags unsorted : List String} {items : List Value} {id : String}
    (h : Accepted wanted ms) (hid : ms.get? "id" = some (.string id))
    (hitems : TagEntries (ms.get? "tags") items) (hentries : List.Forall₂ TagEntry items unsorted)
    (htags : sortTexts unsorted = tags) :
    Describes wanted ms (ofMembers id (reshape ms.sorted tags wanted)) := by
  have htext : ∀ name ∈ plainTexts,
      HoldsText (ms.get? name) (textAt? name (reshape ms.sorted tags wanted)) := by
    intro name hname
    obtain ⟨-, h₁, h₂, h₃⟩ := plainTexts_names name hname
    rw [textAt?, get?_reshape_of_ne h₁ h₂ (fun h => absurd h h₃)]
    exact holdsText_textAt? (h.texts name hname)
  simp only [plainTexts, List.forall_mem_cons] at htext
  obtain ⟨htype, hadded, hupdated, hprivacy, hreview, hstatus, hseverity, hshare, -⟩ := htext
  refine ⟨hid, ?_, htype, hadded, hupdated, ?_, ?_, hprivacy, hreview, hstatus, hseverity, hshare,
    ⟨items, unsorted, hitems, hentries, ?_⟩, ?_, ?_, ?_, ?_, ?_⟩
  · cases wanted with
    | true =>
      simp only [if_true, ofMembers, textAt?]
      rw [get?_reshape_of_ne (by decide) (by decide) (fun _ => rfl)]
      exact holdsText_textAt? (h.indicator rfl)
    | false =>
      simp only [Bool.false_eq_true, if_false, ofMembers, textAt?, get?_indicator_reshape_false]
      rfl
  · simp only [ofMembers, readAt]
    rw [get?_reshape_of_ne (by decide) (by decide) (by simp)]
    refine (holds_readAt (fun a ha => by cases ha) ?_).imp fun v n hn => (readInt64_ok_iff.1 hn).1
    simp only [readInt64_ok_iff]
    exact h.confidence
  · simp only [ofMembers, readAt]
    rw [get?_reshape_of_ne (by decide) (by decide) (by simp)]
    exact holds_readAt (fun a ha => by cases ha) h.owner
  · simp only [ofMembers, readAt_tags (get?_tags_reshape _ tags wanted), Option.getD_some]
    exact htags ▸ sortTexts_perm unsorted
  · simp only [ofMembers, readAt_tags (get?_tags_reshape _ tags wanted), Option.getD_some]
    exact ascends_iff.1 (htags ▸ sortTexts_sorted unsorted)
  · simp only [ofMembers, textAt?]
    rcases get?_description_reshape ms tags wanted with ⟨habsent, hd⟩ | ⟨w, hw, hms, hd⟩
    · exact .inr ⟨habsent, by rw [hd]; rfl⟩
    · obtain ⟨s, rfl⟩ := (optionally_iff.1 h.description w hms).resolve_left hw
      exact .inl (by rw [hd, hms]; rfl)
  · simp only [ofMembers, valueAt]
    rw [get?_reshape_of_ne (by decide) (by decide) (by simp)]
    exact holds_valueAt "reactions" ms
  · simp only [ofMembers, valueAt]
    rw [get?_reshape_of_ne (by decide) (by decide) (by simp)]
    exact holds_valueAt "my_reactions" ms
  · refine ((ordered_reshape (ordered_sorted ms) tags wanted).filter _).ext
      ((ordered_sorted ms).filter _) fun name => ?_
    rw [get?_filter (fun n => n ∉ fieldNames), get?_filter (fun n => n ∉ fieldNames), get?_sorted]
    by_cases hname : name ∈ fieldNames
    · simp [hname]
    · have hne : ∀ n ∈ fieldNames, name ≠ n := fun n hn h => hname (h ▸ hn)
      rw [get?_reshape_of_ne (hne _ (by decide)) (hne _ (by decide))
        (fun h => absurd h (hne _ (by decide)))]

/-- Members that differ in the order of the tags only, or in the envelope around them. -/
structure Reordered (ms ms' : Members Value) : Prop where
  others : ∀ name, name ≠ "tags" → ms'.get? name = ms.get? name
  entries : ∃ items items', TagEntries (ms.get? "tags") items ∧
    TagEntries (ms'.get? "tags") items' ∧ items.Perm items'

theorem tagEntry_unique {item : Value} {s t : String} (h : TagEntry item s) (h' : TagEntry item t) :
    s = t := by
  have heq := (tagText_ok_iff.2 h).symm.trans (tagText_ok_iff.2 h')
  exact Except.ok.inj heq

theorem tagEntries_unique {tags : Option Value} {items items' : List Value}
    (h : TagEntries tags items) (h' : TagEntries tags items') : items = items' := by
  have heq := (tagEntries_ok_iff.2 h).symm.trans (tagEntries_ok_iff.2 h')
  exact Except.ok.inj heq

variable {ms' : Members Value} {d d' : Descriptor}

theorem Accepted.reordered (h : Accepted wanted ms) (hr : Reordered ms ms') :
    Accepted wanted ms' := by
  obtain ⟨items, items', hitems, hitems', hperm⟩ := hr.entries
  have hget := hr.others
  refine ⟨?_, ⟨items', hitems', ?_⟩, ?_, fun hwanted => ?_, fun name hname => ?_, ?_, ?_⟩
  · rw [hget "id" (by decide)]
    exact h.id
  · obtain ⟨entries, hentries, htexts⟩ := h.tags
    obtain rfl := tagEntries_unique hentries hitems
    exact fun item hitem => htexts item (hperm.mem_iff.2 hitem)
  · rw [hget "description" (by decide)]
    exact h.description
  · rw [hget "raw_indicator" (by decide)]
    exact h.indicator hwanted
  · rw [hget name (plainTexts_names name hname).2.1]
    exact h.texts name hname
  · rw [hget "confidence" (by decide)]
    exact h.confidence
  · rw [hget "owner" (by decide)]
    exact h.owner

theorem Describes.tags_unique (h : Describes wanted ms d) (h' : Describes wanted ms' d')
    (hr : Reordered ms ms') : d.tags = d'.tags := by
  obtain ⟨items, texts, hitems, htexts, hperm⟩ := h.tags
  obtain ⟨items', texts', hitems', htexts', hperm'⟩ := h'.tags
  obtain ⟨as, as', has, has', hmoved⟩ := hr.entries
  obtain rfl := tagEntries_unique has hitems
  obtain rfl := tagEntries_unique has' hitems'
  have hentry : Relator.RightUnique TagEntry := fun _ _ _ => tagEntry_unique
  have hsame : texts.Perm texts' := List.rel_perm_imp hentry htexts htexts' hmoved
  refine ((hperm.trans hsame).trans hperm'.symm).eq_of_pairwise (fun s t _ _ => String.le_antisymm)
    (ascends_iff.2 h.tags_ascend) (ascends_iff.2 h'.tags_ascend)

/-- Members say what the descriptor is, whatever the order of their tags. -/
theorem Describes.unique (h : Describes wanted ms d) (h' : Describes wanted ms' d')
    (hr : Reordered ms ms') : d = d' := by
  have htags := h.tags_unique h' hr
  have hget := hr.others
  have htext : ∀ {name : String} {field field' : Option String}, name ≠ "tags" →
      HoldsText (ms.get? name) field → HoldsText (ms'.get? name) field' → field = field' := by
    intro name field field' hname hfield hfield'
    rw [hget name hname] at hfield'
    exact holds_unique (by rintro w a b rfl hb; exact Value.string.inj hb) hfield hfield'
  have hvalue : ∀ {name : String} {field field' : Option Value}, name ≠ "tags" →
      Holds (fun v w => v = w) (ms.get? name) field →
      Holds (fun v w => v = w) (ms'.get? name) field' → field = field' := by
    intro name field field' hname hfield hfield'
    rw [hget name hname] at hfield'
    exact holds_unique (by rintro w a b rfl hb; exact hb) hfield hfield'
  have hid : d.id = d'.id := by
    have hsame := h'.id
    rw [hget "id" (by decide), h.id] at hsame
    simpa using hsame
  have hindicator : d.rawIndicator = d'.rawIndicator := by
    cases wanted with
    | true => exact htext (by decide) h.rawIndicator h'.rawIndicator
    | false => exact h.rawIndicator.trans h'.rawIndicator.symm
  have hconfidence : d.confidence = d'.confidence := by
    have hsame := h'.confidence
    rw [hget "confidence" (by decide)] at hsame
    refine holds_unique (fun w a b ha hb => ?_) h.confidence hsame
    simpa [Value.ofInt] using ha.symm.trans hb
  have howner : d.owner = d'.owner := by
    have hsame := h'.owner
    rw [hget "owner" (by decide)] at hsame
    exact holds_unique (fun w a b ha hb => Except.ok.inj (ha.symm.trans hb)) h.owner hsame
  have hdescription : d.description = d'.description := by
    have hsame := h'.description
    rw [hget "description" (by decide)] at hsame
    rcases h.description with hd | ⟨habsent, he⟩ <;> rcases hsame with hd' | ⟨habsent', he'⟩
    · simpa using hd.symm.trans hd'
    · rcases habsent' with h | h <;> simp [h] at hd
    · rcases habsent with h | h <;> simp [h] at hd'
    · exact he.trans he'.symm
  have hextra : d.extra = d'.extra := by
    rw [h.extra, h'.extra]
    refine ((ordered_sorted ms).filter _).ext ((ordered_sorted ms').filter _) fun name => ?_
    rw [get?_filter (fun n => n ∉ fieldNames), get?_filter (fun n => n ∉ fieldNames), get?_sorted,
      get?_sorted]
    by_cases hname : name ∈ fieldNames
    · simp [hname]
    · have hne : name ≠ "tags" := fun h => hname (h ▸ by decide)
      rw [hget name hne]
  cases d
  cases d'
  simp only [Descriptor.mk.injEq]
  exact ⟨hid, hindicator, htext (by decide) h.indicatorType h'.indicatorType,
    htext (by decide) h.addedOn h'.addedOn, htext (by decide) h.lastUpdated h'.lastUpdated,
    hconfidence, howner, htext (by decide) h.privacyType h'.privacyType,
    htext (by decide) h.reviewStatus h'.reviewStatus, htext (by decide) h.status h'.status,
    htext (by decide) h.severity h'.severity, htext (by decide) h.shareLevel h'.shareLevel, htags,
    hdescription, hvalue (by decide) h.reactions h'.reactions,
    hvalue (by decide) h.myReactions h'.myReactions, hextra⟩

theorem Accepted.normalize (h : Accepted wanted ms) :
    ∃ d, normalize (.object ms) wanted = .ok d ∧ Describes wanted ms d := by
  obtain ⟨id, hid⟩ := h.id
  obtain ⟨items, hitems, htexts⟩ := h.tags
  obtain ⟨unsorted, hentries⟩ := exists_forall₂_iff.2 htexts
  have htags : tagTexts (ms.get? "tags") = .ok (sortTexts unsorted) :=
    tagTexts_ok_iff.2 ⟨items, unsorted, hitems, hentries, rfl⟩
  have hid' : textAt? "id" (reshape ms.sorted (sortTexts unsorted) wanted) = some id := by
    rw [textAt?, get?_reshape_of_ne (by decide) (by decide) (by simp), hid]
    rfl
  refine ⟨_, normalize_ok_iff.2 ⟨ms, _, rfl, by simp [hid], htags, ?_⟩,
    describes_ofMembers h hid hitems hentries rfl⟩
  exact decode_ok_iff.2 ⟨h.checked _, id, hid', rfl⟩

theorem accepted_of_normalize {raw : Value} (h : normalize raw wanted = .ok d) :
    ∃ ms, raw = .object ms ∧ Accepted wanted ms := by
  obtain ⟨ms, tags, rfl, -, htags, hdecode⟩ := normalize_ok_iff.1 h
  obtain ⟨hchecked, id, hid, -⟩ := decode_ok_iff.1 hdecode
  exact ⟨ms, rfl, accepted_of_checked hchecked hid htags⟩

theorem describes_of_normalize (h : normalize (.object ms) wanted = .ok d) :
    Accepted wanted ms ∧ Describes wanted ms d := by
  obtain ⟨_, ⟨⟩, haccepted⟩ := accepted_of_normalize h
  obtain ⟨d', hd', hdescribes⟩ := haccepted.normalize
  obtain rfl := Except.ok.inj (h.symm.trans hd')
  exact ⟨haccepted, hdescribes⟩

/-- Normalizing reads exactly the accepted objects, into the one descriptor that describes them.
The order of the tags makes no difference. -/
theorem normalize_reads_grammar (wanted : Bool) :
    (∀ raw, (∃ d, normalize raw wanted = .ok d) ↔
      ∃ ms, raw = .object ms ∧ Accepted wanted ms) ∧
    (∀ ms d, normalize (.object ms) wanted = .ok d ↔
      Accepted wanted ms ∧ Describes wanted ms d) ∧
    (∀ ms ms' d, Reordered ms ms' → normalize (.object ms) wanted = .ok d →
      normalize (.object ms') wanted = .ok d) := by
  have hread : ∀ ms d, normalize (.object ms) wanted = .ok d ↔
      Accepted wanted ms ∧ Describes wanted ms d := by
    intro ms d
    refine ⟨describes_of_normalize, fun ⟨haccepted, hdescribes⟩ => ?_⟩
    obtain ⟨d', hd', hdescribes'⟩ := haccepted.normalize
    have hself : Reordered ms ms := by
      obtain ⟨items, hitems, -⟩ := haccepted.tags
      exact ⟨fun _ _ => rfl, items, items, hitems, hitems, .refl items⟩
    rw [hd', hdescribes.unique hdescribes' hself]
  refine ⟨fun raw => ⟨?_, ?_⟩, hread, fun ms ms' d hr h => ?_⟩
  · rintro ⟨d, h⟩
    exact accepted_of_normalize h
  · rintro ⟨ms, rfl, haccepted⟩
    obtain ⟨d, hd, -⟩ := haccepted.normalize
    exact ⟨d, hd⟩
  · obtain ⟨haccepted, hdescribes⟩ := (hread ms d).1 h
    obtain ⟨d', hd', hdescribes'⟩ := (haccepted.reordered hr).normalize
    rw [hd', hdescribes.unique hdescribes' hr]

/-- The members of `received` with the tags the other way round and out of their envelope. -/
def receivedFlat : Members Value :=
  [("id", .string "7"), ("raw_indicator", .string "evil.example.com"),
    ("tags", .array [.string "a", .object [("text", .string "b")]]),
    ("description", .null), ("first_active", .string "2020")]

theorem normalize_receivedFlat : ∃ d, normalize (.object received) true = .ok d ∧
    normalize (.object receivedFlat) true = .ok d ∧ d.description = "" ∧
    d.rawIndicator = some "evil.example.com" ∧ d.extra = [("first_active", .string "2020")] := by
  obtain ⟨hread, hwhole, hreorder⟩ := normalize_reads_grammar true
  have haccepted : Accepted true received := by
    refine ⟨⟨"7", rfl⟩, ⟨_, .envelope rfl, ?_⟩, .inl (.inr rfl), fun _ => .inr ⟨_, rfl, _, rfl⟩,
      fun name hname => .inl (.inl ?_), .inl (.inl rfl), .inl (.inl rfl)⟩
    · simp only [List.forall_mem_cons, List.not_mem_nil, false_imp_iff, implies_true, and_true]
      exact ⟨⟨"b", .labelled rfl⟩, ⟨"a", .plain "a"⟩⟩
    · revert name
      decide
  have hr : Reordered received receivedFlat := by
    refine ⟨fun name hname => ?_, _, _, .envelope rfl, .list _, .swap ..⟩
    simp [received, receivedFlat, Members.get?, hname.symm]
  obtain ⟨d, hd⟩ := (hread (.object received)).2 ⟨received, rfl, haccepted⟩
  obtain ⟨-, hdescribes⟩ := (hwhole received d).1 hd
  refine ⟨d, hd, hreorder received receivedFlat d hr hd, ?_, ?_, ?_⟩
  · rcases hdescribes.description with h | ⟨-, h⟩
    · cases h
    · exact h
  · refine holds_unique (fun w a b ha hb => ?_) hdescribes.rawIndicator ⟨_, rfl, by simp, rfl⟩
    simpa using ha.symm.trans hb
  · rw [hdescribes.extra]
    decide +kernel

end Descriptor
end ThreatGraph
