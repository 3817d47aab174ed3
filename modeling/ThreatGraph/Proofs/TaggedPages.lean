import ThreatGraph.Proofs.Grammar
import ThreatGraph.Proofs.Pages

/-!
# Pages of tagged objects

Of a page of tagged objects only those items are read that say of themselves that they are threat
descriptors.  The page is read if each of these has an id and no ill-typed name, whatever else
stands between them, and what is read is one entry for each of them, in their order.
-/

namespace ThreatGraph

open Json (Value Members Mismatch RecordShape firstMismatch textAt?)

/-- An object with the type of a threat descriptor. -/
def IsDescriptorItem (item : Value) : Prop :=
  ∃ ms, item = .object ms ∧ Members.get? "type" ms = some (.string descriptorType)

theorem bind_text?_eq_some_iff {v : Option Value} {s : String} :
    v.bind Value.text? = some s ↔ v = some (.string s) := by
  rcases v with _ | (_ | _ | _ | _ | _ | _) <;> simp [Value.text?]

theorem claimsDescriptor_iff {item : Value} :
    claimsDescriptor item = true ↔ IsDescriptorItem item := by
  cases item <;>
    simp [claimsDescriptor, IsDescriptorItem, Value.get?, bind_text?_eq_some_iff]

theorem exists_holdsText_iff {v : Option Value} :
    (∃ field, HoldsText v field) ↔ Optionally IsText v := by
  constructor
  · rintro ⟨_ | s, h⟩
    · exact .inl h
    · obtain ⟨w, hv, -, rfl⟩ := h
      exact .inr ⟨_, hv, s, rfl⟩
  · rintro (h | ⟨w, hv, s, rfl⟩)
    · exact ⟨none, h⟩
    · exact ⟨some s, _, hv, by simp, rfl⟩

namespace TaggedObject

variable {ms : Members Value} {o : TaggedObject}

theorem check_eq_none_iff (name : String) (v : Value) :
    shape.check name v = none ↔
      (name ∈ ["id", "type"] → IsText v) ∧ (name = "name" → v = .null ∨ IsText v) := by
  have hrequired : Json.mismatch? (Json.readText v) = none ↔ IsText v := by
    rw [mismatch?_eq_none_iff]
    simp only [readText_ok_iff, IsText]
  have hoptional : Json.mismatch? (Json.readOptional Json.readText v) = none ↔
      v = .null ∨ IsText v := by
    rw [mismatch?_eq_none_iff, readOptional_ok_iff]
    simp only [readText_ok_iff, IsText]
  have hcheck : shape.check name v =
      if name ∈ ["id", "type"] then Json.mismatch? (Json.readText v)
      else if name ∈ ["id", "type", "name"] then
        Json.mismatch? (Json.readOptional Json.readText v)
      else none := rfl
  rw [hcheck]
  by_cases hname : name = "name"
  · subst hname
    simp [hoptional]
  · by_cases hmem : name ∈ ["id", "type"]
    · rw [if_pos hmem, hrequired]
      exact ⟨fun h => ⟨fun _ => h, fun h => absurd h hname⟩, fun h => h.1 hmem⟩
    · have hfields : name ∉ ["id", "type", "name"] := by
        simp only [List.mem_cons, List.not_mem_nil, or_false, not_or] at hmem ⊢
        exact ⟨hmem.1, hmem.2, hname⟩
      rw [if_neg hmem, if_neg hfields]
      exact ⟨fun _ => ⟨fun h => absurd h hmem, fun h => absurd h hname⟩, fun _ => rfl⟩

theorem require_object (r : RecordShape) (name : String) :
    r.require (.object ms) ms name =
      (textAt? name ms).elim (.error (.missingField name)) .ok := by
  unfold RecordShape.require
  cases textAt? name ms <;> rfl

theorem decode_eq_ok_iff : decode (.object ms) = .ok o ↔ firstMismatch shape.check ms = none ∧
    Members.get? "id" ms = some (.string o.id) ∧
    Members.get? "type" ms = some (.string o.objectType) ∧ textAt? "name" ms = o.name := by
  obtain ⟨id, objectType, name⟩ := o
  rw [← bind_text?_eq_some_iff, ← bind_text?_eq_some_iff, ← textAt?, ← textAt?]
  simp only [decode, RecordShape.members]
  cases firstMismatch shape.check ms with
  | some e => simp [bind, Except.bind]
  | none =>
    simp only [bind, Except.bind, require_object]
    cases textAt? "id" ms <;> cases textAt? "type" ms <;> simp [pure, Except.pure]

theorem decode_object_ok_iff (h : Members.Ordered ms) :
    decode (.object ms) = .ok o ↔ Members.get? "id" ms = some (.string o.id) ∧
      Members.get? "type" ms = some (.string o.objectType) ∧
      HoldsText (Members.get? "name" ms) o.name := by
  rw [decode_eq_ok_iff, firstMismatch, List.findSome?_eq_none_iff]
  constructor
  · rintro ⟨hcheck, hid, htype, hname⟩
    have htext : Optionally IsText (Members.get? "name" ms) := optionally_iff.2 fun v hv =>
      ((check_eq_none_iff "name" v).1 (hcheck _ (Members.mem_of_get? hv))).2 rfl
    exact ⟨hid, htype, hname ▸ Descriptor.holdsText_textAt? htext⟩
  · rintro ⟨hid, htype, hname⟩
    have htext := exists_holdsText_iff.1 ⟨_, hname⟩
    refine ⟨?_, hid, htype,
      holds_unique (fun _ _ _ ha hb => by cases ha; cases hb; rfl)
        (Descriptor.holdsText_textAt? htext) hname⟩
    rintro ⟨name, v⟩ hm
    have hv := h.get?_of_mem hm
    refine (check_eq_none_iff name v).2 ⟨fun hmem => ?_, ?_⟩
    · simp only [List.mem_cons, List.not_mem_nil, or_false] at hmem
      rcases hmem with rfl | rfl
      · exact ⟨_, Option.some.inj (hv.symm.trans hid)⟩
      · exact ⟨_, Option.some.inj (hv.symm.trans htype)⟩
    · rintro rfl
      exact optionally_iff.1 htext v hv

end TaggedObject

/-- The entry of a descriptor item.  It has the name of the item only if that is wanted. -/
inductive EntryOf (wanted : Bool) : Value → TaggedObject → Prop
  | intro {ms : Members Value} {id : String} {name : Option String}
    (hid : Members.get? "id" ms = some (.string id))
    (hname : HoldsText (Members.get? "name" ms) name) :
    EntryOf wanted (.object ms) ⟨id, descriptorType, if wanted then name else none⟩

/-- The entries of the descriptor items among some items, in their order. -/
inductive EntriesOf (wanted : Bool) : List Value → List TaggedObject → Prop
  | nil : EntriesOf wanted [] []
  | descriptor {item : Value} {items : List Value} {o : TaggedObject} {os : List TaggedObject}
    (hitem : IsDescriptorItem item) (ho : EntryOf wanted item o) (h : EntriesOf wanted items os) :
    EntriesOf wanted (item :: items) (o :: os)
  | other {item : Value} {items : List Value} {os : List TaggedObject}
    (hitem : ¬ IsDescriptorItem item) (h : EntriesOf wanted items os) :
    EntriesOf wanted (item :: items) os

/-- The same descriptor items in the same order, with any others between them. -/
inductive SameDescriptors : List Value → List Value → Prop
  | nil : SameDescriptors [] []
  | keep (item : Value) {items items' : List Value} (h : SameDescriptors items items') :
    SameDescriptors (item :: items) (item :: items')
  | insert {item : Value} {items items' : List Value} (hitem : ¬ IsDescriptorItem item)
    (h : SameDescriptors items items') : SameDescriptors items (item :: items')
  | delete {item : Value} {items items' : List Value} (hitem : ¬ IsDescriptorItem item)
    (h : SameDescriptors items items') : SameDescriptors (item :: items) items'
  | alter {item item' : Value} {items items' : List Value} (hitem : ¬ IsDescriptorItem item)
    (hitem' : ¬ IsDescriptorItem item') (h : SameDescriptors items items') :
    SameDescriptors (item :: items) (item' :: items')

section Items

variable {items items' : List Value} {item : Value} {os : List TaggedObject}

theorem filter_descriptor (h : IsDescriptorItem item) (items : List Value) :
    (item :: items).filter claimsDescriptor = item :: items.filter claimsDescriptor :=
  List.filter_cons_of_pos (claimsDescriptor_iff.2 h)

theorem filter_other (h : ¬ IsDescriptorItem item) (items : List Value) :
    (item :: items).filter claimsDescriptor = items.filter claimsDescriptor :=
  List.filter_cons_of_neg (mt claimsDescriptor_iff.1 h)

theorem entriesOf_iff {wanted : Bool} : EntriesOf wanted items os ↔
    List.Forall₂ (EntryOf wanted) (items.filter claimsDescriptor) os := by
  constructor
  · intro h
    induction h with
    | nil => exact .nil
    | descriptor hitem ho _ ih =>
      rw [filter_descriptor hitem]
      exact .cons ho ih
    | other hitem _ ih => rwa [filter_other hitem]
  · intro h
    induction items generalizing os with
    | nil =>
      cases h
      exact .nil
    | cons item items ih =>
      by_cases hitem : IsDescriptorItem item
      · rw [filter_descriptor hitem] at h
        cases h with
        | cons ho h => exact .descriptor hitem ho (ih h)
      · rw [filter_other hitem] at h
        exact .other hitem (ih h)

theorem EntriesOf.isDescriptor {wanted : Bool} (h : EntriesOf wanted items os) :
    ∀ o ∈ os, o.isDescriptor = true := by
  induction h with
  | nil => simp
  | descriptor _ ho _ ih =>
    cases ho
    exact List.forall_mem_cons.2 ⟨rfl, ih⟩
  | other _ _ ih => exact ih

theorem SameDescriptors.filter_eq (h : SameDescriptors items items') :
    items.filter claimsDescriptor = items'.filter claimsDescriptor := by
  induction h with
  | nil => rfl
  | keep item _ ih => rw [List.filter_cons, List.filter_cons, ih]
  | insert hitem _ ih => rw [filter_other hitem, ih]
  | delete hitem _ ih => rw [filter_other hitem, ih]
  | alter hitem hitem' _ ih => rw [filter_other hitem, filter_other hitem', ih]

theorem entryOf_iff {opts : QueryOptions} {o : TaggedObject} (hitem : IsDescriptorItem item)
    (hordered : ∀ ms, item = .object ms → Members.Ordered ms) :
    EntryOf opts.includeIndicator item o ↔
      ∃ o', TaggedObject.decode item = .ok o' ∧ stripName opts o' = o := by
  obtain ⟨ms, rfl, htype⟩ := hitem
  have hdecode := fun o' => TaggedObject.decode_object_ok_iff (o := o') (hordered ms rfl)
  constructor
  · rintro ⟨hid, hname⟩
    refine ⟨_, (hdecode ⟨_, descriptorType, _⟩).2 ⟨hid, htype, hname⟩, ?_⟩
    cases h : opts.includeIndicator <;> simp [stripName, h]
  · rintro ⟨⟨id, objectType, name⟩, ho', rfl⟩
    obtain ⟨hid, htype', hname⟩ := (hdecode _).1 ho'
    obtain rfl : descriptorType = objectType := by simpa using htype.symm.trans htype'
    have hentry : EntryOf opts.includeIndicator (.object ms) _ := .intro hid hname
    cases h : opts.includeIndicator <;> simpa [stripName, h] using hentry

theorem mapM_strip (opts : QueryOptions) (items : List Value) :
    (items.mapM TaggedObject.decode).map (·.map (stripName opts)) =
      items.mapM fun item => (TaggedObject.decode item).map (stripName opts) := by
  induction items with
  | nil => rfl
  | cons item items ih =>
    rw [List.mapM_cons, List.mapM_cons, ← ih]
    cases TaggedObject.decode item with
    | error m => rfl
    | ok o => cases items.mapM TaggedObject.decode <;> rfl

theorem taggedDescriptors_ok_iff {opts : QueryOptions} {page : Page}
    (hordered : ∀ ms, .object ms ∈ page.data → Members.Ordered ms) (t : Traffic) :
    ((taggedDescriptors opts page).run.run t).1 = .ok os ↔
      List.Forall₂ (EntryOf opts.includeIndicator) (page.data.filter claimsDescriptor) os := by
  have hmap {x : Except Mismatch (List TaggedObject)} :
      (x.mapError ofMismatch).map (·.map (stripName opts)) = .ok os ↔
        x.map (·.map (stripName opts)) = .ok os := by
    cases x <;> simp [Except.map]
  have hentry : ∀ item ∈ page.data.filter claimsDescriptor, ∀ o,
      (TaggedObject.decode item).map (stripName opts) = .ok o ↔
        EntryOf opts.includeIndicator item o := by
    intro item hmem o
    obtain ⟨hmem, hclaims⟩ := List.mem_filter.1 hmem
    rw [entryOf_iff (claimsDescriptor_iff.1 hclaims) fun ms hms => hordered ms (hms ▸ hmem)]
    cases TaggedObject.decode item <;> simp [Except.map]
  rw [taggedDescriptors_result, hmap, mapM_strip, mapM_ok_iff]
  exact forall₂_congr hentry

end Items

/-- What a page of tagged objects is read as. -/
structure ReadsDescriptors (opts : QueryOptions) (page : Page) : Prop where
  ok_iff : ∀ t, (∃ os, ((taggedDescriptors opts page).run.run t).1 = .ok os) ↔
    ∀ ms, .object ms ∈ page.data → Members.get? "type" ms = some (.string descriptorType) →
      (∃ id, Members.get? "id" ms = some (.string id)) ∧
        Optionally IsText (Members.get? "name" ms)
  entries : ∀ t os, ((taggedDescriptors opts page).run.run t).1 = .ok os ↔
    EntriesOf opts.includeIndicator page.data os
  descriptors : ∀ t os, ((taggedDescriptors opts page).run.run t).1 = .ok os →
    ∀ o ∈ os, o.isDescriptor = true
  ids : ∀ t, ((descriptorIds opts page).run.run t).1 =
    ((taggedDescriptors opts page).run.run t).1.map (·.map (·.id))
  /-- Items that are no descriptors change nothing, not even the error of a page that fails. -/
  others : ∀ page', SameDescriptors page.data page'.data → ∀ t t',
    ((taggedDescriptors opts page').run.run t').1 = ((taggedDescriptors opts page).run.run t).1

/-- Every page is read so.  The names of an object ascend, as they do in all that was read. -/
theorem page_reads_descriptors (opts : QueryOptions) (page : Page)
    (hordered : ∀ ms, .object ms ∈ page.data → Members.Ordered ms) :
    ReadsDescriptors opts page where
  ok_iff t := by
    have hentry (ms : Members Value) : (∃ o, EntryOf opts.includeIndicator (.object ms) o) ↔
        (∃ id, Members.get? "id" ms = some (.string id)) ∧
          Optionally IsText (Members.get? "name" ms) := by
      rw [← exists_holdsText_iff]
      constructor
      · rintro ⟨_, hid, hname⟩
        exact ⟨⟨_, hid⟩, ⟨_, hname⟩⟩
      · rintro ⟨⟨id, hid⟩, ⟨name, hname⟩⟩
        exact ⟨_, .intro hid hname⟩
    simp only [taggedDescriptors_ok_iff hordered t, exists_forall₂_iff, List.mem_filter,
      claimsDescriptor_iff]
    constructor
    · intro h ms hms htype
      exact (hentry ms).1 (h _ ⟨hms, ms, rfl, htype⟩)
    · rintro h _ ⟨hms, ms, rfl, htype⟩
      exact (hentry ms).2 (h ms hms htype)
  entries t os := (taggedDescriptors_ok_iff hordered t).trans entriesOf_iff.symm
  descriptors t os h := (entriesOf_iff.2 ((taggedDescriptors_ok_iff hordered t).1 h)).isDescriptor
  ids t := descriptorIds_eq opts page t
  others page' h t t' := by
    rw [taggedDescriptors_result, taggedDescriptors_result, h.filter_eq]

def mixedPage : Page where
  index := 0
  data :=
    [.object [("id", .string "1"), ("name", .string "evil.example.com"),
      ("type", .string "THREAT_DESCRIPTOR")],
     .object [("id", .ofInt 5), ("type", .string "THREAT_INDICATOR")], .array [], .null,
     .object [("id", .string "3"), ("name", .null), ("type", .string "THREAT_DESCRIPTOR")]]
  next := none

theorem mixedPage_reads :
    ((taggedDescriptors {} mixedPage).run.run (.start .down)).1 =
      .ok [⟨"1", "THREAT_DESCRIPTOR", some "evil.example.com"⟩, ⟨"3", "THREAT_DESCRIPTOR", none⟩] ∧
    ((taggedDescriptors { includeIndicator := false } mixedPage).run.run (.start .down)).1 =
      .ok [⟨"1", "THREAT_DESCRIPTOR", none⟩, ⟨"3", "THREAT_DESCRIPTOR", none⟩] := by
  have hordered : ∀ ms, .object ms ∈ mixedPage.data → Members.Ordered ms := by
    simp only [mixedPage, List.mem_cons, List.not_mem_nil, or_false, Value.object.injEq,
      reduceCtorEq, false_or]
    rintro ms (rfl | rfl | rfl) <;> unfold Members.Ordered <;> decide
  have hother {item : Value} (h : claimsDescriptor item = false) : ¬ IsDescriptorItem item :=
    fun hitem => by simp [claimsDescriptor_iff.2 hitem] at h
  have hentries (wanted : Bool) : EntriesOf wanted mixedPage.data
      [⟨"1", descriptorType, if wanted then some "evil.example.com" else none⟩,
       ⟨"3", descriptorType, if wanted then none else none⟩] := by
    refine .descriptor ⟨_, rfl, rfl⟩ (.intro rfl ⟨_, rfl, by simp, rfl⟩) ?_
    refine .other (hother rfl) (.other (hother rfl) (.other (hother rfl) ?_))
    exact .descriptor ⟨_, rfl, rfl⟩ (.intro rfl (.inr rfl)) .nil
  exact ⟨((page_reads_descriptors _ mixedPage hordered).entries _ _).2 (hentries true),
    ((page_reads_descriptors _ mixedPage hordered).entries _ _).2 (hentries false)⟩

end ThreatGraph
