import Mathlib.Data.List.Nodup
import ThreatGraph.Proofs.NormalForm

/-!
# The members that a descriptor is written as

The fields of a descriptor and its other members share the names of one object.  A descriptor whose
fields are `Typed` and `Separate` from the others is written with each of them once and is read back
as it was, whatever the order of its tags.  No other one is.
-/

namespace ThreatGraph

open Json (Value Members)
open Json.Members (get?_sorted ordered_sorted mem_of_mem_sorted mem_sorted_iff)

def present (ms : Members (Option Value)) : Members Value :=
  ms.flatMap fun m => memberOf m.1 (fun v => v) m.2

theorem memberOf_map {α : Type} (name : String) (write : α → Value) (o : Option α) :
    memberOf name (fun v => v) (o.map write) = memberOf name write o := by
  cases o <;> rfl

theorem mem_present {ms : Members (Option Value)} {m : String × Value} (h : m ∈ present ms) :
    (m.1, some m.2) ∈ ms := by
  obtain ⟨⟨name, o⟩, hname, hm⟩ := List.mem_flatMap.1 h
  cases o with
  | none => cases hm
  | some v =>
    obtain rfl := List.mem_singleton.1 hm
    exact hname

theorem names_present_sublist (ms : Members (Option Value)) :
    (present ms).names.Sublist ms.names := by
  induction ms with
  | nil => exact .slnil
  | cons m ms ih =>
    obtain ⟨name, o⟩ := m
    cases o with
    | none => exact ih.cons name
    | some v => exact ih.cons_cons name

namespace Descriptor

variable {d : Descriptor}

/-- What each field is written as, if it is set.  The three that cannot be missing always are. -/
def written (d : Descriptor) : Members (Option Value) :=
  [("id", some (.string d.id)),
   ("raw_indicator", d.rawIndicator.map .string),
   ("type", d.indicatorType.map .string),
   ("added_on", d.addedOn.map .string),
   ("last_updated", d.lastUpdated.map .string),
   ("confidence", d.confidence.map .ofInt),
   ("owner", d.owner.map Owner.toJson),
   ("privacy_type", d.privacyType.map .string),
   ("review_status", d.reviewStatus.map .string),
   ("status", d.status.map .string),
   ("severity", d.severity.map .string),
   ("share_level", d.shareLevel.map .string),
   ("tags", some (.array (d.tags.map .string))),
   ("description", some (.string d.description)),
   ("reactions", d.reactions),
   ("my_reactions", d.myReactions)]

theorem names_written (d : Descriptor) : d.written.names = fieldNames := rfl

theorem members_eq (d : Descriptor) : d.members = present d.written ++ d.extra := by
  simp only [present, written, List.flatMap_cons, List.flatMap_nil, memberOf_map, members,
    List.append_assoc, List.append_nil]
  rfl

theorem names_fields_sublist (d : Descriptor) : (present d.written).names.Sublist fieldNames := by
  rw [← names_written d]
  exact names_present_sublist d.written

theorem nodup_names_members (ht : d.Typed) (hs : d.Separate) : d.members.names.Nodup := by
  have hfields : (present d.written).names.Nodup := d.names_fields_sublist.nodup (by decide)
  have hdisjoint : (present d.written).names.Disjoint d.extra.names := by
    intro name hfield hother
    -- a name on both sides would be an other member with the name of a field
    obtain ⟨m, hm, rfl⟩ := List.mem_map.1 hother
    exact hs.extra_names m hm (d.names_fields_sublist.subset hfield)
  rw [members_eq, Members.names, List.map_append]
  exact hfields.append ht.extra_ordered.nodup hdisjoint

theorem extra_members (hs : d.Separate) :
    d.members.filter (fun m => m.1 ∉ fieldNames) = d.extra := by
  have hfields : (present d.written).filter (fun m => m.1 ∉ fieldNames) = [] := by
    rw [List.filter_eq_nil_iff]
    intro m hm
    simpa using d.names_fields_sublist.subset (List.mem_map.2 ⟨m, hm, rfl⟩)
  have hextra : d.extra.filter (fun m => m.1 ∉ fieldNames) = d.extra := by
    rw [List.filter_eq_self]
    exact fun m hm => decide_eq_true (hs.extra_names m hm)
  rw [members_eq, List.filter_append, hfields, hextra, List.nil_append]

/-- Members that say all of a descriptor, and nothing else. -/
structure IsWrittenAs (d : Descriptor) (ms : Members Value) : Prop where
  /-- No name stands twice. -/
  once : ms.names.Nodup
  /-- The name of a field finds what the field is written as, and nothing if it is not set. -/
  fields : ∀ f ∈ d.written, ms.get? f.1 = f.2
  extra : ∀ m ∈ d.extra, m ∈ ms
  only : ∀ m ∈ ms, (m.1, some m.2) ∈ d.written ∨ m ∈ d.extra
  read : decode ms = .ok d

theorem isWrittenAs_members (ht : d.Typed) (hs : d.Separate) : d.IsWrittenAs d.members where
  once := nodup_names_members ht hs
  fields := by
    simp only [written, List.forall_mem_cons, List.not_mem_nil, false_implies, implies_true,
      and_true]
    exact hs.get?_members
  extra := by
    intro m hm
    rw [members_eq]
    exact List.mem_append_right _ hm
  only := by
    intro m hm
    rw [members_eq] at hm
    exact (List.mem_append.1 hm).imp_left mem_present
  read := decode_written ht hs (fun _ hm => hm) (fun _ => rfl) (extra_members hs)

theorem isWrittenAs_sorted (ht : d.Typed) (hs : d.Separate) : d.IsWrittenAs d.members.sorted := by
  have h := isWrittenAs_members ht hs
  constructor
  case once => exact (ordered_sorted d.members).nodup
  case fields =>
    intro f hf
    rw [get?_sorted]
    exact h.fields f hf
  case extra => exact fun m hm => (mem_sorted_iff h.once).2 (h.extra m hm)
  case only => exact fun m hm => h.only m (mem_of_mem_sorted hm)
  case read => exact decode_sorted_members ht hs

theorem typed_separate_of_decode {ms : Members Value} (h : Members.Ordered ms)
    (hread : decode ms = .ok d) : d.Typed ∧ d.Separate := by
  obtain ⟨-, id, -, hd⟩ := decode_ok_iff.1 hread
  rw [← hd]
  exact ⟨typed_ofMembers id h, separate_ofMembers id ms⟩

/-- Descriptors that were normalized have their fields apart from the other members.  A descriptor
with its fields apart is written as members that say all of it once and are read back as it was, in
the order of a line and in that of the object.  Only such descriptors are read back. -/
theorem fields_apart_read_back :
    (∀ raw wanted d, normalize raw wanted = .ok d → d.Typed ∧ d.Separate) ∧
    (∀ d : Descriptor, d.Typed → d.Separate →
      d.IsWrittenAs d.members ∧ ∃ ms, d.toJson = .object ms ∧ d.IsWrittenAs ms) ∧
    ∀ (d : Descriptor) (ms : Members Value), d.toJson = .object ms → decode ms = .ok d →
      d.Typed ∧ d.Separate := by
  refine ⟨fun raw wanted d h => ?_, fun d ht hs => ?_, fun d ms hjson hread => ?_⟩
  · have hnormal := normal_of_normalize h
    exact ⟨hnormal.toTyped, hnormal.toSeparate⟩
  · exact ⟨isWrittenAs_members ht hs, d.members.sorted, rfl, isWrittenAs_sorted ht hs⟩
  · obtain rfl : d.members.sorted = ms := Value.object.inj hjson
    exact typed_separate_of_decode (ordered_sorted d.members) hread

def reported : Members Value :=
  [("id", .string "7"), ("confidence", .ofInt 50), ("owner", .object [("id", .string "42")]),
    ("tags", .array [.string "a", .string "b"]), ("description", .string "seen"),
    ("reactions", .object [("42", .string "HELPFUL")]), ("my_reactions", .null),
    ("precision", .null), ("first_active", .array [.ofInt 2020, .null])]

def retagged : Descriptor := { ofMembers "7" reported.sorted with tags := ["b", "a"] }

theorem retagged_read_back :
    normalize (.object reported) true = .ok (ofMembers "7" reported.sorted) ∧
    retagged.Typed ∧ retagged.Separate ∧
    retagged.members.names = ["id", "confidence", "owner", "tags", "description", "reactions",
      "first_active", "precision"] ∧
    decode retagged.members = .ok retagged ∧
    ∃ ms, retagged.toJson = .object ms ∧ decode ms = .ok retagged := by
  have hascend : ["a", "b"].Pairwise (· ≤ ·) := by decide
  have htags : tagTexts (Members.get? "tags" reported) = .ok ["a", "b"] := tagTexts_flat hascend
  have hnormal : normalize (.object reported) true = .ok (ofMembers "7" reported.sorted) :=
    normalize_ok_iff.2 ⟨reported, _, rfl, by decide, htags, rfl⟩
  obtain ⟨hapart, hread, -⟩ := fields_apart_read_back
  obtain ⟨ht, hs⟩ := hapart _ _ _ hnormal
  -- Neither of the two properties is about tags, so other tags keep them.
  have ht' : retagged.Typed := ⟨ht.confidence_fits, ht.extra_ordered⟩
  have hs' : retagged.Separate := ⟨hs.extra_names, hs.reactions_ne, hs.myReactions_ne⟩
  obtain ⟨hline, ms, hms, hobject⟩ := hread retagged ht' hs'
  exact ⟨hnormal, ht', hs', by decide +kernel, hline.read, ms, hms, hobject.read⟩

end Descriptor
end ThreatGraph
