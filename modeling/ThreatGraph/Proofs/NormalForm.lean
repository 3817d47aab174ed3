import ThreatGraph.Descriptor.Normalize
import ThreatGraph.Proofs.Members

/-!
# Normal descriptors are fixed

Normalizing gives a descriptor that is `Normal`: its fields are `Typed` and `Separate` from the
other members, and its tags ascend.  The first two are enough for it to be read back from the
members that it is written as.  With the third, normalizing twice is the same as normalizing once.
-/

namespace ThreatGraph

open Json (Value Members Mismatch firstMismatch textAt?)
open Json.Members (get?_append get?_cons get?_filter get?_insert get?_erase get?_sorted
  ordered_sorted)

theorem get?_memberOf {α : Type} (name n : String) (write : α → Value) (o : Option α) :
    Members.get? n (memberOf name write o) = if name = n then o.map write else none := by
  cases o with
  | none => simp [memberOf]
  | some a => simp [memberOf, get?_cons]

theorem forall_mem_memberOf {α : Type} {name : String} {write : α → Value} {o : Option α}
    {p : String × Value → Prop} :
    (∀ m ∈ memberOf name write o, p m) ↔ ∀ a, o = some a → p (name, write a) := by
  cases o <;> simp [memberOf]

theorem mapM_map_ok {α β ε : Type} {f : β → Except ε α} {g : α → β} (h : ∀ a, f (g a) = .ok a)
    (as : List α) : (as.map g).mapM f = .ok as := by
  induction as with
  | nil => rfl
  | cons a as ih =>
    rw [List.map_cons, List.mapM_cons, h, ih]
    rfl

theorem readInt64_ofInt {n : Int} (h : Text.fitsInt64 n = true) :
    Json.readInt64 (.ofInt n) = .ok n := if_pos h

theorem readTexts (texts : List String) :
    Json.readSequence Json.readText (.array (texts.map .string)) = .ok texts :=
  mapM_map_ok (f := Json.readText) (g := Value.string) (fun _ => rfl) texts

theorem Owner.decode_toJson (o : Owner) : Owner.decode o.toJson = .ok o := by
  obtain ⟨id, name, email⟩ := o
  cases name <;> cases email <;> rfl

namespace Descriptor

/-- The fields hold what they are meant for: a confidence of 64 bits, and a map of other members. -/
structure Typed (d : Descriptor) : Prop where
  confidence_fits : ∀ n, d.confidence = some n → Text.fitsInt64 n = true
  extra_ordered : Members.Ordered d.extra

/-- No other member has the name of a field, and no reactions are `null`, which is read as none. -/
structure Separate (d : Descriptor) : Prop where
  extra_names : ∀ m ∈ d.extra, m.1 ∉ fieldNames
  reactions_ne : d.reactions ≠ some .null
  myReactions_ne : d.myReactions ≠ some .null

/-- What every descriptor is that was normalized. -/
structure Normal (d : Descriptor) : Prop extends Typed d, Separate d where
  tags_sorted : d.tags.Pairwise (· ≤ ·)

theorem decode_ok_iff {ms : Members Value} {d : Descriptor} :
    decode ms = .ok d ↔ firstMismatch check ms = none ∧
      ∃ id, textAt? "id" ms = some id ∧ ofMembers id ms = d := by
  unfold decode
  cases firstMismatch check ms with
  | some e => simp
  | none => cases textAt? "id" ms <;> simp

theorem firstMismatch_eq_none_iff {ms : Members Value} :
    firstMismatch check ms = none ↔ ∀ m ∈ ms, check m.1 m.2 = none :=
  List.findSome?_eq_none_iff

theorem readAt_int64_fits {ms : Members Value} {n : Int}
    (h : readAt Json.readInt64 "confidence" ms = some n) : Text.fitsInt64 n = true := by
  unfold readAt at h
  split at h
  · next a ha =>
    obtain rfl := Option.some.inj h
    obtain ⟨v, -, hv⟩ := Option.map_eq_some_iff.1 ha
    unfold Json.readInt64 at hv
    split at hv
    · split at hv
      · next hfits =>
        cases hv
        exact hfits
      · cases hv
    · cases hv
  · cases h

theorem valueAt_ne (name : String) (ms : Members Value) : valueAt name ms ≠ some .null := by
  unfold valueAt
  split
  · simp
  · next h => exact h

theorem typed_ofMembers (id : String) {ms : Members Value} (h : Members.Ordered ms) :
    (ofMembers id ms).Typed where
  confidence_fits := fun _ hn => readAt_int64_fits hn
  extra_ordered := h.filter _

theorem separate_ofMembers (id : String) (ms : Members Value) : (ofMembers id ms).Separate where
  extra_names := fun m hm => by simpa using (List.mem_filter.1 hm).2
  reactions_ne := valueAt_ne _ _
  myReactions_ne := valueAt_ne _ _

theorem decode_erase {ms : Members Value} {d : Descriptor} (h : decode ms = .ok d) :
    decode (ms.erase "raw_indicator") = .ok { d with rawIndicator := none } := by
  obtain ⟨hcheck, id, hid, rfl⟩ := decode_ok_iff.1 h
  have hget : ∀ n, n ≠ "raw_indicator" →
      Members.get? n (ms.erase "raw_indicator") = Members.get? n ms := by
    intro n hn
    rw [get?_erase, if_neg hn]
  refine decode_ok_iff.2 ⟨?_, id, ?_, ?_⟩
  · rw [firstMismatch_eq_none_iff] at hcheck ⊢
    exact fun m hm => hcheck m ((List.mem_filter.1 hm).1)
  · rw [textAt?, hget _ (by decide)]
    exact hid
  · have hextra : (ms.erase "raw_indicator").filter (fun m => !decide (m.1 ∈ fieldNames)) =
        ms.filter fun m => !decide (m.1 ∈ fieldNames) := by
      rw [Members.erase, List.filter_filter]
      apply List.filter_congr
      intro m _
      by_cases hm : m.1 = "raw_indicator" <;> simp [hm, fieldNames]
    simp [ofMembers, textAt?, readAt, valueAt, hget, hextra, get?_erase]

theorem check_string {name : String} (h : name = "id" ∨ name = "description" ∨ name ∈ textFields)
    (s : String) : check name (.string s) = none := by
  unfold check
  split
  · rfl
  · next hname =>
    have htext : name ∈ textFields := by
      rcases h with h | h | h
      · exact absurd (.inl h) hname
      · exact absurd (.inr h) hname
      · exact h
    rw [if_pos htext]
    rfl

theorem check_of_notMem {name : String} (h : name ∉ fieldNames) (v : Value) :
    check name v = none := by
  simp only [fieldNames, List.mem_cons, List.not_mem_nil, or_false, not_or] at h
  simp [check, textFields, h]

theorem check_confidence {n : Int} (h : Text.fitsInt64 n = true) :
    check "confidence" (.ofInt n) = none := by
  change Json.mismatch? ((Json.readInt64 (.ofInt n)).map some) = none
  rw [readInt64_ofInt h]
  rfl

theorem check_owner (o : Owner) : check "owner" o.toJson = none := by
  change Json.mismatch? ((Owner.decode o.toJson).map some) = none
  rw [o.decode_toJson]
  rfl

theorem check_tags (texts : List String) : check "tags" (.array (texts.map .string)) = none := by
  change Json.mismatch? (Json.readSequence Json.readText _) = none
  rw [readTexts]
  rfl

theorem textAt?_eq {ms : Members Value} {name : String} {o : Option String}
    (h : Members.get? name ms = o.map .string) : textAt? name ms = o := by
  rw [textAt?, h]
  cases o <;> rfl

theorem readAt_eq {α : Type} {read : Value → Except Mismatch α} {write : α → Value}
    {ms : Members Value} {name : String} {o : Option α}
    (hread : ∀ a, o = some a → read (write a) = .ok a)
    (h : Members.get? name ms = o.map write) : readAt read name ms = o := by
  rw [readAt, h]
  cases o with
  | none => rfl
  | some a => simp [hread]

theorem readAt_tags {ms : Members Value} {tags : List String}
    (h : Members.get? "tags" ms = some (.array (tags.map .string))) :
    readAt (Json.readSequence Json.readText) "tags" ms = some tags := by
  rw [readAt, h, Option.map_some, readTexts]

theorem valueAt_eq {ms : Members Value} {name : String} {o : Option Value} (hne : o ≠ some .null)
    (h : Members.get? name ms = o) : valueAt name ms = o := by
  rw [valueAt, h]
  split
  · exact absurd rfl hne
  · rfl

section Written

variable {d : Descriptor}

theorem Separate.get?_extra (h : d.Separate) {n : String} (hn : n ∈ fieldNames) :
    Members.get? n d.extra = none :=
  Members.get?_eq_none_iff.2 fun m hm heq => h.extra_names m hm (heq ▸ hn)

theorem Separate.get?_members (h : d.Separate) :
    Members.get? "id" d.members = some (.string d.id) ∧
    Members.get? "raw_indicator" d.members = d.rawIndicator.map .string ∧
    Members.get? "type" d.members = d.indicatorType.map .string ∧
    Members.get? "added_on" d.members = d.addedOn.map .string ∧
    Members.get? "last_updated" d.members = d.lastUpdated.map .string ∧
    Members.get? "confidence" d.members = d.confidence.map .ofInt ∧
    Members.get? "owner" d.members = d.owner.map Owner.toJson ∧
    Members.get? "privacy_type" d.members = d.privacyType.map .string ∧
    Members.get? "review_status" d.members = d.reviewStatus.map .string ∧
    Members.get? "status" d.members = d.status.map .string ∧
    Members.get? "severity" d.members = d.severity.map .string ∧
    Members.get? "share_level" d.members = d.shareLevel.map .string ∧
    Members.get? "tags" d.members = some (.array (d.tags.map .string)) ∧
    Members.get? "description" d.members = some (.string d.description) ∧
    Members.get? "reactions" d.members = d.reactions ∧
    Members.get? "my_reactions" d.members = d.myReactions := by
  have hextra : ∀ n ∈ fieldNames, Members.get? n d.extra = none := fun n hn => h.get?_extra hn
  simp only [fieldNames, List.forall_mem_cons] at hextra
  simp only [members, get?_append, get?_cons, get?_memberOf, hextra]
  simp

theorem get?_members_of_notMem {n : String} (hn : n ∉ fieldNames) :
    Members.get? n d.members = Members.get? n d.extra := by
  simp only [fieldNames, List.mem_cons, List.not_mem_nil, or_false, not_or, ← ne_eq] at hn
  simp [members, get?_append, get?_cons, get?_memberOf, hn, Ne.symm]

theorem check_members (ht : d.Typed) (hs : d.Separate) :
    ∀ m ∈ d.members, check m.1 m.2 = none := by
  simp only [members, List.forall_mem_append, List.forall_mem_cons, forall_mem_memberOf,
    List.not_mem_nil, false_implies, implies_true, and_true]
  simp (disch := decide) only [check_string, implies_true, true_and, and_true]
  refine ⟨⟨⟨⟨⟨fun n hn => ?_, fun o _ => ?_⟩, ?_⟩, fun v _ => ?_⟩, fun v _ => ?_⟩, fun m hm => ?_⟩
  · exact check_confidence (ht.confidence_fits n hn)
  · exact check_owner o
  · exact check_tags d.tags
  · rfl
  · rfl
  · exact check_of_notMem (hs.extra_names m hm) m.2

theorem ofMembers_written {ms : Members Value} (ht : d.Typed) (hs : d.Separate)
    (hget : ∀ n, Members.get? n ms = Members.get? n d.members)
    (hextra : ms.filter (fun m => m.1 ∉ fieldNames) = d.extra) : ofMembers d.id ms = d := by
  have hmembers := hs.get?_members
  simp only [← hget] at hmembers
  obtain ⟨-, hindicator, htype, hadded, hupdated, hconfidence, howner, hprivacy, hreview, hstatus,
    hseverity, hshare, htags, hdescription, hreactions, hmine⟩ := hmembers
  have hconfidence : readAt Json.readInt64 "confidence" ms = d.confidence :=
    readAt_eq (fun n hn => readInt64_ofInt (ht.confidence_fits n hn)) hconfidence
  have howner : readAt Owner.decode "owner" ms = d.owner :=
    readAt_eq (fun o _ => o.decode_toJson) howner
  have hdescription : textAt? "description" ms = some d.description := textAt?_eq hdescription
  simp only [ofMembers, textAt?_eq hindicator, textAt?_eq htype, textAt?_eq hadded,
    textAt?_eq hupdated, hconfidence, howner, textAt?_eq hprivacy, textAt?_eq hreview,
    textAt?_eq hstatus, textAt?_eq hseverity, textAt?_eq hshare, readAt_tags htags, hdescription,
    valueAt_eq hs.reactions_ne hreactions, valueAt_eq hs.myReactions_ne hmine, hextra,
    Option.getD_some]

/-- The members of a descriptor are read back, in the order in which they are written or in
another one. -/
theorem decode_written {ms : Members Value} (ht : d.Typed) (hs : d.Separate)
    (hmem : ∀ m ∈ ms, m ∈ d.members) (hget : ∀ n, Members.get? n ms = Members.get? n d.members)
    (hextra : ms.filter (fun m => m.1 ∉ fieldNames) = d.extra) : decode ms = .ok d := by
  refine decode_ok_iff.2 ⟨?_, d.id, ?_, ofMembers_written ht hs hget hextra⟩
  · rw [firstMismatch_eq_none_iff]
    exact fun m hm => check_members ht hs m (hmem m hm)
  · rw [textAt?, hget, hs.get?_members.1]
    rfl

theorem extra_sorted_members (ht : d.Typed) (hs : d.Separate) :
    d.members.sorted.filter (fun m => m.1 ∉ fieldNames) = d.extra := by
  refine ((ordered_sorted d.members).filter _).ext ht.extra_ordered fun n => ?_
  rw [get?_filter (fun n => n ∉ fieldNames), get?_sorted]
  split
  · next hn => exact get?_members_of_notMem (of_decide_eq_true hn)
  · next hn =>
    rw [hs.get?_extra]
    simpa using hn

theorem decode_sorted_members (ht : d.Typed) (hs : d.Separate) :
    decode d.members.sorted = .ok d :=
  decode_written ht hs (fun _ hm => Members.mem_of_mem_sorted hm) (fun n => get?_sorted n d.members)
    (extra_sorted_members ht hs)

end Written

theorem sortTexts_sorted (texts : List String) : (sortTexts texts).Pairwise (· ≤ ·) := by
  have htrans : ∀ a b c : String, decide (a ≤ b) → decide (b ≤ c) → decide (a ≤ c) := by
    simpa using fun a b c => String.le_trans
  have htotal : ∀ a b : String, decide (a ≤ b) || decide (b ≤ a) := by
    simpa using String.le_total
  have hsorted := List.pairwise_mergeSort htrans htotal texts
  simpa [sortTexts] using hsorted

theorem sortTexts_eq {texts : List String} (h : texts.Pairwise (· ≤ ·)) : sortTexts texts = texts :=
  List.mergeSort_of_pairwise (by simpa using h)

theorem tagTexts_sorted {tags : Option Value} {texts : List String}
    (h : tagTexts tags = .ok texts) : texts.Pairwise (· ≤ ·) := by
  unfold tagTexts at h
  cases hitems : tagEntries tags with
  | error e => simp [hitems, bind, Except.bind] at h
  | ok items =>
    cases htexts : items.mapM tagText with
    | error e => simp [hitems, htexts, bind, Except.bind] at h
    | ok unsorted =>
      simp only [hitems, htexts, bind, Except.bind, pure, Except.pure, Except.ok.injEq] at h
      exact h ▸ sortTexts_sorted unsorted

theorem tagTexts_flat {texts : List String} (h : texts.Pairwise (· ≤ ·)) :
    tagTexts (some (.array (texts.map .string))) = .ok texts := by
  have hread : (texts.map Value.string).mapM tagText = .ok texts :=
    mapM_map_ok (f := tagText) (g := Value.string) (fun _ => rfl) texts
  simp only [tagTexts, tagEntries, hread, bind, Except.bind, pure, Except.pure, sortTexts_eq h]

theorem normalize_ok_iff {raw : Value} {wanted : Bool} {d : Descriptor} :
    normalize raw wanted = .ok d ↔ ∃ members tags, raw = .object members ∧
      Members.get? "id" members ≠ none ∧ tagTexts (Members.get? "tags" members) = .ok tags ∧
      decode (reshape (Members.sorted members) tags wanted) = .ok d := by
  cases raw with
  | object members =>
    simp only [normalize, get?_sorted]
    cases hid : Members.get? "id" members with
    | none => simp [hid]
    | some id =>
      cases htags : tagTexts (Members.get? "tags" members) with
      | error e => simp [htags]
      | ok tags =>
        cases hdecode : decode (reshape (Members.sorted members) tags wanted) with
        | error e => simp [hid, htags, hdecode]
        | ok d' => simp [hid, htags, hdecode]
  | _ => simp [normalize]

theorem reshape_false (ms : Members Value) (tags : List String) :
    reshape ms tags false = (reshape ms tags true).erase "raw_indicator" := rfl

theorem ordered_reshape {ms : Members Value} (h : Members.Ordered ms) (tags : List String)
    (wanted : Bool) : Members.Ordered (reshape ms tags wanted) := by
  have htags := h.insert "tags" (.array (tags.map .string))
  have hshown : Members.Ordered (reshape ms tags true) := by
    simp only [reshape, if_true]
    split
    · exact htags.insert _ _
    · exact htags.insert _ _
    · exact htags
  cases wanted with
  | true => exact hshown
  | false => exact hshown.erase _

theorem get?_tags_reshape (ms : Members Value) (tags : List String) (wanted : Bool) :
    Members.get? "tags" (reshape ms tags wanted) = some (.array (tags.map .string)) := by
  have hshown : Members.get? "tags" (reshape ms tags true) = some (.array (tags.map .string)) := by
    simp only [reshape, if_true]
    split <;> simp [get?_insert]
  cases wanted with
  | true => exact hshown
  | false =>
    rw [reshape_false, get?_erase, if_neg (by decide)]
    exact hshown

theorem reshape_eq {ms : Members Value} {tags : List String} {description : String}
    (h : Members.Ordered ms) (htags : Members.get? "tags" ms = some (.array (tags.map .string)))
    (hdescription : Members.get? "description" ms = some (.string description)) :
    reshape ms tags true = ms := by
  simp only [reshape, h.insert_eq htags, hdescription, if_true]

theorem normal_of_normalize {raw : Value} {wanted : Bool} {d : Descriptor}
    (h : normalize raw wanted = .ok d) : d.Normal := by
  obtain ⟨members, tags, rfl, -, htags, hdecode⟩ := normalize_ok_iff.1 h
  obtain ⟨-, id, -, rfl⟩ := decode_ok_iff.1 hdecode
  have hordered := ordered_reshape (ordered_sorted members) tags wanted
  refine ⟨typed_ofMembers id hordered, separate_ofMembers id _, ?_⟩
  simp only [ofMembers, readAt_tags (get?_tags_reshape _ tags wanted), Option.getD_some]
  exact tagTexts_sorted htags

theorem rawIndicator_of_normalize {raw : Value} {d : Descriptor} (h : normalize raw false = .ok d) :
    d.rawIndicator = none := by
  obtain ⟨members, tags, rfl, -, -, hdecode⟩ := normalize_ok_iff.1 h
  obtain ⟨-, id, -, rfl⟩ := decode_ok_iff.1 hdecode
  have hget :
      Members.get? "raw_indicator" (reshape (Members.sorted members) tags false) = none := by
    rw [reshape_false, get?_erase, if_pos rfl]
  exact textAt?_eq (o := none) hget

theorem normalize_hide {raw : Value} {d : Descriptor} (h : normalize raw true = .ok d) :
    normalize raw false = .ok { d with rawIndicator := none } := by
  obtain ⟨members, tags, rfl, hid, htags, hdecode⟩ := normalize_ok_iff.1 h
  refine normalize_ok_iff.2 ⟨members, tags, rfl, hid, htags, ?_⟩
  rw [reshape_false]
  exact decode_erase hdecode

theorem Normal.normalize_toJson {d : Descriptor} (h : d.Normal) :
    normalize d.toJson true = .ok d := by
  obtain ⟨hid, -, -, -, -, -, -, -, -, -, -, -, htags, hdescription, -, -⟩ := h.get?_members
  have hordered := ordered_sorted d.members
  refine normalize_ok_iff.2 ⟨_, d.tags, rfl, ?_, ?_, ?_⟩
  · rw [get?_sorted, hid]
    exact Option.some_ne_none _
  · rw [get?_sorted, htags]
    exact tagTexts_flat h.tags_sorted
  · rw [hordered.sorted_eq, reshape_eq hordered (by rw [get?_sorted, htags])
      (by rw [get?_sorted, hdescription])]
    exact decode_sorted_members h.toTyped h.toSeparate

/-- Normalizing again changes nothing, and the indicator can be left out before or after. -/
theorem normalize_stable (raw : Value) (wanted : Bool) (d : Descriptor) :
    (normalize raw wanted = .ok d → normalize d.toJson wanted = .ok d) ∧
    (normalize raw true = .ok d →
      normalize raw false = .ok { d with rawIndicator := none } ∧
      normalize d.toJson false = .ok { d with rawIndicator := none }) := by
  constructor
  · intro h
    have hfixed := (normal_of_normalize h).normalize_toJson
    cases wanted with
    | true => exact hfixed
    | false =>
      have hhidden := normalize_hide hfixed
      rw [← rawIndicator_of_normalize h] at hhidden
      exact hhidden
  · intro h
    exact ⟨normalize_hide h, normalize_hide (normal_of_normalize h).normalize_toJson⟩

/-- The members of a descriptor as the graph sends it. -/
def received : Members Value :=
  [("id", .string "7"), ("raw_indicator", .string "evil.example.com"),
    ("tags", .object [("data", .array [.object [("text", .string "b")], .string "a"])]),
    ("description", .null), ("first_active", .string "2020")]

theorem normalize_received : ∃ d, normalize (.object received) true = .ok d ∧ d.tags = ["a", "b"] ∧
    normalize d.toJson true = .ok d := by
  have hsort : sortTexts ["b", "a"] = ["a", "b"] := by
    simp [sortTexts, List.mergeSort, List.MergeSort.Internal.splitInTwo]
  have htags : tagTexts (Members.get? "tags" received) = .ok ["a", "b"] :=
    congrArg Except.ok hsort
  have hread : (decode (reshape received.sorted ["a", "b"] true)).toOption.map (·.tags) =
      some ["a", "b"] := by decide +kernel
  cases hdecode : decode (reshape received.sorted ["a", "b"] true) with
  | error e => simp [hdecode, Except.toOption] at hread
  | ok d =>
    have hok : normalize (.object received) true = .ok d :=
      normalize_ok_iff.2 ⟨received, _, rfl, by decide, htags, hdecode⟩
    refine ⟨d, hok, ?_, (normalize_stable _ true d).1 hok⟩
    rw [hdecode] at hread
    exact Option.some.inj hread

end Descriptor
end ThreatGraph
