import Mathlib.Data.List.Forall2
import ThreatGraph.Proofs.Encoding
import ThreatGraph.Web.UrlReader

/-!
# Segments behind a path

When the texts that a path is extended by all become segments of their own.  A path can only grow by
one segment for each text; where it grows by less, some text was lost, and where it grows by as
much, every text can be read off its segment unless characters of it were dropped.
-/

namespace ThreatGraph
namespace Web
namespace Url

open Percent (Spells)

/-- What a segment is put behind.  The empty segment of a root gives way to it. -/
def opened (segments : List (List Char)) : List (List Char) :=
  if segments = [[]] then [] else segments

/-- The characters of a segment that count in a URL. -/
def counted (text : List Char) : List Char := text.filter fun c => !isLineSpace c

/-- The names of a directory itself and of the one above it. -/
def IsDots (text : List Char) : Prop := text = ['.'] ∨ text = ['.', '.']

/-- A text that names a segment: all of it counts, and it is not dots. -/
def IsPlain (text : List Char) : Prop := counted text = text ∧ ¬ IsDots text

def segmentSet (special : Bool) : Char → Bool :=
  if special then Percent.inSpecialSegment else Percent.inSegment

theorem faithful_segmentSet (special : Bool) : Percent.Faithful (segmentSet special) := by
  cases special
  · exact Percent.faithful_inSegment
  · exact Percent.faithful_inSpecialSegment

instance (text : List Char) : Decidable (IsDots text) := inferInstanceAs (Decidable (_ ∨ _))

instance (text : List Char) : Decidable (IsPlain text) := inferInstanceAs (Decidable (_ ∧ _))

theorem length_opened_le (segments : List (List Char)) :
    (opened segments).length ≤ segments.length := by
  unfold opened
  split <;> simp

theorem opened_of_ne {segments : List (List Char)} (h : segments ≠ [[]]) :
    opened segments = segments := if_neg h

theorem opened_snoc {segments : List (List Char)} {segment : List Char}
    (h : segments = [] → segment ≠ []) :
    opened (segments ++ [segment]) = segments ++ [segment] := by
  apply opened_of_ne
  intro heq
  cases segments with
  | nil => exact h rfl (List.singleton_inj.1 heq)
  | cons s segments => simp at heq

theorem opened_snoc_grows (segments : List (List Char)) (segment : List Char) :
    (opened (segments ++ [segment])).length ≤ segments.length + 1 ∧
    ((opened (segments ++ [segment])).length = segments.length + 1 →
      opened (segments ++ [segment]) = segments ++ [segment] ∧ (segments = [] → segment ≠ [])) := by
  refine ⟨Nat.le_trans (length_opened_le _) (by simp), fun h => ?_⟩
  have hne : segments ++ [segment] ≠ [[]] := by
    intro heq
    rw [heq] at h
    simp [opened] at h
  refine ⟨opened_of_ne hne, ?_⟩
  rintro rfl rfl
  exact hne rfl

theorem opened_snoc_inj {segments : List (List Char)} {segment segment' : List Char} :
    opened (segments ++ [segment]) = opened (segments ++ [segment']) ↔ segment = segment' := by
  constructor
  · intro h
    cases segments with
    | cons s segments =>
      rw [opened_snoc (by simp), opened_snoc (by simp)] at h
      simpa using h
    | nil =>
      simp only [opened, List.nil_append, List.cons.injEq, and_true] at h
      by_cases hs : segment = [] <;> by_cases hs' : segment' = [] <;> simp_all
  · rintro rfl
    rfl

/-- The texts that differ from a text at most in the case of its letters `e`. -/
def spellings : List Char → List (List Char)
  | [] => [[]]
  | d :: ds => (if d = 'e' then ['e', 'E'] else [d]).flatMap fun c => (spellings ds).map (c :: ·)

theorem mem_spellings (segment : List Char) :
    segment ∈ spellings (segment.map fun c => if c = 'E' then 'e' else c) := by
  induction segment with
  | nil => simp [spellings]
  | cons c segment ih =>
    simp only [List.map_cons, spellings, List.mem_flatMap, List.mem_map]
    refine ⟨c, ?_, segment, ih, rfl⟩
    by_cases hc : c = 'E'
    · simp [hc]
    · by_cases he : c = 'e' <;> simp [hc, he]

variable (special : Bool)

/-- The segment that a text is to become. -/
def segmentOf (text : List Char) : List Char :=
  Percent.encode (segmentSet special) (counted text)

theorem counted_of_spelled {names : List String} {dots text : List Char}
    (hnames : ∀ s ∈ names, ∀ segment ∈ spellings s.toList,
      Percent.decodeText segment = Text.Utf8.encode dots)
    (h : (names.any fun s => s.toList ==
      (segmentOf special text).map fun c => if c = 'E' then 'e' else c) = true) :
    counted text = dots := by
  obtain ⟨s, hs, heq⟩ := List.any_eq_true.1 h
  have hmem := mem_spellings (segmentOf special text)
  rw [← beq_iff_eq.1 heq] at hmem
  have hdecode := hnames s hs _ hmem
  rw [segmentOf, Percent.decodeText_encode (faithful_segmentSet special)] at hdecode
  exact Text.Utf8.encode_injective hdecode

theorem isSingleDot_segmentOf (text : List Char) :
    isSingleDot (segmentOf special text) = true ↔ counted text = ['.'] := by
  constructor
  · exact counted_of_spelled special (by decide +kernel)
  · intro h
    rw [segmentOf, h]
    cases special <;> decide

theorem isDoubleDot_segmentOf (text : List Char) :
    isDoubleDot (segmentOf special text) = true ↔ counted text = ['.', '.'] := by
  constructor
  · exact counted_of_spelled special (by decide +kernel)
  · intro h
    rw [segmentOf, h]
    cases special <;> decide

theorem spells_segmentOf {text : List Char} {id : String} :
    Spells (segmentOf special text) id ↔ id.toList = counted text := by
  constructor
  · exact fun h => h.of_encode (faithful_segmentSet special)
  · intro h
    rw [← String.ofList_toList (s := id), h]
    exact Percent.spells_encode (faithful_segmentSet special) _

theorem segmentOf_inj {text text' : List Char} :
    segmentOf special text = segmentOf special text' ↔ counted text = counted text' := by
  constructor
  · exact Percent.encode_injective (faithful_segmentSet special)
  · intro h
    rw [segmentOf, segmentOf, h]

theorem pushSegment_of_dots {text : List Char} (h : IsDots text) (segments : List (List Char)) :
    pushSegment special segments text = segments := if_pos h

theorem pushSegment_eq {text : List Char} (h : ¬ IsDots text) (segments : List (List Char)) :
    pushSegment special segments text = place (opened segments) (segmentOf special text) true :=
  if_neg h

theorem pushSegment_of_single {text : List Char} (h : ¬ IsDots text) (h' : counted text = ['.'])
    (segments : List (List Char)) :
    pushSegment special segments text = opened segments ++ [[]] := by
  have hdouble : ¬ isDoubleDot (segmentOf special text) = true := by
    rw [isDoubleDot_segmentOf, h']
    decide
  rw [pushSegment_eq special h, place, if_neg hdouble,
    if_pos ((isSingleDot_segmentOf special text).2 h')]
  rfl

theorem pushSegment_of_double {text : List Char} (h : ¬ IsDots text)
    (h' : counted text = ['.', '.']) (segments : List (List Char)) :
    pushSegment special segments text = climb (opened segments) ++ [[]] := by
  rw [pushSegment_eq special h, place, if_pos ((isDoubleDot_segmentOf special text).2 h')]
  rfl

theorem counted_of_dots {text : List Char} (h : IsDots text) : counted text = text := by
  rcases h with rfl | rfl <;> decide

theorem pushSegment_of_counted {text : List Char} (h : ¬ IsDots (counted text))
    (segments : List (List Char)) :
    pushSegment special segments text = opened segments ++ [segmentOf special text] := by
  have hdots : ¬ IsDots text := by
    intro hd
    rw [counted_of_dots hd] at h
    exact h hd
  have hdouble : ¬ isDoubleDot (segmentOf special text) = true := fun hd =>
    h (.inr ((isDoubleDot_segmentOf special text).1 hd))
  have hsingle : ¬ isSingleDot (segmentOf special text) = true := fun hs =>
    h (.inl ((isSingleDot_segmentOf special text).1 hs))
  rw [pushSegment_eq special hdots, place, if_neg hdouble, if_neg hsingle]

/-- The way up is never longer, and if it is as long it leads nowhere. -/
theorem climb_length (segments : List (List Char)) : (climb segments).length ≤ segments.length ∧
    ((climb segments).length = segments.length → climb segments = segments) := by
  unfold climb
  split
  · next last hlast =>
    split
    · exact ⟨Nat.le_refl _, fun _ => rfl⟩
    · have hne : segments ≠ [] := by
        rintro rfl
        cases hlast
      have hpos := List.length_pos_iff.2 hne
      rw [List.length_dropLast]
      exact ⟨Nat.sub_le _ _, fun h => by omega⟩
  · next hnone =>
    rw [List.getLast?_eq_none_iff.1 hnone]
    exact ⟨Nat.le_refl _, fun _ => rfl⟩

/-- A text adds at most one segment.  If it adds one, that stands behind the others, and if the text
can be read off it then the text was plain. -/
theorem pushSegment_grows (segments : List (List Char)) (text : List Char) :
    (opened (pushSegment special segments text)).length ≤ (opened segments).length + 1 ∧
    ((opened (pushSegment special segments text)).length = (opened segments).length + 1 →
      ∃ segment, opened (pushSegment special segments text) = opened segments ++ [segment] ∧
        (opened segments = [] → text ≠ []) ∧
        ∀ id : String, id.toList = text → Spells segment id → IsPlain text) := by
  by_cases hdots : IsDots text
  · rw [pushSegment_of_dots special hdots]
    exact ⟨Nat.le_succ _, fun h => by omega⟩
  by_cases hcounted : IsDots (counted text)
  · have hempty : text ≠ [] := by
      rintro rfl
      exact absurd hcounted (by decide)
    have hspells : ∀ id : String, id.toList = text → ¬ Spells [] id := by
      intro id hid hs
      have hs := (@spells_segmentOf special [] id).1 hs
      exact hempty (hid.symm.trans hs)
    rcases hcounted with hsingle | hdouble
    · rw [pushSegment_of_single special hdots hsingle]
      obtain ⟨hle, heq⟩ := opened_snoc_grows (opened segments) []
      exact ⟨hle, fun h => ⟨[], (heq h).1, fun _ => hempty,
        fun id hid hs => absurd hs (hspells id hid)⟩⟩
    · rw [pushSegment_of_double special hdots hdouble]
      obtain ⟨hle, heq⟩ := opened_snoc_grows (climb (opened segments)) []
      obtain ⟨hclimb, hstay⟩ := climb_length (opened segments)
      refine ⟨by omega, fun h => ?_⟩
      have hstay := hstay (by omega)
      rw [hstay] at heq ⊢
      rw [hstay] at h
      exact ⟨[], (heq h).1, fun _ => hempty, fun id hid hs => absurd hs (hspells id hid)⟩
  · rw [pushSegment_of_counted special hcounted]
    obtain ⟨hle, heq⟩ := opened_snoc_grows (opened segments) (segmentOf special text)
    refine ⟨hle, fun h => ⟨segmentOf special text, (heq h).1, ?_, ?_⟩⟩
    · rintro hroot rfl
      exact (heq h).2 hroot rfl
    · rintro id rfl hs
      exact ⟨((spells_segmentOf special).1 hs).symm, hdots⟩

theorem pushSegment_plain {text : List Char} (h : IsPlain text) (segments : List (List Char)) :
    pushSegment special segments text = opened segments ++ [segmentOf special text] := by
  refine pushSegment_of_counted special ?_ segments
  rw [h.1]
  exact h.2

def pushAll (segments : List (List Char)) (texts : List String) : List (List Char) :=
  (texts.map String.toList).foldl (pushSegment special) segments

theorem pushAll_grows (segments : List (List Char)) (texts : List String) :
    (opened (pushAll special segments texts)).length ≤ (opened segments).length + texts.length ∧
    ((opened (pushAll special segments texts)).length = (opened segments).length + texts.length →
      ∃ named, opened (pushAll special segments texts) = opened segments ++ named ∧
        (opened segments = [] → texts.head? ≠ some "") ∧
        (List.Forall₂ Spells named texts → ∀ text ∈ texts, IsPlain text.toList)) := by
  induction texts generalizing segments with
  | nil => exact ⟨Nat.le_refl _, fun _ => ⟨[], (List.append_nil _).symm, by simp, by simp⟩⟩
  | cons text texts ih =>
    obtain ⟨hle, heq⟩ := pushSegment_grows special segments text.toList
    obtain ⟨hle', heq'⟩ := ih (pushSegment special segments text.toList)
    have hstep : pushAll special segments (text :: texts) =
      pushAll special (pushSegment special segments text.toList) texts := rfl
    rw [hstep, List.length_cons]
    refine ⟨by omega, fun h => ?_⟩
    obtain ⟨segment, hsegment, hroot, hplain⟩ := heq (by omega)
    obtain ⟨named, hnamed, -, hplains⟩ := heq' (by omega)
    refine ⟨segment :: named, ?_, ?_, ?_⟩
    · rw [hnamed, hsegment, List.append_assoc]
      rfl
    · intro hopened htext
      refine hroot hopened ?_
      rw [Option.some.inj htext]
      rfl
    · rintro (_ | ⟨hs, hrest⟩)
      exact List.forall_mem_cons.2 ⟨hplain text rfl hs, hplains hrest⟩

theorem pushAll_plain {segments : List (List Char)} {texts : List String}
    (hroot : opened segments = [] → texts.head? ≠ some "")
    (hplain : ∀ text ∈ texts, IsPlain text.toList) :
    opened (pushAll special segments texts) =
      opened segments ++ texts.map fun text => segmentOf special text.toList := by
  induction texts generalizing segments with
  | nil => exact (List.append_nil _).symm
  | cons text texts ih =>
    obtain ⟨hp, hps⟩ := List.forall_mem_cons.1 hplain
    have hstep : pushAll special segments (text :: texts) =
      pushAll special (pushSegment special segments text.toList) texts := rfl
    have hsegment : opened segments = [] → segmentOf special text.toList ≠ [] := by
      intro hopened hempty
      have hs := (@spells_segmentOf special text.toList "").1 (by rw [hempty]; rfl)
      rw [hp.1] at hs
      rw [← String.toList_inj.1 hs] at hroot
      exact hroot hopened rfl
    have hopened : opened (pushSegment special segments text.toList) =
        opened segments ++ [segmentOf special text.toList] := by
      rw [pushSegment_plain special hp, opened_snoc hsegment]
    rw [hstep, ih (by simp [hopened]) hps, hopened, List.append_assoc]
    rfl

/-- The segments of a path without the slash at its end. -/
def withoutSlash (segments : List (List Char)) : List (List Char) :=
  if segments.getLast? = some [] then segments.dropLast else segments

/-- Whether the path of a URL is some segments, then one that spells each text, then an empty
one. -/
def Lists (u : Url) (front : List (List Char)) (texts : List String) : Prop :=
  ∃ named, u.path = .segments (front ++ named ++ [[]]) ∧ List.Forall₂ Spells named texts

/-- When the segments behind a path are the texts: the path has no empty segment to lose, an empty
text is not to become a root, and every text is plain. -/
structure Separate (front : List (List Char)) (texts : List String) : Prop where
  front_ne : front ≠ [[]]
  head_ne : front = [] → texts.head? ≠ some ""
  plain : ∀ text ∈ texts, IsPlain text.toList

theorem opened_dropEmptyLast (segments : List (List Char)) :
    opened (dropEmptyLast segments) = opened (withoutSlash segments) := by
  unfold dropEmptyLast withoutSlash
  split
  · next hshort =>
    match segments with
    | [] => rfl
    | [s] => by_cases hs : s = [] <;> simp [hs, opened]
  · cases hlast : segments.getLast? with
    | none => rfl
    | some last => cases last <;> simp

theorem extendPath?_eq {u : Url} {segments : List (List Char)} (h : u.path = .segments segments)
    (texts : List String) :
    u.extendPath? texts = some { u with
      path := .segments
        (opened (pushAll (isSpecial u.scheme) (dropEmptyLast segments) texts) ++ [[]]) } := by
  have hlast : ∀ parts, pushSegment (isSpecial u.scheme) parts [] = opened parts ++ [[]] := by
    intro parts
    rw [pushSegment_of_counted _ (by decide)]
    cases isSpecial u.scheme <;> rfl
  simp only [extendPath?, h, List.foldl_append, List.foldl_cons, List.foldl_nil, hlast]
  rfl

/-- An extended path lists its texts exactly when they are separate. -/
theorem lists_extendPath_iff {u v : Url} {segments : List (List Char)} {texts : List String}
    (h : u.path = .segments segments) (hv : u.extendPath? texts = some v) :
    v.Lists (withoutSlash segments) texts ↔ Separate (withoutSlash segments) texts := by
  rw [extendPath?_eq h] at hv
  obtain rfl := Option.some.inj hv
  simp only [Lists, Path.segments.injEq]
  have hstart := opened_dropEmptyLast segments
  generalize withoutSlash segments = front at hstart ⊢
  generalize dropEmptyLast segments = start at hstart ⊢
  constructor
  · rintro ⟨named, hpath, hspells⟩
    have hpath := List.append_cancel_right hpath
    obtain ⟨hle, heq⟩ := pushAll_grows (isSpecial u.scheme) start texts
    have hlength := hspells.length_eq
    -- A path that starts with its root as a segment has already lost it.
    have hne : front ≠ [[]] := by
      rintro rfl
      rw [hpath, hstart] at hle
      simp only [opened, if_true, List.length_append, List.length_singleton, List.length_nil,
        hlength] at hle
      omega
    rw [hstart, opened_of_ne hne] at heq
    obtain ⟨named', hpath', hroot, hplain⟩ := heq (by rw [hpath, List.length_append, hlength])
    obtain rfl := List.append_cancel_left (hpath.symm.trans hpath')
    exact ⟨hne, hroot, hplain hspells⟩
  · intro hsep
    have hopened := hstart.trans (opened_of_ne hsep.front_ne)
    have hpath := pushAll_plain (isSpecial u.scheme) (hopened ▸ hsep.head_ne) hsep.plain
    rw [hopened] at hpath
    refine ⟨_, congrArg (· ++ [[]]) hpath, ?_⟩
    rw [List.forall₂_map_left_iff, List.forall₂_same]
    exact fun text htext => (spells_segmentOf _).2 (hsep.plain text htext).1.symm

theorem extendPath_single_inj {u v v' : Url} {segments : List (List Char)} {text text' : String}
    (h : u.path = .segments segments) (hv : u.extendPath? [text] = some v)
    (hv' : u.extendPath? [text'] = some v') (hdots : ¬ IsDots (counted text.toList))
    (hdots' : ¬ IsDots (counted text'.toList)) :
    v.path = v'.path ↔ counted text.toList = counted text'.toList := by
  rw [extendPath?_eq h] at hv hv'
  obtain rfl := Option.some.inj hv
  obtain rfl := Option.some.inj hv'
  simp only [Path.segments.injEq, List.append_cancel_right_eq, pushAll, List.map_cons, List.map_nil,
    List.foldl_cons, List.foldl_nil, pushSegment_of_counted _ hdots,
    pushSegment_of_counted _ hdots', opened_snoc_inj, segmentOf_inj]

theorem readPath_segments (special : Bool) (cs : List Char) :
    ∃ segments, readPath special cs = .segments segments := by
  unfold readPath readSegments
  split
  · split <;> exact ⟨_, rfl⟩
  · exact ⟨_, rfl⟩
  · split <;> exact ⟨_, rfl⟩

theorem readHierarchical_path {scheme cs : List Char} {u : Url}
    (h : readHierarchical scheme cs = .ok u) : ∃ segments, u.path = .segments segments := by
  unfold readHierarchical at h
  cases ha : readAuthority scheme cs with
  | error e => simp [ha, bind, Except.bind] at h
  | ok p =>
    obtain ⟨authority, rest⟩ := p
    simp only [ha, bind, Except.bind, pure, Except.pure, Except.ok.injEq] at h
    subst h
    exact readPath_segments _ _

theorem normalizeDrive_path {u : Url} (h : ∃ segments, u.path = .segments segments) :
    ∃ segments, (normalizeDrive u).path = .segments segments := by
  unfold normalizeDrive
  split
  · split
    · exact ⟨_, rfl⟩
    · exact h
  · exact h

theorem readFile_path {cs : List Char} {u : Url} (h : readFile cs = .ok u) :
    ∃ segments, u.path = .segments segments := by
  have hpath : ∀ authority rest,
      ∃ segments, (readFilePath authority rest).path = .segments segments :=
    fun _ _ => normalizeDrive_path (readPath_segments true _)
  unfold readFile at h
  split at h
  · split at h
    · simp only at h
      split at h
      · cases h
        exact hpath _ _
      · split at h <;> cases h
        exact hpath _ _
    · cases h
      exact hpath _ _
  · cases h
    exact hpath _ _

theorem read_path {s : String} {u : Url} (h : read s = .ok u)
    (hspecial : isSpecial u.scheme = true) : ∃ segments, u.path = .segments segments := by
  unfold read at h
  split at h
  · cases h
  · next scheme rest _ =>
    split at h
    · exact readFile_path h
    · split at h
      · exact readHierarchical_path h
      · next hnot =>
        split at h
        · exact readHierarchical_path h
        · cases h
          exact ⟨_, rfl⟩
        · cases h
          exact absurd hspecial hnot

end Url
end Web
end ThreatGraph
