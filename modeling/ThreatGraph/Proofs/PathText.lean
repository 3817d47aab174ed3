import ThreatGraph.Proofs.EncodedText
import ThreatGraph.Web.UrlReader

/-!
# Paths, queries and fragments read back

The segments of a path are read from the text that they are joined to, since none of them has a
separator or stands for another directory.  A query ends the path, and a fragment ends the query.
-/

namespace ThreatGraph
namespace Web
namespace Url

open Percent (Clean)

def isPathSeparator (special : Bool) (c : Char) : Bool := c == '/' || (special && c == '\\')

/-- A segment that is read as itself. -/
structure IsSegment (special : Bool) (segment : List Char) : Prop where
  clean : Clean Percent.inPath segment
  free : ∀ c ∈ segment, isPathSeparator special c = false
  notDouble : isDoubleDot segment = false
  notSingle : isSingleDot segment = false

variable {special : Bool}

theorem isSegment_nil : IsSegment special [] :=
  ⟨List.forall_mem_nil _, List.forall_mem_nil _, by decide, by decide⟩

theorem placeAll_append {parts : List (List Char)} (h : ∀ part ∈ parts, IsSegment special part)
    (front : List (List Char)) : placeAll front parts = front ++ parts := by
  induction parts generalizing front with
  | nil => simp [placeAll]
  | cons part parts ih =>
    obtain ⟨hpart, hparts⟩ := List.forall_mem_cons.1 h
    have hplace : ∀ isLast, place front part isLast = front ++ [part] := fun isLast => by
      simp [place, hpart.notDouble, hpart.notSingle]
    cases parts with
    | nil => exact hplace true
    | cons next rest => rw [placeAll, hplace, ih hparts, List.append_assoc]; rfl

theorem map_encode_segments {parts : List (List Char)}
    (h : ∀ part ∈ parts, IsSegment special part) :
    parts.map (Percent.encode Percent.inPath) = parts := by
  conv => rhs; rw [← List.map_id parts]
  exact List.map_congr_left fun part hpart => Percent.encode_of_clean (h part hpart).clean

theorem readSegments_join {parts : List (List Char)} (hne : parts ≠ [])
    (h : ∀ part ∈ parts, IsSegment special part) :
    readSegments special (Text.join '/' parts) = .segments parts := by
  have hsplit : Text.split (fun c => c == '/' || (special && c == '\\')) (Text.join '/' parts) =
      parts := Text.split_join (by simp) hne fun part hpart => (h part hpart).free
  rw [readSegments, hsplit, map_encode_segments h, placeAll_append h]
  rfl

theorem print_segments (part : List Char) (parts : List (List Char)) :
    (Path.segments (part :: parts)).print = '/' :: Text.join '/' (part :: parts) := by
  induction parts generalizing part with
  | nil => simp [Path.print, Text.join]
  | cons next rest ih =>
    rw [Text.join_cons_of_ne_nil _ _ (List.cons_ne_nil _ _), ← ih next]
    rfl

theorem readPath_print {parts : List (List Char)} (h : ∀ part ∈ parts, IsSegment special part)
    (hne : special = true → parts ≠ []) :
    readPath special (Path.segments parts).print = .segments parts := by
  cases parts with
  | nil =>
    cases special
    · rfl
    · exact absurd rfl (hne rfl)
  | cons part parts =>
    rw [print_segments]
    exact readSegments_join (List.cons_ne_nil _ _) h

theorem isSegment_climb {front : List (List Char)} (h : ∀ s ∈ front, IsSegment special s) :
    ∀ s ∈ climb front, IsSegment special s := by
  unfold climb
  split
  · split
    · exact h
    · exact fun s hs => h s (List.dropLast_subset _ hs)
  · simp

theorem isSegment_place {front : List (List Char)} {segment : List Char}
    (h : ∀ s ∈ front, IsSegment special s) (hclean : Clean Percent.inPath segment)
    (hfree : ∀ c ∈ segment, isPathSeparator special c = false) (isLast : Bool) :
    ∀ s ∈ place front segment isLast, IsSegment special s := by
  have hstop : ∀ s ∈ (if isLast then [[]] else [] : List (List Char)), IsSegment special s := by
    cases isLast <;> simp [isSegment_nil]
  cases hdouble : isDoubleDot segment with
  | true =>
    simp only [place, hdouble, if_true]
    exact List.forall_mem_append.2 ⟨isSegment_climb h, hstop⟩
  | false =>
    cases hsingle : isSingleDot segment with
    | true =>
      simp only [place, hdouble, hsingle, if_true, Bool.false_eq_true, if_false]
      exact List.forall_mem_append.2 ⟨h, hstop⟩
    | false =>
      simp only [place, hdouble, hsingle, Bool.false_eq_true, if_false]
      exact List.forall_mem_append.2
        ⟨h, List.forall_mem_singleton.2 ⟨hclean, hfree, hdouble, hsingle⟩⟩

theorem place_ne_nil (front : List (List Char)) (segment : List Char) :
    place front segment true ≠ [] := by
  cases hdouble : isDoubleDot segment <;> cases hsingle : isSingleDot segment <;>
    simp [place, hdouble, hsingle]

theorem isSegment_placeAll {parts : List (List Char)}
    (hparts : ∀ part ∈ parts, Clean Percent.inPath part ∧
      ∀ c ∈ part, isPathSeparator special c = false)
    {front : List (List Char)} (h : ∀ s ∈ front, IsSegment special s) :
    (∀ s ∈ placeAll front parts, IsSegment special s) ∧
      (parts ≠ [] → placeAll front parts ≠ []) := by
  induction parts generalizing front with
  | nil => exact ⟨h, fun hne => absurd rfl hne⟩
  | cons part parts ih =>
    obtain ⟨⟨hclean, hfree⟩, hrest⟩ := List.forall_mem_cons.1 hparts
    cases parts with
    | nil => exact ⟨isSegment_place h hclean hfree true, fun _ => place_ne_nil _ _⟩
    | cons next rest =>
      obtain ⟨hall, hne⟩ := ih hrest (isSegment_place h hclean hfree false)
      exact ⟨hall, fun _ => hne (List.cons_ne_nil _ _)⟩

theorem free_of_mem_encode {encodes : Char → Bool} {cs : List Char}
    (h : ∀ c ∈ cs, encodes c = false → isPathSeparator special c = false) :
    ∀ c ∈ Percent.encode encodes cs, isPathSeparator special c = false := by
  intro c hc
  have hhex : ∀ n < 16, ∀ special, isPathSeparator special (Text.upperHex n) = false := by decide
  rcases Percent.mem_encode hc with ⟨hc, hencodes⟩ | rfl | ⟨n, hn, rfl⟩
  · exact h c hc hencodes
  · cases special <;> decide
  · exact hhex n hn special

theorem isSegment_of_readSegments {cs : List Char} {parts : List (List Char)}
    (h : readSegments special cs = .segments parts) :
    parts ≠ [] ∧ ∀ part ∈ parts, IsSegment special part := by
  have hparts : ∀ part ∈ (Text.split (isPathSeparator special) cs).map
      (Percent.encode Percent.inPath), Clean Percent.inPath part ∧
        ∀ c ∈ part, isPathSeparator special c = false := by
    intro part hpart
    obtain ⟨text, htext, rfl⟩ := List.mem_map.1 hpart
    exact ⟨Percent.idempotent_inPath.clean text, free_of_mem_encode fun c hc _ =>
      Text.free_of_mem_split htext c hc⟩
  obtain ⟨hall, hne⟩ := isSegment_placeAll hparts (List.forall_mem_nil _)
  obtain rfl := Path.segments.inj h
  exact ⟨hne (by simpa using Text.split_ne_nil _ _), hall⟩

theorem isSegment_of_readPath {cs : List Char} {parts : List (List Char)}
    (h : readPath special cs = .segments parts) :
    (special = true → parts ≠ []) ∧ ∀ part ∈ parts, IsSegment special part := by
  have hsegments : ∀ {cs}, readSegments special cs = .segments parts →
      (special = true → parts ≠ []) ∧ ∀ part ∈ parts, IsSegment special part := fun h =>
    ⟨fun _ => (isSegment_of_readSegments h).1, (isSegment_of_readSegments h).2⟩
  unfold readPath at h
  split at h
  · split at h
    · obtain rfl := Path.segments.inj h
      exact ⟨fun _ => List.cons_ne_nil _ _, by simp [isSegment_nil]⟩
    · next hspecial =>
      obtain rfl := Path.segments.inj h
      exact ⟨fun hs => absurd hs hspecial, by simp⟩
  · exact hsegments h
  · split at h <;> exact hsegments h

def querySet (scheme : List Char) : Char → Bool :=
  if isSpecial scheme then Percent.inSpecialQuery else Percent.inQuery

theorem idempotent_querySet (scheme : List Char) : Percent.Idempotent (querySet scheme) := by
  unfold querySet
  split
  · exact Percent.idempotent_inSpecialQuery
  · exact Percent.idempotent_inQuery

/-- The query and the fragment of a URL, encoded. -/
structure HasTail (u : Url) : Prop where
  query : ∀ q ∈ u.query, Clean (querySet u.scheme) q
  fragment : ∀ f ∈ u.fragment, Clean Percent.inFragment f

theorem inQuery_of_querySet {scheme : List Char} {c : Char} (h : querySet scheme c = false) :
    Percent.inQuery c = false := by
  unfold querySet at h
  split at h
  · exact (Bool.or_eq_false_iff.1 h).1
  · exact h

theorem head_printQuery {u : Url} {c : Char} (h : c ∈ u.printQuery.head?) : c = '?' := by
  cases hq : u.query <;> simp_all [printQuery, eq_comm]

theorem head_printFragment {u : Url} {c : Char} (h : c ∈ u.printFragment.head?) : c = '#' := by
  cases hf : u.fragment <;> simp_all [printFragment, eq_comm]

theorem printQuery_eq_nil_iff {u : Url} : u.printQuery = [] ↔ u.query = none := by
  cases hq : u.query <;> simp [printQuery, hq]

theorem printFragment_eq_nil_iff {u : Url} : u.printFragment = [] ↔ u.fragment = none := by
  cases hf : u.fragment <;> simp [printFragment, hf]

theorem head_tail {u : Url} {c : Char} (h : c ∈ (u.printQuery ++ u.printFragment).head?) :
    isQueryMark c = true := by
  rw [List.head?_append] at h
  cases hhead : u.printQuery.head? with
  | none =>
    rw [hhead] at h
    rw [head_printFragment h]
    rfl
  | some d =>
    rw [hhead] at h
    obtain rfl := Option.some.inj h
    rw [head_printQuery hhead]
    rfl

theorem withRest_print {u : Url} (h : u.HasTail) (path : List Char → Path) {text : List Char}
    (htext : ∀ c ∈ text, isQueryMark c = false) :
    withRest u.scheme u.authority path (text ++ u.printQuery ++ u.printFragment) =
      { u with path := path text } := by
  have hmark : ∀ c ∈ text, c ≠ '?' ∧ c ≠ '#' := fun c hc => by
    simpa [isQueryMark] using htext c hc
  -- The first `#` is that of the fragment, and the first `?` in front of it that of the query.
  have hhash : ∀ c ∈ text ++ u.printQuery, (c != '#') = true := by
    refine List.forall_mem_append.2 ⟨fun c hc => by simp [(hmark c hc).2], fun c hc => ?_⟩
    unfold printQuery at hc
    split at hc
    · next q hq =>
      rcases List.mem_cons.1 hc with rfl | hc
      · rfl
      · have hquery := inQuery_of_querySet (h.query q hq c hc)
        rw [bne_iff_ne]
        rintro rfl
        exact absurd hquery (by decide)
    · cases hc
  obtain ⟨htake, hdrop⟩ := Text.takeWhile_dropWhile_append _ u.printFragment hhash
    fun c hc => by simp [head_printFragment hc]
  have hquestion := (Text.takeWhile_dropWhile_append (p := (· != '?')) text u.printQuery
    (fun c hc => by simp [(hmark c hc).1]) fun c hc => by simp [head_printQuery hc]).2
  have hpath := (Text.takeWhile_dropWhile_append (p := fun c => !isQueryMark c) text
    (u.printQuery ++ u.printFragment) (fun c hc => by simp [htext c hc])
    fun c hc => by simp [head_tail hc]).1
  rw [← List.append_assoc] at hpath
  simp only [withRest, htake, hdrop, hquestion, hpath]
  congr 1
  · cases hq : u.query with
    | none => simp [printQuery, hq]
    | some q =>
      simp only [printQuery, hq]
      exact congrArg some (Percent.encode_of_clean (h.query q hq))
  · cases hf : u.fragment with
    | none => simp [printFragment, hf]
    | some f =>
      simp only [printFragment, hf]
      exact congrArg some (Percent.encode_of_clean (h.fragment f hf))

theorem hasTail_withRest (scheme : List Char) (authority : Option Authority)
    (path : List Char → Path) (cs : List Char) : (withRest scheme authority path cs).HasTail := by
  constructor
  · intro q hq
    simp only [withRest, Option.mem_def] at hq
    split at hq
    · obtain rfl := Option.some.inj hq
      exact (idempotent_querySet scheme).clean _
    · cases hq
  · intro f hf
    simp only [withRest, Option.mem_def] at hf
    split at hf
    · obtain rfl := Option.some.inj hf
      exact Percent.idempotent_inFragment.clean _
    · cases hf

end Url
end Web
end ThreatGraph
