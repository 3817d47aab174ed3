import ThreatGraph.Proofs.Authorities
import ThreatGraph.Proofs.PathSegments
import ThreatGraph.Proofs.PathText
import ThreatGraph.Proofs.QueryPairs

/-!
# URLs read back

The text of a URL is read as the URL again.  This needs the parts of the URL to be written as they
are when a URL is read, and no part to hold a character that ends it.  Every URL that is read is
written so, and stays so when its query or its path is extended.
-/

namespace ThreatGraph
namespace Web
namespace Url

open Percent (Clean)

variable {special : Bool}

/-- A scheme in small letters. -/
structure IsScheme (scheme : List Char) : Prop where
  letter : ∃ c cs, scheme = c :: cs ∧ isLetter c = true
  chars : ∀ c ∈ scheme, isSchemeChar c = true ∧ c.toLower = c

theorem readScheme_append {scheme : List Char} (h : IsScheme scheme) (rest : List Char) :
    readScheme (scheme ++ ':' :: rest) = some (scheme, rest) := by
  obtain ⟨htake, hdrop⟩ := Text.takeWhile_dropWhile_append scheme (':' :: rest)
    (fun c hc => (h.chars c hc).1) (by simp; decide)
  have hlower : scheme.map Char.toLower = scheme := by
    conv => rhs; rw [← List.map_id scheme]
    exact List.map_congr_left fun c hc => (h.chars c hc).2
  obtain ⟨c, cs, rfl, hletter⟩ := h.letter
  rw [List.cons_append] at htake hdrop ⊢
  simp only [readScheme, hletter, if_true, hdrop, htake, hlower]

theorem isSchemeChar_ascii {c : Char} (h : isSchemeChar c = true) : c.toNat < 0x80 := by
  simp only [isSchemeChar, isLetter, Bool.or_eq_true, Bool.and_eq_true, decide_eq_true_eq,
    beq_iff_eq] at h
  rcases h with ((((⟨-, h⟩ | ⟨-, h⟩) | ⟨-, h⟩) | rfl) | rfl) | rfl
  · exact Text.ascii_of_le h (by decide)
  · exact Text.ascii_of_le h (by decide)
  · exact Text.ascii_of_le h (by decide)
  all_goals decide

theorem isScheme_of_readScheme {cs scheme rest : List Char}
    (h : readScheme cs = some (scheme, rest)) : IsScheme scheme := by
  have hlower : ∀ n < 0x80, isSchemeChar (Char.ofNat n) = true →
      isSchemeChar (Char.ofNat n).toLower = true ∧
        (Char.ofNat n).toLower.toLower = (Char.ofNat n).toLower ∧
        (isLetter (Char.ofNat n) = true → isLetter (Char.ofNat n).toLower = true) := by
    decide +kernel
  have hlower : ∀ c, isSchemeChar c = true → isSchemeChar c.toLower = true ∧
      c.toLower.toLower = c.toLower ∧ (isLetter c = true → isLetter c.toLower = true) := by
    intro c hc
    obtain ⟨n, hn, rfl⟩ := Text.eq_ofNat_of_ascii (isSchemeChar_ascii hc)
    exact hlower n hn hc
  unfold readScheme at h
  split at h
  · cases h
  · next c cs =>
    split at h
    · next hletter =>
      have hc : isSchemeChar c = true := by simp [isSchemeChar, hletter]
      split at h
      · obtain ⟨rfl, -⟩ := Prod.mk.inj (Option.some.inj h)
        refine ⟨⟨c.toLower, (cs.takeWhile isSchemeChar).map Char.toLower, ?_,
          (hlower c hc).2.2 hletter⟩, ?_⟩
        · rw [List.takeWhile_cons_of_pos hc, List.map_cons]
        · intro d hd
          obtain ⟨e, he, rfl⟩ := List.mem_map.1 hd
          have he := hlower e (List.mem_takeWhile_imp he)
          exact ⟨he.1, he.2.1⟩
      · cases h
    · cases h

def DriveWritten (authority : Authority) : List (List Char) → Prop
  | [c, mark] :: _ => isDrive [c, mark] = true → mark = ':' ∧ authority = noHost
  | _ => True

/-- The authority and the path of a URL, by how it is read. -/
inductive IsPlaced (scheme : List Char) : Option Authority → Path → Prop
  | file {host : Host} {parts : List (List Char)} (hscheme : scheme = fileScheme)
    (hhost : host = .name [] ∨ host.IsWritten true ∧ host.print ≠ [])
    (hlocal : host ≠ .name "localhost".toList) (hne : parts ≠ [])
    (hparts : ∀ part ∈ parts, IsSegment true part)
    (hdrive : DriveWritten ⟨none, host, none⟩ parts) :
    IsPlaced scheme (some ⟨none, host, none⟩) (.segments parts)
  | authority {a : Authority} {parts : List (List Char)} (hscheme : scheme ≠ fileScheme)
    (ha : a.IsWritten scheme) (hne : isSpecial scheme = true → parts ≠ [])
    (hparts : ∀ part ∈ parts, IsSegment (isSpecial scheme) part) :
    IsPlaced scheme (some a) (.segments parts)
  | rooted {parts : List (List Char)} (hscheme : isSpecial scheme = false) (hne : parts ≠ [])
    (hparts : ∀ part ∈ parts, IsSegment false part) : IsPlaced scheme none (.segments parts)
  | whole {text : List Char} (hscheme : isSpecial scheme = false)
    (hclean : Clean Percent.inControl text) (hmark : ∀ c ∈ text, isQueryMark c = false)
    (hslash : text.head? ≠ some '/') : IsPlaced scheme none (.text text)

/-- A URL that is written as it is read. -/
structure IsWritten (u : Url) : Prop extends HasTail u where
  scheme : IsScheme u.scheme
  placed : IsPlaced u.scheme u.authority u.path
  ended : u.query = none → u.fragment = none → ∀ text, u.path = .text text →
    text.getLast? ≠ some ' '

def isVisible (c : Char) : Bool := !Percent.inControl c && c != ' '

theorem isVisible_of_not_inFragment {c : Char} (h : Percent.inFragment c = false) :
    isVisible c = true := by
  simp only [Percent.inFragment, Bool.or_eq_false_iff, List.contains_eq_mem,
    decide_eq_false_iff_not, List.mem_cons, not_or] at h
  simp [isVisible, h.1, h.2.1]

theorem isVisible_of_not_inPath {c : Char} (h : Percent.inPath c = false) : isVisible c = true :=
  isVisible_of_not_inFragment (Bool.or_eq_false_iff.1 h).1

theorem isVisible_of_not_inUserinfo {c : Char} (h : Percent.inUserinfo c = false) :
    isVisible c = true := isVisible_of_not_inPath (Bool.or_eq_false_iff.1 h).1

theorem isVisible_of_not_inQuery {c : Char} (h : Percent.inQuery c = false) :
    isVisible c = true := by
  simp only [Percent.inQuery, Bool.or_eq_false_iff, List.contains_eq_mem,
    decide_eq_false_iff_not, List.mem_cons, not_or] at h
  simp [isVisible, h.1, h.2.1]

theorem isVisible_of_isHostChar {c : Char} (h : Host.isHostChar c = true) :
    isVisible c = true := by
  simp only [Host.isHostChar, Bool.and_eq_true, Bool.not_eq_true', List.contains_eq_mem,
    decide_eq_false_iff_not, List.mem_cons, not_or] at h
  simp [isVisible, h.1, h.2.2.1]

theorem isVisible_of_isSchemeChar {c : Char} (h : isSchemeChar c = true) :
    isVisible c = true := by
  have hchars : ∀ n < 0x80, isSchemeChar (Char.ofNat n) = true →
      isVisible (Char.ofNat n) = true := by decide +kernel
  obtain ⟨n, hn, rfl⟩ := Text.eq_ofNat_of_ascii (isSchemeChar_ascii h)
  exact hchars n hn h

theorem isVisible_authority {scheme : List Char} {a : Authority} (h : a.IsWritten scheme) :
    ∀ c ∈ a.print, isVisible c = true := by
  rw [Authority.print_eq, List.append_assoc]
  refine List.forall_mem_append.2 ⟨fun c hc => ?_, fun c hc =>
    isVisible_of_isHostChar (Authority.isHostChar_hostText h hc)⟩
  unfold Authority.userinfoText at hc
  split at hc
  · next u hu =>
    have hwritten := h.userinfo u hu
    rw [Userinfo.print_eq, Userinfo.body] at hc
    rcases List.mem_append.1 hc with hc | hc
    · rcases List.mem_append.1 hc with hc | hc
      · exact isVisible_of_not_inUserinfo (hwritten.username c hc)
      · split at hc
        · next p hp =>
          rcases List.mem_cons.1 hc with rfl | hc
          · rfl
          · exact isVisible_of_not_inUserinfo ((hwritten.password p hp).2 c hc)
        · cases hc
    · rw [List.mem_singleton.1 hc]
      rfl
  · cases hc

theorem isVisible_segments {parts : List (List Char)}
    (h : ∀ part ∈ parts, IsSegment special part) :
    ∀ c ∈ (Path.segments parts).print, isVisible c = true := by
  intro c hc
  obtain ⟨part, hpart, hc⟩ := List.mem_flatMap.1 hc
  rcases List.mem_cons.1 hc with rfl | hc
  · rfl
  · exact isVisible_of_not_inPath ((h part hpart).clean c hc)

theorem isVisible_tail {u : Url} (h : u.HasTail) :
    ∀ c ∈ u.printQuery ++ u.printFragment, isVisible c = true := by
  refine List.forall_mem_append.2 ⟨fun c hc => ?_, fun c hc => ?_⟩
  · unfold printQuery at hc
    split at hc
    · next q hq =>
      rcases List.mem_cons.1 hc with rfl | hc
      · rfl
      · exact isVisible_of_not_inQuery (inQuery_of_querySet (h.query q hq c hc))
    · cases hc
  · unfold printFragment at hc
    split at hc
    · next f hf =>
      rcases List.mem_cons.1 hc with rfl | hc
      · rfl
      · exact isVisible_of_not_inFragment (h.fragment f hf c hc)
    · cases hc

theorem significant_eq_self {cs : List Char} (h : Clean Percent.inControl cs)
    (hhead : cs.head? ≠ some ' ') (hlast : cs.getLast? ≠ some ' ') : significant cs = cs := by
  have hspace : ∀ c ∈ cs, c ≠ ' ' → isSpaceOrControl c = false := by
    intro c hc hne
    have hcontrol := h c hc
    simp only [Percent.inControl, Bool.or_eq_false_iff, decide_eq_false_iff_not] at hcontrol
    have hcode : c.toNat ≠ 0x20 := fun hcode => hne (Char.toNat_inj.1 hcode)
    simp only [isSpaceOrControl, decide_eq_false_iff_not]
    omega
  have hdrop : ∀ {cs' : List Char}, (∀ c ∈ cs', c ∈ cs) → cs'.head? ≠ some ' ' →
      cs'.dropWhile isSpaceOrControl = cs' := by
    intro cs' hsub hne
    cases cs' with
    | nil => rfl
    | cons c cs' =>
      have hc : c ≠ ' ' := fun hc => hne (congrArg some hc)
      simp [hspace c (hsub c List.mem_cons_self) hc]
  have hlines : cs.filter (fun c => !isLineSpace c) = cs := by
    refine List.filter_eq_self.2 fun c hc => ?_
    have hcontrol := h c hc
    rw [Bool.not_eq_true', Bool.eq_false_iff]
    intro hline
    simp only [isLineSpace, Bool.or_eq_true, beq_iff_eq] at hline
    rcases hline with (rfl | rfl) | rfl <;> exact absurd hcontrol (by decide)
  rw [significant, hdrop (fun _ h => h) hhead,
    hdrop (fun _ => List.mem_reverse.1) (by rwa [List.head?_reverse]), List.reverse_reverse, hlines]

def printPlace (u : Url) : List Char :=
  match u.authority with
  | some a => '/' :: '/' :: a.print
  | none => if u.path.startsWithSlashes then ['/', '.'] else []

theorem print_eq (u : Url) :
    u.print = u.scheme ++ ':' ::
      (u.printPlace ++ (u.path.print ++ (u.printQuery ++ u.printFragment))) := by
  simp only [print, printFront, List.append_assoc, List.cons_append]
  rfl

theorem print_host (host : Host) : (Authority.mk none host none).print = host.print := by
  simp [Authority.print]

theorem isText_of_file {host : Host}
    (h : host = .name [] ∨ host.IsWritten true ∧ host.print ≠ []) : Host.IsText host.print := by
  rcases h with rfl | h
  · exact .plain (List.forall_mem_nil _)
  · exact h.1.text

theorem isVisible_printPlace {u : Url} (h : u.IsWritten) :
    ∀ c ∈ u.printPlace, isVisible c = true := by
  obtain ⟨scheme, authority, path, query, fragment⟩ := u
  have hslashes : ∀ {cs : List Char}, (∀ c ∈ cs, isVisible c = true) →
      ∀ c ∈ '/' :: '/' :: cs, isVisible c = true := fun h =>
    List.forall_mem_cons.2 ⟨rfl, List.forall_mem_cons.2 ⟨rfl, h⟩⟩
  have hdot : ∀ (path : Path), ∀ c ∈ (if path.startsWithSlashes then ['/', '.'] else []),
      isVisible c = true := by
    intro path
    split
    · exact List.all_eq_true.1 (by decide)
    · simp
  cases h.placed with
  | file _ hhost =>
    refine hslashes fun c hc => ?_
    rw [print_host] at hc
    exact isVisible_of_isHostChar (Authority.isHostChar_of_isText (isText_of_file hhost) hc)
  | authority _ ha => exact hslashes (isVisible_authority ha)
  | rooted => exact hdot _
  | @whole text => exact hdot (.text text)

theorem isVisible_path {u : Url} (h : u.IsWritten) (hpath : ∀ text, u.path ≠ .text text) :
    ∀ c ∈ u.path.print, isVisible c = true := by
  obtain ⟨scheme, authority, path, query, fragment⟩ := u
  cases h.placed with
  | file _ _ _ _ hparts => exact isVisible_segments hparts
  | authority _ _ _ hparts => exact isVisible_segments hparts
  | rooted _ _ hparts => exact isVisible_segments hparts
  | whole => exact absurd rfl (hpath _)

theorem clean_path {u : Url} (h : u.IsWritten) {text : List Char} (hpath : u.path = .text text) :
    u.authority = none ∧ Clean Percent.inControl text := by
  obtain ⟨scheme, authority, path, query, fragment⟩ := u
  subst hpath
  cases h.placed with
  | whole _ hclean => exact ⟨rfl, hclean⟩

theorem isVisible_front {u : Url} (h : u.IsWritten) :
    ∀ c ∈ u.scheme ++ ':' :: u.printPlace, isVisible c = true :=
  List.forall_mem_append.2 ⟨fun c hc => isVisible_of_isSchemeChar (h.scheme.chars c hc).1,
    List.forall_mem_cons.2 ⟨rfl, isVisible_printPlace h⟩⟩

theorem clean_of_isVisible {cs : List Char} (h : ∀ c ∈ cs, isVisible c = true) :
    Clean Percent.inControl cs := fun c hc => by
  simpa using (Bool.and_eq_true_iff.1 (h c hc)).1

theorem significant_print {u : Url} (h : u.IsWritten) : significant u.print = u.print := by
  have hfront := isVisible_front h
  have htail := isVisible_tail h.toHasTail
  have hspace : ∀ {cs : List Char}, (∀ c ∈ cs, isVisible c = true) → cs.getLast? ≠ some ' ' :=
    fun h hlast => absurd (h ' ' (List.mem_of_getLast? hlast)) (by decide)
  have hhead : u.print.head? ≠ some ' ' := by
    obtain ⟨c, cs, hscheme, hletter⟩ := h.scheme.letter
    rw [print_eq, hscheme]
    intro hc
    obtain rfl : c = ' ' := Option.some.inj hc
    exact absurd hletter (by decide)
  have hprint : u.print = (u.scheme ++ ':' :: u.printPlace) ++
      (u.path.print ++ (u.printQuery ++ u.printFragment)) := by simp [print_eq]
  cases hpath : u.path with
  | segments parts =>
    have hvisible : ∀ c ∈ u.print, isVisible c = true := by
      rw [hprint]
      refine List.forall_mem_append.2 ⟨hfront, List.forall_mem_append.2 ⟨?_, htail⟩⟩
      exact isVisible_path h (by simp [hpath])
    exact significant_eq_self (clean_of_isVisible hvisible) hhead (hspace hvisible)
  | text text =>
    -- A path in one piece may have spaces in it, and the URL must not end in one of them.
    obtain ⟨-, hclean⟩ := clean_path h hpath
    rw [hpath, Path.print] at hprint
    refine significant_eq_self ?_ hhead ?_
    · rw [hprint]
      exact List.forall_mem_append.2 ⟨clean_of_isVisible hfront,
        List.forall_mem_append.2 ⟨hclean, clean_of_isVisible htail⟩⟩
    · rw [hprint, ← List.append_assoc, List.getLast?_append]
      cases hlast : (u.printQuery ++ u.printFragment).getLast? with
      | some c =>
        rw [Option.some_or, ← hlast]
        exact hspace htail
      | none =>
        obtain ⟨hquery, hfragment⟩ := List.append_eq_nil_iff.1 (List.getLast?_eq_none_iff.1 hlast)
        have hended := h.ended (printQuery_eq_nil_iff.1 hquery)
          (printFragment_eq_nil_iff.1 hfragment) text hpath
        rw [Option.none_or, List.getLast?_append]
        cases htext : text.getLast? with
        | some c =>
          rw [Option.some_or, ← htext]
          exact hended
        | none => exact hspace hfront

theorem normalizeDrive_of_written {u : Url} {authority : Authority} {parts : List (List Char)}
    (ha : u.authority = some authority) (hpath : u.path = .segments parts)
    (h : DriveWritten authority parts) : normalizeDrive u = u := by
  obtain ⟨scheme, _, _, query, fragment⟩ := u
  simp only at ha hpath
  subst ha hpath
  unfold normalizeDrive
  split
  · next c mark rest heq =>
    obtain rfl := Path.segments.inj heq
    split
    · next hdrive =>
      obtain ⟨rfl, rfl⟩ := h hdrive
      rfl
    · rfl
  · rfl

theorem driveWritten_of_normalizeDrive {u : Url} {authority : Authority} {parts : List (List Char)}
    (ha : u.authority = some authority) (hpath : u.path = .segments parts)
    (h : normalizeDrive u = u) : DriveWritten authority parts := by
  unfold DriveWritten
  split
  · next c mark rest =>
    intro hdrive
    simp only [normalizeDrive, hpath, hdrive, if_true] at h
    have hauthority := ha.symm.trans (congrArg Url.authority h).symm
    have hparts := hpath.symm.trans (congrArg Url.path h).symm
    exact ⟨by cases hparts; rfl, Option.some.inj hauthority⟩
  · trivial

theorem isDrive_eq_true {cs : List Char} (h : isDrive cs = true) :
    ∃ c mark, cs = [c, mark] ∧ isLetter c = true ∧ (mark = ':' ∨ mark = '|') := by
  unfold isDrive at h
  split at h
  · exact ⟨_, _, rfl, h, .inl rfl⟩
  · exact ⟨_, _, rfl, h, .inr rfl⟩
  · cases h

theorem isDrive_of_isText {cs : List Char} (h : Host.IsText cs) : isDrive cs = false := by
  rw [Bool.eq_false_iff]
  intro hdrive
  obtain ⟨c, mark, hcs, hletter, hmark⟩ := isDrive_eq_true hdrive
  cases h with
  | plain h =>
    obtain ⟨hchar, hcolon, -⟩ := h mark (by simp [hcs])
    rcases hmark with rfl | rfl
    · exact hcolon rfl
    · exact absurd hchar (by decide)
  | bracketed =>
    obtain ⟨rfl, -⟩ := List.cons.inj hcs
    exact absurd hletter (by decide)

theorem head_print_segments {parts : List (List Char)} {rest : List Char} {c : Char}
    (h : c ∈ ((Path.segments parts).print ++ rest).head?) : c = '/' ∨ c ∈ rest.head? := by
  cases parts with
  | nil => exact .inr h
  | cons part parts => exact .inl (Option.some.inj h).symm

theorem endsAuthority_path (u : Url) (parts : List (List Char)) (special : Bool) :
    EndsAuthority special
      ((Path.segments parts).print ++ (u.printQuery ++ u.printFragment)) := by
  intro c hc
  rcases head_print_segments hc with rfl | hc
  · rfl
  · have hmark := head_tail hc
    simp only [isQueryMark, Bool.or_eq_true, beq_iff_eq] at hmark
    rcases hmark with rfl | rfl <;> rfl

theorem isQueryMark_segments {parts : List (List Char)}
    (h : ∀ part ∈ parts, IsSegment special part) :
    ∀ c ∈ (Path.segments parts).print, isQueryMark c = false := by
  intro c hc
  obtain ⟨part, hpart, hc⟩ := List.mem_flatMap.1 hc
  rcases List.mem_cons.1 hc with rfl | hc
  · rfl
  · have hclean := (h part hpart).clean c hc
    rw [Bool.eq_false_iff]
    intro hmark
    simp only [isQueryMark, Bool.or_eq_true, beq_iff_eq] at hmark
    rcases hmark with rfl | rfl <;> exact absurd hclean (by decide)

theorem withRest_segments {u : Url} (h : u.HasTail) {parts : List (List Char)}
    (hpath : u.path = .segments parts) (hparts : ∀ part ∈ parts, IsSegment special part)
    (hne : special = true → parts ≠ []) :
    withRest u.scheme u.authority (readPath special)
      ((Path.segments parts).print ++ (u.printQuery ++ u.printFragment)) = u := by
  rw [← List.append_assoc, withRest_print h _ (isQueryMark_segments hparts),
    readPath_print hparts hne, ← hpath]

theorem readHierarchical_written {u : Url} {a : Authority} {parts : List (List Char)}
    (h : u.HasTail) (ha : u.authority = some a) (hpath : u.path = .segments parts)
    (hwritten : a.IsWritten u.scheme) (hne : isSpecial u.scheme = true → parts ≠ [])
    (hparts : ∀ part ∈ parts, IsSegment (isSpecial u.scheme) part) :
    readHierarchical u.scheme
      (a.print ++ ((Path.segments parts).print ++ (u.printQuery ++ u.printFragment))) = .ok u := by
  rw [readHierarchical, Authority.readAuthority_print hwritten (endsAuthority_path u parts _)]
  simp only [bind, Except.bind, pure, Except.pure, ← ha, withRest_segments h hpath hparts hne]

theorem readFile_written {u : Url} {host : Host} {parts : List (List Char)} (h : u.HasTail)
    (hscheme : u.scheme = fileScheme) (ha : u.authority = some ⟨none, host, none⟩)
    (hpath : u.path = .segments parts)
    (hhost : host = .name [] ∨ host.IsWritten true ∧ host.print ≠ [])
    (hlocal : host ≠ .name "localhost".toList) (hne : parts ≠ [])
    (hparts : ∀ part ∈ parts, IsSegment true part)
    (hdrive : DriveWritten ⟨none, host, none⟩ parts) :
    readFile ('/' :: '/' ::
      (host.print ++ ((Path.segments parts).print ++ (u.printQuery ++ u.printFragment)))) =
        .ok u := by
  have htext := isText_of_file hhost
  obtain ⟨htake, hdrop⟩ := Text.takeWhile_dropWhile_append (p := fun c => !isAuthorityEnd true c)
    host.print ((Path.segments parts).print ++ (u.printQuery ++ u.printFragment))
    (fun c hc => by simp [isAuthorityEnd_of_isHostChar (Authority.isHostChar_of_isText htext hc)])
    fun c hc => by simp [endsAuthority_path u parts true c hc]
  have hrest : readFilePath ⟨none, host, none⟩
      ((Path.segments parts).print ++ (u.printQuery ++ u.printFragment)) = u := by
    rw [readFilePath, ← ha, ← hscheme, withRest_segments h hpath hparts fun _ => hne,
      normalizeDrive_of_written ha hpath hdrive]
  have hslashes : (isSlash '/' && isSlash '/') = true := by decide
  rw [readFile, if_pos hslashes]
  simp only [htake, hdrop, isDrive_of_isText htext, Bool.or_false]
  rcases hhost with rfl | ⟨hwritten, hprint⟩
  · exact congrArg Except.ok hrest
  · have hread : Host.readSpecial host.print = .ok host := hwritten.reads
    simp only [List.isEmpty_eq_false_iff.2 hprint, hread, hlocal, hrest, Bool.false_eq_true,
      if_false]

/-- How what follows a scheme is read that is not special. -/
def readOther (scheme rest : List Char) : Except UrlFault Url :=
  match rest with
  | '/' :: '/' :: rest => readHierarchical scheme rest
  | '/' :: rest => .ok (withRest scheme none (readSegments false) rest)
  | rest => .ok (withRest scheme none (fun cs => .text (Percent.encode Percent.inControl cs)) rest)

theorem readOther_slash {scheme rest : List Char} (h : rest.head? ≠ some '/') :
    readOther scheme ('/' :: rest) = .ok (withRest scheme none (readSegments false) rest) := by
  unfold readOther
  split
  · next heq =>
    obtain rfl := (List.cons.inj heq).2
    exact absurd rfl h
  · next heq =>
    obtain rfl := (List.cons.inj heq).2
    rfl
  · next hne => exact (hne _ rfl).elim

theorem readOther_of_ne {scheme rest : List Char} (h : rest.head? ≠ some '/') :
    readOther scheme rest =
      .ok (withRest scheme none (fun cs => .text (Percent.encode Percent.inControl cs)) rest) := by
  unfold readOther
  split
  · exact absurd rfl h
  · exact absurd rfl h
  · rfl

theorem read_of_scheme {s : String} {scheme rest : List Char} (h : IsScheme scheme)
    (hs : significant s.toList = scheme ++ ':' :: rest) :
    read s = if scheme = fileScheme then readFile rest
      else if isSpecial scheme then readHierarchical scheme (rest.dropWhile isSlash)
      else readOther scheme rest := by
  rw [read, hs, readScheme_append h]
  rfl

theorem readSegments_dot {parts : List (List Char)} (hne : parts ≠ [])
    (h : ∀ part ∈ parts, IsSegment false part) :
    readSegments false ('.' :: '/' :: Text.join '/' parts) = .segments parts := by
  have hjoin : '.' :: '/' :: Text.join '/' parts = Text.join '/' (['.'] :: parts) := by
    rw [Text.join_cons_of_ne_nil _ _ hne]
    rfl
  have hsplit : Text.split (fun c => c == '/' || (false && c == '\\'))
      (Text.join '/' (['.'] :: parts)) = ['.'] :: parts :=
    Text.split_join (by simp) (List.cons_ne_nil _ _)
      (List.forall_mem_cons.2
        ⟨List.forall_mem_singleton.2 (by decide), fun part hpart => (h part hpart).free⟩)
  have hdot : Percent.encode Percent.inPath ['.'] = ['.'] := by decide
  obtain ⟨part, parts, rfl⟩ := List.exists_cons_of_ne_nil hne
  have hplace : place [] ['.'] false = [] := by decide
  rw [readSegments, hjoin, hsplit, List.map_cons, hdot, map_encode_segments h, placeAll, hplace,
    placeAll_append h]
  rfl

theorem head_join_ne_slash {part : List Char} {parts : List (List Char)} {rest : List Char}
    (hslashes : (Path.segments (part :: parts)).startsWithSlashes = false)
    (h : ∀ s ∈ part :: parts, IsSegment special s) (hrest : rest.head? ≠ some '/') :
    (Text.join '/' (part :: parts) ++ rest).head? ≠ some '/' := by
  cases part with
  | nil =>
    cases parts with
    | nil => exact hrest
    | cons next parts => cases hslashes
  | cons c part =>
    have hc := (h _ List.mem_cons_self).free c List.mem_cons_self
    have hhead : (Text.join '/' ((c :: part) :: parts) ++ rest).head? = some c := by
      cases parts <;> rfl
    rw [hhead]
    intro heq
    obtain rfl := Option.some.inj heq
    cases hc

/-- A path without an authority.  A point keeps its slashes from being those of an authority. -/
theorem readOther_rooted {u : Url} {parts : List (List Char)} (h : u.HasTail)
    (ha : u.authority = none) (hpath : u.path = .segments parts) (hne : parts ≠ [])
    (hparts : ∀ part ∈ parts, IsSegment false part) :
    readOther u.scheme
      (u.printPlace ++ ((Path.segments parts).print ++ (u.printQuery ++ u.printFragment))) =
        .ok u := by
  obtain ⟨part, parts, rfl⟩ := List.exists_cons_of_ne_nil hne
  have hmark := isQueryMark_segments hparts
  rw [print_segments] at hmark ⊢
  have hjoin : ∀ c ∈ Text.join '/' (part :: parts), isQueryMark c = false := fun c hc =>
    hmark c (List.mem_cons_of_mem _ hc)
  have hrest : ∀ {text : List Char}, (∀ c ∈ text, isQueryMark c = false) →
      readSegments false text = .segments (part :: parts) →
      withRest u.scheme none (readSegments false)
        (text ++ (u.printQuery ++ u.printFragment)) = u := by
    intro text htext hread
    rw [← ha, ← List.append_assoc, withRest_print h _ htext, hread, ← hpath]
  unfold printPlace
  rw [ha]
  simp only [hpath]
  cases hslashes : (Path.segments (part :: parts)).startsWithSlashes with
  | true =>
    -- What is read starts with a point as one segment more, which `placeAll` leaves out again.
    have hdotted : ∀ c ∈ '.' :: '/' :: Text.join '/' (part :: parts), isQueryMark c = false :=
      List.forall_mem_cons.2 ⟨rfl, List.forall_mem_cons.2 ⟨rfl, hjoin⟩⟩
    have hread := hrest hdotted (readSegments_dot hne hparts)
    simp only [if_true, List.cons_append, List.nil_append] at hread ⊢
    rw [readOther_slash (by simp), hread]
  | false =>
    have hhead : (Text.join '/' (part :: parts) ++ (u.printQuery ++ u.printFragment)).head? ≠
        some '/' := head_join_ne_slash hslashes hparts fun htail => by
      exact absurd (head_tail htail) (by decide)
    simp only [Bool.false_eq_true, if_false, List.nil_append, List.cons_append]
    rw [readOther_slash hhead, hrest hjoin (readSegments_join hne hparts)]

theorem readOther_whole {u : Url} {text : List Char} (h : u.HasTail) (ha : u.authority = none)
    (hpath : u.path = .text text) (hclean : Clean Percent.inControl text)
    (hmark : ∀ c ∈ text, isQueryMark c = false) (hslash : text.head? ≠ some '/') :
    readOther u.scheme
      (u.printPlace ++ (text ++ (u.printQuery ++ u.printFragment))) = .ok u := by
  have hplace : u.printPlace = [] := by simp [printPlace, ha, hpath, Path.startsWithSlashes]
  have hhead : (text ++ (u.printQuery ++ u.printFragment)).head? ≠ some '/' := by
    cases text with
    | nil => exact fun htail => absurd (head_tail htail) (by decide)
    | cons c text => exact hslash
  rw [hplace, List.nil_append, readOther_of_ne hhead, ← ha, ← List.append_assoc,
    withRest_print h _ hmark, Percent.encode_of_clean hclean, ← hpath]

theorem dropWhile_slashes_print {scheme : List Char} {a : Authority} (h : a.IsWritten scheme)
    (hne : a.print ≠ []) (rest : List Char) :
    ('/' :: '/' :: (a.print ++ rest)).dropWhile isSlash = a.print ++ rest := by
  obtain ⟨c, cs, hcs⟩ := List.exists_cons_of_ne_nil hne
  have hc : isSlash c = false := by
    have hend := Authority.not_isAuthorityEnd_print h true (hcs ▸ List.mem_cons_self)
    simp only [isAuthorityEnd, Bool.or_eq_false_iff, Bool.true_and] at hend
    exact Bool.or_eq_false_iff.2 ⟨hend.1.1.1, hend.2⟩
  rw [hcs, List.cons_append, List.dropWhile_cons_of_pos (by decide),
    List.dropWhile_cons_of_pos (by decide), List.dropWhile_cons_of_neg (by simp [hc])]

theorem ne_fileScheme_of_not_special {scheme : List Char} (h : isSpecial scheme = false) :
    scheme ≠ fileScheme := by
  rintro rfl
  cases h

/-- The text of a written URL is read as the URL. -/
theorem IsWritten.read_text {u : Url} (h : u.IsWritten) : read u.text = .ok u := by
  have hsignificant : significant u.text.toList = u.scheme ++ ':' ::
      (u.printPlace ++ (u.path.print ++ (u.printQuery ++ u.printFragment))) := by
    rw [text, String.toList_ofList, significant_print h, print_eq]
  have htail := h.toHasTail
  have hread := read_of_scheme h.scheme hsignificant
  have hother : isSpecial u.scheme = false → read u.text = readOther u.scheme
      (u.printPlace ++ (u.path.print ++ (u.printQuery ++ u.printFragment))) := by
    intro hspecial
    rw [hread, if_neg (ne_fileScheme_of_not_special hspecial), if_neg (by simp [hspecial])]
  obtain ⟨scheme, authority, path, query, fragment⟩ := u
  cases h.placed with
  | @file host parts hscheme hhost hlocal hne hparts hdrive =>
    have hfile := readFile_written htail hscheme rfl rfl hhost hlocal hne hparts hdrive
    rw [hread, if_pos hscheme]
    simpa only [printPlace, print_host, List.cons_append, List.append_assoc] using hfile
  | @authority a parts hscheme ha hne hparts =>
    have hauthority := readHierarchical_written htail rfl rfl ha hne hparts
    rw [hread, if_neg hscheme]
    split
    · next hspecial =>
      have hne : a.print ≠ [] := by
        simp [Authority.print_eq, ha.special hspecial]
      exact (congrArg (readHierarchical scheme) (dropWhile_slashes_print ha hne _)).trans hauthority
    · exact hauthority
  | @rooted parts hspecial hne hparts =>
    exact (hother hspecial).trans (readOther_rooted htail rfl rfl hne hparts)
  | @whole text hspecial hclean hmark hslash =>
    exact (hother hspecial).trans (readOther_whole htail rfl rfl hclean hmark hslash)

theorem isWritten_of_segments {u : Url} {parts : List (List Char)} (hscheme : IsScheme u.scheme)
    (htail : u.HasTail) (hpath : u.path = .segments parts)
    (hplaced : IsPlaced u.scheme u.authority (.segments parts)) : u.IsWritten where
  toHasTail := htail
  scheme := hscheme
  placed := hpath ▸ hplaced
  ended _ _ text htext := by
    rw [hpath] at htext
    cases htext

theorem isWritten_of_readHierarchical {scheme cs : List Char} {u : Url} (hscheme : IsScheme scheme)
    (hfile : scheme ≠ fileScheme) (h : readHierarchical scheme cs = .ok u) : u.IsWritten := by
  unfold readHierarchical at h
  cases ha : readAuthority scheme cs with
  | error e => simp [ha, bind, Except.bind] at h
  | ok r =>
    obtain ⟨authority, rest⟩ := r
    simp only [ha, bind, Except.bind, pure, Except.pure, Except.ok.injEq] at h
    subst h
    obtain ⟨parts, hparts⟩ := readPath_segments (isSpecial scheme)
      (rest.takeWhile fun c => !isQueryMark c)
    obtain ⟨hne, hsegments⟩ := isSegment_of_readPath hparts
    exact isWritten_of_segments hscheme (hasTail_withRest _ _ _ _) hparts
      (.authority hfile (isWritten_of_readAuthority ha) hne hsegments)

theorem isSegment_drive {c : Char} (h : isLetter c = true) : IsSegment true [c, ':'] := by
  have hchars : ∀ n < 0x80, isLetter (Char.ofNat n) = true →
      Percent.inPath (Char.ofNat n) = false ∧ isPathSeparator true (Char.ofNat n) = false ∧
        isDoubleDot [Char.ofNat n, ':'] = false ∧ isSingleDot [Char.ofNat n, ':'] = false := by
    decide +kernel
  have hscheme : isSchemeChar c = true := by simp [isSchemeChar, h]
  obtain ⟨n, hn, rfl⟩ := Text.eq_ofNat_of_ascii (isSchemeChar_ascii hscheme)
  obtain ⟨hclean, hfree, hdouble, hsingle⟩ := hchars n hn h
  exact ⟨List.forall_mem_cons.2 ⟨hclean, List.forall_mem_singleton.2 (by decide)⟩,
    List.forall_mem_cons.2 ⟨hfree, List.forall_mem_singleton.2 (by decide)⟩, hdouble, hsingle⟩

theorem driveWritten_of_not {authority : Authority} {parts : List (List Char)}
    (h : ∀ first ∈ parts.head?, isDrive first = false) : DriveWritten authority parts := by
  unfold DriveWritten
  split
  · next c mark rest =>
    intro hdrive
    rw [h _ rfl] at hdrive
    cases hdrive
  · trivial

theorem isWritten_readFilePath {host : Host} (cs : List Char)
    (hhost : host = .name [] ∨ host.IsWritten true ∧ host.print ≠ [])
    (hlocal : host ≠ .name "localhost".toList) :
    (readFilePath ⟨none, host, none⟩ cs).IsWritten := by
  have hread : readScheme "file:".toList = some (fileScheme, []) := by decide
  have hscheme : IsScheme fileScheme := isScheme_of_readScheme hread
  obtain ⟨parts, hparts⟩ := readPath_segments true (cs.takeWhile fun c => !isQueryMark c)
  obtain ⟨hne, hsegments⟩ := isSegment_of_readPath hparts
  obtain ⟨part, parts, rfl⟩ := List.exists_cons_of_ne_nil (hne rfl)
  have htail := hasTail_withRest fileScheme (some ⟨none, host, none⟩) (readPath true) cs
  rw [readFilePath]
  generalize hu : withRest fileScheme (some ⟨none, host, none⟩) (readPath true) cs = u at htail ⊢
  have hpath : u.path = .segments (part :: parts) := hu ▸ hparts
  have hscheme' : u.scheme = fileScheme := hu ▸ rfl
  have hauthority : u.authority = some ⟨none, host, none⟩ := hu ▸ rfl
  cases hdrive : isDrive part with
  | false =>
    have hwritten : DriveWritten ⟨none, host, none⟩ (part :: parts) :=
      driveWritten_of_not fun first hfirst => Option.some.inj hfirst ▸ hdrive
    rw [normalizeDrive_of_written hauthority hpath hwritten]
    refine isWritten_of_segments (hscheme' ▸ hscheme) htail hpath ?_
    rw [hauthority]
    exact .file hscheme' hhost hlocal (List.cons_ne_nil _ _) hsegments hwritten
  | true =>
    -- The host is gone with the drive, so nothing is left to say about it.
    obtain ⟨c, mark, rfl, hletter, hmark⟩ := isDrive_eq_true hdrive
    have hnormal : normalizeDrive u =
        { u with authority := some noHost, path := .segments ([c, ':'] :: parts) } := by
      unfold normalizeDrive
      rw [hpath]
      simp only [hdrive, if_true]
    rw [hnormal]
    refine isWritten_of_segments (hscheme' ▸ hscheme) ⟨htail.query, htail.fragment⟩ rfl ?_
    refine .file hscheme' (.inl rfl) (by decide) (List.cons_ne_nil _ _) ?_ fun _ => ⟨rfl, rfl⟩
    exact List.forall_mem_cons.2 ⟨isSegment_drive hletter, (List.forall_mem_cons.1 hsegments).2⟩

theorem isWritten_of_readFile {cs : List Char} {u : Url} (h : readFile cs = .ok u) :
    u.IsWritten := by
  have hno : ∀ rest, (readFilePath noHost rest).IsWritten := fun rest =>
    isWritten_readFilePath rest (.inl rfl) (by decide)
  unfold readFile at h
  split at h
  · split at h
    · simp only at h
      split at h
      · cases h
        exact hno _
      · split at h
        · cases h
        · next host hhost =>
          cases h
          split
          · exact hno _
          · next hlocal =>
            exact isWritten_readFilePath _ (.inr (Host.isWritten_of_readSpecial hhost)) hlocal
    · cases h
      exact hno _
  · cases h
    exact hno _

theorem getLast?_significant (cs : List Char) : (significant cs).getLast? ≠ some ' ' := by
  have hhead := List.head?_dropWhile_not isSpaceOrControl
    (cs.dropWhile isSpaceOrControl).reverse
  unfold significant
  cases hback : (cs.dropWhile isSpaceOrControl).reverse.dropWhile isSpaceOrControl with
  | nil => simp
  | cons c back =>
    have hc : isSpaceOrControl c = false := by simpa [hback] using hhead
    have hline : (!isLineSpace c) = true := by
      rw [Bool.not_eq_true', Bool.eq_false_iff]
      intro hline
      simp only [isLineSpace, Bool.or_eq_true, beq_iff_eq] at hline
      rcases hline with (rfl | rfl) | rfl <;> exact absurd hc (by decide)
    rw [List.reverse_cons, List.filter_append,
      List.filter_cons_of_pos (p := fun c => !isLineSpace c) hline, List.filter_nil,
      List.getLast?_concat]
    intro hspace
    obtain rfl := Option.some.inj hspace
    exact absurd hc (by decide)

theorem getLast?_of_readScheme {cs scheme rest : List Char}
    (h : readScheme cs = some (scheme, rest)) (hlast : cs.getLast? ≠ some ' ') :
    rest.getLast? ≠ some ' ' := by
  obtain ⟨front, rfl⟩ : ∃ front, cs = front ++ ':' :: rest := by
    unfold readScheme at h
    split at h
    · cases h
    · next c cs =>
      split at h
      · split at h
        · next hdrop =>
          obtain ⟨-, rfl⟩ := Prod.mk.inj (Option.some.inj h)
          exact ⟨_, by rw [← hdrop, List.takeWhile_append_dropWhile]⟩
        · cases h
      · cases h
  rw [List.getLast?_append] at hlast
  cases rest with
  | nil => simp
  | cons c rest => simpa [List.getLast?_cons] using hlast

theorem ends_encode {encodes : Char → Bool} {cs : List Char} {d : Char}
    (hd : d ≠ '%' ∧ ∀ n < 16, d ≠ Text.upperHex n) :
    (cs.head? ≠ some d → (Percent.encode encodes cs).head? ≠ some d) ∧
      (cs.getLast? ≠ some d → (Percent.encode encodes cs).getLast? ≠ some d) := by
  have hchar : ∀ c : Char, c ≠ d → d ∉ Percent.encode encodes [c] := by
    intro c hc hmem
    rcases Percent.mem_encode hmem with ⟨hmem, -⟩ | hd' | ⟨n, hn, hd'⟩
    · exact hc (List.mem_singleton.1 hmem).symm
    · exact hd.1 hd'
    · exact hd.2 n hn hd'
  have hne : ∀ c : Char, Percent.encode encodes [c] ≠ [] := fun c h =>
    List.cons_ne_nil _ _ (Percent.encode_eq_nil_iff.1 h)
  constructor
  · intro h
    cases cs with
    | nil => simp
    | cons c cs =>
      rw [← List.singleton_append, Percent.encode_append, List.head?_append_of_ne_nil _ (hne c)]
      exact fun hhead => hchar c (fun hc => h (congrArg some hc)) (List.mem_of_mem_head? hhead)
  · intro h
    rcases cs.eq_nil_or_concat with rfl | ⟨front, c, rfl⟩
    · simp
    · rw [List.concat_eq_append, List.getLast?_concat] at h
      rw [List.concat_eq_append, Percent.encode_append, List.getLast?_append_of_ne_nil _ (hne c)]
      exact fun hlast => hchar c (fun hc => h (congrArg some hc)) (List.mem_of_getLast? hlast)

theorem takeWhile_of_noTail {scheme rest : List Char} {authority : Option Authority}
    {path : List Char → Path} (hquery : (withRest scheme authority path rest).query = none)
    (hfragment : (withRest scheme authority path rest).fragment = none) :
    rest.takeWhile (fun c => !isQueryMark c) = rest := by
  simp only [withRest] at hquery hfragment
  split at hfragment
  · cases hfragment
  · next hdrop =>
    have hhash : ∀ c ∈ rest, (c != '#') = true := List.dropWhile_eq_nil_iff.1 hdrop
    rw [List.takeWhile_eq_self_iff.2 hhash] at hquery
    split at hquery
    · cases hquery
    · next hdrop =>
      have hquestion : ∀ c ∈ rest, (c != '?') = true := List.dropWhile_eq_nil_iff.1 hdrop
      refine List.takeWhile_eq_self_iff.2 fun c hc => ?_
      have hne := hhash c hc
      have hne' := hquestion c hc
      simp only [bne_iff_ne] at hne hne'
      simp [isQueryMark, hne, hne']

theorem isWritten_of_whole {scheme rest : List Char} (hscheme : IsScheme scheme)
    (hspecial : isSpecial scheme = false) (hslash : rest.head? ≠ some '/')
    (hlast : rest.getLast? ≠ some ' ') :
    (withRest scheme none
      (fun cs => .text (Percent.encode Percent.inControl cs)) rest).IsWritten := by
  have hmark : ∀ c ∈ Percent.encode Percent.inControl (rest.takeWhile fun c => !isQueryMark c),
      isQueryMark c = false := by
    intro c hc
    have hhex : ∀ n < 16, isQueryMark (Text.upperHex n) = false := by decide
    rcases Percent.mem_encode hc with ⟨hc, -⟩ | rfl | ⟨n, hn, rfl⟩
    · simpa using List.mem_takeWhile_imp hc
    · rfl
    · exact hhex n hn
  have hfront : (rest.takeWhile fun c => !isQueryMark c).head? ≠ some '/' := by
    cases rest with
    | nil => simp
    | cons c rest =>
      rw [List.takeWhile_cons]
      split
      · exact hslash
      · simp
  refine ⟨hasTail_withRest _ _ _ _, hscheme,
    .whole hspecial (Percent.idempotent_inControl.clean _) hmark
      ((ends_encode (by decide)).1 hfront), ?_⟩
  -- With nothing behind the path, it ends where the whole text ends.
  intro hquery hfragment text htext
  obtain rfl := Path.text.inj htext
  refine (ends_encode (by decide)).2 ?_
  rw [takeWhile_of_noTail hquery hfragment]
  exact hlast

theorem isWritten_of_read {s : String} {u : Url} (h : read s = .ok u) : u.IsWritten := by
  unfold read at h
  split at h
  · cases h
  · next scheme rest hread =>
    have hscheme := isScheme_of_readScheme hread
    split at h
    · exact isWritten_of_readFile h
    · next hfile =>
      split at h
      · exact isWritten_of_readHierarchical hscheme hfile h
      · next hspecial =>
        have hspecial : isSpecial scheme = false := by simpa using hspecial
        split at h
        · exact isWritten_of_readHierarchical hscheme hfile h
        · next more _ =>
          cases h
          obtain ⟨parts, hparts⟩ : ∃ parts, readSegments false
              (more.takeWhile fun c => !isQueryMark c) = .segments parts := ⟨_, rfl⟩
          obtain ⟨hne, hsegments⟩ := isSegment_of_readSegments hparts
          exact isWritten_of_segments hscheme (hasTail_withRest _ _ _ _) hparts
            (.rooted hspecial hne hsegments)
        · next hne hne' =>
          cases h
          have hslash : rest.head? ≠ some '/' := by
            intro hhead
            obtain ⟨more, rfl⟩ := List.head?_eq_some_iff.1 hhead
            exact hne' more rfl
          exact isWritten_of_whole hscheme hspecial hslash
            (getLast?_of_readScheme hread (getLast?_significant _))

theorem querySet_of_inSpecialQuery {scheme : List Char} {c : Char}
    (h : Percent.inSpecialQuery c = false) : querySet scheme c = false := by
  unfold querySet
  split
  · exact h
  · exact (Bool.or_eq_false_iff.1 h).1

theorem clean_encodeText (s : String) : Clean Percent.inSpecialQuery (Form.encodeText s) := by
  have hplain : ∀ n < 0x80, Form.isPlain (Char.ofNat n) = true →
      Percent.inSpecialQuery (Char.ofNat n) = false := by decide +kernel
  intro c hc
  obtain ⟨d, -, hd⟩ := List.mem_flatMap.1 hc
  unfold Form.encodeChar at hd
  split at hd
  · next h =>
    obtain rfl := List.mem_singleton.1 hd
    obtain ⟨n, hn, rfl⟩ := Text.eq_ofNat_of_ascii (Form.isPlain_bounds h).1
    exact hplain n hn h
  · split at hd
    · obtain rfl := List.mem_singleton.1 hd
      decide
    · obtain ⟨b, -, hb⟩ := List.mem_flatMap.1 hd
      rcases Percent.mem_encodeByte hb with rfl | ⟨n, hn, rfl⟩
      · decide
      · exact Percent.idempotent_inSpecialQuery.hex n hn

theorem clean_append {scheme query : List Char} (h : Clean (querySet scheme) query)
    (pairs : Form.Pairs) : Clean (querySet scheme) (Form.append query pairs) := by
  have hcheck : ∀ c, Percent.inSpecialQuery c = false → querySet scheme c = false :=
    fun _ => querySet_of_inSpecialQuery
  induction pairs generalizing query with
  | nil => exact h
  | cons p pairs ih =>
    refine ih (List.forall_mem_append.2 ⟨?_, ?_⟩)
    · split
      · exact h
      · exact List.forall_mem_append.2 ⟨h, List.forall_mem_singleton.2 (hcheck '&' (by decide))⟩
    · exact List.forall_mem_append.2 ⟨fun c hc => hcheck c (clean_encodeText p.1 c hc),
        List.forall_mem_cons.2 ⟨hcheck '=' (by decide), fun c hc =>
          hcheck c (clean_encodeText p.2 c hc)⟩⟩

theorem IsWritten.withQuery {u : Url} (h : u.IsWritten) {query : List Char}
    (hquery : Clean (querySet u.scheme) query) :
    ({ u with query := some query } : Url).IsWritten where
  query _ hq := Option.some.inj hq ▸ hquery
  fragment := h.fragment
  scheme := h.scheme
  placed := h.placed
  ended hnone := nomatch hnone

theorem IsWritten.appendPairs {u : Url} (h : u.IsWritten) (pairs : Form.Pairs) :
    (u.appendPairs pairs).IsWritten := by
  refine h.withQuery (clean_append ?_ pairs)
  cases hq : u.query with
  | none => exact List.forall_mem_nil _
  | some q => exact h.query q hq

theorem IsWritten.withPairs {u : Url} (h : u.IsWritten) (pairs : Form.Pairs) :
    (u.withPairs pairs).IsWritten :=
  h.withQuery (clean_append (List.forall_mem_nil _) pairs)

theorem of_not_segmentSet {c : Char} (h : segmentSet special c = false) :
    Percent.inPath c = false ∧ isPathSeparator special c = false := by
  have hsegment : Percent.inSegment c = false ∧ (special && c == '\\') = false := by
    cases special with
    | false => exact ⟨h, rfl⟩
    | true => exact Bool.or_eq_false_iff.1 h
  simp only [Percent.inSegment, Bool.or_eq_false_iff, List.contains_eq_mem, decide_eq_false_iff_not,
    List.mem_cons, not_or] at hsegment
  refine ⟨hsegment.1.1, ?_⟩
  rw [isPathSeparator, hsegment.2, Bool.or_false]
  exact beq_eq_false_iff_ne.2 hsegment.1.2.1

theorem isSegment_opened {segments : List (List Char)} (h : ∀ s ∈ segments, IsSegment special s) :
    ∀ s ∈ opened segments, IsSegment special s := by
  unfold opened
  split
  · simp
  · exact h

theorem isSegment_pushSegment {segments : List (List Char)}
    (h : ∀ s ∈ segments, IsSegment special s) (text : List Char) :
    ∀ s ∈ pushSegment special segments text, IsSegment special s := by
  by_cases hdots : IsDots text
  · rw [pushSegment_of_dots special hdots]
    exact h
  · have hclean : Clean Percent.inPath (segmentOf special text) := by
      intro c hc
      rcases Percent.mem_encode hc with ⟨-, hc⟩ | rfl | ⟨n, hn, rfl⟩
      · exact (of_not_segmentSet hc).1
      · decide
      · exact Percent.idempotent_inPath.hex n hn
    rw [pushSegment_eq special hdots]
    exact isSegment_place (isSegment_opened h) hclean
      (free_of_mem_encode fun c _ hc => (of_not_segmentSet hc).2) true

theorem isSegment_pushAll {segments : List (List Char)} (h : ∀ s ∈ segments, IsSegment special s)
    (texts : List String) : ∀ s ∈ pushAll special segments texts, IsSegment special s := by
  unfold pushAll
  induction texts generalizing segments with
  | nil => exact h
  | cons text texts ih => exact ih (isSegment_pushSegment h text.toList)

theorem dropEmptyLast_subset (segments : List (List Char)) : dropEmptyLast segments ⊆ segments := by
  unfold dropEmptyLast
  split
  · exact fun _ h => h
  · split
    · exact List.dropLast_subset _
    · exact fun _ h => h

/-- A URL with more segments.  The first one of a file URL must not turn into a drive. -/
theorem IsWritten.extendPath {u v : Url} {texts : List String} (h : u.IsWritten)
    (hv : u.extendPath? texts = some v) (hdrive : v.scheme = fileScheme → normalizeDrive v = v) :
    v.IsWritten := by
  cases hpath : u.path with
  | text whole => simp [extendPath?, hpath] at hv
  | segments parts =>
    rw [extendPath?_eq hpath] at hv
    obtain rfl := Option.some.inj hv
    have hextended : ∀ {special : Bool}, (∀ s ∈ parts, IsSegment special s) →
        ∀ s ∈ opened (pushAll special (dropEmptyLast parts) texts) ++ [[]],
          IsSegment special s := fun hparts =>
      List.forall_mem_append.2 ⟨isSegment_opened (isSegment_pushAll
        (fun s hs => hparts s (dropEmptyLast_subset _ hs)) texts),
        List.forall_mem_singleton.2 isSegment_nil⟩
    have hne : ∀ front : List (List Char), front ++ [[]] ≠ [] := by simp
    refine isWritten_of_segments h.scheme ⟨h.query, h.fragment⟩ rfl ?_
    obtain ⟨scheme, authority, path, query, fragment⟩ := u
    simp only at hpath
    subst hpath
    cases h.placed with
    | file hscheme hhost hlocal _ hparts =>
      obtain rfl := hscheme
      exact .file rfl hhost hlocal (hne _) (hextended hparts)
        (driveWritten_of_normalizeDrive rfl rfl (hdrive rfl))
    | authority hfile ha _ hparts =>
      exact .authority hfile ha (fun _ => hne _) (hextended hparts)
    | rooted hspecial _ hparts =>
      simp only at hspecial
      simp only [hspecial]
      exact .rooted hspecial (hne _) (hextended hparts)

end Url
end Web
end ThreatGraph
