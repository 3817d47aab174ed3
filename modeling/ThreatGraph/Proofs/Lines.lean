import ThreatGraph.Command.Run
import ThreatGraph.Proofs.Encoding
import ThreatGraph.Proofs.Grammar
import ThreatGraph.Proofs.Redaction

/-!
# Lines of the input and of the output

The input is cut into lines before it is decoded.  No part of a character is a line feed, so this
comes to the same as decoding it and then taking its lines.  What is printed of a JSON value is one
line, because a line feed is escaped.
-/

namespace ThreatGraph

namespace Text

theorem trim_of_free {cs : List Char} (h : ∀ c ∈ cs, isBlank c = false) : trim cs = cs := by
  have hdrop : ∀ {cs : List Char}, (∀ c ∈ cs, isBlank c = false) → cs.dropWhile isBlank = cs := by
    intro cs h
    cases cs with
    | nil => rfl
    | cons c cs => simp [h c List.mem_cons_self]
  unfold trim trimStart trimEnd
  rw [hdrop h, hdrop fun c hc => h c (List.mem_reverse.1 hc), List.reverse_reverse]

theorem trim_snoc {c : Char} (hc : isBlank c = true) (cs : List Char) :
    trim (cs ++ [c]) = trim cs := by
  unfold trim trimStart
  rw [List.dropWhile_append]
  split
  · next h => simp [List.isEmpty_iff.1 h, hc, trimEnd]
  · simp [trimEnd, hc]

theorem free_of_mem_split {isSeparator : Char → Bool} {cs part : List Char}
    (h : part ∈ split isSeparator cs) : ∀ c ∈ part, isSeparator c = false := by
  induction cs generalizing part with
  | nil => simp_all [split]
  | cons c cs ih =>
    rw [split] at h
    cases hc : isSeparator c with
    | true =>
      rw [if_pos hc] at h
      rcases List.mem_cons.1 h with rfl | h
      · simp
      · exact ih h
    | false =>
      rw [if_neg (by simp [hc])] at h
      cases hparts : split isSeparator cs with
      | nil => exact absurd hparts (split_ne_nil _ _)
      | cons first rest =>
        rw [hparts] at h ih
        rcases List.mem_cons.1 h with rfl | h
        · exact List.forall_mem_cons.2 ⟨hc, ih List.mem_cons_self⟩
        · exact ih (List.mem_cons_of_mem _ h)

theorem split_ended {isSeparator : Char → Bool} {c : Char} (hc : isSeparator c = true)
    {parts : List (List Char)} (h : ∀ part ∈ parts, ∀ d ∈ part, isSeparator d = false) :
    split isSeparator (parts.flatMap fun part => part ++ [c]) = parts ++ [[]] := by
  induction parts with
  | nil => rfl
  | cons part parts ih =>
    obtain ⟨hpart, hparts⟩ := List.forall_mem_cons.1 h
    rw [List.flatMap_cons, List.append_assoc, List.singleton_append, split_append_cons hc,
      split_of_free hpart, ih hparts]
    rfl

theorem not_blank_of_isDigit {c : Char} (h : isDigit c = true) : isBlank c = false := by
  have hbounds : 48 ≤ c.toNat ∧ c.toNat ≤ 57 := by
    simpa [isDigit, Char.le_def, UInt32.le_iff_toNat_le] using h
  simp only [isBlank, Bool.or_eq_false_iff, Bool.and_eq_false_iff, decide_eq_false_iff_not,
    beq_eq_false_iff_ne]
  omega

theorem not_blank_of_readNat? {cs : List Char} (h : (readNat? cs).isSome = true) :
    cs ≠ [] ∧ ∀ c ∈ cs, isBlank c = false := by
  unfold readNat? at h
  split at h
  · cases h
  · next hempty =>
    split at h
    · next hdigits =>
      exact ⟨by simpa using hempty, fun c hc =>
        not_blank_of_isDigit (List.all_eq_true.1 hdigits c hc)⟩
    · cases h

theorem not_blank_of_readInt64? {s : String} (h : (readInt64? s).isSome = true) :
    s.toList ≠ [] ∧ ∀ c ∈ s.toList, isBlank c = false := by
  have hsome : (readInt? s.toList).isSome = true := by
    unfold readInt64? at h
    cases hread : readInt? s.toList with
    | none => simp [hread] at h
    | some n => rfl
  unfold readInt? at hsome
  split at hsome
  · next cs hcs =>
    have hrest := not_blank_of_readNat? (Option.isSome_map ▸ hsome)
    rw [hcs]
    exact ⟨by simp, List.forall_mem_cons.2 ⟨by decide, hrest.2⟩⟩
  · next cs hcs =>
    have hrest := not_blank_of_readNat? (Option.isSome_map ▸ hsome)
    rw [hcs]
    exact ⟨by simp, List.forall_mem_cons.2 ⟨by decide, hrest.2⟩⟩
  · exact not_blank_of_readNat? (Option.isSome_map ▸ hsome)

namespace Utf8

theorem newline_not_mem_encodeChar {c : Char} (h : c ≠ '\n') : 10 ∉ encodeChar c := by
  have hc : c.toNat ≠ 10 := fun hn => h (Char.toNat_inj.1 hn)
  have hbyte : ∀ n < 256, n ≠ 10 → (10 : UInt8) ≠ UInt8.ofNat n := by
    intro n hn hne heq
    have := congrArg UInt8.toNat heq
    rw [toNat_byte hn] at this
    exact hne this.symm
  have hbounds := char_bounds c
  simp only [encodeChar]
  split
  · simpa using hbyte _ (by omega) hc
  · split
    · simp only [List.mem_cons, List.not_mem_nil, or_false, not_or]
      exact ⟨hbyte _ (by omega) (by omega), hbyte _ (by omega) (by omega)⟩
    · split
      · simp only [List.mem_cons, List.not_mem_nil, or_false, not_or]
        exact ⟨hbyte _ (by omega) (by omega), hbyte _ (by omega) (by omega),
          hbyte _ (by omega) (by omega)⟩
      · simp only [List.mem_cons, List.not_mem_nil, or_false, not_or]
        exact ⟨hbyte _ (by omega) (by omega), hbyte _ (by omega) (by omega),
          hbyte _ (by omega) (by omega), hbyte _ (by omega) (by omega)⟩

theorem encode_append (cs cs' : List Char) : encode (cs ++ cs') = encode cs ++ encode cs' := by
  simp [encode]

end Utf8
end Text

theorem newline_not_mem_toDigits (n : Nat) : '\n' ∉ Nat.toDigits 10 n := by
  intro h
  exact absurd (Nat.isDigit_of_mem_toDigits (by decide) (by decide) h) (by decide)

theorem newline_not_mem_minus {negative : Bool} {cs : List Char} (h : '\n' ∉ cs) :
    '\n' ∉ Text.minus negative cs := by
  cases negative with
  | false => exact h
  | true => exact fun hmem => (List.mem_cons.1 hmem).elim (by decide) h

namespace Double

theorem newline_not_mem_shortest (x : Double) : '\n' ∉ x.shortest.digits := by
  simp only [shortest]
  split
  · intro h
    have hmem := List.mem_reverse.1 ((List.dropWhile_sublist _).mem (List.mem_reverse.1 h))
    exact newline_not_mem_toDigits _ hmem
  · decide

variable {d : Decimal}

theorem newline_not_mem_positional (h : '\n' ∉ d.digits) : '\n' ∉ d.positional := by
  have hzeros : ∀ n, '\n' ∉ List.replicate n '0' := by
    intro n hmem
    exact absurd (List.eq_of_mem_replicate hmem) (by decide)
  have htake : ∀ n, '\n' ∉ d.digits.take n := fun n hmem => h (List.mem_of_mem_take hmem)
  have hdrop : ∀ n, '\n' ∉ d.digits.drop n := fun n hmem => h (List.mem_of_mem_drop hmem)
  simp only [Decimal.positional]
  split
  · simp only [List.mem_append, not_or]
    exact ⟨⟨by decide, hzeros _⟩, h⟩
  · split
    · simp only [List.mem_append, not_or]
      exact ⟨h, hzeros _⟩
    · simp only [List.mem_append, List.mem_cons, not_or]
      exact ⟨htake _, by decide, hdrop _⟩

theorem newline_not_mem_scientific (h : '\n' ∉ d.digits) : '\n' ∉ d.scientific := by
  have hexponent : '\n' ∉ 'e' :: (if d.magnitude - 1 < 0 then '-' else '+') ::
      Nat.toDigits 10 (d.magnitude - 1).natAbs := by
    simp only [List.mem_cons, not_or]
    refine ⟨by decide, ?_, newline_not_mem_toDigits _⟩
    split <;> decide
  simp only [Decimal.scientific]
  cases hdigits : d.digits with
  | nil => exact hexponent
  | cons c rest =>
    rw [hdigits] at h
    cases rest with
    | nil =>
      simp only [List.mem_singleton] at h
      exact fun hmem => (List.mem_cons.1 hmem).elim h hexponent
    | cons c' rest =>
      simp only [List.mem_cons, not_or] at h ⊢
      refine ⟨h.1, by decide, ?_⟩
      rw [List.mem_append]
      rintro (hmem | hmem)
      · exact (List.mem_cons.1 hmem).elim h.2.1 h.2.2
      · exact hexponent hmem

end Double

namespace Json

theorem newline_not_mem_number (n : Number) : '\n' ∉ n.print := by
  cases n with
  | int n => exact newline_not_mem_minus (newline_not_mem_toDigits _)
  | double x =>
    have hdigits := x.newline_not_mem_shortest
    refine newline_not_mem_minus ?_
    split
    · decide
    · simp only
      split
      · split
        · rw [List.mem_append]
          rintro (h | h)
          · exact Double.newline_not_mem_positional hdigits h
          · exact absurd h (by decide)
        · exact Double.newline_not_mem_positional hdigits
      · exact Double.newline_not_mem_scientific hdigits

theorem newline_not_mem_escapeChar (c : Char) : '\n' ∉ escapeChar c := by
  have hhex : ∀ n < 16, '\n' ≠ Text.lowerHex n := by decide
  by_cases hc : c = '\n'
  · rw [hc]
    decide
  · unfold escapeChar
    split
    all_goals try decide
    split
    · next hcontrol =>
      simp only [List.mem_cons, List.not_mem_nil, or_false, not_or]
      exact ⟨by decide, by decide, by decide, by decide, hhex _ (by omega), hhex _ (by omega)⟩
    · exact fun h => hc (List.mem_singleton.1 h).symm

theorem newline_not_mem_printString (s : String) : '\n' ∉ printString s := by
  simp only [printString, List.mem_cons, List.mem_append, List.mem_flatMap, not_or, not_exists,
    not_and]
  refine ⟨by decide, fun c _ => newline_not_mem_escapeChar c, ?_⟩
  simp

mutual

theorem newline_not_mem_print : ∀ v : Value, '\n' ∉ v.print
  | .null => by decide
  | .bool true => by decide
  | .bool false => by decide
  | .number n => newline_not_mem_number n
  | .string s => newline_not_mem_printString s
  | .array items => by
    have hitems := newline_not_mem_printItems items
    simp [Value.print, hitems]
  | .object members => by
    have hmembers := newline_not_mem_printMembers members
    simp [Value.print, hmembers]

theorem newline_not_mem_printItems : ∀ items : List Value, '\n' ∉ printItems items
  | [] => by simp [printItems]
  | [v] => newline_not_mem_print v
  | v :: w :: rest => by
    have hv := newline_not_mem_print v
    have hrest := newline_not_mem_printItems (w :: rest)
    simp [printItems, hv, hrest]

theorem newline_not_mem_printMembers :
    ∀ members : List (String × Value), '\n' ∉ printMembers members
  | [] => by simp [printMembers]
  | [(n, v)] => by
    have hn := newline_not_mem_printString n
    have hv := newline_not_mem_print v
    simp [printMembers, hn, hv]
  | (n, v) :: m :: rest => by
    have hn := newline_not_mem_printString n
    have hv := newline_not_mem_print v
    have hrest := newline_not_mem_printMembers (m :: rest)
    simp [printMembers, hn, hv, hrest]

end
end Json

namespace Command

open Text (split trim trimmed)
open Text.Utf8 (encode encodeChar decode)

/-- Lines of bytes and the parts of the text that they encode: all but the last part were ended by a
line feed, and an empty last part is no line. -/
inductive Encodes : List (List UInt8) → List (List Char) → Prop
  | none : Encodes [] [[]]
  | last {part : List Char} (h : part ≠ []) : Encodes [encode part] [part]
  | cons {lines : List (List UInt8)} {parts : List (List Char)} (part : List Char)
    (h : Encodes lines parts) : Encodes (encode (part ++ ['\n']) :: lines) (part :: parts)

theorem byteLines_append {bytes : List UInt8} (hsome : bytes ≠ []) (h : 10 ∉ bytes)
    (rest : List UInt8) :
    byteLines (bytes ++ rest) =
      match byteLines rest with
      | [] => [bytes]
      | line :: lines => (bytes ++ line) :: lines := by
  induction bytes with
  | nil => exact absurd rfl hsome
  | cons b bytes ih =>
    have hb : b ≠ 10 := fun hb => h (hb ▸ List.mem_cons_self)
    have hbytes : 10 ∉ bytes := fun hmem => h (List.mem_cons_of_mem _ hmem)
    rw [List.cons_append, byteLines, if_neg hb]
    cases hcases : bytes with
    | nil =>
      rw [List.nil_append]
      cases byteLines rest <;> rfl
    | cons b' bytes' =>
      rw [← hcases, ih (by simp [hcases]) hbytes]
      cases byteLines rest <;> rfl

theorem byteLines_encode (cs : List Char) :
    Encodes (byteLines (encode cs)) (split (· == '\n') cs) := by
  induction cs with
  | nil => exact .none
  | cons c cs ih =>
    by_cases hc : c = '\n'
    · subst hc
      exact .cons [] ih
    · obtain ⟨a, tail, hbytes, -⟩ := Text.Utf8.head_encodeChar c
      rw [Text.Utf8.encode_cons, byteLines_append (by simp [hbytes])
        (Text.Utf8.newline_not_mem_encodeChar hc), split, if_neg (by simpa using hc)]
      generalize byteLines (encode cs) = lines at ih
      generalize split (· == '\n') cs = parts at ih
      have hcons : ∀ part, encodeChar c ++ encode part = encode (c :: part) := fun part =>
        (Text.Utf8.encode_cons c part).symm
      cases ih with
      | none =>
        have hone : encodeChar c = encode [c] := by simp
        simp only [hone]
        exact .last (by simp)
      | last h =>
        simp only [hcons]
        exact .last (by simp)
      | cons part h =>
        simp only [hcons]
        exact .cons (c :: part) h

/-- Each line is decoded by itself, and trimmed it is the part that it encodes, trimmed. -/
theorem Encodes.decoded {lines : List (List UInt8)} {parts : List (List Char)}
    (h : Encodes lines parts) : ∃ texts, lines.mapM decode = .ok texts ∧
      ((texts.map trimmed).filter fun line => !line.isEmpty) =
        ((parts.map fun part => String.ofList (trim part)).filter fun line => !line.isEmpty) := by
  have htrimmed : ∀ cs : List Char, trimmed (String.ofList cs) = String.ofList (trim cs) := by
    intro cs
    rw [trimmed, String.toList_ofList]
  induction h with
  | none => exact ⟨[], rfl, rfl⟩
  | @last part h =>
    refine ⟨[String.ofList part], ?_, ?_⟩
    · rw [mapM_ok_iff]
      exact .cons (Text.Utf8.decode_encode _) .nil
    · rw [List.map_singleton, List.map_singleton, htrimmed]
  | cons part h ih =>
    obtain ⟨texts, htexts, hsame⟩ := ih
    refine ⟨String.ofList (part ++ ['\n']) :: texts, ?_, ?_⟩
    · rw [mapM_ok_iff] at htexts ⊢
      exact .cons (Text.Utf8.decode_encode _) htexts
    · rw [List.map_cons, List.map_cons, htrimmed, Text.trim_snoc rfl, List.filter_cons,
        List.filter_cons, hsame]

theorem splitLines_of_free {cs : List Char} (h : '\n' ∉ cs) :
    splitLines (String.ofList cs) = [String.ofList cs] := by
  have hfree : ∀ c ∈ cs, (c == '\n') = false := by
    intro c hc
    rw [beq_eq_false_iff_ne]
    rintro rfl
    exact h hc
  rw [splitLines, String.toList_ofList, Text.split_of_free hfree, List.map_singleton]

def nonBlankLines (text : String) : List String :=
  (splitLines text).filter fun line => !(trimmed line).isEmpty

theorem inputLines_of_text {input : List UInt8} {text : String} (h : decode input = .ok text) :
    inputLines input = .ok ((nonBlankLines text).map trimmed) := by
  rw [Text.Utf8.decode_eq_ok_iff] at h
  obtain ⟨texts, htexts, hsame⟩ := (byteLines_encode text.toList).decoded
  have hparts : (split (· == '\n') text.toList).map (fun part => String.ofList (trim part)) =
      (splitLines text).map trimmed := by
    simp [splitLines, trimmed, Function.comp_def]
  unfold inputLines
  rw [← h, htexts]
  simp only
  rw [hsame, hparts, List.filter_map]
  rfl

theorem nonBlankLines_of_mem {text line : String} (h : line ∈ nonBlankLines text) :
    nonBlankLines line = [line] := by
  obtain ⟨hline, hblank⟩ := List.mem_filter.1 h
  obtain ⟨part, hpart, rfl⟩ := List.mem_map.1 hline
  have hfree : '\n' ∉ part := fun hmem => by simpa using Text.free_of_mem_split hpart _ hmem
  rw [nonBlankLines, splitLines_of_free hfree, List.filter_eq_self]
  exact List.forall_mem_singleton.2 hblank

theorem decode_of_lines {lines : List (List UInt8)} {texts : List String}
    (h : lines.mapM decode = .ok texts) : ∃ text, decode lines.flatten = .ok text := by
  rw [mapM_ok_iff] at h
  suffices hflat : ∃ cs, encode cs = lines.flatten by
    obtain ⟨cs, hcs⟩ := hflat
    exact ⟨String.ofList cs, by rw [← hcs, Text.Utf8.decode_encode]⟩
  induction h with
  | nil => exact ⟨[], rfl⟩
  | @cons line text lines texts hline _ ih =>
    obtain ⟨cs, hcs⟩ := ih
    refine ⟨text.toList ++ cs, ?_⟩
    rw [Text.Utf8.encode_append, Text.Utf8.decode_eq_ok_iff.1 hline, hcs, List.flatten_cons]

theorem inputLines_of_fault {input : List UInt8} {f : Text.Utf8.Fault}
    (h : decode input = .error f) : ∃ r, inputLines input = .error r := by
  unfold inputLines
  cases hlines : (byteLines input).mapM decode with
  | error f => exact ⟨_, rfl⟩
  | ok texts =>
    obtain ⟨text, htext⟩ := decode_of_lines hlines
    rw [byteLines_flatten, h] at htext
    cases htext

theorem splitLines_of_whole {s : String} (h : (Text.readInt64? s).isSome = true) :
    splitLines s = [s] := by
  have hfree : '\n' ∉ s.toList := fun hmem =>
    absurd ((Text.not_blank_of_readInt64? h).2 _ hmem) (by decide)
  simpa using splitLines_of_free hfree

def outputBytes (lines : List String) : List UInt8 :=
  encode (lines.flatMap fun line => line.toList ++ ['\n'])

theorem inputLines_outputBytes {lines : List String}
    (h : ∀ line ∈ lines, line.toList ≠ [] ∧ ∀ c ∈ line.toList, Text.isBlank c = false) :
    inputLines (outputBytes lines) = .ok lines := by
  have htrim : ∀ line ∈ lines, trimmed line = line := by
    intro line hline
    rw [trimmed, Text.trim_of_free (h line hline).2, String.ofList_toList]
  have hsplit : splitLines (String.ofList (lines.flatMap fun line => line.toList ++ ['\n'])) =
      lines ++ [""] := by
    have hfree : ∀ part ∈ lines.map String.toList, ∀ c ∈ part, (c == '\n') = false := by
      rintro _ hpart c hc
      obtain ⟨line, hline, rfl⟩ := List.mem_map.1 hpart
      have hblank := (h line hline).2 c hc
      rw [beq_eq_false_iff_ne]
      rintro rfl
      exact absurd hblank (by decide)
    have hparts := Text.split_ended (c := '\n') rfl hfree
    rw [List.flatMap_map] at hparts
    rw [splitLines, String.toList_ofList, hparts, List.map_append, List.map_map]
    simp [Function.comp_def]
  have hkept : nonBlankLines (String.ofList (lines.flatMap fun line => line.toList ++ ['\n'])) =
      lines := by
    rw [nonBlankLines, hsplit, List.filter_append, List.filter_eq_self.2, List.filter_eq_nil_iff.2,
      List.append_nil]
    · decide
    · intro line hline
      rw [htrim line hline]
      simpa using (h line hline).1
  rw [outputBytes, inputLines_of_text (Text.Utf8.decode_encode _), hkept,
    List.map_congr_left htrim, List.map_id']

theorem splitLines_text (v : Json.Value) : splitLines v.text = [v.text] :=
  splitLines_of_free (Json.newline_not_mem_print v)

end Command
end ThreatGraph
