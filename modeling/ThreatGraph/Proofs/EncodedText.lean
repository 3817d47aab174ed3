import Mathlib.Data.List.TakeWhile
import ThreatGraph.Proofs.Lines
import ThreatGraph.Web.Form

/-!
# Texts taken apart again

Parts that are free of what a text is taken apart at are found in it as they were put there.  A text
that is encoded already stays as it is when it is encoded once more.
-/

namespace ThreatGraph

namespace Text

theorem eq_ofNat_of_ascii {c : Char} (h : c.toNat < 0x80) : ∃ n < 0x80, c = Char.ofNat n :=
  ⟨c.toNat, h, (Char.ofNat_toNat c).symm⟩

theorem ascii_of_le {c d : Char} (h : c ≤ d) (hd : d.toNat < 0x80) : c.toNat < 0x80 :=
  Nat.lt_of_le_of_lt (Char.le_def.1 h) hd

/-- Joined parts come apart at what joins them, and each of them further at its own separators. -/
theorem split_join_eq_flatMap {isSeparator : Char → Bool} {separator : Char}
    (hs : isSeparator separator = true) {parts : List (List Char)} (hne : parts ≠ []) :
    split isSeparator (join separator parts) = parts.flatMap (split isSeparator) := by
  induction parts with
  | nil => exact absurd rfl hne
  | cons part parts ih =>
    cases parts with
    | nil => simp [join]
    | cons next rest =>
      rw [join_cons_of_ne_nil _ _ (List.cons_ne_nil _ _), split_append_cons hs,
        ih (List.cons_ne_nil _ _)]
      rfl

theorem split_join {isSeparator : Char → Bool} {separator : Char}
    (hs : isSeparator separator = true) {parts : List (List Char)} (hne : parts ≠ [])
    (hfree : ∀ part ∈ parts, ∀ c ∈ part, isSeparator c = false) :
    split isSeparator (join separator parts) = parts := by
  rw [split_join_eq_flatMap hs hne,
    List.flatMap_congr fun part hpart => split_of_free (hfree part hpart), List.flatMap_singleton']

theorem mem_join {separator c : Char} {parts : List (List Char)} (h : c ∈ join separator parts) :
    c = separator ∨ ∃ part ∈ parts, c ∈ part := by
  induction parts with
  | nil => cases h
  | cons part parts ih =>
    cases parts with
    | nil => exact .inr ⟨part, List.mem_cons_self, h⟩
    | cons next rest =>
      rcases List.mem_append.1 h with h | h
      · exact .inr ⟨part, List.mem_cons_self, h⟩
      · rcases List.mem_cons.1 h with h | h
        · exact .inl h
        · obtain hc | ⟨p, hp, hc⟩ := ih h
          · exact .inl hc
          · exact .inr ⟨p, List.mem_cons_of_mem _ hp, hc⟩

theorem mem_of_mem_split {isSeparator : Char → Bool} {cs part : List Char}
    (h : part ∈ split isSeparator cs) {c : Char} (hc : c ∈ part) : c ∈ cs := by
  induction cs generalizing part with
  | nil =>
    obtain rfl := List.mem_singleton.1 h
    cases hc
  | cons d cs ih =>
    rw [split] at h
    split at h
    · rcases List.mem_cons.1 h with rfl | h
      · cases hc
      · exact List.mem_cons_of_mem _ (ih h hc)
    · cases hparts : split isSeparator cs with
      | nil => exact absurd hparts (split_ne_nil _ _)
      | cons first rest =>
        rw [hparts] at h ih
        rcases List.mem_cons.1 h with rfl | h
        · rcases List.mem_cons.1 hc with rfl | hc
          · exact List.mem_cons_self
          · exact List.mem_cons_of_mem _ (ih List.mem_cons_self hc)
        · exact List.mem_cons_of_mem _ (ih (List.mem_cons_of_mem _ h) hc)

theorem splitLast_append {separator : Char} {front back : List Char} (h : separator ∉ back) :
    splitLast separator (front ++ separator :: back) = some (front, back) := by
  have hfirst : splitFirst separator (back.reverse ++ separator :: front.reverse) =
      some (back.reverse, front.reverse) :=
    splitFirst_eq_some_iff.2 ⟨fun hmem => h (List.mem_reverse.1 hmem), rfl⟩
  simp [splitLast, hfirst]

theorem splitLast_of_not_mem {separator : Char} {cs : List Char} (h : separator ∉ cs) :
    splitLast separator cs = none := by
  rw [splitLast, splitFirst_eq_none_iff.2 fun hmem => h (List.mem_reverse.1 hmem)]
  rfl

theorem digitsValue_toDigits (n : Nat) : digitsValue (Nat.toDigits 10 n) = n := by
  have hvalue : ∀ cs, digitsValue cs = Nat.ofDigitChars 10 cs 0 := fun cs => by
    simp [digitsValue, Nat.ofDigitChars, digitValue, Nat.mul_comm]
  rw [hvalue, Nat.ofDigitChars_toDigits (by decide) (by decide)]

theorem takeWhile_dropWhile_append {p : Char → Bool} (front rest : List Char)
    (hfront : ∀ c ∈ front, p c = true) (hrest : ∀ c ∈ rest.head?, p c = false) :
    (front ++ rest).takeWhile p = front ∧ (front ++ rest).dropWhile p = rest := by
  rw [List.takeWhile_append_of_pos hfront, List.dropWhile_append_of_pos hfront]
  cases rest with
  | nil => simp
  | cons c rest => simp [hrest c rfl]

end Text

namespace Web
namespace Percent

variable {encodes : Char → Bool}

/-- A text in which nothing is left to encode. -/
def Clean (encodes : Char → Bool) (cs : List Char) : Prop := ∀ c ∈ cs, encodes c = false

theorem encode_of_clean {cs : List Char} (h : Clean encodes cs) : encode encodes cs = cs := by
  induction cs with
  | nil => rfl
  | cons c cs ih =>
    obtain ⟨hc, hcs⟩ := List.forall_mem_cons.1 h
    rw [encode_cons, encodeChar, hc, ih hcs]
    rfl

/-- What an encoding writes is left alone by it. -/
structure Idempotent (encodes : Char → Bool) : Prop where
  percent : encodes '%' = false
  hex : ∀ n < 16, encodes (Text.upperHex n) = false

theorem mem_encodeByte {b : UInt8} {c : Char} (h : c ∈ encodeByte b) :
    c = '%' ∨ ∃ n < 16, c = Text.upperHex n := by
  have hb := UInt8.toNat_lt b
  simp only [encodeByte, List.mem_cons, List.not_mem_nil, or_false] at h
  rcases h with h | h | h
  · exact .inl h
  · exact .inr ⟨_, by omega, h⟩
  · exact .inr ⟨_, by omega, h⟩

theorem mem_encode {cs : List Char} {c : Char} (h : c ∈ encode encodes cs) :
    c ∈ cs ∧ encodes c = false ∨ c = '%' ∨ ∃ n < 16, c = Text.upperHex n := by
  obtain ⟨d, hd, hc⟩ := List.mem_flatMap.1 h
  unfold encodeChar at hc
  split at hc
  · obtain ⟨b, -, hb⟩ := List.mem_flatMap.1 hc
    exact .inr (mem_encodeByte hb)
  · next hencodes =>
    obtain rfl := List.mem_singleton.1 hc
    exact .inl ⟨hd, by simpa using hencodes⟩

theorem Idempotent.clean (h : Idempotent encodes) (cs : List Char) :
    Clean encodes (encode encodes cs) := by
  intro c hc
  rcases mem_encode hc with ⟨-, hc⟩ | rfl | ⟨n, hn, rfl⟩
  · exact hc
  · exact h.percent
  · exact h.hex n hn

theorem idempotent_inControl : Idempotent inControl := ⟨by decide, by decide⟩

theorem idempotent_inFragment : Idempotent inFragment := ⟨by decide, by decide⟩

theorem idempotent_inQuery : Idempotent inQuery := ⟨by decide, by decide⟩

theorem idempotent_inSpecialQuery : Idempotent inSpecialQuery := ⟨by decide, by decide⟩

theorem idempotent_inPath : Idempotent inPath := ⟨by decide, by decide⟩

theorem idempotent_inUserinfo : Idempotent inUserinfo := ⟨by decide, by decide⟩

theorem encode_eq_nil_iff {cs : List Char} : encode encodes cs = [] ↔ cs = [] := by
  constructor
  · intro h
    cases cs with
    | nil => rfl
    | cons c cs =>
      obtain ⟨a, tail, hbytes, -⟩ := Text.Utf8.head_encodeChar c
      rw [encode_cons, List.append_eq_nil_iff, encodeChar] at h
      split at h
      · rw [hbytes] at h
        cases h.1
      · cases h.1
  · rintro rfl
    rfl

theorem decodeText_of_ascii {cs : List Char} (h : ∀ c ∈ cs, c.toNat < 0x80 ∧ c ≠ '%') :
    decodeText cs = Text.Utf8.encode cs := by
  have hf : Faithful fun c => c == '%' || 0x80 ≤ c.toNat :=
    ⟨by decide, fun c hc => by simpa using (Bool.or_eq_false_iff.1 hc).2⟩
  have hclean : Clean (fun c => c == '%' || 0x80 ≤ c.toNat) cs := fun c hc => by
    obtain ⟨hascii, hne⟩ := h c hc
    simp [hne, hascii]
  conv => lhs; rw [← encode_of_clean hclean]
  exact decodeText_encode hf cs

end Percent
end Web
end ThreatGraph
