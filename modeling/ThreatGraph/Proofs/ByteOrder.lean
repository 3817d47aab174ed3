import ThreatGraph.Proofs.Encoding

/-!
# The order of text and the order of its bytes

Texts are compared character by character.  UTF-8 was made so that comparing the bytes gives the
same order: of two characters, the smaller one has the smaller bytes, whatever stands behind them.
-/

namespace ThreatGraph
namespace Text
namespace Utf8

theorem bytes_lt {m n : Nat} (hm : m < n) (hn : n < 256) (xs ys : List UInt8) :
    UInt8.ofNat m :: xs < UInt8.ofNat n :: ys := by
  refine List.cons_lt_cons_iff.2 (.inl ?_)
  rw [UInt8.lt_iff_toNat_lt, toNat_byte (by omega), toNat_byte hn]
  exact hm

theorem bytes_lt_or {m n : Nat} {xs ys : List UInt8} (hn : n < 256) (hle : m ≤ n)
    (hrest : m = n → xs < ys) : UInt8.ofNat m :: xs < UInt8.ofNat n :: ys := by
  rcases Nat.lt_or_eq_of_le hle with hlt | heq
  · exact bytes_lt hlt hn xs ys
  · rw [heq]
    exact List.cons_lt_cons_iff.2 (.inr ⟨rfl, hrest heq⟩)

theorem encodeChar_lt {c d : Char} (h : c < d) (xs ys : List UInt8) :
    encodeChar c ++ xs < encodeChar d ++ ys := by
  have hlt : c.toNat < d.toNat := h
  have hd : d.toNat < 0x110000 := by
    have hbounds := char_bounds d
    omega
  -- A longer form starts with a larger byte; in forms of one length the digits decide, from the
  -- highest one on.
  simp only [encodeChar]
  generalize c.toNat = m at hlt
  generalize d.toNat = n at hlt hd
  split
  · split
    · exact bytes_lt hlt (by omega) _ _
    · split
      · exact bytes_lt (by omega) (by omega) _ _
      · split <;> exact bytes_lt (by omega) (by omega) _ _
  · split
    · rw [if_neg (by omega)]
      split
      · refine bytes_lt_or (by omega) (by omega) fun h₁ => ?_
        exact bytes_lt (by omega) (by omega) _ _
      · split <;> exact bytes_lt (by omega) (by omega) _ _
    · split
      · rw [if_neg (by omega), if_neg (by omega)]
        split
        · refine bytes_lt_or (by omega) (by omega) fun h₁ => ?_
          refine bytes_lt_or (by omega) (by omega) fun h₂ => ?_
          exact bytes_lt (by omega) (by omega) _ _
        · exact bytes_lt (by omega) (by omega) _ _
      · rw [if_neg (by omega), if_neg (by omega), if_neg (by omega)]
        refine bytes_lt_or (by omega) (by omega) fun h₁ => ?_
        refine bytes_lt_or (by omega) (by omega) fun h₂ => ?_
        refine bytes_lt_or (by omega) (by omega) fun h₃ => ?_
        exact bytes_lt (by omega) (by omega) _ _

theorem encode_lt_encode {as bs : List Char} (h : as < bs) : encode as < encode bs := by
  induction as generalizing bs with
  | nil =>
    cases bs with
    | nil => exact absurd h (List.lt_irrefl [])
    | cons b bs =>
      obtain ⟨byte, tail, hb, -⟩ := head_encodeChar b
      rw [encode_nil, encode_cons, hb]
      exact List.nil_lt_cons _ _
  | cons a as ih =>
    cases bs with
    | nil => exact absurd h (List.not_lt_nil _)
    | cons b bs =>
      rw [encode_cons, encode_cons]
      rcases List.cons_lt_cons_iff.1 h with hab | ⟨rfl, htail⟩
      · exact encodeChar_lt hab _ _
      · exact List.append_left_lt (ih htail)

/-- Texts ascend exactly when their bytes do. -/
theorem encode_le_iff {s t : String} : encode s.toList ≤ encode t.toList ↔ s ≤ t := by
  constructor
  · intro hle
    refine String.not_lt.1 fun hlt => ?_
    exact hle (encode_lt_encode hlt)
  · intro hle hlt
    by_cases h : s < t
    · exact List.lt_asymm (encode_lt_encode h) hlt
    · rw [String.le_antisymm hle (String.not_lt.1 h)] at hlt
      exact List.lt_irrefl _ hlt

end Utf8
end Text
end ThreatGraph
