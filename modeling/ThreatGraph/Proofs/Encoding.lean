import ThreatGraph.Web.Percent

/-!
# Encodings and their round trips

Text survives being written as UTF-8, and bytes survive being percent-encoded.  What reads a text
back need not know which characters were encoded, as long as `%` and everything beyond ASCII was.
-/

namespace ThreatGraph
namespace Text
namespace Utf8

theorem char_bounds (c : Char) : c.toNat < 0xD800 ∨ (0xDFFF < c.toNat ∧ c.toNat < 0x110000) := by
  have h := c.valid
  simp only [UInt32.isValidChar, Nat.isValidChar] at h
  exact h

theorem encodeChar_ascii {c : Char} (h : c.toNat < 0x80) :
    encodeChar c = [UInt8.ofNat c.toNat] := by
  simp [encodeChar, h]

theorem toNat_byte {n : Nat} (h : n < 256) : (UInt8.ofNat n).toNat = n := by
  simpa using h

theorem isContinuation_byte (n : Nat) : isContinuation (UInt8.ofNat (0x80 + n % 64)) = true := by
  have h : (UInt8.ofNat (0x80 + n % 64)).toNat = 0x80 + n % 64 := toNat_byte (by omega)
  simp only [isContinuation, UInt8.le_iff_toNat_le, h, Bool.and_eq_true, decide_eq_true_eq,
    UInt8.reduceToNat]
  omega

theorem low6_byte (n : Nat) : low6 (UInt8.ofNat (0x80 + n % 64)) = n % 64 := by
  rw [low6, toNat_byte (by omega)]
  omega

theorem head_one {n : Nat} (h : n < 0x80) (rest : List UInt8) :
    head (UInt8.ofNat n) rest = .char (Char.ofNat n) 1 := by
  have ha : (UInt8.ofNat n).toNat = n := toNat_byte (by omega)
  have hlt : UInt8.ofNat n < 0x80 := by
    rw [UInt8.lt_iff_toNat_lt, ha]
    exact h
  rw [head, if_pos hlt, ha]

theorem head_two {a : Nat} (h : 0xC2 ≤ a) (h' : a ≤ 0xDF) (rest : List UInt8) :
    head (UInt8.ofNat a) rest = headOfTwo (UInt8.ofNat a) rest := by
  have ha : (UInt8.ofNat a).toNat = a := toNat_byte (by omega)
  simp only [head, UInt8.lt_iff_toNat_lt, UInt8.le_iff_toNat_le, ha, UInt8.reduceToNat]
  simp [h, h', show ¬ a < 128 by omega]

theorem head_three {a : Nat} (h : 0xE0 ≤ a) (h' : a ≤ 0xEF) (rest : List UInt8) :
    head (UInt8.ofNat a) rest = headOfThree (UInt8.ofNat a) rest := by
  have ha : (UInt8.ofNat a).toNat = a := toNat_byte (by omega)
  simp only [head, UInt8.lt_iff_toNat_lt, UInt8.le_iff_toNat_le, ha, UInt8.reduceToNat]
  simp [h, h', show ¬ a < 128 by omega, show ¬ a ≤ 223 by omega]

theorem head_four {a : Nat} (h : 0xF0 ≤ a) (h' : a ≤ 0xF4) (rest : List UInt8) :
    head (UInt8.ofNat a) rest = headOfFour (UInt8.ofNat a) rest := by
  have ha : (UInt8.ofNat a).toNat = a := toNat_byte (by omega)
  simp only [head, UInt8.lt_iff_toNat_lt, UInt8.le_iff_toNat_le, ha, UInt8.reduceToNat]
  simp [h, h', show ¬ a < 128 by omega, show ¬ a ≤ 223 by omega, show ¬ a ≤ 239 by omega]

theorem secondOfThree_byte {n : Nat} (h : 0x800 ≤ n) (h' : n < 0x10000)
    (hs : n < 0xD800 ∨ 0xDFFF < n) :
    secondOfThree (UInt8.ofNat (0xE0 + n / 4096)) (UInt8.ofNat (0x80 + n / 64 % 64)) = true := by
  have ha : (UInt8.ofNat (0xE0 + n / 4096)).toNat = 0xE0 + n / 4096 := toNat_byte (by omega)
  have hb : (UInt8.ofNat (0x80 + n / 64 % 64)).toNat = 0x80 + n / 64 % 64 := toNat_byte (by omega)
  unfold secondOfThree
  split
  · next he =>
    have he : 0xE0 + n / 4096 = 0xE0 := by rw [← ha, beq_iff_eq.1 he]; rfl
    simp only [UInt8.le_iff_toNat_le, hb, Bool.and_eq_true, decide_eq_true_eq, UInt8.reduceToNat]
    omega
  · split
    · next he =>
      have he : 0xE0 + n / 4096 = 0xED := by rw [← ha, beq_iff_eq.1 he]; rfl
      simp only [UInt8.le_iff_toNat_le, hb, Bool.and_eq_true, decide_eq_true_eq, UInt8.reduceToNat]
      omega
    · exact isContinuation_byte _

theorem secondOfFour_byte {n : Nat} (h : 0x10000 ≤ n) (h' : n < 0x110000) :
    secondOfFour (UInt8.ofNat (0xF0 + n / 262144)) (UInt8.ofNat (0x80 + n / 4096 % 64)) = true := by
  have ha : (UInt8.ofNat (0xF0 + n / 262144)).toNat = 0xF0 + n / 262144 := toNat_byte (by omega)
  have hb : (UInt8.ofNat (0x80 + n / 4096 % 64)).toNat = 0x80 + n / 4096 % 64 :=
    toNat_byte (by omega)
  unfold secondOfFour
  split
  · next he =>
    have he : 0xF0 + n / 262144 = 0xF0 := by rw [← ha, beq_iff_eq.1 he]; rfl
    simp only [UInt8.le_iff_toNat_le, hb, Bool.and_eq_true, decide_eq_true_eq, UInt8.reduceToNat]
    omega
  · split
    · next he =>
      have he : 0xF0 + n / 262144 = 0xF4 := by rw [← ha, beq_iff_eq.1 he]; rfl
      simp only [UInt8.le_iff_toNat_le, hb, Bool.and_eq_true, decide_eq_true_eq, UInt8.reduceToNat]
      omega
    · exact isContinuation_byte _

theorem head_encodeChar (c : Char) : ∃ a tail, encodeChar c = a :: tail ∧
    ∀ rest, head a (tail ++ rest) = .char c (tail.length + 1) := by
  have hc := char_bounds c
  have hchar : Char.ofNat c.toNat = c := Char.ofNat_toNat c
  simp only [encodeChar]
  generalize c.toNat = n at hc hchar
  split
  · next h =>
    exact ⟨_, [], rfl, fun rest => by rw [List.nil_append, head_one h, hchar]; rfl⟩
  · split
    · refine ⟨_, _, rfl, fun rest => ?_⟩
      rw [head_two (by omega) (by omega), List.singleton_append, headOfTwo,
        if_pos (isContinuation_byte _), toNat_byte (by omega), low6_byte,
        show (0xC0 + n / 64) % 32 * 64 + n % 64 = n by omega, hchar]
      rfl
    · split
      · refine ⟨_, _, rfl, fun rest => ?_⟩
        have hsecond := secondOfThree_byte (n := n) (by omega) (by omega) (by omega)
        rw [head_three (by omega) (by omega)]
        simp only [List.cons_append, List.nil_append, headOfThree, hsecond, isContinuation_byte,
          if_true]
        rw [toNat_byte (by omega), low6_byte, low6_byte,
          show (0xE0 + n / 4096) % 16 * 4096 + n / 64 % 64 * 64 + n % 64 = n by omega, hchar]
        rfl
      · refine ⟨_, _, rfl, fun rest => ?_⟩
        have hsecond := secondOfFour_byte (n := n) (by omega) (by omega)
        rw [head_four (by omega) (by omega)]
        simp only [List.cons_append, List.nil_append, headOfFour, hsecond, isContinuation_byte,
          if_true]
        rw [toNat_byte (by omega), low6_byte, low6_byte, low6_byte,
          show (0xF0 + n / 262144) % 8 * 262144 + n / 4096 % 64 * 4096 + n / 64 % 64 * 64 + n % 64
            = n by omega, hchar]
        rfl

theorem decodeFrom_skip (index : Nat) (skipped rest : List UInt8) :
    decodeFrom index skipped.length (skipped ++ rest) =
      decodeFrom (index + skipped.length) 0 rest := by
  induction skipped generalizing index with
  | nil => rfl
  | cons b skipped ih =>
    rw [List.length_cons, List.cons_append, decodeFrom, ih]
    congr 1
    omega

theorem decodeFrom_encode (index : Nat) (cs : List Char) :
    decodeFrom index 0 (encode cs) = .ok cs := by
  induction cs generalizing index with
  | nil => rfl
  | cons c cs ih =>
    obtain ⟨a, tail, hc, hhead⟩ := head_encodeChar c
    rw [encode_cons, hc, List.cons_append, decodeFrom, hhead]
    simp only [Nat.add_sub_cancel]
    rw [decodeFrom_skip, ih]
    rfl

@[simp] theorem decode_encode (cs : List Char) : decode (encode cs) = .ok (String.ofList cs) := by
  rw [decode, decodeFrom_encode]
  rfl

theorem encode_injective {cs cs' : List Char} (h : encode cs = encode cs') : cs = cs' := by
  have h := congrArg (decodeFrom 0 0) h
  rw [decodeFrom_encode, decodeFrom_encode] at h
  exact Except.ok.inj h

theorem toNat_ofNat {n : Nat} (h : n < 0xD800 ∨ (0xDFFF < n ∧ n < 0x110000)) :
    (Char.ofNat n).toNat = n := by
  have hvalid : n.isValidChar := h
  unfold Char.ofNat
  rw [dif_pos hvalid]
  rfl

theorem byte_eq {n : Nat} {b : UInt8} (h : n = b.toNat) : UInt8.ofNat n = b := by
  rw [h, UInt8.ofNat_toNat]

theorem continuation_bounds {b : UInt8} (h : isContinuation b = true) :
    0x80 ≤ b.toNat ∧ b.toNat < 0xC0 := by
  simp only [isContinuation, UInt8.le_iff_toNat_le, Bool.and_eq_true, decide_eq_true_eq,
    UInt8.reduceToNat] at h
  omega

/-- The second byte of three is a continuation, and excludes overlong forms and surrogates. -/
theorem secondOfThree_bounds {a b : UInt8} (h : secondOfThree a b = true) :
    (0x80 ≤ b.toNat ∧ b.toNat < 0xC0) ∧ (a.toNat = 0xE0 → 0xA0 ≤ b.toNat) ∧
      (a.toNat = 0xED → b.toNat < 0xA0) := by
  have hlift : ∀ n : UInt8, (a == n) = true ↔ a.toNat = n.toNat := by
    intro n
    rw [beq_iff_eq, UInt8.toNat_inj]
  unfold secondOfThree at h
  simp only [hlift, UInt8.reduceToNat] at h
  split at h
  · simp only [UInt8.le_iff_toNat_le, Bool.and_eq_true, decide_eq_true_eq, UInt8.reduceToNat] at h
    omega
  · split at h
    · simp only [UInt8.le_iff_toNat_le, Bool.and_eq_true, decide_eq_true_eq,
        UInt8.reduceToNat] at h
      omega
    · have hb := continuation_bounds h
      omega

theorem secondOfFour_bounds {a b : UInt8} (h : secondOfFour a b = true) :
    (0x80 ≤ b.toNat ∧ b.toNat < 0xC0) ∧ (a.toNat = 0xF0 → 0x90 ≤ b.toNat) ∧
      (a.toNat = 0xF4 → b.toNat < 0x90) := by
  have hlift : ∀ n : UInt8, (a == n) = true ↔ a.toNat = n.toNat := by
    intro n
    rw [beq_iff_eq, UInt8.toNat_inj]
  unfold secondOfFour at h
  simp only [hlift, UInt8.reduceToNat] at h
  split at h
  · simp only [UInt8.le_iff_toNat_le, Bool.and_eq_true, decide_eq_true_eq, UInt8.reduceToNat] at h
    omega
  · split at h
    · simp only [UInt8.le_iff_toNat_le, Bool.and_eq_true, decide_eq_true_eq,
        UInt8.reduceToNat] at h
      omega
    · have hb := continuation_bounds h
      omega

/-- The front of `a :: rest` is `size` bytes, the ones of `c`. -/
def ReadsAs (a : UInt8) (rest : List UInt8) (c : Char) (size : Nat) : Prop :=
  ∃ tail more, rest = tail ++ more ∧ encodeChar c = a :: tail ∧ size = tail.length + 1

theorem headOfTwo_char {a : UInt8} {rest : List UInt8} {c : Char} {size : Nat}
    (h : 0xC2 ≤ a.toNat) (h' : a.toNat ≤ 0xDF) (hhead : headOfTwo a rest = .char c size) :
    ReadsAs a rest c size := by
  rcases rest with _ | ⟨b, more⟩
  · cases hhead
  · simp only [headOfTwo] at hhead
    split at hhead
    · next hb =>
      have hb := continuation_bounds hb
      obtain ⟨rfl, rfl⟩ := Head.char.inj hhead
      refine ⟨[b], more, rfl, ?_, rfl⟩
      have hn : (Char.ofNat (a.toNat % 32 * 64 + low6 b)).toNat =
        a.toNat % 32 * 64 + low6 b := toNat_ofNat (by unfold low6; omega)
      simp only [encodeChar, hn]
      unfold low6
      rw [if_neg (by omega), if_pos (by omega), byte_eq (b := a) (by omega),
        byte_eq (b := b) (by omega)]
    · cases hhead

theorem headOfThree_char {a : UInt8} {rest : List UInt8} {c : Char} {size : Nat}
    (h : 0xE0 ≤ a.toNat) (h' : a.toNat ≤ 0xEF) (hhead : headOfThree a rest = .char c size) :
    ReadsAs a rest c size := by
  rcases rest with _ | ⟨b, _ | ⟨d, more⟩⟩
  · cases hhead
  · simp only [headOfThree] at hhead
    split at hhead <;> cases hhead
  · simp only [headOfThree] at hhead
    split at hhead
    · next hb =>
      obtain ⟨hb, hlow, hhigh⟩ := secondOfThree_bounds hb
      split at hhead
      · next hd =>
        have hd := continuation_bounds hd
        obtain ⟨rfl, rfl⟩ := Head.char.inj hhead
        refine ⟨[b, d], more, rfl, ?_, rfl⟩
        have hn : (Char.ofNat (a.toNat % 16 * 4096 + low6 b * 64 + low6 d)).toNat =
          a.toNat % 16 * 4096 + low6 b * 64 + low6 d := toNat_ofNat (by unfold low6; omega)
        simp only [encodeChar, hn]
        unfold low6
        rw [if_neg (by omega), if_neg (by omega), if_pos (by omega), byte_eq (b := a) (by omega),
          byte_eq (b := b) (by omega), byte_eq (b := d) (by omega)]
      · cases hhead
    · cases hhead

theorem headOfFour_char {a : UInt8} {rest : List UInt8} {c : Char} {size : Nat}
    (h : 0xF0 ≤ a.toNat) (h' : a.toNat ≤ 0xF4) (hhead : headOfFour a rest = .char c size) :
    ReadsAs a rest c size := by
  rcases rest with _ | ⟨b, _ | ⟨d, _ | ⟨e, more⟩⟩⟩
  · cases hhead
  · simp only [headOfFour] at hhead
    split at hhead <;> cases hhead
  · simp only [headOfFour] at hhead
    split at hhead
    · split at hhead <;> cases hhead
    · cases hhead
  · simp only [headOfFour] at hhead
    split at hhead
    · next hb =>
      obtain ⟨hb, hlow, hhigh⟩ := secondOfFour_bounds hb
      split at hhead
      · next hd =>
        have hd := continuation_bounds hd
        split at hhead
        · next he =>
          have he := continuation_bounds he
          obtain ⟨rfl, rfl⟩ := Head.char.inj hhead
          refine ⟨[b, d, e], more, rfl, ?_, rfl⟩
          have hn : (Char.ofNat
              (a.toNat % 8 * 262144 + low6 b * 4096 + low6 d * 64 + low6 e)).toNat =
            a.toNat % 8 * 262144 + low6 b * 4096 + low6 d * 64 + low6 e :=
              toNat_ofNat (by unfold low6; omega)
          simp only [encodeChar, hn]
          unfold low6
          rw [if_neg (by omega), if_neg (by omega), if_neg (by omega), byte_eq (b := a) (by omega),
            byte_eq (b := b) (by omega), byte_eq (b := d) (by omega), byte_eq (b := e) (by omega)]
        · cases hhead
      · cases hhead
    · cases hhead

theorem head_char {a : UInt8} {rest : List UInt8} {c : Char} {size : Nat}
    (h : head a rest = .char c size) : ReadsAs a rest c size := by
  simp only [head, UInt8.lt_iff_toNat_lt, UInt8.le_iff_toNat_le, UInt8.reduceToNat,
    Bool.and_eq_true, decide_eq_true_eq] at h
  split at h
  · next ha =>
    obtain ⟨rfl, rfl⟩ := Head.char.inj h
    refine ⟨[], rest, rfl, ?_, rfl⟩
    have hn : (Char.ofNat a.toNat).toNat = a.toNat := toNat_ofNat (by omega)
    rw [encodeChar_ascii (by omega), hn, UInt8.ofNat_toNat]
  · split at h
    · next ha => exact headOfTwo_char ha.1 ha.2 h
    · split at h
      · next ha => exact headOfThree_char ha.1 ha.2 h
      · split at h
        · next ha => exact headOfFour_char ha.1 ha.2 h
        · cases h

theorem encode_of_decodeFrom {index : Nat} {bytes : List UInt8} {cs : List Char}
    (h : decodeFrom index 0 bytes = .ok cs) : encode cs = bytes := by
  -- The tail of a character is not decoded itself, so the induction is on the length.
  induction hn : bytes.length using Nat.strongRecOn generalizing index bytes cs with
  | ind n ih =>
    cases bytes with
    | nil =>
      cases h
      rfl
    | cons a rest =>
      simp only [decodeFrom] at h
      cases hhead : head a rest with
      | invalid size => simp [hhead] at h
      | incomplete => simp [hhead] at h
      | char c size =>
        obtain ⟨tail, more, rfl, hc, rfl⟩ := head_char hhead
        simp only [hhead, Nat.add_sub_cancel, decodeFrom_skip] at h
        cases hmore : decodeFrom (index + 1 + tail.length) 0 more with
        | error f => simp [hmore, Except.map] at h
        | ok cs' =>
          rw [hmore] at h
          obtain rfl := Except.ok.inj h
          have hlength : more.length < n := by
            rw [← hn, List.length_cons, List.length_append]
            omega
          rw [encode_cons, hc, ih more.length hlength hmore rfl, List.cons_append]

theorem decode_eq_ok_iff {bytes : List UInt8} {text : String} :
    decode bytes = .ok text ↔ encode text.toList = bytes := by
  constructor
  · intro h
    unfold decode at h
    cases hcs : decodeFrom 0 0 bytes with
    | error f => simp [hcs, Except.map] at h
    | ok cs =>
      rw [hcs] at h
      obtain rfl := Except.ok.inj h
      rw [String.toList_ofList]
      exact encode_of_decodeFrom hcs
  · rintro rfl
    rw [decode_encode, String.ofList_toList]

end Utf8
end Text

namespace Web
namespace Percent

open Text (upperHex)

theorem decode_cons_of_ne {b : UInt8} (h : b ≠ 0x25) (rest : List UInt8) :
    decode (b :: rest) = b :: decode rest := by
  match rest with
  | [] => simp [decode]
  | [_] => simp [decode]
  | _ :: _ :: _ => rw [decode, if_neg h]

theorem upperHex_byte : ∀ n < 16, Text.Utf8.encodeChar (upperHex n) =
    [UInt8.ofNat (upperHex n).toNat] ∧ hexValue? (UInt8.ofNat (upperHex n).toNat) = some n := by
  decide

theorem decode_encodeByte (b : UInt8) (rest : List UInt8) :
    decode (Text.Utf8.encode (encodeByte b) ++ rest) = b :: decode rest := by
  have hb : b.toNat < 256 := UInt8.toNat_lt b
  obtain ⟨hhigh, hhigh'⟩ := upperHex_byte (b.toNat / 16) (by omega)
  obtain ⟨hlow, hlow'⟩ := upperHex_byte (b.toNat % 16) (by omega)
  have hpercent : Text.Utf8.encodeChar '%' = [0x25] := by decide
  simp only [encodeByte, Text.Utf8.encode_cons, Text.Utf8.encode_nil, hpercent, hhigh, hlow,
    List.cons_append, List.nil_append, List.append_nil]
  rw [decode, if_pos rfl, hhigh', hlow']
  simp only [show b.toNat / 16 * 16 + b.toNat % 16 = b.toNat by omega, UInt8.ofNat_toNat]

theorem decode_encodeBytes (bs rest : List UInt8) :
    decode (Text.Utf8.encode (bs.flatMap encodeByte) ++ rest) = bs ++ decode rest := by
  induction bs with
  | nil => rfl
  | cons b bs ih =>
    rw [List.flatMap_cons, Text.Utf8.encode, List.flatMap_append, List.append_assoc,
      ← Text.Utf8.encode, ← Text.Utf8.encode, decode_encodeByte, ih]
    rfl

/-- What can be read back: `%` is encoded, and so is whatever is no ASCII character. -/
structure Faithful (encodes : Char → Bool) : Prop where
  percent : encodes '%' = true
  ascii : ∀ c, encodes c = false → c.toNat < 0x80

variable {encodes : Char → Bool}

theorem decode_encodeChar (hf : Faithful encodes) (c : Char) (rest : List UInt8) :
    decode (Text.Utf8.encode (encodeChar encodes c) ++ rest) =
      Text.Utf8.encodeChar c ++ decode rest := by
  unfold encodeChar
  cases hc : encodes c with
  | true => exact decode_encodeBytes _ rest
  | false =>
    have hascii := hf.ascii c hc
    have hne : UInt8.ofNat c.toNat ≠ 0x25 := by
      intro h
      have h : c.toNat = 0x25 := by
        rw [← Text.Utf8.toNat_byte (n := c.toNat) (by omega), h]
        rfl
      have h : c = '%' := Char.toNat_inj.1 h
      rw [h, hf.percent] at hc
      cases hc
    simp only [Bool.false_eq_true, if_false, Text.Utf8.encode_cons, Text.Utf8.encode_nil,
      Text.Utf8.encodeChar_ascii hascii, List.append_nil, List.singleton_append]
    exact decode_cons_of_ne hne rest

theorem decodeText_encode (hf : Faithful encodes) (cs : List Char) :
    decodeText (encode encodes cs) = Text.Utf8.encode cs := by
  unfold decodeText
  induction cs with
  | nil => rfl
  | cons c cs ih =>
    rw [encode_cons, Text.Utf8.encode, List.flatMap_append, ← Text.Utf8.encode,
      ← Text.Utf8.encode, decode_encodeChar hf, ih, Text.Utf8.encode_cons]

theorem encode_injective (hf : Faithful encodes) {cs cs' : List Char}
    (h : encode encodes cs = encode encodes cs') : cs = cs' := by
  have h := congrArg decodeText h
  rw [decodeText_encode hf, decodeText_encode hf] at h
  exact Text.Utf8.encode_injective h

/-- The bytes that an encoded text stands for are those of `text`. -/
def Spells (encoded : List Char) (text : String) : Prop :=
  Text.Utf8.decode (decodeText encoded) = .ok text

theorem spells_encode (hf : Faithful encodes) (cs : List Char) :
    Spells (encode encodes cs) (String.ofList cs) := by
  rw [Spells, decodeText_encode hf, Text.Utf8.decode_encode]

theorem Spells.of_encode (hf : Faithful encodes) {cs : List Char} {text : String}
    (h : Spells (encode encodes cs) text) : text.toList = cs := by
  rw [Spells, decodeText_encode hf, Text.Utf8.decode_encode] at h
  rw [← Except.ok.inj h, String.toList_ofList]

theorem faithful_of_control (hp : encodes '%' = true)
    (h : ∀ c, inControl c = true → encodes c = true) : Faithful encodes := by
  refine ⟨hp, fun c hc => ?_⟩
  refine Nat.lt_of_not_le fun hge => ?_
  have hcontrol : inControl c = true := by
    simp only [inControl, Bool.or_eq_true, decide_eq_true_eq]
    omega
  rw [h c hcontrol] at hc
  cases hc

theorem faithful_inSegment : Faithful inSegment :=
  faithful_of_control (by decide) fun c h => by simp [inSegment, inPath, inFragment, h]

theorem faithful_inSpecialSegment : Faithful inSpecialSegment :=
  faithful_of_control (by decide) fun c h => by
    simp [inSpecialSegment, inSegment, inPath, inFragment, h]

end Percent
end Web
end ThreatGraph
