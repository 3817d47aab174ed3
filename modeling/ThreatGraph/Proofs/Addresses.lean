import Mathlib.Algebra.Group.Nat.Defs
import Mathlib.Data.List.Induction
import ThreatGraph.Proofs.EncodedText
import ThreatGraph.Web.Host

/-!
# Addresses read back

The addresses of both versions of the Internet protocol are written in numbers, those of version six
with a gap for a run of zeros.  What is written is read as the same address.
-/

namespace ThreatGraph
namespace Web

theorem mem_toDigits {b n : Nat} (hb : 1 < b) {c : Char} (h : c ∈ Nat.toDigits b n) :
    ∃ d < b, c = Nat.digitChar d := by
  induction n using Nat.base_induction b hb with
  | single m hm =>
    rw [Nat.toDigits_of_lt_base hm] at h
    exact ⟨m, hm, List.mem_singleton.1 h⟩
  | digit m k hk hm ih =>
    rw [← Nat.toDigits_append_toDigits hb hm hk, Nat.toDigits_of_lt_base hk] at h
    rcases List.mem_append.1 h with h | h
    · exact ih h
    · exact ⟨k, hk, List.mem_singleton.1 h⟩

namespace Host

theorem numberIn?_append {b n : Nat} {front : List Char} (h : numberIn? b front = some n)
    (c : Char) : numberIn? b (front ++ [c]) = (digitIn? b c).map fun d => n * b + d := by
  rw [numberIn?, List.foldl_append, ← numberIn?, h]
  rfl

theorem numberIn?_toDigits {b : Nat} (hb : 1 < b) (hb' : b ≤ 16) (n : Nat) :
    numberIn? b (Nat.toDigits b n) = some n := by
  have hdigit : ∀ d < b, digitIn? b (Nat.digitChar d) = some d := by
    have hhex : ∀ d < 16, Text.hexValue? (Nat.digitChar d) = some d := by decide
    intro d hd
    simp [digitIn?, hhex d (Nat.lt_of_lt_of_le hd hb'), Option.filter, hd]
  induction n using Nat.base_induction b hb with
  | single m hm =>
    rw [Nat.toDigits_of_lt_base hm]
    simp [numberIn?, hdigit m hm]
  | digit m k hk hm ih =>
    rw [← Nat.toDigits_append_toDigits hb hm hk, Nat.toDigits_of_lt_base hk,
      numberIn?_append ih, hdigit k hk, Option.map_some, Nat.mul_comm]

theorem numberIn?_lt {b n : Nat} {cs : List Char} (h : numberIn? b cs = some n) :
    n < b ^ cs.length := by
  induction cs using List.reverseRecOn generalizing n with
  | nil =>
    obtain rfl := Option.some.inj h
    simp
  | append_singleton front c ih =>
    cases hfront : numberIn? b front with
    | none =>
      rw [numberIn?, List.foldl_append, ← numberIn?, hfront] at h
      cases h
    | some m =>
      rw [numberIn?_append hfront, Option.map_eq_some_iff] at h
      obtain ⟨d, hd, rfl⟩ := h
      have hlt : d < b := by
        simpa using (Option.filter_eq_some_iff.1 hd).2
      have hm := ih hfront
      rw [List.length_append, List.length_singleton, Nat.pow_succ]
      calc m * b + d < m * b + b := Nat.add_lt_add_left hlt _
        _ = (m + 1) * b := (Nat.succ_mul m b).symm
        _ ≤ b ^ front.length * b := Nat.mul_le_mul_right b hm

theorem mapM_some_iff {α β : Type} {f : α → Option β} {as : List α} {bs : List β} :
    as.mapM f = some bs ↔ List.Forall₂ (fun a b => f a = some b) as bs := by
  induction as generalizing bs with
  | nil => cases bs <;> simp
  | cons a as ih =>
    rw [List.mapM_cons]
    cases ha : f a with
    | none => cases bs <;> simp [ha]
    | some b => cases has : as.mapM f <;> cases bs <;> simp [ha, has, ← ih]

theorem exists_of_mem_mapM {α β : Type} {f : α → Option β} {as : List α} {bs : List β}
    (h : as.mapM f = some bs) {b : β} (hb : b ∈ bs) : ∃ a, f a = some b := by
  induction mapM_some_iff.1 h with
  | nil => cases hb
  | cons hab hrest ih =>
    rcases List.mem_cons.1 hb with rfl | hb
    · exact ⟨_, hab⟩
    · exact ih (mapM_some_iff.2 hrest) hb

theorem readIpv4Number_toDigits :
    ∀ n < 256, readIpv4Number (Nat.toDigits 10 n) = some n := by decide +kernel

theorem isDigit_of_mem_toDigits {n : Nat} {c : Char} (h : c ∈ Nat.toDigits 10 n) :
    Text.isDigit c = true := by
  have hdigits : ∀ d < 10, Text.isDigit (Nat.digitChar d) = true := by decide
  obtain ⟨d, hd, rfl⟩ := mem_toDigits (by decide) h
  exact hdigits d hd

def bytesOf (address : Nat) : List Nat :=
  [16777216, 65536, 256, 1].map fun unit => address / unit % 256

theorem lt_of_mem_bytesOf {address n : Nat} (h : n ∈ bytesOf address) : n < 256 := by
  obtain ⟨unit, -, rfl⟩ := List.mem_map.1 h
  exact Nat.mod_lt _ (by decide)

theorem addressParts_printIpv4 (address : Nat) :
    addressParts (printIpv4 address) = (bytesOf address).map (Nat.toDigits 10) := by
  have hsplit : Text.split (· == '.') (printIpv4 address) =
      (bytesOf address).map (Nat.toDigits 10) := by
    refine Text.split_join rfl (List.cons_ne_nil _ _) fun part hpart c hc => ?_
    obtain ⟨n, -, rfl⟩ := List.mem_map.1 hpart
    rw [beq_eq_false_iff_ne]
    rintro rfl
    exact absurd (isDigit_of_mem_toDigits hc) (by decide)
  have hlast : ∀ n, some (Nat.toDigits 10 n) ≠ some [] := fun n h =>
    Nat.toDigits_ne_nil (Option.some.inj h)
  unfold addressParts
  simp only [hsplit]
  split
  · next h => exact absurd h (hlast _)
  · rfl

theorem endsInNumber_printIpv4 (address : Nat) : endsInNumber (printIpv4 address) = true := by
  have hlast : ((bytesOf address).map (Nat.toDigits 10)).getLast? =
      some (Nat.toDigits 10 (address / 1 % 256)) := rfl
  have hall : (Nat.toDigits 10 (address / 1 % 256)).all Text.isDigit = true :=
    List.all_eq_true.2 fun _ => isDigit_of_mem_toDigits
  rw [endsInNumber, addressParts_printIpv4, hlast]
  simp only [hall, Bool.and_true, Bool.or_eq_true, Bool.not_eq_true', List.isEmpty_eq_false_iff]
  exact .inl Nat.toDigits_ne_nil

theorem readIpv4_printIpv4 {address : Nat} (h : address < 256 ^ 4) :
    readIpv4 (printIpv4 address) = some address := by
  have hnumbers : ((bytesOf address).map (Nat.toDigits 10)).mapM readIpv4Number =
      some (bytesOf address) := by
    rw [mapM_some_iff, List.forall₂_map_left_iff, List.forall₂_same]
    exact fun n hn => readIpv4Number_toDigits n (lt_of_mem_bytesOf hn)
  have hfront : (bytesOf address).dropLast.all (· ≤ 255) = true :=
    List.all_eq_true.2 fun n hn => by
      simpa using Nat.le_of_lt_succ (lt_of_mem_bytesOf (List.dropLast_subset _ hn))
  have hlast : (bytesOf address).getLast? = some (address / 1 % 256) := rfl
  have hlast' : address / 1 % 256 < Nat.pow 256 (4 - (bytesOf address).dropLast.length) :=
    Nat.mod_lt _ (by decide)
  have hvalue : (bytesOf address).dropLast.foldl (fun n b => n * 256 + b) 0 *
      Nat.pow 256 (4 - (bytesOf address).dropLast.length) + address / 1 % 256 = address := by
    change (((0 * 256 + address / 16777216 % 256) * 256 + address / 65536 % 256) * 256 +
      address / 256 % 256) * 256 + address / 1 % 256 = address
    omega
  have hlength : ¬ 4 < ((bytesOf address).map (Nat.toDigits 10)).length := Nat.lt_irrefl 4
  simp only [readIpv4, addressParts_printIpv4, hnumbers, hlength, if_false, hlast, hfront, hlast',
    decide_true, Bool.and_self, if_true, hvalue]

theorem foldl_bytes_lt {bytes : List Nat} (h : ∀ b ∈ bytes, b < 256) (n : Nat) :
    bytes.foldl (fun n b => n * 256 + b) n < (n + 1) * 256 ^ bytes.length := by
  induction bytes generalizing n with
  | nil => simp
  | cons b bytes ih =>
    obtain ⟨hb, hbytes⟩ := List.forall_mem_cons.1 h
    calc bytes.foldl (fun n b => n * 256 + b) (n * 256 + b)
        < (n * 256 + b + 1) * 256 ^ bytes.length := ih hbytes _
      _ ≤ (n + 1) * 256 * 256 ^ bytes.length := Nat.mul_le_mul_right _ (by omega)
      _ = (n + 1) * 256 ^ (bytes.length + 1) := by
        rw [Nat.pow_succ, Nat.mul_comm (256 ^ bytes.length) 256, Nat.mul_assoc]

theorem address_lt {front : List Nat} {last : Nat} (hfront : ∀ b ∈ front, b < 256)
    (hlength : front.length ≤ 4) (hlast : last < 256 ^ (4 - front.length)) :
    front.foldl (fun n b => n * 256 + b) 0 * 256 ^ (4 - front.length) + last < 256 ^ 4 := by
  have hbound := foldl_bytes_lt hfront 0
  rw [Nat.zero_add, Nat.one_mul] at hbound
  have hpow := Nat.pow_add 256 front.length (4 - front.length)
  rw [Nat.add_sub_cancel' hlength] at hpow
  rw [hpow]
  generalize 256 ^ (4 - front.length) = unit at hlast ⊢
  generalize front.foldl (fun n b => n * 256 + b) 0 = value at hbound ⊢
  calc value * unit + last < value * unit + unit := Nat.add_lt_add_left hlast _
    _ = (value + 1) * unit := (Nat.succ_mul value unit).symm
    _ ≤ 256 ^ front.length * unit := Nat.mul_le_mul_right unit hbound

theorem readIpv4_lt {cs : List Char} {address : Nat} (h : readIpv4 cs = some address) :
    address < 256 ^ 4 := by
  unfold readIpv4 at h
  simp only at h
  split at h
  · cases h
  · next hparts =>
    split at h
    · cases h
    · next numbers hnumbers =>
      split at h
      · cases h
      · split at h
        · next hbytes =>
          obtain rfl := Option.some.inj h
          have hlength := (mapM_some_iff.1 hnumbers).length_eq
          simp only [Bool.and_eq_true, List.all_eq_true, decide_eq_true_eq] at hbytes
          refine address_lt (fun b hb => Nat.lt_succ_of_le (hbytes.1 b hb)) ?_ hbytes.2
          rw [List.length_dropLast]
          omega
        · cases h

def IsPiece (n : Nat) : Prop := n < 65536

def isPieceChar (c : Char) : Bool := c == ':' || (Text.hexValue? c).isSome

theorem hexValue?_of_mem_toDigits {n : Nat} {c : Char} (h : c ∈ Nat.toDigits 16 n) :
    (Text.hexValue? c).isSome = true := by
  have hdigits : ∀ d < 16, (Text.hexValue? (Nat.digitChar d)).isSome = true := by decide
  obtain ⟨d, hd, rfl⟩ := mem_toDigits (by decide) h
  exact hdigits d hd

theorem ne_of_mem_toDigits {n : Nat} {c d : Char} (h : c ∈ Nat.toDigits 16 n)
    (hd : Text.hexValue? d = none) : c ≠ d := by
  rintro rfl
  simpa [hd] using hexValue?_of_mem_toDigits h

theorem readPiece_toDigits {n : Nat} (h : IsPiece n) :
    readPiece (Nat.toDigits 16 n) = some [n] := by
  have hlength : ¬ 4 < (Nat.toDigits 16 n).length :=
    Nat.not_lt.2 ((Nat.length_toDigits_le_iff (by decide) (by decide)).2 h)
  have hne : (Nat.toDigits 16 n).isEmpty = false := List.isEmpty_eq_false_iff.2 Nat.toDigits_ne_nil
  simp [readPiece, hne, hlength, numberIn?_toDigits]

theorem readPieces_toDigits {pieces : List Nat} (h : ∀ n ∈ pieces, IsPiece n) :
    readPieces (pieces.map (Nat.toDigits 16)) = some pieces := by
  induction pieces with
  | nil => rfl
  | cons n pieces ih =>
    obtain ⟨hn, hpieces⟩ := List.forall_mem_cons.1 h
    cases pieces with
    | nil =>
      have hdot : (Nat.toDigits 16 n).contains '.' = false :=
        Bool.eq_false_iff.2 fun hmem => ne_of_mem_toDigits (List.contains_iff_mem.1 hmem) rfl rfl
      simp only [List.map_cons, List.map_nil, readPieces, hdot, Bool.false_eq_true, if_false,
        readPiece_toDigits hn]
    | cons next rest =>
      have ih := ih hpieces
      simp only [List.map_cons] at ih ⊢
      simp [readPieces, readPiece_toDigits hn, ih]

theorem readSide_printPieces {pieces : List Nat} (h : ∀ n ∈ pieces, IsPiece n) :
    readSide (printPieces pieces) = some pieces := by
  cases pieces with
  | nil => rfl
  | cons n pieces =>
    have hsplit : Text.split (· == ':') (printPieces (n :: pieces)) =
        (n :: pieces).map (Nat.toDigits 16) := by
      refine Text.split_join rfl (List.cons_ne_nil _ _) fun part hpart c hc => ?_
      obtain ⟨m, -, rfl⟩ := List.mem_map.1 hpart
      exact beq_eq_false_iff_ne.2 (ne_of_mem_toDigits hc rfl)
    have hne : (printPieces (n :: pieces)).isEmpty = false := by
      rw [List.isEmpty_eq_false_iff]
      intro hnil
      rw [hnil] at hsplit
      exact absurd (List.cons.inj hsplit).1.symm Nat.toDigits_ne_nil
    rw [readSide, hne, if_neg (by decide), hsplit, readPieces_toDigits h]

theorem splitGap_append {front : List Char} (h : ':' ∉ front) (rest : List Char) :
    splitGap (front ++ rest) = (splitGap rest).map fun p => (front ++ p.1, p.2) := by
  induction front with
  | nil => simp
  | cons c front ih =>
    rw [List.mem_cons, not_or] at h
    obtain ⟨hc, hfront⟩ := h
    rw [List.cons_append, splitGap, ih hfront]
    · cases splitGap rest <;> rfl
    · rintro _ rfl
      exact absurd rfl hc

theorem splitGap_colon {c : Char} (h : c ≠ ':') (rest : List Char) :
    splitGap (':' :: c :: rest) = (splitGap (c :: rest)).map fun p => (':' :: p.1, p.2) := by
  rw [splitGap]
  rintro _ _ heq
  exact absurd (List.cons.inj heq).1 h

theorem printPieces_eq_cons (n : Nat) (pieces : List Nat) :
    ∃ c cs, printPieces (n :: pieces) = c :: cs ∧ c ≠ ':' := by
  obtain ⟨c, digits, hdigits⟩ := List.exists_cons_of_ne_nil (Nat.toDigits_ne_nil (n := n) (b := 16))
  have hc : c ≠ ':' := ne_of_mem_toDigits (n := n) (hdigits ▸ List.mem_cons_self) rfl
  cases pieces with
  | nil => exact ⟨c, digits, hdigits, hc⟩
  | cons next more =>
    refine ⟨c, digits ++ ':' :: printPieces (next :: more), ?_, hc⟩
    have hprint : printPieces (n :: next :: more) =
        Nat.toDigits 16 n ++ ':' :: printPieces (next :: more) :=
      Text.join_cons_of_ne_nil _ _ (List.cons_ne_nil _ _)
    rw [hprint, hdigits, List.cons_append]

theorem splitGap_printPieces (pieces : List Nat) (rest : List Char) :
    splitGap (printPieces pieces ++ rest) =
      (splitGap rest).map fun p => (printPieces pieces ++ p.1, p.2) := by
  induction pieces with
  | nil => cases h : splitGap rest <;> simp [printPieces, Text.join, h]
  | cons n pieces ih =>
    have hfree : ':' ∉ Nat.toDigits 16 n := fun h => ne_of_mem_toDigits h rfl rfl
    cases pieces with
    | nil => exact splitGap_append hfree rest
    | cons next more =>
      have hprint : printPieces (n :: next :: more) =
          Nat.toDigits 16 n ++ ':' :: printPieces (next :: more) :=
        Text.join_cons_of_ne_nil _ _ (List.cons_ne_nil _ _)
      obtain ⟨c, cs, hcs, hc⟩ := printPieces_eq_cons next more
      rw [hprint, List.append_assoc, splitGap_append hfree, List.cons_append, hcs, List.cons_append,
        splitGap_colon hc, ← List.cons_append, ← hcs, ih]
      cases splitGap rest <;> simp

theorem replicate_zeros {pieces : List Nat} {n : Nat} (h : n ≤ zeros pieces) :
    List.replicate n 0 ++ pieces.drop n = pieces := by
  induction n generalizing pieces with
  | zero => rfl
  | succ n ih =>
    cases pieces with
    | nil => cases h
    | cons m pieces =>
      by_cases hm : m = 0
      · subst hm
        have hle : n ≤ zeros pieces := by simpa [zeros] using h
        rw [List.replicate_succ, List.cons_append, List.drop_succ_cons, ih hle]
      · simp [zeros, hm] at h

theorem longestZeros_le (pieces : List Nat) :
    (longestZeros pieces).2 ≤ zeros (pieces.drop (longestZeros pieces).1) := by
  have hfold : ∀ (is : List Nat) (best : Nat × Nat), best.2 ≤ zeros (pieces.drop best.1) →
      (is.foldl (fun best i => let n := zeros (pieces.drop i)
        if best.2 < n then (i, n) else best) best).2 ≤
      zeros (pieces.drop (is.foldl (fun best i => let n := zeros (pieces.drop i)
        if best.2 < n then (i, n) else best) best).1) := by
    intro is
    induction is with
    | nil => exact fun _ h => h
    | cons i is ih =>
      intro best h
      refine ih _ ?_
      simp only
      split
      · exact Nat.le_refl _
      · exact h
  exact hfold _ _ (Nat.zero_le _)

theorem mem_printPieces {pieces : List Nat} {c : Char} (h : c ∈ printPieces pieces) :
    isPieceChar c = true := by
  rcases Text.mem_join h with rfl | ⟨part, hpart, hc⟩
  · rfl
  · obtain ⟨n, -, rfl⟩ := List.mem_map.1 hpart
    simp [isPieceChar, hexValue?_of_mem_toDigits hc]

theorem mem_printIpv6 {pieces : List Nat} {c : Char} (h : c ∈ printIpv6 pieces) :
    isPieceChar c = true := by
  simp only [printIpv6] at h
  split at h
  · exact mem_printPieces h
  · rcases List.mem_append.1 h with h | h
    · exact mem_printPieces h
    · simp only [List.mem_cons] at h
      rcases h with rfl | rfl | h
      · rfl
      · rfl
      · exact mem_printPieces h

theorem readIpv6_printIpv6 {pieces : List Nat} (hlength : pieces.length = 8)
    (h : ∀ n ∈ pieces, IsPiece n) : readIpv6 (printIpv6 pieces) = some pieces := by
  simp only [printIpv6]
  split
  · have hgap : splitGap (printPieces pieces) = none := by
      simpa [splitGap] using splitGap_printPieces pieces []
    simp [readIpv6, hgap, readSide_printPieces h, hlength]
  · next htwo =>
    -- The zeros that were left out are as many as are missing from eight.
    have hzeros := replicate_zeros (longestZeros_le pieces)
    generalize longestZeros pieces = best at htwo hzeros ⊢
    obtain ⟨start, length⟩ := best
    simp only [List.drop_drop] at htwo hzeros ⊢
    have hleft := readSide_printPieces fun n hn => h n (List.mem_of_mem_take (i := start) hn)
    have hright := readSide_printPieces fun n hn =>
      h n (List.mem_of_mem_drop (i := start + length) hn)
    have hgap := splitGap_printPieces (pieces.take start)
      (':' :: ':' :: printPieces (pieces.drop (start + length)))
    rw [splitGap, Option.map_some, List.append_nil] at hgap
    have hdot : (printPieces (pieces.take start)).contains '.' = false :=
      Bool.eq_false_iff.2 fun hmem =>
        absurd (mem_printPieces (List.contains_iff_mem.1 hmem)) (by decide)
    have hwhole : pieces.take start ++ List.replicate length 0 ++ pieces.drop (start + length) =
        pieces := by
      rw [List.append_assoc, hzeros, List.take_append_drop]
    have hsum := congrArg List.length hwhole
    simp only [List.length_append, List.length_replicate, hlength] at hsum
    have hcount : 8 - (pieces.take start).length - (pieces.drop (start + length)).length =
        length := by omega
    have hle : (pieces.take start).length + (pieces.drop (start + length)).length ≤ 7 := by omega
    simp only [readIpv6, hgap, hdot, hleft, hright, Option.bind_some, hle, if_true, hcount, hwhole,
      Bool.false_eq_true, if_false]

theorem isPiece_of_readPiece {cs : List Char} {pieces : List Nat} (h : readPiece cs = some pieces) :
    ∀ n ∈ pieces, IsPiece n := by
  unfold readPiece at h
  split at h
  · cases h
  · next hcs =>
    obtain ⟨n, hn, rfl⟩ := Option.map_eq_some_iff.1 h
    have hlength : cs.length ≤ 4 := by
      simp only [Bool.or_eq_true, decide_eq_true_eq, not_or, Nat.not_lt] at hcs
      exact hcs.2
    intro m hm
    obtain rfl := List.mem_singleton.1 hm
    exact Nat.lt_of_lt_of_le (numberIn?_lt hn) (Nat.pow_le_pow_right (by decide) hlength)

theorem readByte_le {cs : List Char} {n : Nat} (h : readByte cs = some n) : n ≤ 255 := by
  unfold readByte at h
  split at h
  · obtain rfl := Option.some.inj h
    decide
  · cases h
  · obtain ⟨m, -, hm⟩ := Option.bind_eq_some_iff.1 h
    split at hm
    · next hle => exact Option.some.inj hm ▸ hle
    · cases hm

theorem isPiece_of_readTail {cs : List Char} {pieces : List Nat} (h : readTail cs = some pieces) :
    ∀ n ∈ pieces, IsPiece n := by
  unfold readTail at h
  split at h
  · next a b c d hbytes =>
    obtain rfl := Option.some.inj h
    have hle : ∀ n ∈ [a, b, c, d], n ≤ 255 := by
      intro n hn
      obtain ⟨part, hpart⟩ := exists_of_mem_mapM hbytes hn
      exact readByte_le hpart
    simp only [List.forall_mem_cons, List.not_mem_nil, false_implies, implies_true, and_true] at hle
    simp only [List.forall_mem_cons, List.not_mem_nil, false_implies, implies_true, and_true,
      IsPiece]
    omega
  · cases h

theorem isPiece_of_readPieces {parts : List (List Char)} {pieces : List Nat}
    (h : readPieces parts = some pieces) : ∀ n ∈ pieces, IsPiece n := by
  induction parts generalizing pieces with
  | nil =>
    obtain rfl := Option.some.inj h
    simp
  | cons part parts ih =>
    cases parts with
    | nil =>
      rw [readPieces] at h
      split at h
      · exact isPiece_of_readTail h
      · exact isPiece_of_readPiece h
    | cons next rest =>
      simp only [readPieces, Option.bind_eq_some_iff, Option.map_eq_some_iff] at h
      obtain ⟨front, hfront, back, hback, rfl⟩ := h
      exact List.forall_mem_append.2 ⟨isPiece_of_readPiece hfront, ih hback⟩

theorem isPiece_of_readSide {cs : List Char} {pieces : List Nat} (h : readSide cs = some pieces) :
    ∀ n ∈ pieces, IsPiece n := by
  unfold readSide at h
  split at h
  · obtain rfl := Option.some.inj h
    simp
  · exact isPiece_of_readPieces h

theorem isPiece_of_readIpv6 {cs : List Char} {pieces : List Nat} (h : readIpv6 cs = some pieces) :
    pieces.length = 8 ∧ ∀ n ∈ pieces, IsPiece n := by
  unfold readIpv6 at h
  split at h
  · obtain ⟨whole, hwhole, hpieces⟩ := Option.bind_eq_some_iff.1 h
    split at hpieces
    · next hlength =>
      obtain rfl := Option.some.inj hpieces
      exact ⟨hlength, isPiece_of_readSide hwhole⟩
    · cases hpieces
  · split at h
    · cases h
    · obtain ⟨left, hleft, h⟩ := Option.bind_eq_some_iff.1 h
      obtain ⟨right, hright, h⟩ := Option.bind_eq_some_iff.1 h
      split at h
      · next hle =>
        obtain rfl := Option.some.inj h
        refine ⟨by simp only [List.length_append, List.length_replicate]; omega, ?_⟩
        refine List.forall_mem_append.2 ⟨List.forall_mem_append.2 ⟨isPiece_of_readSide hleft, ?_⟩,
          isPiece_of_readSide hright⟩
        intro n hn
        rw [List.eq_of_mem_replicate hn]
        exact Nat.zero_lt_succ _
      · cases h

end Host
end Web
end ThreatGraph
