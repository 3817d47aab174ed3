import ThreatGraph.Proofs.Addresses

/-!
# Hosts read back

A host is written as it is read: a name is in its ASCII form or encoded, and an address is written
out.  Its text has none of the characters at which a host ends, but for colons in brackets.
-/

namespace ThreatGraph
namespace Web

namespace Domain

def isPlain (c : Char) : Bool := isAscii c && fold c == c && !isForbidden c

theorem isPlain_iff {c : Char} :
    isPlain c = true ↔ c.toNat < 0x80 ∧ fold c = c ∧ isForbidden c = false := by
  simp [isPlain, isAscii, and_assoc]

theorem lt_of_lowerCode_lt {n : Nat} (h : lowerCode n < 0x80) : n < 0x80 := by
  unfold lowerCode at h
  split at h
  · omega
  · split at h
    · split at h <;> omega
    · split at h
      · omega
      · split at h
        · omega
        · split at h <;> omega

/-- Small forms have none themselves, at least where they are ASCII. -/
theorem fold_fold {c : Char} (h : (fold c).toNat < 0x80) : fold (fold c) = fold c := by
  have hlower : ∀ n, (Char.ofNat (lowerCode n)).toNat < 0x80 →
      fold (Char.ofNat (lowerCode n)) = Char.ofNat (lowerCode n) := by
    intro n hn
    have hascii : ∀ n < 0x80, fold (Char.ofNat (lowerCode n)) = Char.ofNat (lowerCode n) := by
      decide +kernel
    -- Small forms that are ASCII come from ASCII, so there are few of them to look at.
    by_cases hvalid : (lowerCode n).isValidChar
    · rw [Text.Utf8.toNat_ofNat hvalid] at hn
      exact hascii n (lt_of_lowerCode_lt hn)
    · have hzero : Char.ofNat (lowerCode n) = '\x00' := dif_neg hvalid
      rw [hzero]
      decide
  unfold fold at h
  simp only at h
  split at h
  · next hstop =>
    have hpoint : fold c = '.' := if_pos hstop
    rw [hpoint]
    decide
  · next hstop =>
    split at h
    · next hwide =>
      have hfold : fold c = Char.ofNat (lowerCode (c.toNat - 0xFEE0)) := by
        simp only [fold, hstop, if_false, hwide, and_self, if_true]
      rw [hfold]
      exact hlower _ h
    · next hwide =>
      have hfold : fold c = Char.ofNat (lowerCode c.toNat) := by
        simp only [fold, hstop, if_false, hwide]
      rw [hfold]
      exact hlower _ h

theorem isPlain_fold {c : Char} (hascii : isAscii (fold c) = true)
    (hallowed : isForbidden (fold c) = false) : isPlain (fold c) = true :=
  isPlain_iff.2 ⟨by simpa [isAscii] using hascii, fold_fold (by simpa [isAscii] using hascii),
    hallowed⟩

theorem isPlain_digitChar : ∀ d < 36, isPlain (digitChar d) = true := by decide +kernel

theorem threshold_le (k bias : Nat) : threshold k bias ≤ 26 := by
  unfold threshold
  split
  · decide
  · split <;> omega

theorem isPlain_writeDelta (bias k q : Nat) : ∀ c ∈ writeDelta bias k q, isPlain c = true := by
  have ht := threshold_le
  have hpos := threshold_pos
  fun_induction writeDelta bias k q with
  | case1 k q t hq =>
    intro c hc
    rw [List.mem_singleton.1 hc]
    have hle := ht k bias
    exact isPlain_digitChar q (by omega)
  | case2 k q t hq ih =>
    refine List.forall_mem_cons.2 ⟨isPlain_digitChar _ ?_, ih⟩
    have hle := ht k bias
    have hmod := Nat.mod_lt (q - t) (show 0 < 36 - t by omega)
    omega

theorem isPlain_pass {basic n : Nat} {p : Progress} (h : ∀ c ∈ p.written, isPlain c = true)
    (c : Char) : ∀ d ∈ (p.pass basic n c).written, isPlain d = true := by
  unfold Progress.pass
  split
  · exact h
  · split
    · exact List.forall_mem_append.2 ⟨h, isPlain_writeDelta _ _ _⟩
    · exact h

theorem isPlain_writeFrom {label : List Char} {basic : Nat} {codes : List Nat} {last : Nat}
    {p : Progress} (h : ∀ c ∈ p.written, isPlain c = true) :
    ∀ c ∈ (writeFrom label basic codes last p).written, isPlain c = true := by
  induction codes generalizing last p with
  | nil => exact h
  | cons n codes ih =>
    refine ih ?_
    have hpasses : ∀ (cs : List Char) (p : Progress), (∀ c ∈ p.written, isPlain c = true) →
        ∀ c ∈ (cs.foldl (Progress.pass basic n) p).written, isPlain c = true := by
      intro cs
      induction cs with
      | nil => exact fun _ h => h
      | cons c cs ih => exact fun p h => ih _ (isPlain_pass h c)
    exact hpasses label _ h

theorem isPlain_labelToAscii {label : List Char}
    (h : ∀ c ∈ label, isAscii c = true → isPlain c = true) :
    ∀ c ∈ labelToAscii label, isPlain c = true := by
  unfold labelToAscii
  split
  · next hascii => exact fun c hc => h c hc (List.all_eq_true.1 hascii c hc)
  · refine List.forall_mem_append.2 ⟨List.all_eq_true.1 (by decide), isPlain_writeFrom ?_⟩
    have hbasic : ∀ c ∈ label.filter isAscii, isPlain c = true := fun c hc =>
      h c (List.mem_of_mem_filter hc) (List.mem_filter.1 hc).2
    split
    · simp
    · exact List.forall_mem_append.2 ⟨hbasic, List.all_eq_true.1 (by decide)⟩

theorem isPlain_toAscii {cs domain : List Char} (h : toAscii cs = some domain) :
    ∀ c ∈ domain, isPlain c = true := by
  unfold toAscii at h
  simp only at h
  split at h
  · cases h
  · next hallowed =>
    obtain rfl := Option.some.inj h
    intro c hc
    rcases Text.mem_join hc with rfl | ⟨part, hpart, hc⟩
    · decide
    · obtain ⟨label, hlabel, rfl⟩ := List.mem_map.1 hpart
      refine isPlain_labelToAscii (fun d hd hascii => ?_) c hc
      have hfolded := Text.mem_of_mem_split hlabel hd
      have hforbidden : isForbidden d = false := by
        simpa using fun h => hallowed (List.any_eq_true.2 ⟨d, hfolded, h⟩)
      obtain ⟨e, -, rfl⟩ := List.mem_map.1 hfolded
      exact isPlain_fold hascii hforbidden

theorem toAscii_of_isPlain {cs : List Char} (h : ∀ c ∈ cs, isPlain c = true) :
    toAscii cs = some cs := by
  have hplain : ∀ c ∈ cs, c.toNat < 0x80 ∧ fold c = c ∧ isForbidden c = false :=
    fun c hc => isPlain_iff.1 (h c hc)
  have hkept : cs.filter (fun c => !isIgnored c) = cs := by
    refine List.filter_eq_self.2 fun c hc => ?_
    have hascii := (hplain c hc).1
    simp only [isIgnored, Bool.not_eq_true', Bool.or_eq_false_iff, beq_eq_false_iff_ne,
      Bool.and_eq_false_iff, decide_eq_false_iff_not]
    omega
  have hfold : cs.map fold = cs := by
    conv => rhs; rw [← List.map_id cs]
    exact List.map_congr_left fun c hc => (hplain c hc).2.1
  have hallowed : cs.any isForbidden = false :=
    List.any_eq_false.2 fun c hc => by simp [(hplain c hc).2.2]
  have hlabels : (Text.split (· == '.') cs).map labelToAscii = Text.split (· == '.') cs := by
    conv => rhs; rw [← List.map_id (Text.split (· == '.') cs)]
    refine List.map_congr_left fun label hlabel => if_pos (List.all_eq_true.2 fun c hc => ?_)
    simpa [isAscii] using (hplain c (Text.mem_of_mem_split hlabel hc)).1
  rw [toAscii, hkept, hfold, hallowed, hlabels, Text.join_split]
  rfl

end Domain

namespace Host

def isHostChar (c : Char) : Bool :=
  !Percent.inControl c && !(['@', ' ', '#', '/', '?', '\\', '|'].contains c)

/-- The text of a host: colons are in brackets only. -/
inductive IsText : List Char → Prop
  | plain {cs : List Char} (h : ∀ c ∈ cs, isHostChar c = true ∧ c ≠ ':' ∧ c ≠ '[') : IsText cs
  | bracketed {cs : List Char} (h : ∀ c ∈ cs, isHostChar c = true ∧ c ≠ ']') :
    IsText ('[' :: (cs ++ [']']))

def readAs (special : Bool) (cs : List Char) : Except UrlFault Host :=
  if special then readSpecial cs else readOpaque cs

/-- A host that is read from what is written of it. -/
structure IsWritten (special : Bool) (h : Host) : Prop where
  text : IsText h.print
  reads : readAs special h.print = .ok h

theorem isHostChar_of_isPieceChar {c : Char} (h : isPieceChar c = true) :
    isHostChar c = true ∧ c ≠ ']' := by
  have hascii : c.toNat < 0x80 := by
    simp only [isPieceChar, Text.hexValue?, Bool.or_eq_true, beq_iff_eq] at h
    rcases h with rfl | h
    · decide
    · split at h
      · next hc => exact Text.ascii_of_le hc.2 (by decide)
      · split at h
        · next hc => exact Text.ascii_of_le hc.2 (by decide)
        · split at h
          · next hc => exact Text.ascii_of_le hc.2 (by decide)
          · cases h
  have hchars : ∀ n < 0x80, isPieceChar (Char.ofNat n) = true →
      isHostChar (Char.ofNat n) = true ∧ Char.ofNat n ≠ ']' := by decide +kernel
  obtain ⟨n, hn, rfl⟩ := Text.eq_ofNat_of_ascii hascii
  exact hchars n hn h

theorem isHostChar_of_isPlain {c : Char} (h : Domain.isPlain c = true) :
    isHostChar c = true ∧ c ≠ ':' ∧ c ≠ '[' := by
  have hchars : ∀ n < 0x80, Domain.isPlain (Char.ofNat n) = true →
      isHostChar (Char.ofNat n) = true ∧ Char.ofNat n ≠ ':' ∧ Char.ofNat n ≠ '[' := by
    decide +kernel
  obtain ⟨n, hn, rfl⟩ := Text.eq_ofNat_of_ascii (Domain.isPlain_iff.1 h).1
  exact hchars n hn h

theorem isHostChar_of_allowed {c : Char} (h : Percent.inControl c = false)
    (h' : isForbidden c = false) : isHostChar c = true ∧ c ≠ ':' ∧ c ≠ '[' := by
  have hascii : c.toNat < 0x80 := by
    simp only [Percent.inControl, Bool.or_eq_false_iff, decide_eq_false_iff_not] at h
    omega
  have hchars : ∀ n < 0x80, Percent.inControl (Char.ofNat n) = false →
      isForbidden (Char.ofNat n) = false →
      isHostChar (Char.ofNat n) = true ∧ Char.ofNat n ≠ ':' ∧ Char.ofNat n ≠ '[' := by
    decide +kernel
  obtain ⟨n, hn, rfl⟩ := Text.eq_ofNat_of_ascii hascii
  exact hchars n hn h h'

theorem readBracketed_ok {cs : List Char} {h : Host} (hread : readBracketed cs = .ok h) :
    ∃ pieces, readIpv6 (cs.drop 1).dropLast = some pieces ∧ h = .ipv6 pieces := by
  unfold readBracketed at hread
  split at hread
  · split at hread
    · next pieces hpieces =>
      exact ⟨pieces, hpieces, (Except.ok.inj hread).symm⟩
    · cases hread
  · cases hread

theorem readAs_bracketed (special : Bool) {cs : List Char} (h : cs.head? = some '[') :
    readAs special cs = readBracketed cs := by
  cases special
  · exact if_pos h
  · exact if_pos h

theorem isWritten_of_readBracketed {cs : List Char} {h : Host} (special : Bool)
    (hread : readBracketed cs = .ok h) : h.IsWritten special := by
  obtain ⟨pieces, hpieces, rfl⟩ := readBracketed_ok hread
  obtain ⟨hlength, hpieces⟩ := isPiece_of_readIpv6 hpieces
  refine ⟨.bracketed fun c hc => isHostChar_of_isPieceChar (mem_printIpv6 hc), ?_⟩
  · rw [readAs_bracketed special rfl, readBracketed]
    have hlast : ('[' :: (printIpv6 pieces ++ [']'])).getLast? = some ']' := by
      rw [← List.cons_append, List.getLast?_append]
      rfl
    have hinner : (('[' :: (printIpv6 pieces ++ [']'])).drop 1).dropLast = printIpv6 pieces := by
      simp
    simp only [print, hlast, hinner, readIpv6_printIpv6 hlength hpieces]

theorem readSpecial_of_isPlain {domain : List Char} (hplain : ∀ c ∈ domain, Domain.isPlain c = true)
    (hne : domain ≠ []) :
    readSpecial domain =
      if endsInNumber domain then
        (readIpv4 domain).elim (.error .invalidIpv4) fun address => .ok (.ipv4 address)
      else .ok (.name domain) := by
  have hhead : domain.head? ≠ some '[' := fun h =>
    absurd (hplain '[' (List.mem_of_mem_head? h)) (by decide)
  have htext : Percent.decodeText domain = Text.Utf8.encode domain := by
    refine Percent.decodeText_of_ascii fun c hc => ⟨(Domain.isPlain_iff.1 (hplain c hc)).1, ?_⟩
    rintro rfl
    exact absurd (hplain '%' hc) (by decide)
  rw [readSpecial, if_neg hhead, htext, Text.Utf8.decode_encode]
  obtain ⟨c, cs, rfl⟩ := List.exists_cons_of_ne_nil hne
  simp only [String.toList_ofList, Domain.toAscii_of_isPlain hplain]
  cases readIpv4 (c :: cs) <;> rfl

theorem isPlain_printIpv4 {address : Nat} {c : Char} (h : c ∈ printIpv4 address) :
    Domain.isPlain c = true := by
  have hdigits : ∀ d < 10, Domain.isPlain (Nat.digitChar d) = true := by decide
  rcases Text.mem_join h with rfl | ⟨part, hpart, hc⟩
  · decide
  · rw [List.mem_map] at hpart
    obtain ⟨n, -, rfl⟩ := hpart
    obtain ⟨d, hd, rfl⟩ := mem_toDigits (by decide) hc
    exact hdigits d hd

theorem printIpv4_ne_nil (address : Nat) : printIpv4 address ≠ [] := by
  intro hnil
  have hends := endsInNumber_printIpv4 address
  rw [hnil] at hends
  cases hends

theorem isWritten_ipv4 {address : Nat} (h : address < 256 ^ 4) :
    (Host.ipv4 address).IsWritten true := by
  have hne := printIpv4_ne_nil address
  refine ⟨.plain fun c hc => isHostChar_of_isPlain (isPlain_printIpv4 hc), ?_⟩
  rw [readAs, if_pos rfl, print, readSpecial_of_isPlain (fun c => isPlain_printIpv4) hne,
    endsInNumber_printIpv4, if_pos rfl, readIpv4_printIpv4 h, Option.elim_some]

theorem isWritten_of_readSpecial {cs : List Char} {h : Host} (hread : readSpecial cs = .ok h) :
    h.IsWritten true ∧ h.print ≠ [] := by
  unfold readSpecial at hread
  split at hread
  · obtain ⟨pieces, -, rfl⟩ := readBracketed_ok hread
    exact ⟨isWritten_of_readBracketed true hread, List.cons_ne_nil _ _⟩
  · split at hread
    · cases hread
    · split at hread
      · cases hread
      · cases hread
      · next domain hne hdomain =>
        have hplain := Domain.isPlain_toAscii hdomain
        have hne : domain ≠ [] := fun hnil => hne hnil
        split at hread
        · split at hread
          · next address haddress =>
            obtain rfl := Except.ok.inj hread
            exact ⟨isWritten_ipv4 (readIpv4_lt haddress), printIpv4_ne_nil address⟩
          · cases hread
        · next hnumber =>
          obtain rfl := Except.ok.inj hread
          refine ⟨⟨.plain fun c hc => isHostChar_of_isPlain (hplain c hc), ?_⟩, hne⟩
          rw [readAs, if_pos rfl, print, readSpecial_of_isPlain hplain hne, if_neg hnumber]

theorem isWritten_of_readOpaque {cs : List Char} {h : Host} (hread : readOpaque cs = .ok h) :
    h.IsWritten false := by
  unfold readOpaque at hread
  split at hread
  · exact isWritten_of_readBracketed false hread
  · split at hread
    · cases hread
    · next hhead hforbidden =>
      obtain rfl := Except.ok.inj hread
      have hclean := Percent.idempotent_inControl.clean cs
      have hallowed : ∀ c ∈ Percent.encode Percent.inControl cs, isForbidden c = false := by
        intro c hc
        have hhex : ∀ n < 16, isForbidden (Text.upperHex n) = false := by decide
        rcases Percent.mem_encode hc with ⟨hc, -⟩ | rfl | ⟨n, hn, rfl⟩
        · simpa using fun h => hforbidden (List.any_eq_true.2 ⟨c, hc, h⟩)
        · decide
        · exact hhex n hn
      have hchar : ∀ c ∈ Percent.encode Percent.inControl cs,
          isHostChar c = true ∧ c ≠ ':' ∧ c ≠ '[' := fun c hc =>
        isHostChar_of_allowed (hclean c hc) (hallowed c hc)
      refine ⟨.plain hchar, ?_⟩
      have hhead : (Percent.encode Percent.inControl cs).head? ≠ some '[' := fun h =>
        (hchar '[' (List.mem_of_mem_head? h)).2.2 rfl
      have hnone : (Percent.encode Percent.inControl cs).any isForbidden = false :=
        List.any_eq_false.2 fun c hc => by simp [hallowed c hc]
      simp only [readAs, print, readOpaque, hhead, hnone, Percent.encode_of_clean hclean,
        Bool.false_eq_true, if_false]

theorem isWritten_of_readAs {special : Bool} {cs : List Char} {h : Host}
    (hread : readAs special cs = .ok h) : h.IsWritten special := by
  cases special
  · exact isWritten_of_readOpaque hread
  · exact (isWritten_of_readSpecial hread).1

end Host
end Web
end ThreatGraph
