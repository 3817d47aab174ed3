import ThreatGraph.Json.Print
import ThreatGraph.Json.Read
import ThreatGraph.Proofs.Members

/-!
# Printed strings are read back

The first characters of an escape say how long it is, so a string is read back from its JSON text
whatever stands behind it.  An object whose values are read back is read back as the map that it
stands for, with its names in ascending order.
-/

namespace ThreatGraph
namespace Json

open Text (hexValue? lowerHex)

theorem readStringFrom_skip (front rest : List Char) :
    readStringFrom front.length (front ++ rest) = readStringFrom 0 rest := by
  induction front with
  | nil => rfl
  | cons c front ih => simpa [readStringFrom] using ih

theorem hexQuad_lowerHex {n : Nat} (h : n < 0x20) (rest : List Char) :
    hexQuad ('0' :: '0' :: lowerHex (n / 16) :: lowerHex (n % 16) :: rest) = .ok n := by
  have hzero : hexValue? '0' = some 0 := by decide
  have hhigh := Text.hexValue?_lowerHex (n / 16) (by omega)
  have hlow := Text.hexValue?_lowerHex (n % 16) (by omega)
  simp only [hexQuad, hzero, hhigh, hlow]
  congr 1
  omega

theorem readEscape_control {c : Char} (h : c.toNat < 0x20) (rest : List Char) :
    readEscape ('u' :: '0' :: '0' :: lowerHex (c.toNat / 16) :: lowerHex (c.toNat % 16) :: rest) =
      .ok (c, 5) := by
  have hlow : isLowSurrogate c.toNat = false := by
    simp only [isLowSurrogate, Bool.and_eq_false_iff, decide_eq_false_iff_not]
    omega
  have hhigh : isHighSurrogate c.toNat = false := by
    simp only [isHighSurrogate, Bool.and_eq_false_iff, decide_eq_false_iff_not]
    omega
  simp only [readEscape, readUnicodeEscape, hexQuad_lowerHex h, bind, Except.bind, hlow, hhigh]
  simp [pure, Except.pure]

theorem readStringFrom_escapeChar (c : Char) (rest : List Char) :
    readStringFrom 0 (escapeChar c ++ rest) =
      (readStringFrom 0 rest).map fun r => (c :: r.1, r.2) := by
  unfold escapeChar
  split
  iterate 7 simp [readStringFrom, readEscape]
  next hquote hslash _ _ _ _ _ =>
    split
    · next hcontrol =>
      have hskip := readStringFrom_skip
        ['u', '0', '0', lowerHex (c.toNat / 16), lowerHex (c.toNat % 16)] rest
      simp only [List.cons_append, List.nil_append, List.length_cons, List.length_nil] at hskip ⊢
      rw [readStringFrom, if_neg (by decide), if_pos rfl, readEscape_control hcontrol]
      simp only [hskip]
    · next hplain =>
      have hquote : c ≠ '"' := hquote
      have hslash : c ≠ '\\' := hslash
      simp [readStringFrom, hquote, hslash, hplain]

theorem readString_print (s : String) (rest : List Char) :
    readString (s.toList.flatMap escapeChar ++ '"' :: rest) = .ok (s, rest) := by
  have hchars : ∀ cs : List Char,
      readStringFrom 0 (cs.flatMap escapeChar ++ '"' :: rest) = .ok (cs, rest) := by
    intro cs
    induction cs with
    | nil => rfl
    | cons c cs ih =>
      rw [List.flatMap_cons, List.append_assoc, readStringFrom_escapeChar, ih]
      rfl
  simp [readString, hchars, Except.map]

namespace Members

variable {α : Type}

def insertAll (before ms : Members α) : Members α := ms.foldl (fun r m => insert m.1 m.2 r) before

@[simp] theorem insertAll_nil (before : Members α) : insertAll before [] = before := rfl

@[simp] theorem insertAll_cons (before ms : Members α) (name : String) (v : α) :
    insertAll before ((name, v) :: ms) = insertAll (insert name v before) ms := rfl

theorem ordered_insertAll {before : Members α} (h : Ordered before) (ms : Members α) :
    Ordered (insertAll before ms) := by
  induction ms generalizing before with
  | nil => exact h
  | cons m ms ih => exact ih (h.insert m.1 m.2)

theorem get?_insertAll {ms : Members α} (h : ms.names.Nodup) (before : Members α) (n : String) :
    get? n (insertAll before ms) = (get? n ms).or (get? n before) := by
  induction ms generalizing before with
  | nil => rfl
  | cons m ms ih =>
    obtain ⟨k, v⟩ := m
    obtain ⟨hk, hms⟩ := List.nodup_cons.1 h
    rw [insertAll_cons, ih hms, get?_insert, get?_cons]
    by_cases hn : k = n
    · have hnone : get? n ms = none := by
        rw [get?_eq_none_iff]
        intro m hm hname
        have hmem : m.1 ∈ names ms := List.mem_map_of_mem hm
        rw [hname, ← hn] at hmem
        exact hk hmem
      simp [hn, hnone]
    · simp [hn]

theorem insertAll_eq_sorted {ms : Members α} (h : ms.names.Nodup) : insertAll [] ms = ms.sorted := by
  refine (ordered_insertAll ordered_nil ms).ext (ordered_sorted ms) fun n => ?_
  rw [get?_insertAll h, get?_sorted, get?_nil, Option.or_none]

end Members

/-- The value is read back from its text, whatever stands behind it. -/
def ReadsBack (item : List Char → Step Value) (v : Value) : Prop :=
  ∀ rest, item (v.print ++ rest) = .ok (v, rest)

theorem readsBack_string (depth : Nat) (s : String) : ReadsBack (readValue depth) (.string s) := by
  intro rest
  have hstring := readString_print s rest
  simp only [Value.print, printString, List.cons_append, List.append_assoc, List.nil_append]
  rw [readValue]
  simp [skipSpace, isSpace, hstring, Except.map]

section Objects

variable {item : List Char → Step Value} (name : String) {v : Value}

def printMember (name : String) (v : Value) : List Char := printString name ++ ':' :: v.print

theorem readMember_print (hv : ReadsBack item v) (rest : List Char) :
    readMember item (printMember name v ++ rest) = .ok ((name, v), rest) := by
  have hname := readString_print name (':' :: (v.print ++ rest))
  simp only [readMember, printMember, printString, List.cons_append, List.append_assoc,
    List.nil_append, List.drop_succ_cons, List.drop_zero, hname]
  simp [skipSpace, isSpace, hv rest, Except.map]

theorem printMembers_cons (v : Value) (ms : Members Value) :
    printMembers ((name, v) :: ms) =
      printMember name v ++ match ms with
        | [] => []
        | m :: ms => ',' :: printMembers (m :: ms) := by
  cases ms with
  | nil => simp [printMembers, printMember]
  | cons m ms => simp [printMembers, printMember]

theorem readMembers_print {ms : Members Value} (hv : ReadsBack item v)
    (hms : ∀ m ∈ ms, ReadsBack item m.2) {fuel : Nat} (hfuel : ms.length < fuel)
    (before : Members Value) (rest : List Char) :
    readMembers item fuel before (printMembers ((name, v) :: ms) ++ '\x7d' :: rest) =
      .ok (before.insertAll ((name, v) :: ms), rest) := by
  induction ms generalizing name v fuel before with
  | nil =>
    obtain ⟨fuel, rfl⟩ : ∃ n, fuel = n + 1 := ⟨fuel - 1, by omega⟩
    have hmember := readMember_print name hv ('\x7d' :: rest)
    rw [printMembers_cons, List.append_nil, readMembers, hmember]
    simp [skipSpace, isSpace]
  | cons m ms ih =>
    obtain ⟨fuel, rfl⟩ : ∃ n, fuel = n + 1 := ⟨fuel - 1, by omega⟩
    obtain ⟨name', w⟩ := m
    obtain ⟨hm, hms'⟩ := List.forall_mem_cons.1 hms
    have hmember := readMember_print name hv
      (',' :: (printMembers ((name', w) :: ms) ++ '\x7d' :: rest))
    have hrest := ih name' hm hms' (Nat.lt_of_succ_lt_succ hfuel)
      (Members.insert name v before)
    obtain ⟨tail, htail⟩ : ∃ tail, printMembers ((name', w) :: ms) ++ '\x7d' :: rest =
        '"' :: tail := by
      rw [printMembers_cons]
      exact ⟨_, rfl⟩
    rw [printMembers_cons, List.append_assoc, List.cons_append, readMembers, hmember]
    rw [htail] at hrest ⊢
    simpa [skipSpace, isSpace] using hrest

theorem length_le_printMembers (ms : Members Value) : ms.length ≤ (printMembers ms).length := by
  induction ms with
  | nil => exact Nat.zero_le _
  | cons m ms ih =>
    obtain ⟨name, v⟩ := m
    rw [printMembers_cons]
    cases ms with
    | nil => simp [printMember, printString]
    | cons m ms =>
      simp only [List.length_append, List.length_cons] at ih ⊢
      omega

theorem readObject_print {ms : Members Value} (h : ∀ m ∈ ms, ReadsBack item m.2)
    (rest : List Char) :
    readObject item (printMembers ms ++ '\x7d' :: rest) =
      .ok (.object (Members.insertAll [] ms), rest) := by
  cases ms with
  | nil => rfl
  | cons m ms =>
    obtain ⟨name, v⟩ := m
    obtain ⟨hv, hms⟩ := List.forall_mem_cons.1 h
    obtain ⟨tail, htail⟩ : ∃ tail, printMembers ((name, v) :: ms) ++ '\x7d' :: rest =
        '"' :: tail := by
      rw [printMembers_cons]
      exact ⟨_, rfl⟩
    have hlength : ms.length < tail.length + 1 := by
      have := length_le_printMembers ((name, v) :: ms)
      have := congrArg List.length htail
      simp only [List.length_append, List.length_cons] at *
      omega
    have hread := readMembers_print name hv hms hlength [] rest
    rw [htail] at hread ⊢
    have hskip : skipSpace ('"' :: tail) = '"' :: tail := rfl
    simp only [readObject, hskip, hread]
    rfl

end Objects

theorem read_text_strings {ms : Members Value} (hnames : ms.names.Nodup)
    (h : ∀ m ∈ ms, ∃ s, m.2 = .string s) : read (Value.object ms).text = .ok (.object ms.sorted) := by
  have hback : ∀ m ∈ ms, ReadsBack (readValue 126) m.2 := by
    intro m hm
    obtain ⟨s, hs⟩ := h m hm
    rw [hs]
    exact readsBack_string 126 s
  have hread : readValue maxDepth (Value.object ms).print = .ok (.object ms.sorted, []) := by
    have hobject := readObject_print hback []
    rw [Members.insertAll_eq_sorted hnames] at hobject
    rw [maxDepth, readValue]
    simp [Value.print, skipSpace, isSpace, hobject]
  simp [read, Value.text, hread, skipSpace]

end Json
end ThreatGraph
