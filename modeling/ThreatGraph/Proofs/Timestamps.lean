import Mathlib.Algebra.Group.Nat.Defs
import Mathlib.Data.List.TakeWhile
import ThreatGraph.Proofs.Days
import ThreatGraph.Proofs.Lines
import ThreatGraph.Time.Expression

/-!
# Timestamps in full

A timestamp written with all its digits is read as the moment it names: the days of its date, its
time of day and its offset, whatever the time is now.  Without an offset it is in universal time,
and one that names no moment is not read at all.
-/

namespace ThreatGraph

namespace Text

def digit (n : Nat) : Char := Char.ofNat (48 + n % 10)

/-- The last `width` decimal digits of a number, with zeros in front where it has fewer. -/
def padded : Nat → Nat → List Char
  | 0, _ => []
  | width + 1, n => padded width (n / 10) ++ [digit n]

theorem digit_spec (n : Nat) : isDigit (digit n) = true ∧ digitValue (digit n) = n % 10 := by
  have hdigits : ∀ k < 10, isDigit (Char.ofNat (48 + k)) = true ∧
      digitValue (Char.ofNat (48 + k)) = k := by decide
  exact hdigits _ (Nat.mod_lt n (by decide))

@[simp] theorem length_padded (width n : Nat) : (padded width n).length = width := by
  induction width generalizing n with
  | zero => rfl
  | succ width ih => simp [padded, ih]

theorem isDigit_of_mem_padded {width n : Nat} {c : Char} (h : c ∈ padded width n) :
    isDigit c = true := by
  induction width generalizing n with
  | zero => cases h
  | succ width ih =>
    rcases List.mem_append.1 h with hfront | hlast
    · exact ih hfront
    · rw [List.mem_singleton.1 hlast]
      exact (digit_spec n).1

theorem digitsValue_padded (width n : Nat) : digitsValue (padded width n) = n % 10 ^ width := by
  induction width generalizing n with
  | zero => simp [padded, digitsValue, Nat.mod_one]
  | succ width ih =>
    have happend : digitsValue (padded (width + 1) n) =
        digitsValue (padded width (n / 10)) * 10 + digitValue (digit n) := by
      simp [padded, digitsValue, List.foldl_append]
    rw [happend, ih, (digit_spec n).2, Nat.pow_succ, Nat.mul_comm (10 ^ width), Nat.mod_mul]
    omega

theorem padded_eq_cons (width n : Nat) :
    ∃ c cs, padded (width + 1) n = c :: cs ∧ isDigit c = true := by
  cases hdigits : padded (width + 1) n with
  | nil => simpa [hdigits] using length_padded (width + 1) n
  | cons c cs =>
    exact ⟨c, cs, rfl, isDigit_of_mem_padded (hdigits ▸ List.mem_cons_self)⟩

theorem trimStart_padded (width n : Nat) (rest : List Char) :
    trimStart (padded (width + 1) n ++ rest) = padded (width + 1) n ++ rest := by
  obtain ⟨c, cs, hcons, hc⟩ := padded_eq_cons width n
  rw [hcons, List.cons_append, trimStart_cons, not_blank_of_isDigit hc]
  rfl

theorem readInt?_eq_none {c d : Char} {cs : List Char} (hc : isDigit c = true) (hd : d ∈ cs)
    (hd' : isDigit d = false) : readInt? (c :: cs) = none := by
  have hnat : readNat? (c :: cs) = none := by
    have hall : (c :: cs).all isDigit = false :=
      List.all_eq_false.2 ⟨d, List.mem_cons_of_mem c hd, by simp [hd']⟩
    simp [readNat?, hall]
  unfold readInt?
  split
  · next heq => cases heq; cases hc
  · next heq => cases heq; cases hc
  · simp [hnat]

end Text

namespace Time

open Text (isBlank isDigit padded trimStart)

/-- The numbers of a timestamp, each within what its digits can spell. -/
structure Written where
  year : Fin 10000
  month : Fin 100
  day : Fin 100
  hour : Fin 100
  minute : Fin 100
  second : Fin 60
  deriving DecidableEq, Repr

/-- A distance from universal time as it is written. -/
structure Offset where
  ahead : Bool
  hours : Fin 100
  minutes : Fin 100
  colon : Bool
  deriving DecidableEq, Repr

namespace Offset

def utc : Offset := ⟨true, 0, 0, false⟩

def text (o : Offset) : List Char :=
  (if o.ahead then '+' else '-') ::
    (padded 2 o.hours ++ ((if o.colon then [':'] else []) ++ padded 2 o.minutes))

def size (o : Offset) : Nat := o.hours * 3600 + o.minutes * 60

/-- The seconds of the distance, positive to the east. -/
def seconds (o : Offset) : Int := if o.ahead then o.size else -o.size

/-- There are sixty minutes in an hour, and an offset is less than a day. -/
def IsValid (o : Offset) : Prop := (o.minutes : Nat) < 60 ∧ o.size < 86400

end Offset

namespace Written

variable (w : Written)

def toDate : Date := ⟨(w.year : Nat), w.month, w.day⟩

def toCivil : Civil := ⟨(w.year : Nat), w.month, w.day, w.hour, w.minute, w.second⟩

def secondOfDay : Nat := w.hour * 3600 + w.minute * 60 + w.second

/-- A date of the calendar and a time of that day. -/
def IsValid : Prop := w.toDate.IsValid ∧ (w.hour : Nat) < 24 ∧ (w.minute : Nat) < 60

def Before (w w' : Written) : Prop :=
  w.toDate.Before w'.toDate ∨ w.toDate = w'.toDate ∧ (w.hour < w'.hour ∨ w.hour = w'.hour ∧
    (w.minute < w'.minute ∨ w.minute = w'.minute ∧ w.second < w'.second))

def dateText (separator : Char) : List Char :=
  padded 4 w.year ++ separator :: (padded 2 w.month ++ separator :: padded 2 w.day)

def clockText : List Char :=
  padded 2 w.hour ++ ':' :: (padded 2 w.minute ++ ':' :: padded 2 w.second)

/-- A date, a character between it and the time of the day, and what stands behind both. -/
def text (separator gap : Char) (rest : List Char) : List Char :=
  w.dateText separator ++ gap :: (w.clockText ++ rest)

def withOffset (o : Offset) : String := String.ofList (w.text '-' 'T' o.text)

/-- The forms without an offset: the separator of the date, what stands between the date and the
time of the day, and the end. -/
def forms : List (Char × Char × List Char) :=
  [('-', ' ', []), ('/', ' ', []), ('-', 'T', []), ('-', 'T', ['Z'])]

def withoutOffset : List String := forms.map fun f => String.ofList (w.text f.1 f.2.1 f.2.2)

end Written

theorem readDigits_padded (width : Nat) {n : Nat} (hn : n < 10 ^ (width + 1)) (rest : List Char) :
    readDigits (width + 1) (padded (width + 1) n ++ rest) = some (n, rest) := by
  have htake : (padded (width + 1) n ++ rest).take (width + 1) = padded (width + 1) n :=
    List.take_left' (Text.length_padded _ n)
  have hdigits : (padded (width + 1) n).takeWhile isDigit = padded (width + 1) n :=
    List.takeWhile_eq_self_iff.2 fun _ => Text.isDigit_of_mem_padded
  have hne : (padded (width + 1) n).isEmpty = false := by
    obtain ⟨c, cs, hcons, -⟩ := Text.padded_eq_cons width n
    rw [hcons]
    rfl
  simp [readDigits, htake, hdigits, hne, Text.digitsValue_padded, Nat.mod_eq_of_lt hn]

theorem readField_padded {n : Nat} (hn : n < 100) (rest : List Char) :
    readField (padded 2 n ++ rest) = some (n, rest) := by
  rw [readField, Text.trimStart_padded 1, readDigits_padded 1 hn]

theorem readYear_padded (n : Fin 10000) (rest : List Char) :
    readYear (padded 4 n ++ rest) = some (((n : Nat) : Int), rest) := by
  obtain ⟨c, cs, hcons, hc⟩ := Text.padded_eq_cons 3 n
  have hdigits := readDigits_padded 3 n.isLt rest
  rw [readYear, Text.trimStart_padded 3, hcons, List.cons_append] at *
  split
  · next heq => cases heq; cases hc
  · next heq => cases heq; cases hc
  · rw [hdigits]
    rfl

theorem readPair_padded (n : Fin 100) (rest : List Char) :
    readPair (padded 2 n ++ rest) = some ((n : Nat), rest) := by
  have hvalue : Text.digitsValue [Text.digit (n / 10), Text.digit n] = n :=
    (Text.digitsValue_padded 2 n).trans (Nat.mod_eq_of_lt n.isLt)
  have hpair : padded 2 n ++ rest = Text.digit (n / 10) :: Text.digit n :: rest := rfl
  simp [hpair, readPair, (Text.digit_spec _).1, hvalue]

theorem readOffset_text (o : Offset) :
    readOffset o.text = if (o.minutes : Nat) < 60 then some (o.seconds, []) else none := by
  have hgap : (((if o.colon then [':'] else []) ++ padded 2 o.minutes).dropWhile isOffsetGap) =
      padded 2 o.minutes ++ [] := by
    obtain ⟨c, cs, hcons, hc⟩ := Text.padded_eq_cons 1 o.minutes
    have hnot : isOffsetGap c = false := by
      have hcolon : c ≠ ':' := by rintro rfl; cases hc
      simp [isOffsetGap, hcolon, Text.not_blank_of_isDigit hc]
    have hdigits : (padded 2 o.minutes).dropWhile isOffsetGap = padded 2 o.minutes := by
      rw [hcons, List.dropWhile_cons_of_neg (by simp [hnot])]
    rw [List.append_nil]
    cases o.colon
    · exact hdigits
    · exact (List.dropWhile_cons_of_pos (by decide)).trans hdigits
  have hsign : readSign (trimStart o.text) = some (if o.ahead then 1 else -1,
      padded 2 o.hours ++ ((if o.colon then [':'] else []) ++ padded 2 o.minutes)) := by
    cases h : o.ahead <;> simp [Offset.text, h, Text.trimStart_cons, isBlank, readSign]
  rw [readOffset, hsign]
  simp only [Option.bind_eq_bind, Option.bind_some, readPair_padded, hgap]
  congr 1
  cases h : o.ahead <;> simp [Offset.seconds, Offset.size, h]

section Patterns

variable (w : Written) (stamp : Stamp) (p : Pattern) (rest : List Char)

theorem read_year (n : Fin 10000) :
    Pattern.read (.year :: p) stamp (padded 4 n ++ rest) =
      p.read { stamp with civil := { stamp.civil with year := (n : Nat) } } rest := by
  rw [Pattern.read, readItem, readYear_padded]
  rfl

theorem read_literal (c d : Char) :
    Pattern.read (.literal c :: p) stamp (d :: rest) =
      if c = d then p.read stamp rest else none := by
  rw [Pattern.read, readItem]
  split <;> simp_all

theorem read_date (separator separator' : Char) :
    (date separator ++ p).read stamp (w.dateText separator' ++ rest) =
      if separator = separator' then
        p.read { stamp with civil := { stamp.civil with
          year := (w.year : Nat), month := w.month, day := w.day } } rest
      else none := by
  have hmonth := readField_padded w.month.isLt
  have hday := readField_padded w.day.isLt
  simp only [date, Written.dateText, List.cons_append, List.nil_append, List.append_assoc,
    read_year, read_literal]
  split
  · next h => simp [Pattern.read, readItem, hmonth, hday, h]
  · rfl

theorem read_clock :
    (clock ++ p).read stamp (w.clockText ++ rest) =
      p.read { stamp with civil := { stamp.civil with
        hour := w.hour, minute := w.minute, second := w.second } } rest := by
  have hhour := readField_padded w.hour.isLt
  have hminute := readField_padded w.minute.isLt
  have hsecond := readField_padded (Nat.lt_trans w.second.isLt (by decide : 60 < 100))
  simp [clock, Written.clockText, Pattern.read, readItem, hhour, hminute, hsecond]

theorem read_clock_eq_none {c : Char} (hdigit : isDigit c = false) (hblank : isBlank c = false) :
    (clock ++ p).read stamp (c :: rest) = none := by
  simp [clock, Pattern.read, readItem, readField, Text.trimStart_cons, hblank, readDigits, hdigit]

theorem read_literal_text (s s' c d : Char) :
    (date s ++ .literal c :: clock ++ p).read Stamp.start (w.text s' d rest) =
      if s = s' ∧ c = d then p.read ⟨w.toCivil, 0⟩ rest else none := by
  rw [List.append_assoc, Written.text, read_date]
  by_cases hs : s = s'
  · simp only [hs, true_and, if_true, List.cons_append, read_literal, read_clock]
    rfl
  · simp [hs]

theorem read_space_text (s s' d : Char) (hd : isDigit d = false) :
    (date s ++ .space :: clock ++ p).read Stamp.start (w.text s' d rest) =
      if s = s' ∧ isBlank d = true then p.read ⟨w.toCivil, 0⟩ rest else none := by
  rw [List.append_assoc, Written.text, read_date]
  by_cases hs : s = s'
  · cases hblank : isBlank d
    · simp [hs, Pattern.read, readItem, Text.trimStart_cons, hblank, read_clock_eq_none, hd]
    · have htrim : trimStart (w.clockText ++ rest) = w.clockText ++ rest := by
        rw [Written.clockText, List.append_assoc, Text.trimStart_padded 1]
      simp only [hs, and_self, if_true, List.cons_append, Pattern.read, readItem,
        Text.trimStart_cons, hblank, htrim, read_clock]
      rfl
  · simp [hs]

end Patterns

section Texts

variable (w : Written)

theorem readAbsolute_text (s d : Char) (rest : List Char) (hd : isDigit d = false) :
    readAbsolute (w.text s d rest) =
      [if '-' = s ∧ 'T' = d then Pattern.read [.offset] ⟨w.toCivil, 0⟩ rest else none,
       if '-' = s ∧ isBlank d = true then Pattern.read [] ⟨w.toCivil, 0⟩ rest else none,
       if '/' = s ∧ isBlank d = true then Pattern.read [] ⟨w.toCivil, 0⟩ rest else none,
       if '-' = s ∧ 'T' = d then Pattern.read [] ⟨w.toCivil, 0⟩ rest else none,
       if '-' = s ∧ 'T' = d then Pattern.read [.literal 'Z'] ⟨w.toCivil, 0⟩ rest
         else none].findSome? (·.bind Stamp.seconds?) := by
  have hspace (s') := read_space_text w [] rest s' s d hd
  have hliteral := read_literal_text w [] rest '-' s 'T' d
  simp only [List.append_nil] at hspace hliteral
  simp only [readAbsolute, patterns, List.findSome?_cons, List.findSome?_nil, readPattern,
    read_literal_text, hspace, hliteral]

theorem readAbsolute_withOffset (o : Offset) :
    readAbsolute (w.text '-' 'T' o.text) =
      if (o.minutes : Nat) < 60 then (Stamp.mk w.toCivil o.seconds).seconds? else none := by
  -- Only the first pattern goes on with an offset; each of the others stops in front of it.
  have hzulu : Pattern.read [.literal 'Z'] ⟨w.toCivil, 0⟩ o.text = none := by
    cases h : o.ahead <;> simp [Offset.text, h, read_literal]
  have hend : Pattern.read [] ⟨w.toCivil, 0⟩ o.text = none := rfl
  have hoffset : Pattern.read [.offset] ⟨w.toCivil, 0⟩ o.text =
      if (o.minutes : Nat) < 60 then some ⟨w.toCivil, o.seconds⟩ else none := by
    rw [Pattern.read, readItem, readOffset_text]
    by_cases hminutes : (o.minutes : Nat) < 60 <;> simp [hminutes, Pattern.read]
  rw [readAbsolute_text w _ _ _ (by decide), hzulu, hend, hoffset]
  by_cases hminutes : (o.minutes : Nat) < 60
  · cases h : Stamp.seconds? ⟨w.toCivil, o.seconds⟩ <;> simp [hminutes, h]
  · simp [hminutes]

theorem readAbsolute_withoutOffset {f : Char × Char × List Char} (hf : f ∈ Written.forms) :
    readAbsolute (w.text f.1 f.2.1 f.2.2) = (Stamp.mk w.toCivil 0).seconds? := by
  have hend : Pattern.read [] ⟨w.toCivil, 0⟩ [] = some ⟨w.toCivil, 0⟩ := rfl
  have hzulu : Pattern.read [.literal 'Z'] ⟨w.toCivil, 0⟩ ['Z'] = some ⟨w.toCivil, 0⟩ := rfl
  have hoffset : ∀ cs ∈ [[], ['Z']], Pattern.read [.offset] ⟨w.toCivil, 0⟩ cs = none := by
    simp only [List.forall_mem_cons, List.not_mem_nil, false_implies, implies_true, and_true]
    exact ⟨rfl, rfl⟩
  have hmore : Pattern.read [] ⟨w.toCivil, 0⟩ ['Z'] = none := rfl
  have hless : Pattern.read [.literal 'Z'] ⟨w.toCivil, 0⟩ [] = none := rfl
  simp only [Written.forms, List.mem_cons, List.not_mem_nil, or_false] at hf
  rcases hf with rfl | rfl | rfl | rfl <;> rw [readAbsolute_text w _ _ _ (by decide)] <;>
    cases h : Stamp.seconds? ⟨w.toCivil, 0⟩ <;>
    simp [h, hend, hzulu, hmore, hless, hoffset, isBlank]

/-- A text that starts with a date is neither a count of seconds nor a distance. -/
theorem resolve_text (s d : Char) (rest : List Char) (hs : isDigit s = false) (now : Int) :
    resolve (String.ofList (w.text s d rest)) now = readAbsolute (w.text s d rest) := by
  obtain ⟨c, cs, hcons, hc⟩ := Text.padded_eq_cons 3 w.year
  have htext : w.text s d rest = c :: (cs ++ s :: (padded 2 w.month ++ s :: padded 2 w.day) ++
      d :: (w.clockText ++ rest)) := by
    simp only [Written.text, Written.dateText, hcons, List.cons_append]
  have hcount : Text.readInt64? (String.ofList (w.text s d rest)) = none := by
    rw [Text.readInt64?, String.toList_ofList, htext,
      Text.readInt?_eq_none hc (d := s) (by simp) hs]
  have hdistance : readDistance (w.text s d rest) = none := by
    rw [htext]
    unfold readDistance
    split
    · next heq => cases heq; cases hc
    · rfl
  simp [resolve, hcount, readRelative, hdistance]

end Texts

section Moment

variable (w : Written) (o : Offset)

theorem isValid_toCivil : w.toCivil.isValid = true ↔ w.IsValid := by
  have hyear := w.year.isLt
  have hsecond := w.second.isLt
  constructor
  · intro h
    simp only [Civil.isValid, Bool.and_eq_true, decide_eq_true_eq] at h
    obtain ⟨⟨⟨⟨⟨⟨⟨-, hmonth⟩, hmonth'⟩, hday⟩, hday'⟩, hhour⟩, hminute⟩, -⟩ := h
    exact ⟨⟨hmonth, hmonth', hday, hday'⟩, hhour, hminute⟩
  · rintro ⟨⟨hmonth, hmonth', hday, hday'⟩, hhour, hminute⟩
    simp only [Written.toDate] at hmonth hmonth' hday hday'
    simp only [Civil.isValid, Bool.and_eq_true, decide_eq_true_eq]
    simp only [Written.toCivil, minYear, maxYear]
    omega

theorem seconds_toCivil : w.toCivil.seconds = w.toDate.number * 86400 + w.secondOfDay := by
  have hsecond : min (w.second : Nat) 59 = w.second :=
    Nat.min_eq_left (Nat.le_of_lt_succ w.second.isLt)
  simp only [Civil.seconds, Written.toCivil, Written.toDate, Written.secondOfDay, Date.number,
    hsecond]
  omega

theorem Written.IsValid.number_bounds {w : Written} (h : w.IsValid) :
    -719528 ≤ w.toDate.number ∧ w.toDate.number < 2932900 := by
  have hyear := w.year.isLt
  have hstart := h.1.day_pos
  have hend := h.1.dayOfYear_le
  have hmonths : daysBeforeMonth w.toDate.year (w.toDate.month + 1) ≤
      daysBeforeMonth w.toDate.year 13 :=
    daysBeforeMonth_mono w.toDate.year (Nat.le_add_left 1 _) (Nat.succ_le_succ h.1.month_le)
  have hlength : daysBeforeMonth w.toDate.year 13 ≤ 366 := by
    rw [daysInYear]
    split <;> decide
  have hyears : 0 ≤ daysBeforeYear w.toDate.year ∧ daysBeforeYear w.toDate.year < 3652061 := by
    simp only [daysBeforeYear, Written.toDate]
    omega
  simp only [Date.number, dayNumber]
  omega

theorem natAbs_seconds : o.seconds.natAbs = o.size := by
  cases h : o.ahead <;> simp [Offset.seconds, h]

theorem Written.IsValid.secondOfDay_lt {w : Written} (h : w.IsValid) : w.secondOfDay < 86400 := by
  have hhour := h.2.1
  have hminute := h.2.2
  have hsecond := w.second.isLt
  simp only [Written.secondOfDay]
  omega

theorem seconds?_of_isValid {w : Written} (h : w.IsValid) {offset : Int}
    (hoffset : offset.natAbs < 86400) :
    (Stamp.mk w.toCivil offset).seconds? =
      some (w.toDate.number * 86400 + w.secondOfDay - offset) := by
  have hbounds := h.number_bounds
  have hday := h.secondOfDay_lt
  have hcalendar :
      inCalendar (w.toDate.number * 86400 + w.secondOfDay - offset) = true := by
    simp only [inCalendar, Bool.and_eq_true, decide_eq_true_eq]
    simp only [minSeconds, maxSeconds]
    omega
  simp [Stamp.seconds?, (isValid_toCivil w).2 h, seconds_toCivil, hoffset, hcalendar]

theorem seconds?_of_not_isValid {w : Written} {offset : Int}
    (h : ¬ (w.IsValid ∧ offset.natAbs < 86400)) : (Stamp.mk w.toCivil offset).seconds? = none := by
  rw [← isValid_toCivil] at h
  simp only [Stamp.seconds?]
  split
  · next hif =>
    simp only [Bool.and_eq_true, decide_eq_true_eq] at hif
    exact absurd hif.1 h
  · rfl

theorem secondOfDay_lt {w w' : Written} (h : w.IsValid)
    (hlt : w.hour < w'.hour ∨ w.hour = w'.hour ∧
      (w.minute < w'.minute ∨ w.minute = w'.minute ∧ w.second < w'.second)) :
    w.secondOfDay < w'.secondOfDay := by
  have hminute := h.2.2
  have hsecond := w.second.isLt
  simp only [Fin.lt_def, Fin.ext_iff] at hlt
  simp only [Written.secondOfDay]
  omega

end Moment

section

variable (w : Written) (o : Offset) (now : Int)

theorem resolve_withOffset :
    resolve (w.withOffset o) now =
      if (o.minutes : Nat) < 60 then (Stamp.mk w.toCivil o.seconds).seconds? else none := by
  rw [Written.withOffset, resolve_text w _ _ _ (by decide), readAbsolute_withOffset]

theorem resolve_withoutOffset {text : String} (h : text ∈ w.withoutOffset) :
    resolve text now = (Stamp.mk w.toCivil 0).seconds? := by
  obtain ⟨f, hf, rfl⟩ := List.mem_map.1 h
  have hseparator : isDigit f.1 = false := by
    have hforms : ∀ f ∈ Written.forms, isDigit f.1 = false := by decide
    exact hforms f hf
  rw [resolve_text w _ _ _ hseparator, readAbsolute_withoutOffset w hf]

theorem resolve_withOffset_eq_some_iff {n : Int} :
    resolve (w.withOffset o) now = some n ↔
      w.IsValid ∧ o.IsValid ∧ w.toDate.number * 86400 + w.secondOfDay - o.seconds = n := by
  rw [resolve_withOffset]
  by_cases hminutes : (o.minutes : Nat) < 60
  · by_cases h : w.IsValid ∧ o.seconds.natAbs < 86400
    · simp [hminutes, seconds?_of_isValid h.1 h.2, h.1, Offset.IsValid, ← natAbs_seconds, h.2]
    · rw [if_pos hminutes, seconds?_of_not_isValid h]
      rw [natAbs_seconds] at h
      exact ⟨nofun, fun hn => absurd ⟨hn.1, hn.2.1.2⟩ h⟩
  · rw [if_neg hminutes]
    exact ⟨nofun, fun hn => absurd hn.2.1.1 hminutes⟩

end

/-- How the texts of a civil time are read, with an offset and without one. -/
structure ReadInFull (w : Written) (o : Offset) : Prop where
  moment : w.IsValid → o.IsValid → ∃ days, (∀ n, w.toDate.IsDay n ↔ n = days) ∧
    ∀ now, resolve (w.withOffset o) now = some (days * 86400 + w.secondOfDay - o.seconds)
  nothing : ¬ (w.IsValid ∧ o.IsValid) → ∀ now, resolve (w.withOffset o) now = none
  universal : ∀ text ∈ w.withoutOffset, ∀ now now',
    resolve text now = resolve (w.withOffset .utc) now'
  later : ∀ w' o', o.seconds = o'.seconds → w.Before w' → ∀ now now' n n',
    resolve (w.withOffset o) now = some n → resolve (w'.withOffset o') now' = some n' → n < n'
  timeless : ∀ now now', resolve (w.withOffset o) now = resolve (w.withOffset o) now'

theorem resolve_readInFull (w : Written) (o : Offset) : ReadInFull w o where
  moment hw ho :=
    ⟨w.toDate.number, fun n => by rw [Date.isDay_iff hw.1, eq_comm],
      fun now => (resolve_withOffset_eq_some_iff w o now).2 ⟨hw, ho, rfl⟩⟩
  nothing h now := by
    refine Option.eq_none_iff_forall_ne_some.2 fun n hn => ?_
    obtain ⟨hw, ho, -⟩ := (resolve_withOffset_eq_some_iff w o now).1 hn
    exact h ⟨hw, ho⟩
  universal text htext now now' := by
    rw [resolve_withoutOffset w now htext, resolve_withOffset]
    rfl
  later w' o' hoffset hbefore now now' n n' hn hn' := by
    obtain ⟨hw, -, rfl⟩ := (resolve_withOffset_eq_some_iff w o now).1 hn
    obtain ⟨hw', -, rfl⟩ := (resolve_withOffset_eq_some_iff w' o' now').1 hn'
    rw [hoffset]
    rcases hbefore with hdate | ⟨hdate, hclock⟩
    · -- An earlier day ends before a later one starts, whatever the times of the day.
      have hday := Date.number_lt hw.1 hw'.1 hdate
      have hend := hw.secondOfDay_lt
      omega
    · have hlt := secondOfDay_lt hw hclock
      rw [hdate]
      omega
  timeless now now' := by rw [resolve_withOffset, resolve_withOffset]

example : (Written.withOffset ⟨2020, 6, 8, 14, 27, 53⟩ ⟨true, 4, 0, false⟩) =
    "2020-06-08T14:27:53+0400" := by decide

example : resolve "2020-06-08T14:27:53+0400" 0 = some 1591612073 := by decide

end Time
end ThreatGraph
