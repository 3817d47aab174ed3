import ThreatGraph.Proofs.EncodedText
import ThreatGraph.Proofs.Timestamps

/-!
# Distances into the past

A distance is resolved by its length in seconds alone, whatever its unit and however many digits it
has: it is subtracted from the present if its length in thousandths of a second fits 64 bits and the
moment is still in the calendar, and it is not resolved otherwise.  No distance is a count of
seconds or a timestamp, so nothing else is made of it.
-/

namespace ThreatGraph

namespace Text

theorem readNat?_eq_some_iff {cs : List Char} {n : Nat} :
    readNat? cs = some n ↔ cs ≠ [] ∧ (∀ c ∈ cs, isDigit c = true) ∧ digitsValue cs = n := by
  unfold readNat?
  cases cs with
  | nil => simp
  | cons c cs =>
    by_cases hall : (c :: cs).all isDigit = true
    · simp only [List.isEmpty_cons, Bool.false_eq_true, if_false, hall, if_true,
        Option.some.injEq, ne_eq, reduceCtorEq, not_false_eq_true, true_and]
      exact ⟨fun h => ⟨List.all_eq_true.1 hall, h⟩, fun h => h.2⟩
    · simp only [List.isEmpty_cons, Bool.false_eq_true, if_false, hall, reduceCtorEq, false_iff]
      exact fun h => hall (List.all_eq_true.2 h.2.1)

theorem readNat?_append_eq_none {digits rest : List Char} {c : Char} (hc : c ∈ rest)
    (hdigit : isDigit c = false) : readNat? (digits ++ rest) = none := by
  refine Option.eq_none_iff_forall_ne_some.2 fun n hn => ?_
  have hall := (readNat?_eq_some_iff.1 hn).2.1 c (List.mem_append_right _ hc)
  rw [hdigit] at hall
  cases hall

end Text

namespace Time

open Text (isDigit digitsValue)

inductive DistanceUnit where
  | minute
  | hour
  | day
  | week
  deriving DecidableEq, Repr

namespace DistanceUnit

def word : DistanceUnit → List Char
  | .minute => ['m', 'i', 'n', 'u', 't', 'e']
  | .hour => ['h', 'o', 'u', 'r']
  | .day => ['d', 'a', 'y']
  | .week => ['w', 'e', 'e', 'k']

def seconds : DistanceUnit → Nat
  | .minute => 60
  | .hour => 60 * 60
  | .day => 24 * 60 * 60
  | .week => 7 * 24 * 60 * 60

def ending (u : DistanceUnit) (plural : Bool) : List Char :=
  u.word ++ if plural then ['s'] else []

theorem seconds_pos (u : DistanceUnit) : 0 < u.seconds := by cases u <;> decide

/-- A unit starts with a letter, so neither the number before it nor a date goes on with it. -/
theorem ending_eq_cons (u : DistanceUnit) (plural : Bool) :
    ∃ c cs, u.ending plural = c :: cs ∧ isDigit c = false ∧ c ∉ ['-', '/'] := by
  cases u <;> exact ⟨_, _, rfl, by decide, by decide⟩

end DistanceUnit

/-- A distance as it is written: a minus sign, any number of digits but at least one, and a unit,
maybe in the plural. -/
structure Distance where
  digits : List Char
  unit : DistanceUnit
  plural : Bool
  digits_ne_nil : digits ≠ []
  isDigit_of_mem : ∀ c ∈ digits, isDigit c = true

namespace Distance

variable (d : Distance)

def ending : List Char := d.unit.ending d.plural

def chars : List Char := '-' :: (d.digits ++ d.ending)

def text : String := String.ofList d.chars

def count : Nat := digitsValue d.digits

def seconds : Nat := d.count * d.unit.seconds

theorem count_le_seconds : d.count ≤ d.seconds :=
  Nat.le_mul_of_pos_right d.count d.unit.seconds_pos

theorem digits_ending :
    (d.digits ++ d.ending).takeWhile isDigit = d.digits ∧
      (d.digits ++ d.ending).dropWhile isDigit = d.ending := by
  obtain ⟨c, cs, hending, hc, -⟩ := d.unit.ending_eq_cons d.plural
  refine Text.takeWhile_dropWhile_append _ _ d.isDigit_of_mem ?_
  rw [ending, hending]
  rintro _ ⟨⟩
  exact hc

end Distance

theorem readUnit_eq_some_iff {cs : List Char} {n : Nat} :
    readUnit cs = some n ↔ ∃ u plural, cs = DistanceUnit.ending u plural ∧ u.seconds = n := by
  constructor
  · intro h
    obtain ⟨u, hfind, rfl⟩ := Option.map_eq_some_iff.1 h
    have hword := List.find?_some hfind
    have hmem := List.mem_of_find?_eq_some hfind
    simp only [Bool.or_eq_true, beq_iff_eq] at hword
    simp only [units, List.mem_cons, List.not_mem_nil, or_false] at hmem
    rcases hmem with rfl | rfl | rfl | rfl
    · exact ⟨.minute, hword.elim (⟨false, ·, rfl⟩) (⟨true, ·, rfl⟩)⟩
    · exact ⟨.hour, hword.elim (⟨false, ·, rfl⟩) (⟨true, ·, rfl⟩)⟩
    · exact ⟨.day, hword.elim (⟨false, ·, rfl⟩) (⟨true, ·, rfl⟩)⟩
    · exact ⟨.week, hword.elim (⟨false, ·, rfl⟩) (⟨true, ·, rfl⟩)⟩
  · rintro ⟨u, plural, rfl, rfl⟩
    cases u <;> cases plural <;> rfl

theorem readDistance_chars (d : Distance) :
    readDistance d.chars = if d.seconds ≤ maxDistance then some d.seconds else none := by
  have hcount : Text.readNat? d.digits = some d.count :=
    Text.readNat?_eq_some_iff.2 ⟨d.digits_ne_nil, d.isDigit_of_mem, rfl⟩
  have hunit : readUnit d.ending = some d.unit.seconds :=
    readUnit_eq_some_iff.2 ⟨_, _, rfl, rfl⟩
  obtain ⟨htake, hdrop⟩ := d.digits_ending
  simp only [Distance.chars, readDistance, htake, hdrop, hcount, hunit]
  -- A number that is not too long a distance in any unit is no longer than 64 bits either.
  have hle := d.count_le_seconds
  refine if_congr ?_ rfl rfl
  simp only [Distance.seconds, Bool.and_eq_true, decide_eq_true_eq] at hle ⊢
  simp only [maxDistance]
  omega

theorem exists_of_readDistance {cs : List Char} {n : Nat} (h : readDistance cs = some n) :
    ∃ d : Distance, cs = d.chars := by
  unfold readDistance at h
  split at h
  · next cs =>
    simp only at h
    split at h
    · next count unit hcount hunit =>
      obtain ⟨hne, hdigits, -⟩ := Text.readNat?_eq_some_iff.1 hcount
      obtain ⟨u, plural, hending, -⟩ := readUnit_eq_some_iff.1 hunit
      refine ⟨⟨cs.takeWhile isDigit, u, plural, hne, hdigits⟩, ?_⟩
      simp only [Distance.chars, Distance.ending, ← hending, List.takeWhile_append_dropWhile]
    · cases h
  · cases h

theorem patterns_start {p : Pattern} (h : p ∈ patterns) :
    ∃ s q, p = .year :: .literal s :: q ∧ s ∈ ['-', '/'] := by
  simp only [patterns, List.mem_cons, List.not_mem_nil, or_false] at h
  rcases h with rfl | rfl | rfl | rfl | rfl <;> exact ⟨_, _, rfl, by decide⟩

theorem readYear_signed {sign : Char} (hsign : sign ∈ ['-', '+']) {digits : List Char}
    (hne : digits ≠ []) (hdigits : ∀ c ∈ digits, isDigit c = true) {rest : List Char}
    (hrest : ∀ c ∈ rest.head?, isDigit c = false) :
    ∃ y, readYear (sign :: (digits ++ rest)) = some (y, rest) := by
  obtain ⟨htake, -⟩ := Text.takeWhile_dropWhile_append digits rest hdigits hrest
  have hall : readAllDigits (digits ++ rest) = some (digitsValue digits, rest) := by
    simp only [readAllDigits, readDigits, List.take_length, htake, List.isEmpty_iff, hne, if_false,
      List.drop_left]
  simp only [List.mem_cons, List.not_mem_nil, or_false] at hsign
  rcases hsign with rfl | rfl <;> simp [readYear, Text.trimStart_cons, Text.isBlank, hall]

theorem read_year_eq_none {cs rest : List Char} {y : Int} (h : readYear cs = some (y, rest))
    {s : Char} (hs : rest.head? ≠ some s) (q : Pattern) (stamp : Stamp) :
    Pattern.read (.year :: .literal s :: q) stamp cs = none := by
  rw [Pattern.read, readItem, h]
  cases rest with
  | nil => rfl
  | cons c rest =>
    have hne : s ≠ c := by
      rintro rfl
      exact hs rfl
    exact (read_literal _ q rest s c).trans (if_neg hne)

namespace Distance

theorem readInt?_chars (d : Distance) : Text.readInt? d.chars = none := by
  obtain ⟨c, cs, hending, hc, -⟩ := d.unit.ending_eq_cons d.plural
  have hmem : c ∈ d.ending := by
    rw [ending, hending]
    exact List.mem_cons_self
  simp only [chars, Text.readInt?, Text.readNat?_append_eq_none hmem hc, Option.map_none]

theorem read_chars {p : Pattern} (hp : p ∈ patterns) (stamp : Stamp) (d : Distance) :
    p.read stamp d.chars = none := by
  obtain ⟨s, q, rfl, hs⟩ := patterns_start hp
  obtain ⟨c, cs, hending, hc, hne⟩ := d.unit.ending_eq_cons d.plural
  have hhead : d.ending.head? = some c := by rw [ending, hending, List.head?_cons]
  have hrest : ∀ e ∈ d.ending.head?, isDigit e = false := by simp [hhead, hc]
  have hsign : '-' ∈ ['-', '+'] := by decide
  obtain ⟨y, hy⟩ := readYear_signed hsign d.digits_ne_nil d.isDigit_of_mem hrest
  refine read_year_eq_none hy ?_ q stamp
  rw [hhead]
  rintro ⟨⟩
  exact hne hs

end Distance

theorem resolve_distance (d : Distance) (now : Int) :
    resolve d.text now =
      if d.seconds ≤ maxDistance ∧ inCalendar (now - d.seconds) = true then some (now - d.seconds)
      else none := by
  have hcount : Text.readInt64? d.text = none := by
    rw [Text.readInt64?, Distance.text, String.toList_ofList, d.readInt?_chars]
  have hstamp : readAbsolute d.chars = none :=
    List.findSome?_eq_none_iff.2 fun p hp => by rw [readPattern, d.read_chars hp, Option.bind_none]
  rw [resolve, hcount, Distance.text, String.toList_ofList, hstamp, readRelative,
    readDistance_chars]
  by_cases hle : d.seconds ≤ maxDistance <;> simp [hle]

/-- How distances are resolved at `now`, and that no other text is resolved as one. -/
structure ResolvesDistances (now : Int) : Prop where
  moment : ∀ d : Distance, resolve d.text now =
    if d.count ≤ Text.int64Max ∧ d.seconds ≤ Text.int64Max / 1000 ∧
      minSeconds ≤ now - d.seconds ∧ now - d.seconds ≤ maxSeconds then some (now - d.seconds)
    else none
  fits : ∀ (d : Distance) (n : Int), resolve d.text now = some n → Text.fitsInt64 n = true
  /-- The unit does not matter. -/
  equal : ∀ d d' : Distance, d.seconds = d'.seconds → resolve d.text now = resolve d'.text now
  /-- The longer the distance, the earlier the moment. -/
  earlier : ∀ (d d' : Distance) (n n' : Int), d.seconds ≤ d'.seconds →
    resolve d.text now = some n → resolve d'.text now = some n' → n' ≤ n
  /-- What is too long stays so when it gets longer. -/
  within : inCalendar now = true → ∀ d d' : Distance, d.seconds ≤ d'.seconds →
    resolve d.text now = none → resolve d'.text now = none
  nothing : ∀ text, (∀ d : Distance, text ≠ d.text) → Text.readInt64? text = none →
    (∀ p ∈ patterns, readPattern text.toList p = none) → resolve text now = none

theorem resolve_distances (now : Int) : ResolvesDistances now where
  moment d := by
    have hle := d.count_le_seconds
    rw [resolve_distance]
    refine if_congr ?_ rfl rfl
    simp only [inCalendar, Bool.and_eq_true, decide_eq_true_eq, maxDistance, Text.int64Max]
    omega
  fits d n h := by
    rw [resolve_distance] at h
    split at h
    · next hif =>
      obtain rfl := Option.some.inj h
      simp only [inCalendar, Bool.and_eq_true, decide_eq_true_eq] at hif
      simp only [Text.fitsInt64, Bool.and_eq_true, decide_eq_true_eq]
      simp only [minSeconds, maxSeconds] at hif
      simp only [Text.int64Min, Text.int64Max]
      omega
    · cases h
  equal d d' h := by rw [resolve_distance, resolve_distance, h]
  earlier d d' n n' hle h h' := by
    rw [resolve_distance] at h h'
    split at h <;> cases h
    split at h' <;> cases h'
    omega
  within hnow d d' hle h := by
    rw [resolve_distance] at h ⊢
    split at h
    · cases h
    · next hif =>
      refine if_neg fun hif' => hif ?_
      simp only [inCalendar, Bool.and_eq_true, decide_eq_true_eq] at hnow hif' ⊢
      omega
  nothing text hdistance hcount hstamp := by
    have habsolute : readAbsolute text.toList = none := List.findSome?_eq_none_iff.2 hstamp
    have hrelative : readRelative text.toList now = none := by
      cases hread : readDistance text.toList with
      | none => rw [readRelative, hread, Option.bind_none]
      | some n =>
        obtain ⟨d, hd⟩ := exists_of_readDistance hread
        exact absurd (by rw [Distance.text, ← hd, String.ofList_toList]) (hdistance d)
    rw [resolve, hcount, habsolute, hrelative]
    rfl

example : resolve "-0014days" 1591626473 = resolve "-2week" 1591626473 := by decide

end Time
end ThreatGraph
