import Mathlib.Data.List.Perm.Basic
import ThreatGraph.Proofs.Distances

/-!
# The forms of a time

A time is given as a count of seconds, as a timestamp by one of the patterns, or as a distance into
the past.  No text has two of these forms, not even when it names no moment, so it makes no
difference in which order they are tried.
-/

namespace ThreatGraph
namespace Time

open Text (isBlank isDigit)

/-- No text is read by both patterns. -/
def Pattern.Apart (p q : Pattern) : Prop :=
  ∀ stamp cs, p.read stamp cs = none ∨ q.read stamp cs = none

namespace Pattern.Apart

variable {p q : Pattern}

theorem symm (h : p.Apart q) : q.Apart p := fun stamp cs => (h stamp cs).symm

/-- A pattern is read from the front, so what comes first in both of them does not matter. -/
theorem append (front : Pattern) (h : p.Apart q) : Pattern.Apart (front ++ p) (front ++ q) := by
  induction front with
  | nil => exact h
  | cons item front ih =>
    intro stamp cs
    rw [List.cons_append, List.cons_append, Pattern.read, Pattern.read]
    cases readItem item stamp cs with
    | none => exact .inl rfl
    | some r => exact ih r.1 r.2

theorem literals {c d : Char} (h : c ≠ d) (p q : Pattern) :
    Pattern.Apart (.literal c :: p) (.literal d :: q) := by
  intro stamp cs
  cases cs with
  | nil => exact .inl rfl
  | cons e cs =>
    rw [read_literal, read_literal]
    by_cases hc : c = e
    · exact .inr (if_neg fun hd => h (hc.trans hd.symm))
    · exact .inl (if_neg hc)

theorem literal_clock {c : Char} (hdigit : isDigit c = false) (hblank : isBlank c = false)
    (p q : Pattern) : Pattern.Apart (.literal c :: p) (.space :: (clock ++ q)) := by
  intro stamp cs
  cases cs with
  | nil => exact .inl rfl
  | cons d cs =>
    rw [read_literal]
    by_cases hcd : c = d
    · subst hcd
      have hspace : Pattern.read (.space :: (clock ++ q)) stamp (c :: cs) =
          (clock ++ q).read stamp (c :: cs) := by
        simp [Pattern.read, readItem, Text.trimStart_cons, hblank]
      exact .inr (hspace.trans (read_clock_eq_none stamp q cs hdigit hblank))
    · exact .inl (if_neg hcd)

theorem offset_end : Pattern.Apart [.offset] [] := by
  intro stamp cs
  cases cs with
  | nil => exact .inl rfl
  | cons c cs => exact .inr rfl

theorem literal_end (c : Char) (p : Pattern) : Pattern.Apart (.literal c :: p) [] := by
  intro stamp cs
  cases cs with
  | nil => exact .inl rfl
  | cons d cs => exact .inr rfl

theorem offset_zulu : Pattern.Apart [.offset] [.literal 'Z'] := by
  intro stamp cs
  cases cs with
  | nil => exact .inl rfl
  | cons c cs =>
    rw [read_literal]
    by_cases hc : 'Z' = c
    · subst hc
      exact .inl rfl
    · exact .inr (if_neg hc)

end Pattern.Apart

/-- Any two patterns part where the first characters differ that they do not share: between year
and month, between date and time of the day, or at the end. -/
theorem patterns_apart : patterns.Pairwise Pattern.Apart := by
  have hseparator (p q : Pattern) :
      Pattern.Apart (.year :: .literal '-' :: p) (.year :: .literal '/' :: q) :=
    .append [.year] (.literals (by decide) p q)
  have hgap (p : Pattern) :
      Pattern.Apart (date '-' ++ .literal 'T' :: p) (date '-' ++ .space :: (clock ++ [])) :=
    .append (date '-') (.literal_clock (by decide) (by decide) p [])
  have hend {p q : Pattern} (h : p.Apart q) :
      Pattern.Apart (date '-' ++ .literal 'T' :: clock ++ p)
        (date '-' ++ .literal 'T' :: clock ++ q) := .append _ h
  simp only [patterns, List.pairwise_cons, List.forall_mem_cons, List.not_mem_nil, false_imp_iff,
    implies_true, and_true, List.Pairwise.nil]
  exact ⟨⟨hgap _, hseparator _ _, hend .offset_end, hend .offset_zulu⟩,
    ⟨hseparator _ _, (hgap _).symm, (hgap _).symm⟩,
    ⟨(hseparator _ _).symm, (hseparator _ _).symm⟩,
    hend (Pattern.Apart.literal_end 'Z' []).symm⟩

theorem readYear_digits {digits : List Char} (hne : digits ≠ [])
    (hdigits : ∀ c ∈ digits, isDigit c = true) :
    ∃ y rest, readYear digits = some (y, rest) ∧ ∀ c ∈ rest, isDigit c = true := by
  cases digits with
  | nil => exact absurd rfl hne
  | cons c cs =>
    have hc := hdigits c List.mem_cons_self
    have htrim : Text.trimStart (c :: cs) = c :: cs := by
      rw [Text.trimStart_cons, Text.not_blank_of_isDigit hc]
      rfl
    have hread : ∃ n rest, readDigits 4 (c :: cs) = some (n, rest) ∧
        ∀ d ∈ rest, isDigit d = true := by
      simp only [readDigits, List.take_succ_cons, List.takeWhile_cons, hc, if_true,
        List.isEmpty_cons, Bool.false_eq_true, if_false]
      exact ⟨_, _, rfl, fun d hd => hdigits d (List.mem_of_mem_drop hd)⟩
    obtain ⟨n, rest, hread, hrest⟩ := hread
    refine ⟨n, rest, ?_, hrest⟩
    rw [readYear, htrim]
    split
    · next heq => cases heq; cases hc
    · next heq => cases heq; cases hc
    · rw [hread]
      rfl

theorem read_count {cs : List Char} (h : (Text.readInt? cs).isSome = true) {p : Pattern}
    (hp : p ∈ patterns) (stamp : Stamp) : p.read stamp cs = none := by
  obtain ⟨s, q, rfl, hs⟩ := patterns_start hp
  -- What a year leaves of a whole number are digits, and none of these separates it from a month.
  have hleft : ∃ y rest, readYear cs = some (y, rest) ∧ ∀ c ∈ rest, isDigit c = true := by
    have hsigned {sign : Char} (hsign : sign ∈ ['-', '+']) {digits : List Char} {n : Nat}
        (hn : Text.readNat? digits = some n) :
        ∃ y rest, readYear (sign :: digits) = some (y, rest) ∧ ∀ c ∈ rest, isDigit c = true := by
      obtain ⟨hne, hdigits, -⟩ := Text.readNat?_eq_some_iff.1 hn
      have hrest : ∀ c ∈ ([] : List Char).head?, isDigit c = false := by simp
      obtain ⟨y, hy⟩ := readYear_signed hsign hne hdigits hrest
      rw [List.append_nil] at hy
      exact ⟨y, [], hy, by simp⟩
    unfold Text.readInt? at h
    split at h <;> obtain ⟨n, hn⟩ := Option.isSome_iff_exists.1 h <;>
      obtain ⟨n, hn, -⟩ := Option.map_eq_some_iff.1 hn
    · exact hsigned (by decide) hn
    · exact hsigned (by decide) hn
    · obtain ⟨hne, hdigits, -⟩ := Text.readNat?_eq_some_iff.1 hn
      exact readYear_digits hne hdigits
  obtain ⟨y, rest, hy, hrest⟩ := hleft
  refine read_year_eq_none hy (fun hhead => ?_) q stamp
  have hdigit := hrest s (List.mem_of_mem_head? hhead)
  simp only [List.mem_cons, List.not_mem_nil, or_false] at hs
  rcases hs with rfl | rfl <;> cases hdigit

inductive Form where
  | count
  | stamp (p : Pattern)
  | distance
  deriving DecidableEq, Repr

namespace Form

def all : List Form := .count :: (patterns.map .stamp ++ [.distance])

/-- The texts of a form.  A number may have any size, a timestamp may have a day or an hour that
there is not, and a distance may be of any length. -/
def Matches : Form → String → Prop
  | .count, text => (Text.readInt? text.toList).isSome = true
  | .stamp p, text => (p.read Stamp.start text.toList).isSome = true
  | .distance, text => ∃ d : Distance, text = d.text

def read : Form → String → Int → Option Int
  | .count, text, _ => Text.readInt64? text
  | .stamp p, text, _ => readPattern text.toList p
  | .distance, text, now => readRelative text.toList now

/-- The answer when the forms of a list are tried one after the other. -/
def resolveBy (order : List Form) (text : String) (now : Int) : Option Int :=
  order.findSome? fun f => f.read text now

theorem matches_of_read {f : Form} {text : String} {now n : Int} (h : f.read text now = some n) :
    f.Matches text := by
  cases f with
  | count =>
    simp only [read, Text.readInt64?] at h
    split at h
    · next m hm => simp [Matches, hm]
    · cases h
  | stamp p =>
    obtain ⟨stamp, hstamp, -⟩ := Option.bind_eq_some_iff.1 h
    simp [Matches, hstamp]
  | distance =>
    obtain ⟨m, hm, -⟩ := Option.bind_eq_some_iff.1 h
    obtain ⟨d, hd⟩ := exists_of_readDistance hm
    exact ⟨d, by rw [Distance.text, ← hd, String.ofList_toList]⟩

theorem resolveBy_all (text : String) (now : Int) : resolveBy all text now = resolve text now := by
  have hstamps : (patterns.map Form.stamp).findSome? (fun f => f.read text now) =
      readAbsolute text.toList := List.findSome?_map
  rw [resolveBy, all, List.findSome?_cons, List.findSome?_append, hstamps, List.findSome?_cons,
    List.findSome?_nil, resolve]
  simp only [read]
  cases Text.readInt64? text <;> cases readRelative text.toList now <;> simp

theorem exclusive (text : String) :
    all.Pairwise fun f g => ¬ (f.Matches text ∧ g.Matches text) := by
  have hcount {p : Pattern} (hp : p ∈ patterns) :
      ¬ (Form.count.Matches text ∧ (Form.stamp p).Matches text) := by
    rintro ⟨hcount, hstamp⟩
    rw [Matches, read_count hcount hp] at hstamp
    cases hstamp
  have hstamps : patterns.Pairwise fun p q =>
      ¬ ((Form.stamp p).Matches text ∧ (Form.stamp q).Matches text) := by
    refine patterns_apart.imp fun {p q} h => ?_
    rintro ⟨hp, hq⟩
    rcases h Stamp.start text.toList with hnone | hnone
    · rw [Matches, hnone] at hp
      cases hp
    · rw [Matches, hnone] at hq
      cases hq
  have hdistance {f : Form} (hf : f = .count ∨ ∃ p ∈ patterns, f = .stamp p) :
      ¬ (f.Matches text ∧ Form.distance.Matches text) := by
    rintro ⟨hmatches, d, rfl⟩
    rcases hf with rfl | ⟨p, hp, rfl⟩
    · rw [Matches, Distance.text, String.toList_ofList, d.readInt?_chars] at hmatches
      cases hmatches
    · rw [Matches, Distance.text, String.toList_ofList, d.read_chars hp] at hmatches
      cases hmatches
  rw [all, List.pairwise_cons, List.pairwise_append, List.pairwise_map]
  refine ⟨?_, hstamps, List.pairwise_singleton _ _, ?_⟩
  · simp only [List.mem_append, List.mem_map, List.mem_singleton]
    rintro g (⟨p, hp, rfl⟩ | rfl)
    · exact hcount hp
    · exact hdistance (.inl rfl)
  · simp only [List.mem_map, List.mem_singleton]
    rintro f ⟨p, hp, rfl⟩ g rfl
    exact hdistance (.inr ⟨p, hp, rfl⟩)

theorem findSome?_perm {α β : Type} {read : α → Option β} {as bs : List α} (h : as.Perm bs)
    (hexclusive : as.Pairwise fun a b => read a = none ∨ read b = none) :
    as.findSome? read = bs.findSome? read := by
  induction h with
  | nil => rfl
  | cons a _ ih =>
    rw [List.findSome?_cons, List.findSome?_cons, ih (List.pairwise_cons.1 hexclusive).2]
  | swap a b as =>
    have hab := (List.pairwise_cons.1 hexclusive).1 a List.mem_cons_self
    simp only [List.findSome?_cons]
    rcases hab with hnone | hnone <;> rw [hnone]
  | trans h _ ih ih' =>
    exact (ih hexclusive).trans (ih' ((h.pairwise_iff fun hab => hab.symm).1 hexclusive))

end Form

/-- No text has two of the forms, each form reads only texts that it has, and the forms may be
tried in any order, also in one that mixes the patterns with the other two. -/
theorem forms_never_overlap (text : String) :
    Form.all.Pairwise (fun f g => ¬ (f.Matches text ∧ g.Matches text)) ∧
      ∀ now : Int, (∀ f : Form, (f.read text now).isSome = true → f.Matches text) ∧
        ∀ order : List Form, order.Perm Form.all →
          Form.resolveBy order text now = resolve text now := by
  refine ⟨Form.exclusive text, fun now => ⟨fun f h => ?_, fun order horder => ?_⟩⟩
  · obtain ⟨n, hn⟩ := Option.isSome_iff_exists.1 h
    exact Form.matches_of_read hn
  · have hexclusive : Form.all.Pairwise fun f g =>
        f.read text now = none ∨ g.read text now = none := by
      refine (Form.exclusive text).imp fun {f g} h => ?_
      cases hf : f.read text now with
      | none => exact .inl rfl
      | some n =>
        refine .inr (Option.eq_none_iff_forall_ne_some.2 fun m hg => ?_)
        exact h ⟨Form.matches_of_read hf, Form.matches_of_read hg⟩
    rw [← Form.resolveBy_all]
    exact (Form.findSome?_perm horder.symm hexclusive).symm

example : Form.resolveBy Form.all.reverse "2020-06-08T14:27:53Z" 0 = some 1591626473 := by decide

end Time
end ThreatGraph
