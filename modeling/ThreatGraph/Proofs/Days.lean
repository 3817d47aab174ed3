import Mathlib.Logic.Function.Iterate
import ThreatGraph.Time.Calendar

/-!
# Counting days

The calendar goes from each date to the next.  `IsDay` counts these steps from the first day of
1970, forwards and backwards; `dayNumber` finds the count without taking them.  Later dates have
larger counts, and so have later civil times larger seconds.
-/

namespace ThreatGraph
namespace Time

structure Date where
  year : Int
  month : Nat
  day : Nat
  deriving DecidableEq, Inhabited, Repr

namespace Date

def epoch : Date := ⟨1970, 1, 1⟩

def next (d : Date) : Date :=
  if d.day < daysInMonth d.year d.month then ⟨d.year, d.month, d.day + 1⟩
  else if d.month < 12 then ⟨d.year, d.month + 1, 1⟩
  else ⟨d.year + 1, 1, 1⟩

structure IsValid (d : Date) : Prop where
  month_pos : 1 ≤ d.month
  month_le : d.month ≤ 12
  day_pos : 1 ≤ d.day
  day_le : d.day ≤ daysInMonth d.year d.month

/-- A date is `n` days after the epoch, or before it if `n` is negative. -/
def IsDay (d : Date) (n : Int) : Prop := next^[n.toNat] epoch = next^[(-n).toNat] d

abbrev number (d : Date) : Int := dayNumber d.year d.month d.day

end Date

theorem daysInMonth_bounds (year : Int) (month : Nat) :
    28 ≤ daysInMonth year month ∧ daysInMonth year month ≤ 31 := by
  unfold daysInMonth
  split
  · split <;> omega
  all_goals omega

theorem daysBeforeMonth_succ (year : Int) {month : Nat} (h : 1 ≤ month) :
    daysBeforeMonth year (month + 1) = daysBeforeMonth year month + daysInMonth year month := by
  obtain ⟨month, rfl⟩ := Nat.exists_eq_add_of_le' h
  simp [daysBeforeMonth, List.range_succ, List.foldl_append]

theorem daysBeforeMonth_mono (year : Int) {month month' : Nat} (h : 1 ≤ month)
    (hle : month ≤ month') : daysBeforeMonth year month ≤ daysBeforeMonth year month' := by
  induction hle with
  | refl => exact Nat.le_refl _
  | step hle ih =>
    rw [daysBeforeMonth_succ year (Nat.le_trans h hle)]
    exact Nat.le_add_right_of_le ih

theorem daysInYear (year : Int) :
    daysBeforeMonth year 13 = if isLeap year then 366 else 365 := by
  simp only [daysBeforeMonth, List.range, List.range.loop, List.foldl, daysInMonth]
  split <;> rfl

namespace Date

variable {d d' : Date}

theorem isValid_first (year : Int) {month : Nat} (h : 1 ≤ month) (h' : month ≤ 12) :
    IsValid ⟨year, month, 1⟩ :=
  ⟨h, h', Nat.le_refl 1, Nat.le_trans (by simp) (daysInMonth_bounds year month).1⟩

theorem IsValid.next (h : d.IsValid) : d.next.IsValid := by
  unfold Date.next
  split
  · next hday => exact ⟨h.month_pos, h.month_le, Nat.succ_pos _, hday⟩
  · split
    · next hlt => exact isValid_first _ (Nat.succ_pos _) hlt
    · exact isValid_first _ (Nat.le_refl 1) (by decide)

theorem number_next (h : d.IsValid) : d.next.number = d.number + 1 := by
  have hday : ¬ d.day < daysInMonth d.year d.month → d.day = daysInMonth d.year d.month :=
    fun hlt => Nat.le_antisymm h.day_le (Nat.not_lt.1 hlt)
  unfold Date.next number dayNumber
  split
  · simp only
    omega
  · next hlt =>
    have hlast := hday hlt
    have hmonth := daysBeforeMonth_succ d.year h.month_pos
    split
    · simp only
      omega
    · next hend =>
      -- The last day of December: the months of the year add up to its length.
      have hmonth12 : d.month = 12 := Nat.le_antisymm h.month_le (Nat.not_lt.1 hend)
      have hyear := daysBeforeYear_succ d.year
      have hlength := daysInYear d.year
      have hfirst : daysBeforeMonth (d.year + 1) 1 = 0 := rfl
      rw [hmonth12] at hmonth hlast
      simp only [hmonth12, hfirst, hyear]
      split at hlength <;> simp_all <;> omega

def Before (d d' : Date) : Prop :=
  d.year < d'.year ∨ d.year = d'.year ∧ (d.month < d'.month ∨ d.month = d'.month ∧ d.day < d'.day)

theorem before_or_eq_or_before (d d' : Date) : Before d d' ∨ d = d' ∨ Before d' d := by
  obtain ⟨year, month, day⟩ := d
  obtain ⟨year', month', day'⟩ := d'
  simp only [Before, mk.injEq]
  omega

theorem IsValid.dayOfYear_le (h : d.IsValid) :
    daysBeforeMonth d.year d.month + d.day ≤ daysBeforeMonth d.year (d.month + 1) := by
  rw [daysBeforeMonth_succ d.year h.month_pos]
  exact Nat.add_le_add_left h.day_le _

theorem daysBeforeYear_mono {year year' : Int} (h : year < year') :
    daysBeforeYear (year + 1) ≤ daysBeforeYear year' := by
  simp only [daysBeforeYear]
  omega

theorem number_lt (h : d.IsValid) (h' : d'.IsValid) (hlt : Before d d') : d.number < d'.number := by
  have hend := h.dayOfYear_le
  have hstart := h'.day_pos
  unfold number dayNumber
  rcases hlt with hyear | ⟨hyear, hmonth | ⟨hmonth, hday⟩⟩
  · -- No day of a year comes after those of the next.
    have hyears := daysBeforeYear_mono hyear
    have hlength := daysInYear d.year
    have hnext := daysBeforeYear_succ d.year
    have hmonths := daysBeforeMonth_mono d.year (Nat.le_add_left 1 d.month)
      (Nat.succ_le_succ h.month_le)
    split at hlength <;> simp_all <;> omega
  · have hmonths := daysBeforeMonth_mono d.year (Nat.le_add_left 1 d.month) hmonth
    rw [← hyear]
    omega
  · rw [← hyear, ← hmonth]
    omega

theorem number_inj (h : d.IsValid) (h' : d'.IsValid) (heq : d.number = d'.number) : d = d' := by
  rcases before_or_eq_or_before d d' with hlt | rfl | hlt
  · exact absurd heq (Int.ne_of_lt (number_lt h h' hlt))
  · rfl
  · exact absurd heq.symm (Int.ne_of_lt (number_lt h' h hlt))

theorem isValid_epoch : epoch.IsValid := isValid_first 1970 (Nat.le_refl 1) (by decide)

theorem number_epoch : epoch.number = 0 := by decide

theorem IsValid.iterate (h : d.IsValid) (n : Nat) :
    (Date.next^[n] d).IsValid ∧ (Date.next^[n] d).number = d.number + n := by
  induction n with
  | zero => exact ⟨h, (Int.add_zero _).symm⟩
  | succ n ih =>
    rw [Function.iterate_succ_apply']
    refine ⟨ih.1.next, ?_⟩
    rw [number_next ih.1, ih.2]
    omega

theorem isDay_iff (h : d.IsValid) {n : Int} : IsDay d n ↔ d.number = n := by
  obtain ⟨hfrom, hcount⟩ := isValid_epoch.iterate n.toNat
  obtain ⟨hto, hcount'⟩ := h.iterate (-n).toNat
  rw [number_epoch] at hcount
  constructor
  · intro hday
    rw [IsDay] at hday
    rw [hday, hcount'] at hcount
    omega
  · intro hnumber
    refine number_inj hfrom hto ?_
    rw [hcount, hcount', hnumber]
    omega

end Date
end Time
end ThreatGraph
