import ThreatGraph.Number.Double
import ThreatGraph.Text.Digit

/-!
# Shortest decimal digits

The fewest digits that read back as the same double, and of those the ones nearest to it.
-/

namespace ThreatGraph
namespace Double

/-- A positive decimal number: `digits`, a point before the first of them, times
`10 ^ magnitude`. -/
structure Decimal where
  digits : List Char
  magnitude : Int
  deriving DecidableEq, Repr

/-- The `k` with `10 ^ (k - 1) ≤ num / den < 10 ^ k`, for positive numbers. -/
def decimalMagnitude (num den : Nat) : Int :=
  if den ≤ num then (Nat.toDigits 10 (num / den)).length
  else
    let j := (Nat.toDigits 10 (den / num)).length
    if den = num * pow10 (j - 1) then 2 - j else 1 - j

/-- The interval of numbers that round to a double, over one denominator.  Its ends belong to it if
the mantissa is even. -/
structure Interval where
  low : Nat
  middle : Nat
  high : Nat
  den : Nat
  closed : Bool

/-- Half a unit of the mantissa to each side; below a power of two the units are half as wide. -/
def interval (x : Double) : Interval :=
  let m := x.mantissa
  let below := if m = pow2 52 ∧ 1 < x.biased then 1 else 2
  let up := pow2 x.exponent.toNat
  { low := (4 * m - below) * up
    middle := 4 * m * up
    high := (4 * m + 2) * up
    den := 4 * pow2 (-x.exponent).toNat
    closed := m % 2 = 0 }

/-- `n * 10 ^ p` over the denominator of the interval, and the factor that keeps it whole. -/
def Interval.scaled (i : Interval) (n : Nat) (p : Int) : Nat × Nat :=
  if p < 0 then (n * i.den, pow10 (-p).toNat) else (n * pow10 p.toNat * i.den, 1)

def Interval.holds (i : Interval) (n : Nat) (p : Int) : Bool :=
  let (v, factor) := i.scaled n p
  if i.closed then i.low * factor ≤ v && v ≤ i.high * factor
  else i.low * factor < v && v < i.high * factor

/-- The greatest `n` with `n * 10 ^ p` not above the number. -/
def Interval.floorAt (i : Interval) (p : Int) : Nat :=
  if p < 0 then i.middle * pow10 (-p).toNat / i.den else i.middle / (i.den * pow10 p.toNat)

/-- Of the two neighbours `n` and `n + 1` on the grid, the one that is nearer; a tie goes to the
even one. -/
def Interval.nearer (i : Interval) (n : Nat) (p : Int) : Nat :=
  let (low, factor) := i.scaled n p
  let (high, _) := i.scaled (n + 1) p
  let middle := i.middle * factor
  if middle - low < high - middle then n
  else if high - middle < middle - low then n + 1
  else if n % 2 = 0 then n else n + 1

/-- The best number on the grid of `10 ^ p` that reads back, if one does. -/
def Interval.onGrid (i : Interval) (p : Int) : Option Nat :=
  let n := i.floorAt p
  match i.holds n p, i.holds (n + 1) p with
  | true, true => some (i.nearer n p)
  | true, false => some n
  | false, true => some (n + 1)
  | false, false => none

/-- Tries grids of one digit more each time; `left` counts the sizes not yet tried. -/
def Interval.search (i : Interval) (magnitude : Int) (size : Nat) : Nat → Option (Nat × Int)
  | 0 => none
  | left + 1 =>
    let p := magnitude - size
    match i.onGrid p with
    | some n => some (n, p)
    | none => i.search magnitude (size + 1) left

/-- The shortest digits of the magnitude of a finite number other than zero.  Seventeen always
suffice. -/
def shortest (x : Double) : Decimal :=
  let i := x.interval
  let k := decimalMagnitude i.middle i.den
  match i.search k 1 17 with
  | some (n, p) =>
    let digits := Nat.toDigits 10 n
    ⟨Text.dropTrailingZeros digits, digits.length + p⟩
  | none => ⟨['0'], 1⟩

/-- Digits in positional notation, without a point for a whole number. -/
def Decimal.positional (d : Decimal) : List Char :=
  let size : Int := d.digits.length
  if d.magnitude ≤ 0 then
    ['0', '.'] ++ List.replicate (-d.magnitude).toNat '0' ++ d.digits
  else if size ≤ d.magnitude then d.digits ++ List.replicate (d.magnitude - size).toNat '0'
  else d.digits.take d.magnitude.toNat ++ '.' :: d.digits.drop d.magnitude.toNat

/-- One digit, a point before the others, and the exponent with its sign. -/
def Decimal.scientific (d : Decimal) : List Char :=
  let e := d.magnitude - 1
  let exponent := 'e' :: (if e < 0 then '-' else '+') :: Nat.toDigits 10 e.natAbs
  match d.digits with
  | [] => exponent
  | [c] => c :: exponent
  | c :: rest => c :: '.' :: (rest ++ exponent)

end Double
end ThreatGraph
