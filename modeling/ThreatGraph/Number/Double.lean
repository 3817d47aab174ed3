/-!
# Binary floating point

The 64-bit binary interchange format, held as its bits and computed with exactly: a finite number
is `mantissa * 2 ^ exponent`, and every operation rounds the exact result once, to the nearest
number of the format and a tie to the even one.
-/

namespace ThreatGraph

structure Double where
  bits : UInt64
  deriving DecidableEq, Inhabited, Repr

def pow2 (n : Nat) : Nat := Nat.pow 2 n

def pow10 (n : Nat) : Nat := Nat.pow 10 n

namespace Double

def isNegative (x : Double) : Bool := x.bits.toNat / pow2 63 == 1

def biased (x : Double) : Nat := x.bits.toNat / pow2 52 % pow2 11

def fraction (x : Double) : Nat := x.bits.toNat % pow2 52

def isFinite (x : Double) : Bool := x.biased != 2047

def isNaN (x : Double) : Bool := x.biased == 2047 && x.fraction != 0

/-- Numbers below the least normal one have no hidden bit. -/
def mantissa (x : Double) : Nat := if x.biased = 0 then x.fraction else x.fraction + pow2 52

def exponent (x : Double) : Int := (max x.biased 1 : Nat) - 1075

def isZero (x : Double) : Bool := x.biased == 0 && x.fraction == 0

def infinityBits : Nat := 2047 * pow2 52

def infinity : Double := ⟨UInt64.ofNat infinityBits⟩

def nan : Double := ⟨UInt64.ofNat (infinityBits + pow2 51)⟩

def zero : Double := ⟨0⟩

def withSign (negative : Bool) (x : Double) : Double :=
  ⟨UInt64.ofNat (x.bits.toNat % pow2 63 + if negative then pow2 63 else 0)⟩

def neg (x : Double) : Double := withSign (!x.isNegative) x

/-- The quotient rounded to the nearest natural number, a tie to the even one. -/
def roundHalfEven (num den : Nat) : Nat :=
  let q := num / den
  let r := num % den
  if 2 * r < den then q
  else if den < 2 * r then q + 1
  else if q % 2 = 0 then q else q + 1

/-- `num * 2 ^ -e` rounded, over `den`. -/
def scaledQuotient (num den : Nat) (e : Int) : Nat :=
  if e < 0 then roundHalfEven (num * pow2 (-e).toNat) den
  else roundHalfEven num (den * pow2 e.toNat)

/-- The greatest `k` with `2 ^ k ≤ num / den`, for positive numbers. -/
def floorLog2 (num den : Nat) : Int :=
  let k : Int := (Nat.log2 num : Int) - Nat.log2 den
  let reached := if k < 0 then den ≤ num * pow2 (-k).toNat else den * pow2 k.toNat ≤ num
  if reached then k else k - 1

/-- The number of the format nearest to `num / den`.  Beyond the greatest finite one lies
infinity; below the least normal one the exponent stays and digits are lost. -/
def ofRatio (num den : Nat) : Double :=
  if num = 0 then zero
  else
    let e := max (floorLog2 num den - 52) (-1074)
    let q := scaledQuotient num den e
    let bits := (e + 1074).toNat * pow2 52 + q
    if infinityBits ≤ bits then infinity else ⟨UInt64.ofNat bits⟩

def ofNat (n : Nat) : Double := ofRatio n 1

def num (x : Double) : Nat := x.mantissa * pow2 x.exponent.toNat

def den (x : Double) : Nat := pow2 (-x.exponent).toNat

/-- The product of two numbers that are not negative, with `0 * infinity` left out. -/
def mul (x y : Double) : Double :=
  if x.isFinite && y.isFinite then ofRatio (x.num * y.num) (x.den * y.den) else infinity

/-- The quotient of two numbers that are not negative, the second positive and finite. -/
def div (x y : Double) : Double :=
  if x.isFinite then ofRatio (x.num * y.den) (x.den * y.num) else infinity

/-- The double nearest to `10 ^ k`. -/
def powerOfTen (k : Nat) : Double := ofNat (pow10 k)

def isExponentMark (c : Char) : Bool := c == 'e' || c == 'E'

/-- The double nearest to `digits * 10 ^ exponent`.  Far outside the range of the format the answer
needs no arithmetic. -/
def ofDecimal (digits : Nat) (exponent : Int) : Double :=
  let size : Int := (Nat.toDigits 10 digits).length
  if digits = 0 then zero
  else if 400 < size + exponent then infinity
  else if size + exponent < -400 then zero
  else if exponent < 0 then ofRatio digits (pow10 (-exponent).toNat)
  else ofRatio (digits * pow10 exponent.toNat) 1

end Double
end ThreatGraph
