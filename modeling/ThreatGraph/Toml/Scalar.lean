import ThreatGraph.Number.Text
import ThreatGraph.Time.Calendar
import ThreatGraph.Toml.Value

/-!
# Words of TOML

Numbers, booleans, dates and times: values that are written without quotes.
-/

namespace ThreatGraph
namespace Toml

/-- Digits without the underscores between them. -/
def plainDigits? (isDigit : Char → Bool) : List Char → Option (List Char)
  | [] => none
  | [c] => if isDigit c then some [c] else none
  | c :: '_' :: cs => if isDigit c then (plainDigits? isDigit cs).map (c :: ·) else none
  | c :: cs => if isDigit c then (plainDigits? isDigit cs).map (c :: ·) else none

/-- The sign of a number, and the number without it. -/
def splitSign : List Char → Bool × List Char
  | '+' :: cs => (false, cs)
  | '-' :: cs => (true, cs)
  | cs => (false, cs)

/-- Decimal digits without a superfluous zero in front. -/
def wholeDigits? (cs : List Char) : Option (List Char) :=
  match plainDigits? Text.isDigit cs with
  | some ['0'] => some ['0']
  | some ('0' :: _) => none
  | digits => digits

def readBase? (base : Nat) (isDigit : Char → Bool) (cs : List Char) : Option Int :=
  (plainDigits? isDigit cs).map fun digits => Int.ofNat (Text.baseValue base digits)

def readInteger? : List Char → Option Int
  | '0' :: 'x' :: cs => readBase? 16 Text.isHexDigit cs
  | '0' :: 'o' :: cs => readBase? 8 (fun c => '0' ≤ c && c ≤ '7') cs
  | '0' :: 'b' :: cs => readBase? 2 (fun c => '0' ≤ c && c ≤ '1') cs
  | cs =>
    let (negative, cs) := splitSign cs
    (wholeDigits? cs).map fun digits =>
      let n := Text.digitsValue digits
      if negative then -Int.ofNat n else Int.ofNat n

def isDigitOrLine (c : Char) : Bool := Text.isDigit c || c == '_'

/-- A point and digits, or nothing. -/
def plainFraction? : List Char → Option (List Char × List Char)
  | '.' :: cs =>
    (plainDigits? Text.isDigit (cs.takeWhile isDigitOrLine)).map fun digits =>
      ('.' :: digits, cs.dropWhile isDigitOrLine)
  | cs => some ([], cs)

def plainExponent? : List Char → Option (List Char)
  | [] => some []
  | c :: cs =>
    if Double.isExponentMark c then
      let (negative, cs) := splitSign cs
      (plainDigits? Text.isDigit cs).map fun digits => 'e' :: Text.minus negative digits
    else none

/-- A float without its underscores.  It has a fraction or an exponent. -/
def plainFloat? (cs : List Char) : Option (List Char) := do
  let whole ← wholeDigits? (cs.takeWhile isDigitOrLine)
  let (fraction, rest) ← plainFraction? (cs.dropWhile isDigitOrLine)
  let exponent ← plainExponent? rest
  if fraction.isEmpty && exponent.isEmpty then none else return whole ++ fraction ++ exponent

/-- A float.  One that is too great is refused, but not one that is too small. -/
def readFloat? (cs : List Char) : Option Double :=
  let (negative, magnitude) := splitSign cs
  match magnitude with
  | ['i', 'n', 'f'] => some (Double.withSign negative Double.infinity)
  | ['n', 'a', 'n'] => some (Double.withSign negative Double.nan)
  | _ =>
    match (plainFloat? magnitude).bind Double.read? with
    | some x => if !negative && !x.isFinite then none else some (Double.withSign negative x)
    | none => none

def readPair? : List Char → Option (Nat × List Char)
  | a :: b :: cs =>
    if Text.isDigit a && Text.isDigit b then some (Text.digitsValue [a, b], cs) else none
  | _ => none

def expect (c : Char) : List Char → Option (List Char)
  | d :: cs => if d = c then some cs else none
  | [] => none

def readDate? (cs : List Char) : Option (List Char × List Char) := do
  let (century, rest) ← readPair? cs
  let (year, rest) ← readPair? rest
  let (month, rest) ← readPair? (← expect '-' rest)
  let (day, rest) ← readPair? (← expect '-' rest)
  if 1 ≤ month && month ≤ 12 && 1 ≤ day &&
      day ≤ Time.daysInMonth (Int.ofNat (century * 100 + year)) month then
    return (cs.take 10, rest)
  else none

/-- The digits of a fraction of a second, down to nanoseconds and without zeros at the end. -/
def fractionText (digits : List Char) : List Char :=
  match Text.dropTrailingZeros (digits.take 9) with
  | [] => []
  | digits => '.' :: digits

/-- Reads a time of the day; second 60 is a leap second. -/
def readClock? (cs : List Char) : Option (List Char × List Char) := do
  let (hour, rest) ← readPair? cs
  let (minute, rest) ← readPair? (← expect ':' rest)
  let (second, rest) ← readPair? (← expect ':' rest)
  if 23 < hour || 59 < minute || 60 < second then none
  else
    match rest with
    | '.' :: rest =>
      let digits := rest.takeWhile Text.isDigit
      if digits.isEmpty then none
      else return (cs.take 8 ++ fractionText digits, rest.dropWhile Text.isDigit)
    | rest => return (cs.take 8, rest)

/-- Reads a distance from universal time, and nothing after it. -/
def readOffset? : List Char → Option (List Char)
  | [] => some []
  | ['Z'] => some ['Z']
  | ['z'] => some ['Z']
  | sign :: cs => do
    if sign != '+' && sign != '-' then none
    else
      let (hour, rest) ← readPair? cs
      let (minute, rest) ← readPair? (← expect ':' rest)
      if 23 < hour || 59 < minute || !rest.isEmpty then none
      else if hour = 0 && minute = 0 then return '+' :: cs
      else return sign :: cs

def isDateMark (c : Char) : Bool := c == 'T' || c == 't' || c == ' '

/-- Reads a date, a time, or a date and a time, perhaps with its distance from universal time. -/
def readMoment? (cs : List Char) : Option (List Char) :=
  match readDate? cs with
  | some (date, []) => some date
  | some (date, mark :: rest) =>
    if isDateMark mark then do
      let (clock, rest) ← readClock? rest
      let offset ← readOffset? rest
      return date ++ 'T' :: clock ++ offset
    else none
  | none =>
    match readClock? cs with
    | some (clock, []) => some clock
    | _ => none

def isWordChar (c : Char) : Bool :=
  c.isAlphanum || c == '_' || c == '+' || c == '-' || c == '.' || c == ':'

/-- The word that a text starts with.  A time belongs to the date before it. -/
def splitWord (cs : List Char) : List Char × List Char :=
  let word := cs.takeWhile isWordChar
  let rest := cs.dropWhile isWordChar
  match readDate? word, rest with
  | some (_, []), ' ' :: after =>
    let clock := after.takeWhile isWordChar
    if clock.isEmpty then (word, rest) else (word ++ ' ' :: clock, after.dropWhile isWordChar)
  | _, _ => (word, rest)

def readWord? (word : List Char) : Option Value :=
  match word with
  | ['t', 'r', 'u', 'e'] => some (.bool true)
  | ['f', 'a', 'l', 's', 'e'] => some (.bool false)
  | _ =>
    match readMoment? word, readInteger? word with
    | some text, _ => some (.moment (String.ofList text))
    | none, some n => if Text.fitsInt64 n then some (.integer n) else none
    | none, none => (readFloat? word).map .float

end Toml
end ThreatGraph
