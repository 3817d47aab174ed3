import ThreatGraph.Number.Shortest
import ThreatGraph.Text.Integer

/-!
# Written doubles

The written forms of a floating point number: any of them is read, rounded once, and the one that
is written has no exponent.
-/

namespace ThreatGraph
namespace Double

/-- The shortest digits in positional notation; a whole number has no point. -/
def plainText (x : Double) : String :=
  if x.isNaN then "NaN"
  else
    String.ofList <| Text.minus x.isNegative <|
      if !x.isFinite then ['i', 'n', 'f']
      else if x.isZero then ['0']
      else x.shortest.positional

/-- The words that stand for a number. -/
def ofWord? (cs : List Char) : Option Double :=
  match (String.ofList cs).toLower with
  | "inf" => some infinity
  | "infinity" => some infinity
  | "nan" => some nan
  | _ => none

/-- Digits with at most one point, and perhaps an exponent. -/
def readUnsigned? (cs : List Char) : Option Double :=
  let whole := cs.takeWhile Text.isDigit
  let (fraction, rest) : List Char × List Char :=
    match cs.dropWhile Text.isDigit with
    | '.' :: rest => (rest.takeWhile Text.isDigit, rest.dropWhile Text.isDigit)
    | rest => ([], rest)
  let digits := Text.digitsValue (whole ++ fraction)
  if whole.isEmpty && fraction.isEmpty then ofWord? cs
  else
    match rest with
    | [] => some (ofDecimal digits (-fraction.length))
    | c :: exponent =>
      if isExponentMark c then
        (Text.readInt? exponent).map fun e => ofDecimal digits (e - fraction.length)
      else none

def read? : List Char → Option Double
  | '+' :: cs => readUnsigned? cs
  | '-' :: cs => (readUnsigned? cs).map neg
  | cs => readUnsigned? cs

end Double
end ThreatGraph
