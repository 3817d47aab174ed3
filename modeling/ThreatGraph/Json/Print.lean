import ThreatGraph.Json.Value
import ThreatGraph.Number.Shortest
import ThreatGraph.Text.Digit

/-!
# Compact JSON text

The one text of a value: no spaces, members in the order of the list, and only those characters
escaped that have to be.
-/

namespace ThreatGraph
namespace Json

open Text (lowerHex minus)

/-- Positional from `0.00001` up to sixteen digits before the point, and always with a point;
scientific elsewhere. -/
def printDouble (x : Double) : List Char :=
  minus x.isNegative <|
    if x.isZero then ['0', '.', '0']
    else
      let d := x.shortest
      if -5 < d.magnitude ∧ d.magnitude ≤ 16 then
        if d.digits.length ≤ d.magnitude then d.positional ++ ['.', '0'] else d.positional
      else d.scientific

def printInt (n : Int) : List Char := minus (n < 0) (Nat.toDigits 10 n.natAbs)

def Number.print : Number → List Char
  | .int n => printInt n
  | .double x => printDouble x

def escapeChar (c : Char) : List Char :=
  match c with
  | '"' => ['\\', '"']
  | '\\' => ['\\', '\\']
  | '\x08' => ['\\', 'b']
  | '\x0c' => ['\\', 'f']
  | '\n' => ['\\', 'n']
  | '\r' => ['\\', 'r']
  | '\t' => ['\\', 't']
  | c =>
    if c.toNat < 0x20 then ['\\', 'u', '0', '0', lowerHex (c.toNat / 16), lowerHex (c.toNat % 16)]
    else [c]

def printString (s : String) : List Char := '"' :: (s.toList.flatMap escapeChar ++ ['"'])

mutual

def Value.print : Value → List Char
  | .null => ['n', 'u', 'l', 'l']
  | .bool true => ['t', 'r', 'u', 'e']
  | .bool false => ['f', 'a', 'l', 's', 'e']
  | .number n => n.print
  | .string s => printString s
  | .array items => '[' :: (printItems items ++ [']'])
  | .object members => '\x7b' :: (printMembers members ++ ['\x7d'])

def printItems : List Value → List Char
  | [] => []
  | [v] => v.print
  | v :: w :: rest => v.print ++ ',' :: printItems (w :: rest)

def printMembers : List (String × Value) → List Char
  | [] => []
  | [(n, v)] => printString n ++ ':' :: v.print
  | (n, v) :: m :: rest => printString n ++ ':' :: (v.print ++ ',' :: printMembers (m :: rest))

end

def Value.text (v : Value) : String := String.ofList v.print

end Json
end ThreatGraph
