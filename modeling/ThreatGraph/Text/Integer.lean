import ThreatGraph.Text.Digit

/-!
# Whole numbers in text

The plain decimal forms: an optional sign and ASCII digits, nothing else, kept within a range.
-/

namespace ThreatGraph
namespace Text

def readNat? (cs : List Char) : Option Nat :=
  if cs.isEmpty then none
  else if cs.all isDigit then some (digitsValue cs)
  else none

def readInt? : List Char → Option Int
  | '+' :: cs => (readNat? cs).map Int.ofNat
  | '-' :: cs => (readNat? cs).map fun n => -Int.ofNat n
  | cs => (readNat? cs).map Int.ofNat

def int64Min : Int := -9223372036854775808

def int64Max : Int := 9223372036854775807

def fitsInt64 (n : Int) : Bool := int64Min ≤ n && n ≤ int64Max

/-- A signed decimal number of at most 64 bits. -/
def readInt64? (s : String) : Option Int :=
  match readInt? s.toList with
  | some n => if fitsInt64 n then some n else none
  | none => none

end Text
end ThreatGraph
