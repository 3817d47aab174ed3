import ThreatGraph.Text.Unprintable

/-!
# Quoted text

The quoted form in which messages show a text they do not trust: quotes around it, the usual
backslash escapes, and a number for every character without a glyph of its own.
-/

namespace ThreatGraph
namespace Text

/-- Lower-case hexadecimal digits without leading zeros. -/
def hexText (n : Nat) : List Char := Nat.toDigits 16 n

def quoteChar (c : Char) : List Char :=
  match c with
  | '\x00' => ['\\', '0']
  | '\t' => ['\\', 't']
  | '\n' => ['\\', 'n']
  | '\r' => ['\\', 'r']
  | '"' => ['\\', '"']
  | '\\' => ['\\', '\\']
  | c =>
    if isUnprintable c then ['\\', 'u', '\x7b'] ++ hexText c.toNat ++ ['\x7d'] else [c]

def quoteChars (cs : List Char) : List Char := '"' :: (cs.flatMap quoteChar ++ ['"'])

def quote (s : String) : String := String.ofList (quoteChars s.toList)

end Text
end ThreatGraph
