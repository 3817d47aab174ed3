import ThreatGraph.Text.Digit
import ThreatGraph.Text.Utf8

/-!
# Percent encoding

A byte as `%` and two hexadecimal digits.  What is encoded differs from place to place in a URL;
whatever is no ASCII character always is.
-/

namespace ThreatGraph
namespace Web
namespace Percent

def encodeByte (b : UInt8) : List Char :=
  ['%', Text.upperHex (b.toNat / 16), Text.upperHex (b.toNat % 16)]

def encodeChar (encodes : Char → Bool) (c : Char) : List Char :=
  if encodes c then (Text.Utf8.encodeChar c).flatMap encodeByte else [c]

def encode (encodes : Char → Bool) (cs : List Char) : List Char := cs.flatMap (encodeChar encodes)

@[simp] theorem encode_nil (encodes : Char → Bool) : encode encodes [] = [] := rfl

@[simp] theorem encode_cons (encodes : Char → Bool) (c : Char) (cs : List Char) :
    encode encodes (c :: cs) = encodeChar encodes c ++ encode encodes cs := by
  simp [encode]

@[simp] theorem encode_append (encodes : Char → Bool) (as bs : List Char) :
    encode encodes (as ++ bs) = encode encodes as ++ encode encodes bs := by
  simp [encode]

def hexValue? (b : UInt8) : Option Nat := Text.hexValue? (Char.ofUInt8 b)

/-- A `%` without two digits behind it stands for itself. -/
def decode : List UInt8 → List UInt8
  | [] => []
  | b :: h :: l :: rest =>
    if b = 0x25 then
      match hexValue? h, hexValue? l with
      | some h, some l => UInt8.ofNat (h * 16 + l) :: decode rest
      | _, _ => b :: decode (h :: l :: rest)
    else b :: decode (h :: l :: rest)
  | b :: rest => b :: decode rest

/-- The bytes that a percent-encoded text stands for. -/
def decodeText (cs : List Char) : List UInt8 := decode (Text.Utf8.encode cs)

/-- Controls, and everything beyond ASCII. -/
def inControl (c : Char) : Bool := c.toNat < 0x20 || 0x7E < c.toNat

def inFragment (c : Char) : Bool := inControl c || [' ', '"', '<', '>', '\x60'].contains c

def inQuery (c : Char) : Bool := inControl c || [' ', '"', '#', '<', '>'].contains c

def inSpecialQuery (c : Char) : Bool := inQuery c || c == '\''

def inPath (c : Char) : Bool := inFragment c || ['#', '?', '\x7b', '\x7d'].contains c

def inSegment (c : Char) : Bool := inPath c || ['/', '%'].contains c

def inSpecialSegment (c : Char) : Bool := inSegment c || c == '\\'

def inUserinfo (c : Char) : Bool :=
  inPath c || ['/', ':', ';', '=', '@', '[', '\\', ']', '^', '|'].contains c

end Percent
end Web
end ThreatGraph
