import ThreatGraph.Text.Split
import ThreatGraph.Web.Percent

/-!
# Form encoding

Pairs of names and values as one text: `name=value`, with `&` between two of them.  Letters, digits
and `*-._` stand for themselves and a space is `+`; every other byte is percent-encoded.
-/

namespace ThreatGraph
namespace Web
namespace Form

abbrev Pairs := List (String × String)

def isPlain (c : Char) : Bool :=
  ('A' ≤ c && c ≤ 'Z') || ('a' ≤ c && c ≤ 'z') || ('0' ≤ c && c ≤ '9') ||
    ['*', '-', '.', '_'].contains c

def encodeChar (c : Char) : List Char :=
  if isPlain c then [c] else if c = ' ' then ['+'] else (Text.Utf8.encodeChar c).flatMap
    Percent.encodeByte

def encodeText (s : String) : List Char := s.toList.flatMap encodeChar

def encodePair (p : String × String) : List Char := encodeText p.1 ++ '=' :: encodeText p.2

/-- Pairs behind a query that may have some already. -/
def append (query : List Char) (pairs : Pairs) : List Char :=
  pairs.foldl (fun q p => (if q.isEmpty then q else q ++ ['&']) ++ encodePair p) query

def encode (pairs : Pairs) : List Char := append [] pairs

/-- Reads one name or value.  Bytes that are no UTF-8 are replaced. -/
def decodeText (cs : List Char) : String :=
  Text.Utf8.decodeLossy (Percent.decodeText (cs.map fun c => if c = '+' then ' ' else c))

/-- Without a `=`, the value is empty. -/
def decodePair (cs : List Char) : String × String :=
  match Text.splitFirst '=' cs with
  | some (name, value) => (decodeText name, decodeText value)
  | none => (decodeText cs, decodeText [])

/-- Empty parts between two `&` are no pairs. -/
def decode (cs : List Char) : Pairs :=
  ((Text.split (· == '&') cs).filter fun part => !part.isEmpty).map decodePair

end Form
end Web
end ThreatGraph
