import ThreatGraph.Text.Integer
import ThreatGraph.Web.Domain
import ThreatGraph.Web.Percent

/-!
# Hosts

The host of a URL: a domain name, an address of the fourth or sixth version of the Internet
protocol, or, outside the special schemes, any name.
-/

namespace ThreatGraph
namespace Web

/-- What is wrong with the text of a URL. -/
inductive UrlFault where
  | relativeWithoutBase
  | emptyHost
  | invalidDomain
  | invalidDomainCharacter
  | invalidIpv4
  | invalidIpv6
  | invalidPort
  deriving DecidableEq, Repr

def UrlFault.message : UrlFault → String
  | .relativeWithoutBase => "relative URL without a base"
  | .emptyHost => "empty host"
  | .invalidDomain => "invalid international domain name"
  | .invalidDomainCharacter => "invalid domain character"
  | .invalidIpv4 => "invalid IPv4 address"
  | .invalidIpv6 => "invalid IPv6 address"
  | .invalidPort => "invalid port number"

inductive Host where
  | name (text : List Char)
  | ipv4 (address : Nat)
  | ipv6 (pieces : List Nat)
  deriving DecidableEq, Inhabited, Repr

namespace Host

def digitIn? (base : Nat) (c : Char) : Option Nat := (Text.hexValue? c).filter (· < base)

def numberIn? (base : Nat) (cs : List Char) : Option Nat :=
  cs.foldl (fun n c => n.bind fun n => (digitIn? base c).map fun d => n * base + d) (some 0)

/-- A number in decimal, in octal after `0`, or in hexadecimal after `0x`. -/
def readIpv4Number : List Char → Option Nat
  | [] => none
  | '0' :: 'x' :: cs => numberIn? 16 cs
  | '0' :: 'X' :: cs => numberIn? 16 cs
  | '0' :: c :: cs => numberIn? 8 (c :: cs)
  | cs => numberIn? 10 cs

def addressParts (cs : List Char) : List (List Char) :=
  let parts := Text.split (· == '.') cs
  match parts.getLast? with
  | some [] => parts.dropLast
  | _ => parts

/-- Whether the last part is a number, so that the host has to be an address. -/
def endsInNumber (cs : List Char) : Bool :=
  match (addressParts cs).getLast? with
  | some part => (!part.isEmpty && part.all Text.isDigit) || (readIpv4Number part).isSome
  | none => false

/-- All numbers but the last are bytes; the last one fills the bytes that are left. -/
def readIpv4 (cs : List Char) : Option Nat :=
  let parts := addressParts cs
  if 4 < parts.length then none
  else
    match parts.mapM readIpv4Number with
    | none => none
    | some numbers =>
      match numbers.getLast? with
      | none => none
      | some last =>
        let front := numbers.dropLast
        if front.all (· ≤ 255) && last < Nat.pow 256 (4 - front.length) then
          some (front.foldl (fun n b => n * 256 + b) 0 * Nat.pow 256 (4 - front.length) + last)
        else none

def printIpv4 (address : Nat) : List Char :=
  Text.join '.' ([16777216, 65536, 256, 1].map fun unit => Nat.toDigits 10 (address / unit % 256))

def readByte (cs : List Char) : Option Nat :=
  match cs with
  | ['0'] => some 0
  | '0' :: _ => none
  | cs => (Text.readNat? cs).bind fun n => if n ≤ 255 then some n else none

/-- The last two pieces may be written as four bytes. -/
def readTail (cs : List Char) : Option (List Nat) :=
  match (Text.split (· == '.') cs).mapM readByte with
  | some [a, b, c, d] => some [a * 256 + b, c * 256 + d]
  | _ => none

def readPiece (cs : List Char) : Option (List Nat) :=
  if cs.isEmpty || 4 < cs.length then none else (numberIn? 16 cs).map fun n => [n]

def readPieces : List (List Char) → Option (List Nat)
  | [] => some []
  | [part] => if part.contains '.' then readTail part else readPiece part
  | part :: rest => (readPiece part).bind fun p => (readPieces rest).map (p ++ ·)

def splitGap : List Char → Option (List Char × List Char)
  | ':' :: ':' :: cs => some ([], cs)
  | [] => none
  | c :: cs => (splitGap cs).map fun p => (c :: p.1, p.2)

def readSide (cs : List Char) : Option (List Nat) :=
  if cs.isEmpty then some [] else readPieces (Text.split (· == ':') cs)

/-- Eight pieces, or fewer around one gap. -/
def readIpv6 (cs : List Char) : Option (List Nat) :=
  match splitGap cs with
  | none => (readSide cs).bind fun pieces => if pieces.length = 8 then some pieces else none
  | some (left, right) =>
    if left.contains '.' then none
    else
      (readSide left).bind fun left => (readSide right).bind fun right =>
        if left.length + right.length ≤ 7 then
          some (left ++ List.replicate (8 - left.length - right.length) 0 ++ right)
        else none

/-- How many of the pieces are zero before the first that is not. -/
def zeros (pieces : List Nat) : Nat := (pieces.takeWhile (· == 0)).length

/-- Where the first of the longest runs of zeros starts, and how long it is. -/
def longestZeros (pieces : List Nat) : Nat × Nat :=
  (List.range pieces.length).foldl
    (fun best i => let n := zeros (pieces.drop i); if best.2 < n then (i, n) else best) (0, 0)

def printPieces (pieces : List Nat) : List Char := Text.join ':' (pieces.map (Nat.toDigits 16))

def printIpv6 (pieces : List Nat) : List Char :=
  let (start, length) := longestZeros pieces
  if length < 2 then printPieces pieces
  else printPieces (pieces.take start) ++ ':' :: ':' :: printPieces (pieces.drop (start + length))

def print : Host → List Char
  | .name text => text
  | .ipv4 address => printIpv4 address
  | .ipv6 pieces => '[' :: (printIpv6 pieces ++ [']'])

def readBracketed (cs : List Char) : Except UrlFault Host :=
  match cs.getLast? with
  | some ']' =>
    match readIpv6 (cs.drop 1).dropLast with
    | some pieces => .ok (.ipv6 pieces)
    | none => .error .invalidIpv6
  | _ => .error .invalidIpv6

def readSpecial (cs : List Char) : Except UrlFault Host :=
  if cs.head? = some '[' then readBracketed cs
  else
    match Text.Utf8.decode (Percent.decodeText cs) with
    | .error _ => .error .invalidDomain
    | .ok decoded =>
      match Domain.toAscii decoded.toList with
      | none => .error .invalidDomain
      | some [] => .error .emptyHost
      | some domain =>
        if endsInNumber domain then
          match readIpv4 domain with
          | some address => .ok (.ipv4 address)
          | none => .error .invalidIpv4
        else .ok (.name domain)

def isForbidden (c : Char) : Bool :=
  ['\x00', '\t', '\n', '\r', ' ', '#', '/', ':', '<', '>', '?', '@', '[', '\\', ']', '^', '|'].contains
    c

def readOpaque (cs : List Char) : Except UrlFault Host :=
  if cs.head? = some '[' then readBracketed cs
  else if cs.any isForbidden then .error .invalidDomainCharacter
  else .ok (.name (Percent.encode Percent.inControl cs))

end Host
end Web
end ThreatGraph
