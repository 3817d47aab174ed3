import ThreatGraph.Json.Value
import ThreatGraph.Text.Digit
import ThreatGraph.Text.Utf8

/-!
# Reading JSON text

One value, with white space around it and nothing else.  A fault is the first thing wrong on the way
from left to right.
-/

namespace ThreatGraph
namespace Json

open Text (digitValue hexValue? isDigit)

inductive Fault where
  | endInValue
  | endInList
  | endInObject
  | endInString
  | expectedValue
  | expectedColon
  | expectedCommaOrBracket
  | expectedCommaOrBrace
  | expectedIdent
  | keyNotString
  | trailingComma
  | trailingCharacters
  | invalidNumber
  | numberOutOfRange
  | invalidEscape
  | loneSurrogate
  | unfinishedSurrogate
  | controlCharacter
  | tooDeep
  deriving DecidableEq, Repr

def Fault.message : Fault → String
  | .endInValue => "EOF while parsing a value"
  | .endInList => "EOF while parsing a list"
  | .endInObject => "EOF while parsing an object"
  | .endInString => "EOF while parsing a string"
  | .expectedValue => "expected value"
  | .expectedColon => "expected `:`"
  | .expectedCommaOrBracket => "expected `,` or `]`"
  | .expectedCommaOrBrace => "expected `,` or `\x7d`"
  | .expectedIdent => "expected ident"
  | .keyNotString => "key must be a string"
  | .trailingComma => "trailing comma"
  | .trailingCharacters => "trailing characters"
  | .invalidNumber => "invalid number"
  | .numberOutOfRange => "number out of range"
  | .invalidEscape => "invalid escape"
  | .loneSurrogate => "lone leading surrogate in hex escape"
  | .unfinishedSurrogate => "unexpected end of hex escape"
  | .controlCharacter =>
    "control character (\\u0000-\\u001F) found while parsing a string"
  | .tooDeep => "recursion limit exceeded"

/-- What was read, and the text after it. -/
abbrev Step (α : Type) := Except Fault (α × List Char)

def isSpace (c : Char) : Bool := c == ' ' || c == '\t' || c == '\n' || c == '\r'

def skipSpace (cs : List Char) : List Char := cs.dropWhile isSpace

/-- The greatest significand that is kept. -/
def maxWord : Nat := 18446744073709551615

/-- Appends digits to a significand as long as it stays within a 64-bit word; the digits left over
are returned. -/
def takeDigits (significand : Nat) : List Char → Nat × List Char
  | [] => (significand, [])
  | c :: cs =>
    let next := significand * 10 + digitValue c
    if next ≤ maxWord then takeDigits next cs else (significand, c :: cs)

/-- `significand * 10 ^ exponent`, rounded once for each of its steps: the significand to a double,
the power of ten to a double, and their product or quotient. -/
def scaleByTen (significand : Nat) (exponent : Int) : Except Fault Double :=
  let f := Double.ofNat significand
  if f.isZero then .ok f
  else if 308 < exponent then .error .numberOutOfRange
  else if 0 ≤ exponent then
    let product := f.mul (Double.powerOfTen exponent.toNat)
    if product.isFinite then .ok product else .error .numberOutOfRange
  else if -308 ≤ exponent then .ok (f.div (Double.powerOfTen (-exponent).toNat))
  else if -616 ≤ exponent then
    .ok ((f.div (Double.powerOfTen 308)).div (Double.powerOfTen (-exponent - 308).toNat))
  else .ok .zero

def signed (negative : Bool) (x : Double) : Value :=
  .number (.double (if negative then x.neg else x))

def readDouble (negative : Bool) (significand : Nat) (exponent : Int) (rest : List Char) :
    Step Value :=
  (scaleByTen significand exponent).map fun x => (signed negative x, rest)

/-- The greatest exponent that is computed with. -/
def maxExponent : Nat := 2147483647

def readExponent (negative : Bool) (significand : Nat) (start : Int) (cs : List Char) :
    Step Value :=
  let (down, cs) := match cs with
    | '+' :: cs => (false, cs)
    | '-' :: cs => (true, cs)
    | cs => (false, cs)
  match cs with
  | [] => .error .endInValue
  | c :: _ =>
    if isDigit c then
      let digits := cs.takeWhile isDigit
      let rest := cs.dropWhile isDigit
      let n := Text.digitsValue digits
      if maxExponent < n then
        if significand ≠ 0 ∧ ¬down then .error .numberOutOfRange
        else .ok (signed negative .zero, rest)
      else readDouble negative significand (if down then start - n else start + n) rest
    else .error .invalidNumber

def readFraction (negative : Bool) (significand : Nat) (start : Int) (cs : List Char) :
    Step Value :=
  let digits := cs.takeWhile isDigit
  let rest := cs.dropWhile isDigit
  if digits.isEmpty then .error (if rest.isEmpty then .endInValue else .invalidNumber)
  else
    let (significand, left) := takeDigits significand digits
    let exponent := start - (digits.length - left.length : Nat)
    match rest with
    | c :: after =>
      if Double.isExponentMark c then readExponent negative significand exponent after
      else readDouble negative significand exponent rest
    | [] => readDouble negative significand exponent []

/-- A whole number if it fits 64 bits; minus zero and what does not fit are doubles. -/
def wholeNumber (negative : Bool) (significand : Nat) : Value :=
  if negative then
    if significand = 0 ∨ 9223372036854775808 < significand then
      .number (.double (Double.ofNat significand).neg)
    else .number (.int (-significand))
  else .number (.int significand)

def readNumberTail (negative : Bool) (significand dropped : Nat) (rest : List Char) :
    Step Value :=
  match rest with
  | '.' :: after => readFraction negative significand dropped after
  | c :: after =>
    if Double.isExponentMark c then readExponent negative significand dropped after
    else if dropped = 0 then .ok (wholeNumber negative significand, rest)
    else readDouble negative significand dropped rest
  | [] =>
    if dropped = 0 then .ok (wholeNumber negative significand, [])
    else readDouble negative significand dropped []

/-- Reads a number after its sign. -/
def readNumber (negative : Bool) : List Char → Step Value
  | [] => .error .endInValue
  | '0' :: rest =>
    match rest with
    | c :: _ => if isDigit c then .error .invalidNumber else readNumberTail negative 0 0 rest
    | [] => readNumberTail negative 0 0 []
  | c :: rest =>
    if isDigit c then
      let digits := c :: rest.takeWhile isDigit
      let (significand, left) := takeDigits 0 digits
      readNumberTail negative significand left.length (rest.dropWhile isDigit)
    else .error .invalidNumber

/-- The four digits of a hexadecimal escape.  The text ends too soon if fewer than four bytes are
left. -/
def hexQuad (cs : List Char) : Except Fault Nat :=
  match cs with
  | a :: b :: c :: d :: _ =>
    match hexValue? a, hexValue? b, hexValue? c, hexValue? d with
    | some a, some b, some c, some d => .ok (a * 4096 + b * 256 + c * 16 + d)
    | _, _, _, _ => .error .invalidEscape
  | cs => .error (if (Text.Utf8.encode cs).length < 4 then .endInString else .invalidEscape)

def isLowSurrogate (n : Nat) : Bool := 0xDC00 ≤ n && n ≤ 0xDFFF

def isHighSurrogate (n : Nat) : Bool := 0xD800 ≤ n && n ≤ 0xDBFF

/-- The character that the digits after `\u` stand for, and how many characters of the text from
the `u` on belong to it. -/
def readUnicodeEscape (cs : List Char) : Except Fault (Char × Nat) := do
  let n ← hexQuad cs
  if isLowSurrogate n then throw .loneSurrogate
  if isHighSurrogate n then
    match cs.drop 4 with
    | [] => throw .endInString
    | ['\\'] => throw .endInString
    | '\\' :: 'u' :: rest =>
      let m ← hexQuad rest
      if isLowSurrogate m then
        return (Char.ofNat ((n - 0xD800) * 1024 + (m - 0xDC00) + 0x10000), 11)
      else throw .loneSurrogate
    | _ => throw .unfinishedSurrogate
  else return (Char.ofNat n, 5)

/-- The character of an escape, read behind its backslash, and the number of characters that it
takes there. -/
def readEscape : List Char → Except Fault (Char × Nat)
  | [] => .error .endInString
  | '"' :: _ => .ok ('"', 1)
  | '\\' :: _ => .ok ('\\', 1)
  | '/' :: _ => .ok ('/', 1)
  | 'b' :: _ => .ok ('\x08', 1)
  | 'f' :: _ => .ok ('\x0c', 1)
  | 'n' :: _ => .ok ('\n', 1)
  | 'r' :: _ => .ok ('\r', 1)
  | 't' :: _ => .ok ('\t', 1)
  | 'u' :: cs => readUnicodeEscape cs
  | _ => .error .invalidEscape

/-- Reads a string behind its opening quote; `skip` characters belong to the escape before. -/
def readStringFrom (skip : Nat) : List Char → Step (List Char)
  | [] => .error .endInString
  | c :: rest =>
    match skip with
    | skip + 1 => readStringFrom skip rest
    | 0 =>
      if c = '"' then .ok ([], rest)
      else if c = '\\' then
        match readEscape rest with
        | .error e => .error e
        | .ok (d, size) => (readStringFrom size rest).map fun r => (d :: r.1, r.2)
      else if c.toNat < 0x20 then .error .controlCharacter
      else (readStringFrom 0 rest).map fun r => (c :: r.1, r.2)

def readString (cs : List Char) : Step String :=
  (readStringFrom 0 cs).map fun r => (String.ofList r.1, r.2)

def readWord (word : List Char) (value : Value) (cs : List Char) : Step Value :=
  match word, cs with
  | [], cs => .ok (value, cs)
  | _ :: _, [] => .error .endInValue
  | w :: ws, c :: cs => if w = c then readWord ws value cs else .error .expectedIdent

/-- Reads the items of a list behind its bracket or a comma.  `item` reads one of them; each takes
at least one character, so `fuel` is the length of the text. -/
def readItems (item : List Char → Step Value) : Nat → List Char → Step (List Value)
  | 0, _ => .error .endInList
  | fuel + 1, cs =>
    match item cs with
    | .error e => .error e
    | .ok (v, rest) =>
      match skipSpace rest with
      | [] => .error .endInList
      | ']' :: rest => .ok ([v], rest)
      | ',' :: rest =>
        match skipSpace rest with
        | [] => .error .endInValue
        | ']' :: _ => .error .trailingComma
        | rest => (readItems item fuel rest).map fun r => (v :: r.1, r.2)
      | _ => .error .expectedCommaOrBracket

def readList (item : List Char → Step Value) (cs : List Char) : Step Value :=
  match skipSpace cs with
  | [] => .error .endInList
  | ']' :: rest => .ok (.array [], rest)
  | rest => (readItems item rest.length rest).map fun r => (.array r.1, r.2)

/-- Reads a name, a colon and a value; the text starts at the quote. -/
def readMember (item : List Char → Step Value) (cs : List Char) : Step (String × Value) :=
  match readString (cs.drop 1) with
  | .error e => .error e
  | .ok (name, rest) =>
    match skipSpace rest with
    | [] => .error .endInObject
    | ':' :: rest => (item rest).map fun r => ((name, r.1), r.2)
    | _ => .error .expectedColon

/-- Reads members onto those read before; of two members of one name the later one stays. -/
def readMembers (item : List Char → Step Value) :
    Nat → Members Value → List Char → Step (Members Value)
  | 0, _, _ => .error .endInObject
  | fuel + 1, ms, cs =>
    match readMember item cs with
    | .error e => .error e
    | .ok ((name, v), rest) =>
      let ms := ms.insert name v
      match skipSpace rest with
      | [] => .error .endInObject
      | '\x7d' :: rest => .ok (ms, rest)
      | ',' :: rest =>
        match skipSpace rest with
        | [] => .error .endInValue
        | '"' :: rest => readMembers item fuel ms ('"' :: rest)
        | '\x7d' :: _ => .error .trailingComma
        | _ => .error .keyNotString
      | _ => .error .expectedCommaOrBrace

def readObject (item : List Char → Step Value) (cs : List Char) : Step Value :=
  match skipSpace cs with
  | [] => .error .endInObject
  | '\x7d' :: rest => .ok (.object [], rest)
  | '"' :: rest =>
    (readMembers item (rest.length + 1) [] ('"' :: rest)).map fun r => (.object r.1, r.2)
  | _ => .error .keyNotString

/-- Reads a value in which lists and objects nest at most `depth` deep. -/
def readValue (depth : Nat) (cs : List Char) : Step Value :=
  match skipSpace cs with
  | [] => .error .endInValue
  | 'n' :: rest => readWord ['u', 'l', 'l'] .null rest
  | 't' :: rest => readWord ['r', 'u', 'e'] (.bool true) rest
  | 'f' :: rest => readWord ['a', 'l', 's', 'e'] (.bool false) rest
  | '-' :: rest => readNumber true rest
  | '"' :: rest => (readString rest).map fun r => (.string r.1, r.2)
  | '[' :: rest =>
    match depth with
    | 0 => .error .tooDeep
    | depth + 1 => readList (readValue depth) rest
  | '\x7b' :: rest =>
    match depth with
    | 0 => .error .tooDeep
    | depth + 1 => readObject (readValue depth) rest
  | c :: rest => if isDigit c then readNumber false (c :: rest) else .error .expectedValue

/-- Lists and objects nest at most this deep. -/
def maxDepth : Nat := 127

def read (s : String) : Except Fault Value :=
  match readValue maxDepth s.toList with
  | .error e => .error e
  | .ok (v, rest) => if (skipSpace rest).isEmpty then .ok v else .error .trailingCharacters

end Json
end ThreatGraph
