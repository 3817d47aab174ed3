/-!
# UTF-8

Reading bytes as text.  `decode` stops at the first byte sequence that is not well formed and says
where it is; `decodeLossy` puts a replacement character in its place and goes on.
-/

namespace ThreatGraph
namespace Text
namespace Utf8

/-- Where bytes stop being UTF-8: `length` bytes from `index` on are wrong, or the text ends inside
a character that starts at `index`. -/
inductive Fault where
  | invalid (length index : Nat)
  | incomplete (index : Nat)
  deriving Repr, DecidableEq

def Fault.message : Fault → String
  | .invalid length index => s!"invalid utf-8 sequence of {length} bytes from index {index}"
  | .incomplete index => s!"incomplete utf-8 byte sequence from index {index}"

/-- What stands at the front of some bytes. -/
inductive Head where
  | char (c : Char) (size : Nat)
  | invalid (size : Nat)
  | incomplete
  deriving Repr, DecidableEq

def isContinuation (b : UInt8) : Bool := 0x80 ≤ b && b ≤ 0xBF

def low6 (b : UInt8) : Nat := b.toNat % 64

/-- The second byte of a three-byte character, given the first: no overlong form, no surrogate. -/
def secondOfThree (a b : UInt8) : Bool :=
  if a == 0xE0 then 0xA0 ≤ b && b ≤ 0xBF
  else if a == 0xED then 0x80 ≤ b && b ≤ 0x9F
  else isContinuation b

/-- The second byte of a four-byte character, given the first: no overlong form, and nothing above
U+10FFFF. -/
def secondOfFour (a b : UInt8) : Bool :=
  if a == 0xF0 then 0x90 ≤ b && b ≤ 0xBF
  else if a == 0xF4 then 0x80 ≤ b && b ≤ 0x8F
  else isContinuation b

def headOfTwo (a : UInt8) : List UInt8 → Head
  | [] => .incomplete
  | b :: _ =>
    if isContinuation b then .char (Char.ofNat (a.toNat % 32 * 64 + low6 b)) 2 else .invalid 1

def headOfThree (a : UInt8) : List UInt8 → Head
  | [] => .incomplete
  | b :: rest =>
    if secondOfThree a b then
      match rest with
      | [] => .incomplete
      | c :: _ =>
        if isContinuation c then
          .char (Char.ofNat (a.toNat % 16 * 4096 + low6 b * 64 + low6 c)) 3
        else .invalid 2
    else .invalid 1

def headOfFour (a : UInt8) : List UInt8 → Head
  | [] => .incomplete
  | b :: rest =>
    if secondOfFour a b then
      match rest with
      | [] => .incomplete
      | c :: rest =>
        if isContinuation c then
          match rest with
          | [] => .incomplete
          | d :: _ =>
            if isContinuation d then
              .char (Char.ofNat
                (a.toNat % 8 * 262144 + low6 b * 4096 + low6 c * 64 + low6 d)) 4
            else .invalid 3
        else .invalid 2
    else .invalid 1

/-- The character, or the fault, at the front of the bytes `a :: rest`. -/
def head (a : UInt8) (rest : List UInt8) : Head :=
  if a < 0x80 then .char (Char.ofNat a.toNat) 1
  else if 0xC2 ≤ a && a ≤ 0xDF then headOfTwo a rest
  else if 0xE0 ≤ a && a ≤ 0xEF then headOfThree a rest
  else if 0xF0 ≤ a && a ≤ 0xF4 then headOfFour a rest
  else .invalid 1

/-- Reads the bytes from position `index` on; `skip` of them belong to the last character read. -/
def decodeFrom (index skip : Nat) : List UInt8 → Except Fault (List Char)
  | [] => .ok []
  | a :: rest =>
    match skip with
    | skip + 1 => decodeFrom (index + 1) skip rest
    | 0 =>
      match head a rest with
      | .char c size => (decodeFrom (index + 1) (size - 1) rest).map (c :: ·)
      | .invalid size => .error (.invalid size index)
      | .incomplete => .error (.incomplete index)

def decode (bytes : List UInt8) : Except Fault String :=
  (decodeFrom 0 0 bytes).map String.ofList

/-- U+FFFD, which stands for bytes that are no text. -/
def replacement : Char := '\uFFFD'

def decodeLossyFrom (skip : Nat) : List UInt8 → List Char
  | [] => []
  | a :: rest =>
    match skip with
    | skip + 1 => decodeLossyFrom skip rest
    | 0 =>
      match head a rest with
      | .char c size => c :: decodeLossyFrom (size - 1) rest
      | .invalid size => replacement :: decodeLossyFrom (size - 1) rest
      | .incomplete => [replacement]

def decodeLossy (bytes : List UInt8) : String := String.ofList (decodeLossyFrom 0 bytes)

def encodeChar (c : Char) : List UInt8 :=
  let n := c.toNat
  if n < 0x80 then [UInt8.ofNat n]
  else if n < 0x800 then [UInt8.ofNat (0xC0 + n / 64), UInt8.ofNat (0x80 + n % 64)]
  else if n < 0x10000 then
    [UInt8.ofNat (0xE0 + n / 4096), UInt8.ofNat (0x80 + n / 64 % 64), UInt8.ofNat (0x80 + n % 64)]
  else
    [UInt8.ofNat (0xF0 + n / 262144), UInt8.ofNat (0x80 + n / 4096 % 64),
      UInt8.ofNat (0x80 + n / 64 % 64), UInt8.ofNat (0x80 + n % 64)]

def encode (cs : List Char) : List UInt8 := cs.flatMap encodeChar

@[simp] theorem encode_nil : encode [] = [] := rfl

@[simp] theorem encode_cons (c : Char) (cs : List Char) :
    encode (c :: cs) = encodeChar c ++ encode cs := by
  simp [encode]

end Utf8
end Text
end ThreatGraph
