import ThreatGraph.Text.Blank
import ThreatGraph.Text.Integer
import ThreatGraph.Time.Calendar

/-!
# Patterns of timestamps

A pattern is a list of items that are read one after the other.  Numbers may have white space before
them and fewer digits than they usually do.
-/

namespace ThreatGraph
namespace Time

inductive Item where
  | year
  | month
  | day
  | hour
  | minute
  | second
  | literal (c : Char)
  | space
  | offset
  deriving DecidableEq, Repr

abbrev Pattern := List Item

/-- A timestamp: a civil time and how far, in seconds, it is ahead of universal time. -/
structure Stamp where
  civil : Civil
  offset : Int
  deriving DecidableEq, Inhabited, Repr

def Stamp.start : Stamp := ⟨⟨0, 1, 1, 0, 0, 0⟩, 0⟩

/-- Up to `width` digits, at least one. -/
def readDigits (width : Nat) (cs : List Char) : Option (Nat × List Char) :=
  let digits := (cs.take width).takeWhile Text.isDigit
  if digits.isEmpty then none else some (Text.digitsValue digits, cs.drop digits.length)

def readAllDigits (cs : List Char) : Option (Nat × List Char) := readDigits cs.length cs

/-- A year with a sign has any number of digits, one without at most four. -/
def readYear (cs : List Char) : Option (Int × List Char) :=
  match Text.trimStart cs with
  | '-' :: cs => (readAllDigits cs).map fun r => (-(r.1 : Int), r.2)
  | '+' :: cs => (readAllDigits cs).map fun r => ((r.1 : Int), r.2)
  | cs => (readDigits 4 cs).map fun r => ((r.1 : Int), r.2)

def readField (cs : List Char) : Option (Nat × List Char) := readDigits 2 (Text.trimStart cs)

def readPair : List Char → Option (Nat × List Char)
  | a :: b :: cs =>
    if Text.isDigit a && Text.isDigit b then some (Text.digitsValue [a, b], cs) else none
  | _ => none

def readSign : List Char → Option (Int × List Char)
  | '+' :: cs => some (1, cs)
  | '-' :: cs => some (-1, cs)
  | '\u2212' :: cs => some (-1, cs)
  | _ => none

/-- What may stand between the hours and the minutes of an offset. -/
def isOffsetGap (c : Char) : Bool := c == ':' || Text.isBlank c

/-- A sign, two digits of hours, and two of minutes. -/
def readOffset (cs : List Char) : Option (Int × List Char) := do
  let (sign, cs) ← readSign (Text.trimStart cs)
  let (hours, cs) ← readPair cs
  let (minutes, cs) ← readPair (cs.dropWhile isOffsetGap)
  if minutes < 60 then return (sign * (hours * 3600 + minutes * 60), cs) else none

def readItem (item : Item) (stamp : Stamp) (cs : List Char) : Option (Stamp × List Char) :=
  let set (f : Civil → Nat → Civil) :=
    (readField cs).map fun r => ({ stamp with civil := f stamp.civil r.1 }, r.2)
  match item with
  | .year =>
    (readYear cs).map fun r => ({ stamp with civil := { stamp.civil with year := r.1 } }, r.2)
  | .month => set fun c n => { c with month := n }
  | .day => set fun c n => { c with day := n }
  | .hour => set fun c n => { c with hour := n }
  | .minute => set fun c n => { c with minute := n }
  | .second => set fun c n => { c with second := n }
  | .literal c =>
    match cs with
    | d :: rest => if c = d then some (stamp, rest) else none
    | [] => none
  | .space => some (stamp, Text.trimStart cs)
  | .offset => (readOffset cs).map fun r => ({ stamp with offset := r.1 }, r.2)

def Pattern.read : Pattern → Stamp → List Char → Option Stamp
  | [], stamp, cs => if cs.isEmpty then some stamp else none
  | item :: rest, stamp, cs =>
    match readItem item stamp cs with
    | some (stamp, cs) => Pattern.read rest stamp cs
    | none => none

/-- An offset is less than a day, and both the civil time and the moment are in the calendar. -/
def Stamp.seconds? (stamp : Stamp) : Option Int :=
  let seconds := stamp.civil.seconds - stamp.offset
  if stamp.civil.isValid && stamp.offset.natAbs < 86400 && inCalendar seconds then some seconds
  else none

end Time
end ThreatGraph
