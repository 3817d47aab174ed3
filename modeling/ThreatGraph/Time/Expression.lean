import ThreatGraph.Time.Pattern

/-!
# Time expressions

A moment, given as a count of seconds, as a timestamp, or as a distance into the past such as
`-3hours`.  A timestamp without an offset is in universal time.
-/

namespace ThreatGraph
namespace Time

def date (separator : Char) : Pattern :=
  [.year, .literal separator, .month, .literal separator, .day]

def clock : Pattern := [.hour, .literal ':', .minute, .literal ':', .second]

def patterns : List Pattern :=
  [date '-' ++ .literal 'T' :: clock ++ [.offset],
   date '-' ++ .space :: clock,
   date '/' ++ .space :: clock,
   date '-' ++ .literal 'T' :: clock,
   date '-' ++ .literal 'T' :: clock ++ [.literal 'Z']]

def readPattern (cs : List Char) (p : Pattern) : Option Int :=
  (p.read Stamp.start cs).bind Stamp.seconds?

def readAbsolute (cs : List Char) : Option Int := patterns.findSome? (readPattern cs)

def units : List (List Char × Nat) :=
  [(['m', 'i', 'n', 'u', 't', 'e'], 60), (['h', 'o', 'u', 'r'], 3600), (['d', 'a', 'y'], 86400),
   (['w', 'e', 'e', 'k'], 604800)]

/-- A unit, with or without the `s` of its plural. -/
def readUnit (cs : List Char) : Option Nat :=
  (units.find? fun u => cs == u.1 || cs == u.1 ++ ['s']).map (·.2)

/-- The longest distance, in seconds. -/
def maxDistance : Nat := 9223372036854775

def readDistance : List Char → Option Nat
  | '-' :: cs =>
    let digits := cs.takeWhile Text.isDigit
    match Text.readNat? digits, readUnit (cs.dropWhile Text.isDigit) with
    | some count, some unit =>
      if count ≤ 9223372036854775807 && count * unit ≤ maxDistance then some (count * unit)
      else none
    | _, _ => none
  | _ => none

def readRelative (cs : List Char) (now : Int) : Option Int :=
  (readDistance cs).bind fun distance =>
    if inCalendar (now - distance) then some (now - distance) else none

/-- The seconds from the start of 1970 to the moment that `text` names at `now`. -/
def resolve (text : String) (now : Int) : Option Int :=
  ((Text.readInt64? text).or (readAbsolute text.toList)).or (readRelative text.toList now)

end Time
end ThreatGraph
