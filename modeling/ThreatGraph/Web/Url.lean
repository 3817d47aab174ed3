import ThreatGraph.Web.Form
import ThreatGraph.Web.Host

/-!
# URLs

A URL in its parts, all of them percent-encoded, and its text.
-/

namespace ThreatGraph
namespace Web

structure Userinfo where
  username : List Char
  password : Option (List Char)
  deriving DecidableEq, Inhabited, Repr

structure Authority where
  userinfo : Option Userinfo
  host : Host
  port : Option Nat
  deriving DecidableEq, Inhabited, Repr

/-- A path is a list of segments, or in URLs such as `mailto:` one text. -/
inductive Path where
  | segments (parts : List (List Char))
  | text (whole : List Char)
  deriving DecidableEq, Inhabited, Repr

structure Url where
  scheme : List Char
  authority : Option Authority
  path : Path
  query : Option (List Char)
  fragment : Option (List Char)
  deriving DecidableEq, Inhabited, Repr

def isSpecial (scheme : List Char) : Bool :=
  ["http", "https", "ws", "wss", "ftp", "file"].any fun s => s.toList == scheme

def defaultPort (scheme : List Char) : Option Nat :=
  if scheme = ['h', 't', 't', 'p'] ∨ scheme = ['w', 's'] then some 80
  else if scheme = ['h', 't', 't', 'p', 's'] ∨ scheme = ['w', 's', 's'] then some 443
  else if scheme = ['f', 't', 'p'] then some 21
  else none

namespace Userinfo

def print (u : Userinfo) : List Char :=
  u.username ++ (match u.password with
    | some p => ':' :: p
    | none => []) ++ ['@']

end Userinfo

namespace Authority

def print (a : Authority) : List Char :=
  (match a.userinfo with
    | some u => u.print
    | none => []) ++ a.host.print ++
  (match a.port with
    | some n => ':' :: Nat.toDigits 10 n
    | none => [])

end Authority

namespace Path

def print : Path → List Char
  | .segments parts => parts.flatMap ('/' :: ·)
  | .text whole => whole

/-- Two slashes at the start would be taken for those of an authority. -/
def startsWithSlashes : Path → Bool
  | .segments ([] :: _ :: _) => true
  | _ => false

end Path

namespace Url

def printFront (u : Url) : List Char :=
  u.scheme ++ ':' ::
    (match u.authority with
      | some a => '/' :: '/' :: a.print
      | none => if u.path.startsWithSlashes then ['/', '.'] else [])

def printQuery (u : Url) : List Char :=
  match u.query with
  | some q => '?' :: q
  | none => []

def printFragment (u : Url) : List Char :=
  match u.fragment with
  | some f => '#' :: f
  | none => []

def print (u : Url) : List Char := u.printFront ++ u.path.print ++ u.printQuery ++ u.printFragment

def text (u : Url) : String := String.ofList u.print

def queryPairs (u : Url) : Form.Pairs := Form.decode (u.query.getD [])

def appendPairs (u : Url) (pairs : Form.Pairs) : Url :=
  { u with query := some (Form.append (u.query.getD []) pairs) }

def withPairs (u : Url) (pairs : Form.Pairs) : Url := { u with query := some (Form.encode pairs) }

/-- Whether a segment means the directory above, in any of its spellings. -/
def isDoubleDot (segment : List Char) : Bool :=
  ["..", "%2e%2e", "%2e.", ".%2e"].any fun s =>
    s.toList == segment.map fun c => if c = 'E' then 'e' else c

def isSingleDot (segment : List Char) : Bool :=
  [".", "%2e"].any fun s => s.toList == segment.map fun c => if c = 'E' then 'e' else c

def isLetter (c : Char) : Bool := ('A' ≤ c && c ≤ 'Z') || ('a' ≤ c && c ≤ 'z')

/-- A drive letter such as `C:` is not climbed out of. -/
def isDrive : List Char → Bool
  | [c, ':'] => isLetter c
  | [c, '|'] => isLetter c
  | _ => false

def climb (segments : List (List Char)) : List (List Char) :=
  match segments.getLast? with
  | some last => if isDrive last then segments else segments.dropLast
  | none => []

/-- Puts a segment behind others.  Dots change the path instead; at its end they leave an empty
segment. -/
def place (segments : List (List Char)) (segment : List Char) (isLast : Bool) :
    List (List Char) :=
  let stop := if isLast then [[]] else []
  if isDoubleDot segment then climb segments ++ stop
  else if isSingleDot segment then segments ++ stop
  else segments ++ [segment]

def placeAll (segments : List (List Char)) : List (List Char) → List (List Char)
  | [] => segments
  | [last] => place segments last true
  | segment :: next :: rest => placeAll (place segments segment false) (next :: rest)

def isLineSpace (c : Char) : Bool := c == '\t' || c == '\n' || c == '\r'

/-- One segment more, from a text that is encoded so that it stays one.  The texts `.` and `..` name
no segment and are left out. -/
def pushSegment (special : Bool) (segments : List (List Char)) (text : List Char) :
    List (List Char) :=
  if text = ['.'] ∨ text = ['.', '.'] then segments
  else
    let encodes := if special then Percent.inSpecialSegment else Percent.inSegment
    let segment := Percent.encode encodes (text.filter fun c => !isLineSpace c)
    place (if segments = [[]] then [] else segments) segment true

def dropEmptyLast (segments : List (List Char)) : List (List Char) :=
  if segments.length ≤ 1 then segments
  else
    match segments.getLast? with
    | some [] => segments.dropLast
    | _ => segments

/-- The URL with texts added to its path as segments, and an empty segment behind them; nothing if
the path is no list of segments. -/
def extendPath? (u : Url) (texts : List String) : Option Url :=
  match u.path with
  | .segments segments =>
    some { u with path := .segments ((texts.map String.toList ++ [[]]).foldl
      (pushSegment (isSpecial u.scheme)) (dropEmptyLast segments)) }
  | .text _ => none

end Url
end Web
end ThreatGraph
