import ThreatGraph.Number.Double

/-!
# TOML values

A document is a table.  How a table came about decides who may add to it: an inline table is
finished when it is closed, a table under a header has one header, and a dotted key goes only
through tables that dotted keys and longer headers have made.
-/

namespace ThreatGraph
namespace Toml

inductive Origin where
  | inline
  | header
  /-- Made on the way to a table further down. -/
  | implied
  | dotted
  deriving DecidableEq, Inhabited, Repr

inductive Value where
  | string (s : String)
  | integer (n : Int)
  | float (x : Double)
  | bool (b : Bool)
  /-- A date, a time, or both, as text. -/
  | moment (text : String)
  | array (items : List Value)
  | table (origin : Origin) (members : List (String × Value))
  /-- The tables under headers in double brackets. -/
  | tables (elements : List (List (String × Value)))
  deriving Inhabited, Repr

abbrev Members := List (String × Value)

namespace Members

def get? (name : String) (ms : Members) : Option Value := ms.lookup name

def set (name : String) (v : Value) : Members → Members
  | [] => [(name, v)]
  | (n, w) :: ms => if n = name then (n, v) :: ms else (n, w) :: set name v ms

end Members

/-- How a path is walked: by a header, or by a dotted key. -/
inductive Walk where
  | header
  | dotted
  deriving DecidableEq, Repr

namespace Walk

/-- What tables become that the walk makes on its way. -/
def makes : Walk → Origin
  | .header => .implied
  | .dotted => .dotted

def enters (w : Walk) (o : Origin) : Bool :=
  match w, o with
  | _, .inline => false
  | .header, _ => true
  | .dotted, .implied => true
  | .dotted, .dotted => true
  | .dotted, .header => false

end Walk

def setLast (elements : List Members) (ms : Members) : List Members := elements.dropLast ++ [ms]

/-- Changes the table at the end of a path, making the tables that are missing on the way. -/
def edit (w : Walk) (f : Origin → Members → Option Members) :
    List String → Origin → Members → Option Members
  | [], o, ms => f o ms
  | name :: path, _, ms =>
    match Members.get? name ms with
    | none => (edit w f path w.makes []).map fun t => Members.set name (.table w.makes t) ms
    | some (.table o t) =>
      if w.enters o then (edit w f path o t).map fun t => Members.set name (.table o t) ms else none
    | some (.tables elements) =>
      (elements.getLast?.bind (edit w f path .header)).map fun t =>
        Members.set name (.tables (setLast elements t)) ms
    | some _ => none

/-- Adds a member under a name that is not taken.  A key with dots ends in a table that dotted keys
have made. -/
def addMember (dotted : Bool) (name : String) (v : Value) (o : Origin) (ms : Members) :
    Option Members :=
  if dotted && o != .dotted then none
  else if (Members.get? name ms).isSome then none
  else some (Members.set name v ms)

/-- Adds a member under a key, given as the names before its last dot and the name after it. -/
def add (path : List String) (name : String) (v : Value) (o : Origin) (ms : Members) :
    Option Members :=
  edit .dotted (addMember (!path.isEmpty) name v) path o ms

def openTable (name : String) (_ : Origin) (ms : Members) : Option Members :=
  match Members.get? name ms with
  | none => some (Members.set name (.table .header []) ms)
  | some (.table .implied t) => some (Members.set name (.table .header t) ms)
  | some _ => none

def openElement (name : String) (_ : Origin) (ms : Members) : Option Members :=
  match Members.get? name ms with
  | none => some (Members.set name (.tables [[]]) ms)
  | some (.tables elements) => some (Members.set name (.tables (elements ++ [[]])) ms)
  | some _ => none

end Toml
end ThreatGraph
