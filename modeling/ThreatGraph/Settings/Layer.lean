import ThreatGraph.Environment
import ThreatGraph.Number.Text
import ThreatGraph.Text.Quoted
import ThreatGraph.Toml.Value

/-!
# Layers of settings

What a file sets, and what the environment sets.  Names are the same in any case, and of several
entries for one name the last one counts.
-/

namespace ThreatGraph
namespace Settings

/-- What a name is set to, as far as a setting can tell. -/
inductive Raw where
  | text (s : String)
  | integer (n : Int)
  | double (x : Double)
  | bool (b : Bool)
  | sequence
  | map
  deriving DecidableEq, Inhabited, Repr

namespace Raw

def ofToml : Toml.Value → Raw
  | .string s => .text s
  | .integer n => .integer n
  | .float x => .double x
  | .bool b => .bool b
  | .moment s => .text s
  | .array _ => .sequence
  | .tables _ => .sequence
  | .table _ _ => .map

/-- `true` and `false`, in any case. -/
def readBool? (s : String) : Option Bool :=
  match s.toLower with
  | "true" => some true
  | "false" => some false
  | _ => none

/-- The value of a variable is taken for the narrowest kind that it can be read as. -/
def ofVariable (s : String) : Raw :=
  match readBool? s, Text.readInt64? s, Double.read? s.toList with
  | some b, _, _ => .bool b
  | none, some n, _ => .integer n
  | none, none, some x => .double x
  | none, none, none => .text s

def describe : Raw → String
  | .text s => "string " ++ Text.quote s
  | .integer n => s!"64-bit integer `{n}`"
  | .double x => s!"floating point `{x.plainText}`"
  | .bool b => s!"boolean `{b}`"
  | .sequence => "sequence"
  | .map => "map"

end Raw

/-- What a name is set to, and where.  A table has no place of its own: it is put together from all
that is set in it. -/
structure Entry where
  raw : Raw
  origin : Option String
  deriving DecidableEq, Inhabited, Repr

abbrev Layer := List (String × Entry)

/-- The Kelvin sign is the only character outside ASCII with a lower case within it. -/
def lowerChar (c : Char) : Char := if c = '\u212A' then 'k' else c.toLower

def lower (cs : List Char) : List Char := cs.map lowerChar

/-- What the variables that set something have in front of its name. -/
def variableMark : List Char := "threatx_".toList

def environmentOrigin : String := "the environment"

namespace Layer

def ofToml (file : String) (ms : Toml.Members) : Layer :=
  ms.map fun m =>
    let raw := Raw.ofToml m.2
    (String.ofList (lower m.1.toList), ⟨raw, if raw = .map then none else some file⟩)

def ofVariable? (v : String × String) : Option (String × Entry) :=
  let name := lower v.1.toList
  if variableMark.isPrefixOf name then
    some (String.ofList (name.drop variableMark.length), ⟨Raw.ofVariable v.2, environmentOrigin⟩)
  else none

def ofEnvironment (env : Environment) : Layer := env.filterMap ofVariable?

def get? (l : Layer) (key : String) : Option Entry := l.reverse.lookup key

end Layer
end Settings
end ThreatGraph
