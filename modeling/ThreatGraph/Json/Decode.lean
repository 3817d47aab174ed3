import ThreatGraph.Json.Print
import ThreatGraph.Text.Integer
import ThreatGraph.Text.Quoted

/-!
# Reading values into types

A value that does not have the shape a type asks for is a mismatch.  The members of an object are
looked at in their order, so the first one that is wrong is the one reported; what is missing is
reported after that.
-/

namespace ThreatGraph
namespace Json

/-- As much of a value as a message shows. -/
inductive Shape where
  | null
  | bool (b : Bool)
  | integer (n : Int)
  | double (x : Double)
  | text (s : String)
  | sequence
  | map
  deriving DecidableEq, Repr

def Value.shape : Value → Shape
  | .null => .null
  | .bool b => .bool b
  | .number (.int n) => .integer n
  | .number (.double x) => .double x
  | .string s => .text s
  | .array _ => .sequence
  | .object _ => .map

def Shape.describe : Shape → String
  | .null => "null"
  | .bool b => s!"boolean `{b}`"
  | .integer n => s!"integer `{n}`"
  | .double x => "floating point `" ++ String.ofList (printDouble x) ++ "`"
  | .text s => "string " ++ Text.quote s
  | .sequence => "sequence"
  | .map => "map"

inductive Mismatch where
  | invalidType (found : Shape) (expected : String)
  | invalidValue (found : Shape) (expected : String)
  | invalidLength (length : Nat) (expected : String)
  | missingField (name : String)
  | unknownVariant (name : String) (expected : List String)
  deriving DecidableEq, Repr

def Mismatch.message : Mismatch → String
  | .invalidType found expected => "invalid type: " ++ found.describe ++ ", expected " ++ expected
  | .invalidValue found expected => "invalid value: " ++ found.describe ++ ", expected " ++ expected
  | .invalidLength length expected => s!"invalid length {length}, expected {expected}"
  | .missingField name => s!"missing field `{name}`"
  | .unknownVariant name expected =>
    s!"unknown variant `{name}`, expected one of " ++
      String.intercalate ", " (expected.map fun e => s!"`{e}`")

def invalidType {α : Type} (v : Value) (expected : String) : Except Mismatch α :=
  .error (.invalidType v.shape expected)

def readText : Value → Except Mismatch String
  | .string s => .ok s
  | v => invalidType v "a string"

def readInt64 : Value → Except Mismatch Int
  | .number (.int n) =>
    if Text.fitsInt64 n then .ok n else .error (.invalidValue (.integer n) "i64")
  | v => invalidType v "i64"

/-- `null` stands for nothing. -/
def readOptional {α : Type} (read : Value → Except Mismatch α) : Value → Except Mismatch (Option α)
  | .null => .ok none
  | v => (read v).map some

def readSequence {α : Type} (read : Value → Except Mismatch α) : Value → Except Mismatch (List α)
  | .array items => items.mapM read
  | v => invalidType v "a sequence"

/-- The mismatch that a reading ends in. -/
def mismatch? {α : Type} : Except Mismatch α → Option Mismatch
  | .error e => some e
  | .ok _ => none

def firstMismatch (check : String → Value → Option Mismatch) (ms : Members Value) :
    Option Mismatch :=
  ms.findSome? fun m => check m.1 m.2

def textAt? (name : String) (ms : Members Value) : Option String :=
  (ms.get? name).bind Value.text?

/-- A record of strings: its fields in order, and those of them that must be there. -/
structure RecordShape where
  title : String
  fields : List String
  required : List String

namespace RecordShape

def check (r : RecordShape) (name : String) (v : Value) : Option Mismatch :=
  if name ∈ r.required then mismatch? (readText v)
  else if name ∈ r.fields then mismatch? (readOptional readText v)
  else none

/-- The members of a record: those of an object, or the items of an array in the order of the
fields. -/
def members (r : RecordShape) (v : Value) : Except Mismatch (Members Value) :=
  match v with
  | .object ms =>
    match firstMismatch r.check ms with
    | some e => .error e
    | none => .ok ms
  | .array items =>
    let ms := r.fields.zip items
    match firstMismatch r.check ms with
    | some e => .error e
    | none =>
      if r.fields.length < items.length then
        .error (.invalidLength items.length "fewer elements in array")
      else .ok ms
  | v => invalidType v s!"struct {r.title}"

/-- A field that must be there, out of the members of `v`. -/
def require (r : RecordShape) (v : Value) (ms : Members Value) (name : String) :
    Except Mismatch String :=
  match textAt? name ms, v with
  | some s, _ => .ok s
  | none, .array items =>
    .error (.invalidLength items.length s!"struct {r.title} with {r.fields.length} elements")
  | none, _ => .error (.missingField name)

end RecordShape
end Json
end ThreatGraph
