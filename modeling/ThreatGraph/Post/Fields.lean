import ThreatGraph.InputError
import ThreatGraph.Post.Field
import ThreatGraph.Post.Render
import ThreatGraph.Text.Blank
import ThreatGraph.Text.Split

/-!
# The fields of one post

A finite map from fields to texts, held as the function it is.  `pairs` lists it in the order of
`Field.all`, so the query and the body of a request come out the same every time.
-/

namespace ThreatGraph
namespace Post

open Json (Value Members Mismatch)

@[ext]
structure Fields where
  get? : Field → Option String

namespace Fields

def empty : Fields := ⟨fun _ => none⟩

instance : Inhabited Fields := ⟨empty⟩

def insert (fs : Fields) (f : Field) (v : String) : Fields :=
  ⟨fun g => if g = f then some v else fs.get? g⟩

def erase (fs : Fields) (f : Field) : Fields := ⟨fun g => if g = f then none else fs.get? g⟩

/-- The fields of `gs` over those of `fs`. -/
def extend (fs gs : Fields) : Fields := ⟨fun f => (gs.get? f).or (fs.get? f)⟩

def contains (fs : Fields) (f : Field) : Bool := (fs.get? f).isSome

def entries (fs : Fields) : List (Field × String) :=
  Field.all.filterMap fun f => (fs.get? f).map (f, ·)

/-- Wire names and values, as a query or a form body lists them. -/
def pairs (fs : Fields) : List (String × String) := fs.entries.map fun e => (e.1.name, e.2)

def size (fs : Fields) : Nat := fs.entries.length

def isEmpty (fs : Fields) : Bool := fs.entries.isEmpty

/-- Of two entries for one field the later one stays. -/
def ofEntries (es : List (Field × String)) : Fields :=
  es.foldl (fun fs e => fs.insert e.1 e.2) empty

@[simp] theorem get?_empty (f : Field) : empty.get? f = none := rfl

@[simp] theorem get?_insert (fs : Fields) (f g : Field) (v : String) :
    (fs.insert f v).get? g = if g = f then some v else fs.get? g := rfl

@[simp] theorem get?_erase (fs : Fields) (f g : Field) :
    (fs.erase f).get? g = if g = f then none else fs.get? g := rfl

@[simp] theorem get?_extend (fs gs : Fields) (f : Field) :
    (fs.extend gs).get? f = (gs.get? f).or (fs.get? f) := rfl

theorem mem_entries {fs : Fields} {f : Field} {v : String} :
    (f, v) ∈ fs.entries ↔ fs.get? f = some v := by
  simp [entries, List.mem_filterMap, Field.mem_all]

def readName (name : String) : Except InputError Field :=
  match Field.ofName? name with
  | some f => .ok f
  | none => .error (.unknownField name)

def ofMembersFrom (fs : Fields) : Members Value → Except InputError Fields
  | [] => .ok fs
  | (name, v) :: rest =>
    match readName name with
    | .error e => .error e
    | .ok f =>
      match Post.render v with
      | some s => ofMembersFrom (fs.insert f s) rest
      | none => ofMembersFrom fs rest

/-- The fields of a JSON object.  Every name has to be one of a field; `null` leaves its field
out. -/
def ofMembers (ms : Members Value) : Except InputError Fields := ofMembersFrom empty ms

/-- The members of the object that has the fields as strings, in the order of `Field.all`. -/
def toMembers (fs : Fields) : Members Value :=
  fs.entries.map fun e => (e.1.jsonName, .string e.2)

def toJson (fs : Fields) : Value := .object fs.toMembers

def decodeMembers (fs : Fields) : Members Value → Except Mismatch Fields
  | [] => .ok fs
  | (name, v) :: rest =>
    match Field.ofJsonName? name with
    | none => .error (.unknownVariant name (Field.all.map Field.jsonName))
    | some f =>
      match Json.readText v with
      | .error e => .error e
      | .ok s => decodeMembers (fs.insert f s) rest

/-- Reads back what `toJson` writes: an object with strings only. -/
def decode : Value → Except Mismatch Fields
  | .object ms => decodeMembers empty ms
  | v => Json.invalidType v "a map"

/-- Reads `name=value`.  The name may have white space around it; the value is everything after the
first `=`. -/
def readAssignment (s : String) : Except InputError (Field × String) :=
  match Text.splitFirst '=' s.toList with
  | none => .error (.malformedAssignment s)
  | some (name, value) =>
    match readName (String.ofList (Text.trim name)) with
    | .error e => .error e
    | .ok f => .ok (f, String.ofList value)

def readAssignments (texts : List String) : Except InputError Fields :=
  (texts.mapM readAssignment).map ofEntries

end Fields
end Post
end ThreatGraph
