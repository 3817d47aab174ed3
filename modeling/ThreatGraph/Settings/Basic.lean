import ThreatGraph.Client.Basic
import ThreatGraph.Settings.Layer
import ThreatGraph.Toml.Read

/-!
# Settings

What the command is set up with: defaults, then a file, then the environment.
-/

namespace ThreatGraph

structure Settings where
  baseUrl : String := Client.defaultBaseUrl
  /-- The variable of the environment that holds the token. -/
  tokenVariable : String := Client.defaultTokenVariable
  pageSize : Nat := 10
  timeoutSeconds : Nat := 60
  maxAttempts : Nat := Client.defaultMaxAttempts
  /-- The milliseconds between two attempts. -/
  backoff : Nat := 0
  deriving DecidableEq, Inhabited, Repr

namespace Settings

inductive Expected where
  | text
  | integer
  | word
  | halfWord
  deriving DecidableEq, Repr

def Expected.describe : Expected → String
  | .text => "a string"
  | .integer => "an integer"
  | .word => "an unsigned 64 bit or less integer"
  | .halfWord => "an unsigned 32 bit integer"

/-- Why a setting cannot be what it is set to. -/
structure Fault where
  found : String
  expected : Expected
  key : String
  origin : Option String
  deriving DecidableEq, Repr

def Fault.message (f : Fault) : String :=
  let place := match f.origin with
    | some origin => " in " ++ origin
    | none => ""
  s!"invalid type: {f.found}, expected {f.expected.describe} for key `{f.key}`" ++ place

def Entry.refuse {α : Type} (e : Entry) (key : String) (expected : Expected) : Except Fault α :=
  .error ⟨e.raw.describe, expected, key, e.origin⟩

def maxWord : Nat := 18446744073709551615

def maxHalfWord : Nat := 4294967295

/-- The whole number nearest to a double, a tie away from zero, as far as a word can hold it.  What
is no number is zero. -/
def wordOfDouble (x : Double) : Nat :=
  if x.isNaN || x.isNegative then 0
  else if x.isFinite then min maxWord ((2 * x.num + x.den) / (2 * x.den))
  else maxWord

/-- The words for one and zero, and decimal numbers. -/
def wordOfText? (s : String) : Option Nat :=
  match s.toLower with
  | "true" => some 1
  | "on" => some 1
  | "yes" => some 1
  | "false" => some 0
  | "off" => some 0
  | "no" => some 0
  | _ =>
    let digits := match s.toList with
      | '+' :: cs => cs
      | cs => cs
    match Text.readNat? digits with
    | some n => if n ≤ maxWord then some n else none
    | none => none

/-- Numbers in words of 64 bits. -/
def Entry.word (e : Entry) (key : String) : Except Fault Nat :=
  match e.raw with
  | .integer n => if 0 ≤ n then .ok n.toNat else e.refuse key .word
  | .double x => .ok (wordOfDouble x)
  | .bool b => .ok b.toNat
  | .text s =>
    match wordOfText? s with
    | some n => .ok n
    | none => e.refuse key .integer
  | .sequence => e.refuse key .integer
  | .map => e.refuse key .integer

/-- Numbers in words of 32 bits. -/
def Entry.halfWord (e : Entry) (key : String) : Except Fault Nat :=
  match e.word key with
  | .error f => .error f
  | .ok n =>
    if n ≤ maxHalfWord then .ok n
    else .error ⟨s!"64-bit unsigned integer `{n}`", .halfWord, key, none⟩

def Entry.text (e : Entry) (key : String) : Except Fault String :=
  match e.raw with
  | .text s => .ok s
  | .integer n => .ok (toString n)
  | .double x => .ok x.plainText
  | .bool b => .ok (toString b)
  | .sequence => e.refuse key .text
  | .map => e.refuse key .text

def read {α : Type} (entry : Entry → String → Except Fault α) (l : Layer) (key : String)
    (default : α) : Except Fault α :=
  match l.get? key with
  | some e => entry e key
  | none => .ok default

def ofLayer (l : Layer) : Except Fault Settings := do
  let s : Settings := {}
  let baseUrl ← read Entry.text l "base_url" s.baseUrl
  let tokenVariable ← read Entry.text l "token_env" s.tokenVariable
  let pageSize ← read Entry.halfWord l "page_size" s.pageSize
  let timeoutSeconds ← read Entry.word l "timeout_secs" s.timeoutSeconds
  let maxAttempts ← read Entry.word l "retry_attempts" s.maxAttempts
  let backoff ← read Entry.word l "retry_backoff_ms" s.backoff
  return { baseUrl, tokenVariable, pageSize, timeoutSeconds, maxAttempts, backoff }

/-- Why there are no settings. -/
inductive LoadError where
  | unreadable (path : String)
  | mismatch (f : Fault)
  deriving DecidableEq, Repr

def LoadError.message : LoadError → String
  | .unreadable path => "failed to read settings from " ++ path
  | .mismatch _ => "failed to deserialise CliSettings"

/-- What lies behind the message. -/
def LoadError.causes : LoadError → List String
  | .unreadable _ => []
  | .mismatch f => [f.message]

abbrev Files := List (String × String)

def plainPath (path : String) : String :=
  let steps := (Text.split (· == '/') path.toList).filter fun step => step != [] && step != ['.']
  String.ofList (Text.join '/' steps)

/-- Whether the last step of a path has the extension of TOML files. -/
def isTomlPath (path : String) : Bool :=
  match Text.splitLast '.' path.toList with
  | some (stem, extension) =>
    extension == "toml".toList && !stem.isEmpty && stem.getLast? != some '/'
  | none => false

/-- The TOML file that a path names, and its text.  The extension may be left out.  Files of settings
in other formats, which are told by their extensions, are outside this library: none is read. -/
def findFile? (files : Files) (path : String) : Option (String × String) :=
  let name := plainPath path
  if name.isEmpty then none
  else
    match files.lookup name with
    | some text => if isTomlPath name then some (name, text) else none
    | none => (files.lookup (name ++ ".toml")).map fun text => (name ++ ".toml", text)

/-- The layer of the file at a path; there need not be one. -/
def fileLayer (files : Files) (path : String) : Except LoadError Layer :=
  match findFile? files path with
  | none => .ok []
  | some (name, text) =>
    match Toml.read? text with
    | some ms => .ok (.ofToml name ms)
    | none => .error (.unreadable path)

/-- The settings of a file and the environment, which wins. -/
def load (files : Files) (path : String) (env : Environment) : Except LoadError Settings :=
  match fileLayer files path with
  | .error e => .error e
  | .ok l =>
    match ofLayer (l ++ .ofEnvironment env) with
    | .ok s => .ok s
    | .error f => .error (.mismatch f)

def client (s : Settings) (env : Environment) : Except ClientError Client :=
  (Client.ofEnvironment s.tokenVariable env).map fun c =>
    { c with
      baseUrl := s.baseUrl
      timeout := s.timeoutSeconds * 1000
      maxAttempts := s.maxAttempts
      backoff := s.backoff }

end Settings
end ThreatGraph
