import ThreatGraph.Post.Validation
import ThreatGraph.Text.Integer
import ThreatGraph.Text.Split

/-!
# Arguments of the command

Switches, the name of an action, and the switches and words of that action.  The arguments are looked
at from left to right, and the first that does not fit ends the reading.
-/

namespace ThreatGraph
namespace Command

inductive Action where
  | tagToIds (tag : String)
  | idsToDetails (ids : List String)
  | tagToDetails (tag : String)
  | search (params : List (String × String))
  | write (kind : Post.Kind) (fields : List String) (fromInput dryRun : Bool)
  deriving DecidableEq, Repr

/-- The switches in front of the action. -/
structure Options where
  config : String
  baseUrl : Option String
  tokenVariable : Option String
  verbose : Bool
  showUrls : Bool
  hideIndicator : Bool
  pageSize : Option Nat
  taggedSince : Option String
  taggedUntil : Option String
  createdSince : Option String
  createdUntil : Option String
  deriving DecidableEq, Repr

structure Invocation where
  options : Options
  action : Action
  deriving DecidableEq, Repr

/-- Why nothing is run. -/
inductive Halt where
  | misuse
  | help
  | version
  deriving DecidableEq, Repr

inductive Takes where
  | nothing
  /-- A value that does not start with a dash, unless it is attached. -/
  | value
  /-- Whatever comes next. -/
  | anything
  deriving DecidableEq, Repr

structure Switch where
  name : String
  short : Option Char := none
  takes : Takes := .nothing
  repeatable : Bool := false
  accepts : String → Bool := fun _ => true
  halts : Option Halt := none

def help : Switch := { name := "help", short := some 'h', halts := some .help }

def defaultConfig : String := "threatx.toml"

/-- A number of at most 32 bits. -/
def readPageSize? (s : String) : Option Nat :=
  match Text.readInt64? s with
  | some n => if 0 ≤ n ∧ n ≤ 4294967295 then some n.toNat else none
  | none => none

def readParam? (s : String) : Option (String × String) :=
  (Text.splitFirst '=' s.toList).map fun p => (String.ofList p.1, String.ofList p.2)

def switches : List Switch :=
  [{ name := "config", short := some 'c', takes := .value, accepts := fun s => !s.isEmpty },
   { name := "base-url", takes := .value },
   { name := "token-env", takes := .value },
   { name := "verbose", short := some 'v' },
   { name := "show-urls", short := some 's' },
   { name := "no-print-indicator" },
   { name := "page-size", takes := .value, accepts := fun s => (readPageSize? s).isSome },
   { name := "tagged-since", takes := .anything },
   { name := "tagged-until", takes := .anything },
   { name := "created-since", takes := .anything },
   { name := "created-until", takes := .anything },
   { name := "version", short := some 'V', halts := some .version },
   help]

inductive ActionName where
  | tagToIds
  | idsToDetails
  | tagToDetails
  | search
  | write (kind : Post.Kind)
  deriving DecidableEq, Repr

namespace ActionName

def all : List (String × ActionName) :=
  [("tag-to-ids", .tagToIds), ("ids-to-details", .idsToDetails),
   ("tag-to-details", .tagToDetails), ("search", .search), ("submit", .write .submit),
   ("update", .write .update), ("copy", .write .copy)]

def switches : ActionName → List Switch
  | .search =>
    [{ name := "param", takes := .value, repeatable := true,
       accepts := fun s => (readParam? s).isSome }, help]
  | .write _ =>
    [{ name := "field", takes := .value, repeatable := true }, { name := "stdin" },
     { name := "dry-run" }, help]
  | _ => [help]

/-- Whether one more word fits behind `count` of them. -/
def takesWord (count : Nat) : ActionName → Bool
  | .tagToIds => count == 0
  | .tagToDetails => count == 0
  | .idsToDetails => true
  | _ => false

end ActionName

/-- The arguments read so far. -/
structure Scan where
  action : Option ActionName := none
  /-- The switch that the next argument is the value of. -/
  pending : Option Switch := none
  /-- Whether a bare double dash has been met; only words follow it. -/
  escaped : Bool := false
  given : List (String × String) := []
  words : List String := []

namespace Scan

def known (s : Scan) : List Switch :=
  match s.action with
  | some a => a.switches
  | none => switches

def give (s : Scan) (w : Switch) (v : String) : Except Halt Scan :=
  match w.halts with
  | some h => .error h
  | none =>
    if !w.repeatable && s.given.any (fun g => g.1 == w.name) then .error .misuse
    else if w.accepts v then .ok { s with pending := none, given := s.given ++ [(w.name, v)] }
    else .error .misuse

def long (s : Scan) (cs : List Char) : Except Halt Scan :=
  let (name, attached) : List Char × Option (List Char) := match Text.splitFirst '=' cs with
    | some (name, value) => (name, some value)
    | none => (cs, none)
  match s.known.find? fun w => w.name.toList == name with
  | none => .error .misuse
  | some w =>
    match w.takes, attached with
    | .nothing, none => s.give w ""
    | .nothing, some _ => .error .misuse
    | _, some value => s.give w (String.ofList value)
    | _, none => .ok { s with pending := some w }

/-- Switches by their letters.  Behind one that takes a value comes the value. -/
def cluster : List Char → Scan → Except Halt Scan
  | [], s => .ok s
  | c :: cs, s =>
    match s.known.find? fun w => w.short == some c with
    | none => .error .misuse
    | some w =>
      match w.takes, cs with
      | .nothing, cs => (s.give w "").bind (cluster cs)
      | _, [] => .ok { s with pending := some w }
      | _, '=' :: value => s.give w (String.ofList value)
      | _, value => s.give w (String.ofList value)

/-- The name of the action, or a word for it. -/
def word (s : Scan) (text : String) : Except Halt Scan :=
  match s.action with
  | none =>
    if s.escaped then .error .misuse
    else if text = "help" then .error .help
    else
      match ActionName.all.lookup text with
      | some a => .ok { s with action := some a }
      | none => .error .misuse
  | some a =>
    if a.takesWord s.words.length then .ok { s with words := s.words ++ [text] }
    else .error .misuse

def startsWithDash : List Char → Bool
  | '-' :: _ :: _ => true
  | _ => false

def step (s : Scan) (arg : String) : Except Halt Scan :=
  match s.pending with
  | some w =>
    if w.takes = .anything || !startsWithDash arg.toList then s.give w arg else .error .misuse
  | none =>
    if s.escaped then s.word arg
    else
      match arg.toList with
      | ['-', '-'] => .ok { s with escaped := true }
      | '-' :: '-' :: cs => s.long cs
      | '-' :: c :: cs => cluster (c :: cs) s
      | _ => s.word arg

def value? (s : Scan) (name : String) : Option String := s.given.lookup name

def has (s : Scan) (name : String) : Bool := (s.value? name).isSome

/-- All values of a switch that may be repeated. -/
def values (s : Scan) (name : String) : List String :=
  s.given.filterMap fun g => if g.1 == name then some g.2 else none

def options (s : Scan) : Options :=
  { config := (s.value? "config").getD defaultConfig
    baseUrl := s.value? "base-url"
    tokenVariable := s.value? "token-env"
    verbose := s.has "verbose"
    showUrls := s.has "show-urls"
    hideIndicator := s.has "no-print-indicator"
    pageSize := (s.value? "page-size").bind readPageSize?
    taggedSince := s.value? "tagged-since"
    taggedUntil := s.value? "tagged-until"
    createdSince := s.value? "created-since"
    createdUntil := s.value? "created-until" }

/-- The action with its words and switches, if none is missing and they do not exclude each
other. -/
def finish (s : Scan) : Except Halt Action :=
  match s.action, s.words with
  | some .tagToIds, [tag] => .ok (.tagToIds tag)
  | some .tagToDetails, [tag] => .ok (.tagToDetails tag)
  | some .idsToDetails, ids => .ok (.idsToDetails ids)
  | some .search, _ => .ok (.search ((s.values "param").filterMap readParam?))
  | some (.write kind), _ =>
    if s.has "stdin" && s.has "field" then .error .misuse
    else .ok (.write kind (s.values "field") (s.has "stdin") (s.has "dry-run"))
  | _, _ => .error .misuse

end Scan

def readArguments (args : List String) : Except Halt Invocation :=
  match args.foldlM Scan.step {} with
  | .error h => .error h
  | .ok s =>
    if s.pending.isSome then .error .misuse
    else s.finish.map fun action => ⟨s.options, action⟩

end Command
end ThreatGraph
