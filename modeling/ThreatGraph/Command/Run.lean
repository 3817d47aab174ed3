import ThreatGraph.Client.Write
import ThreatGraph.Command.Arguments
import ThreatGraph.Command.Report
import ThreatGraph.Descriptor.Window

/-!
# Running the command

One run, from the arguments to the lines that are printed and the exit code.  What the command reads
of the world around it is given beforehand.
-/

namespace ThreatGraph
namespace Command

open Json (Value)
open Post (Fields Kind)

structure World where
  environment : Environment
  files : Settings.Files
  input : List UInt8
  /-- The present, in seconds from the start of 1970. -/
  now : Int
  network : Web.Network

structure Outcome where
  exitCode : Nat
  output : List String
  errors : List String
  traffic : Traffic

/-- A run prints lines and may end in a report. -/
abbrev Run := ExceptT Report (StateT (List String) Session)

def printText (text : String) : Run Unit := modify fun lines => lines ++ splitLines text

def fail {α : Type} (r : Report) : Run α := throw r

def inSession {α : Type} (x : Session α) : Run α := liftM x

def ofExcept {ε α : Type} (report : ε → Report) : Except ε α → Run α
  | .ok a => pure a
  | .error e => fail (report e)

def exchange {α : Type} (report : ClientError → Report) (x : Exchange α) : Run α := do
  ofExcept report (← inSession x.run)

def during (activity : String) (e : ClientError) : Report := (Report.ofClientError e).during activity

/-- Prints what a walk delivered and then ends as it ended. -/
def finishWalk {α : Type} (print : α → Run Unit) (w : Client.Walk Report α) : Run Unit := do
  w.1.forM print
  match w.2 with
  | some report => fail report
  | none => pure ()

/-- The lines of some bytes, each with the line feed that ends it. -/
def byteLines : List UInt8 → List (List UInt8)
  | [] => []
  | b :: bytes =>
    if b = 10 then [b] :: byteLines bytes
    else
      match byteLines bytes with
      | [] => [[b]]
      | line :: lines => (b :: line) :: lines

theorem byteLines_flatten (bytes : List UInt8) : (byteLines bytes).flatten = bytes := by
  induction bytes with
  | nil => rfl
  | cons b bytes ih =>
    simp only [byteLines]
    split
    · simp [ih]
    · split
      · next h => rw [h] at ih; simp_all
      · next line lines h => rw [h] at ih; simp_all

/-- The lines of the input that are not blank, trimmed. -/
def inputLines (input : List UInt8) : Except Report (List String) :=
  match (byteLines input).mapM Text.Utf8.decode with
  | .error f => .error ((Report.ofMessage f.message).during "reading stdin")
  | .ok lines => .ok ((lines.map Text.trimmed).filter fun line => !line.isEmpty)

structure Setup where
  client : Client
  query : QueryOptions
  created : Window
  now : Int
  input : List UInt8

/-- The parts of a list that have `size` elements, or what is left of it; a size of zero counts as
one. -/
def chunks {α : Type} (size : Nat) : List α → List (List α)
  | [] => []
  | a :: as => (a :: as.take (size - 1)) :: chunks size (as.drop (size - 1))
termination_by as => as.length
decreasing_by simp only [List.length_drop, List.length_cons]; omega

@[simp] theorem chunks_nil {α : Type} (size : Nat) : chunks size ([] : List α) = [] := by
  rw [chunks]

theorem chunks_flatten {α : Type} (size : Nat) (as : List α) : (chunks size as).flatten = as := by
  induction as using (chunks.induct size) with
  | case1 => simp
  | case2 a as ih => rw [chunks, List.flatten_cons, ih]; simp

namespace Setup

def printDescriptors (s : Setup) (ds : List Descriptor) : Run Unit :=
  (ds.filter (s.created.contains s.now)).forM fun d => printText d.line

def resolveTag (s : Setup) (tag : String) : Run String := do
  match ← exchange .ofClientError (s.client.tagId tag s.query.showUrls) with
  | none => fail (.ofMessage ("tag \"" ++ tag ++ "\" not found"))
  | some id =>
    inSession (noteIf s.query.verbose (.resolvedTag tag id))
    return id

def listing (tag : String) : String := "listing objects tagged " ++ tag

def fetchingDetails : String := "fetching descriptor details"

def tagToIds (s : Setup) (tag : String) : Run Unit := do
  let id ← s.resolveTag tag
  let (pages, failure) ← inSession (s.client.descriptorIdsOfTag id s.query)
  finishWalk (fun ids => ids.forM printText) (pages, failure.map (during (listing tag)))

def idsToDetails (s : Setup) (ids : List String) : Run Unit := do
  let ids ← if ids.isEmpty then ofExcept id (inputLines s.input) else pure ids
  (chunks s.query.pageSize ids).forM fun chunk => do
    let ds ← exchange (during fetchingDetails) (s.client.descriptorsOfIds chunk s.query)
    s.printDescriptors ds

/-- The descriptors whose ids are on a page; no request is made for none. -/
def pageDetails (s : Setup) (page : Page) : ExceptT Report Session (List Descriptor) := do
  let ids ← (descriptorIds s.query page).adapt Report.ofClientError
  if ids.isEmpty then return []
  else (s.client.descriptorsOfIds ids s.query).adapt (during fetchingDetails)

def tagToDetails (s : Setup) (tag : String) : Run Unit := do
  let id ← s.resolveTag tag
  let l ← ofExcept .ofClientError (s.client.taggedObjects id s.query)
  let walk ← inSession (s.client.walk (during (listing tag)) s.pageDetails l)
  finishWalk s.printDescriptors walk

def search (s : Setup) (params : List (String × String)) : Run Unit := do
  let (pages, failure) ← inSession (s.client.search params s.query)
  finishWalk s.printDescriptors (pages, failure.map (during "searching descriptors"))

def readInputLine (line : String) : Except Report Fields :=
  match Json.read line with
  | .error f => .error (.ofMessage f.message)
  | .ok (.object ms) =>
    match Fields.ofMembers ms with
    | .ok fs => .ok fs
    | .error e => .error (.ofMessage e.message)
  | .ok _ => .error (.ofMessage "not a JSON object")

def atLine (number : Nat) (r : Report) : Report :=
  r.during s!"stdin line {number}: expected a JSON object of post fields"

/-- One write for each line of the input, or one of the fields that are given. -/
def batch (s : Setup) (fields : List String) (fromInput : Bool) :
    Except Report (List (Except Report Fields)) :=
  if fromInput then
    (inputLines s.input).map fun lines =>
      lines.zipIdx.map fun l => (readInputLine l.1).mapError (atLine (l.2 + 1))
  else .ok [(Fields.readAssignments fields).mapError fun e => .ofMessage e.message]

def textMember (name : String) : Option String → List (String × Value)
  | some text => [(name, .string text)]
  | none => []

/-- The line of a write that was made. -/
def outcomeLine (o : WriteOutcome) : Value :=
  let response := match o.body with
    | some body => [("response", body)]
    | none => []
  .object ([("ok", .bool o.isOk)] ++ response ++
    textMember "transport_error" (o.transportError.map (·.message)) ++
    textMember "validation_error" (o.validationError.map (·.message)))

/-- The line of fields that could not be read. -/
def inputErrorLine (r : Report) : Value :=
  .object [("input_error", .string r.oneLine), ("ok", .bool false)]

/-- Makes one write of a batch, prints its line, and tells whether it went well. -/
def writeOne (s : Setup) (kind : Kind) (opts : WriteOptions) : Except Report Fields → Run Bool
  | .ok fs => do
    let o ← inSession (s.client.write kind fs opts)
    printText (outcomeLine o).text
    return o.isOk
  | .error r => do
    inSession (note (.rejectedInput r.oneLine))
    printText (inputErrorLine r).text
    return false

/-- Makes all writes of a batch, and fails at the end if any of them did. -/
def write (s : Setup) (kind : Kind) (fields : List String) (fromInput : Bool)
    (opts : WriteOptions) : Run Unit := do
  let items ← ofExcept id (s.batch fields fromInput)
  let results ← items.mapM (s.writeOne kind opts)
  let failed := results.countP (!·)
  if 0 < failed then
    fail (.ofMessage s!"{failed} of {results.length} {kind.name} requests failed")

def act (s : Setup) : Action → Run Unit
  | .tagToIds tag => s.tagToIds tag
  | .idsToDetails ids => s.idsToDetails ids
  | .tagToDetails tag => s.tagToDetails tag
  | .search params => s.search params
  | .write kind fields fromInput dryRun =>
    s.write kind fields fromInput ⟨dryRun, s.query.showUrls⟩

end Setup

/-- Switches win over the settings. -/
def override (s : Settings) (o : Options) : Settings :=
  { s with
    baseUrl := o.baseUrl.getD s.baseUrl
    tokenVariable := o.tokenVariable.getD s.tokenVariable
    pageSize := o.pageSize.getD s.pageSize }

/-- The moment that a switch names.  One that cannot be understood is dropped, with a warning. -/
def resolveTime (now : Int) (flag : String) : Option String → Run (Option Int)
  | none => pure none
  | some value =>
    match Time.resolve value now with
    | some t => pure (some t)
    | none => do
      inSession (note (.ignoredTime flag value))
      return none

def prepare (w : World) (o : Options) : Run Setup := do
  let settings ← ofExcept .ofLoadError (Settings.load w.files o.config w.environment)
  let settings := override settings o
  let client ← ofExcept .ofClientError (settings.client w.environment)
  let taggedSince ← resolveTime w.now "--tagged-since" o.taggedSince
  let taggedUntil ← resolveTime w.now "--tagged-until" o.taggedUntil
  let since ← resolveTime w.now "--created-since" o.createdSince
  let upTo ← resolveTime w.now "--created-until" o.createdUntil
  return {
    client
    query := ⟨settings.pageSize, taggedSince, taggedUntil, !o.hideIndicator, o.verbose, o.showUrls⟩
    created := ⟨since, upTo⟩
    now := w.now
    input := w.input }

def runInvocation (w : World) (i : Invocation) : Outcome :=
  let run : Run Unit := do
    let setup ← prepare w i.options
    setup.act i.action
  let ((result, output), traffic) := (run.run.run []).run (.start w.network)
  match result with
  | .ok () => ⟨0, output, [], traffic⟩
  | .error r => ⟨1, output, r.lines, traffic⟩

def versionText : String := "threatx 0.1.0"

def usage : List String :=
  "Usage: threatx [OPTIONS] <COMMAND>" :: "" :: "Commands:" ::
    ActionName.all.map fun a => "  " ++ a.1

def run (w : World) (args : List String) : Outcome :=
  let traffic := Traffic.start w.network
  match readArguments args with
  | .ok invocation => runInvocation w invocation
  | .error .version => ⟨0, [versionText], [], traffic⟩
  | .error .help => ⟨0, usage, [], traffic⟩
  | .error .misuse => ⟨2, [], usage, traffic⟩

end Command
end ThreatGraph
