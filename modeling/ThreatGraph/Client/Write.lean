import ThreatGraph.Client.Lookup
import ThreatGraph.Post.Copy
import ThreatGraph.Post.Validation

/-!
# Writes

Creating, editing and copying descriptors.  A write does not fail: it has an outcome, so that a
batch of writes can go on after one that went wrong.
-/

namespace ThreatGraph

open Json (Value)
open Post (Field Fields Kind ValidationError validate)
open Web (Url redact)

structure WriteOptions where
  /-- Build and log the request, but do not send it. -/
  dryRun : Bool := false
  showUrls : Bool := false
  deriving DecidableEq, Inhabited, Repr

/-- What came of a write: at most one of the two errors, and the body that the server sent. -/
structure WriteOutcome where
  validationError : Option ValidationError
  transportError : Option ClientError
  body : Option Value
  deriving DecidableEq, Repr

namespace WriteOutcome

def nothing : WriteOutcome := ⟨none, none, none⟩

def invalid (e : ValidationError) : WriteOutcome := ⟨some e, none, none⟩

def failed (e : ClientError) (body : Option Value) : WriteOutcome := ⟨none, some e, body⟩

def succeeded (body : Value) : WriteOutcome := ⟨none, none, some body⟩

def isOk (o : WriteOutcome) : Bool := o.validationError.isNone && o.transportError.isNone

def ofResponse (url : Url) (r : Web.Response) : WriteOutcome :=
  if Web.Status.isSuccess r.status then
    match readBody r with
    | .ok body => succeeded body
    | .error e => failed e none
  else
    let e := httpError url r
    failed (.status e) e.body

end WriteOutcome

/-- Posts fields to a URL, in its query as well as in the body.  A post is sent once and never
again. -/
def postFields (url : Url) (fs : Fields) (opts : WriteOptions) : Session WriteOutcome := do
  let url := url.appendPairs fs.pairs
  noteIf (opts.showUrls || opts.dryRun) (.post (redact url) opts.dryRun)
  if opts.dryRun then return .nothing
  else
    match ← send ⟨.post, url, some (Web.Form.encode fs.pairs)⟩ with
    | .error fault => return .failed (.transfer fault) none
    | .ok response =>
      note (.posted response.status (redact url))
      return .ofResponse url response

namespace Client

def postTo (c : Client) (segments : List String) (fs : Fields) (opts : WriteOptions) :
    Session WriteOutcome :=
  match c.endpoint segments with
  | .ok url => postFields url fs opts
  | .error e => pure (.failed e none)

def submit (c : Client) (fs : Fields) (opts : WriteOptions) : Session WriteOutcome :=
  match validate .submit fs with
  | some e => pure (.invalid e)
  | none => c.postTo ["threat_descriptors"] fs opts

def update (c : Client) (fs : Fields) (opts : WriteOptions) : Session WriteOutcome :=
  match validate .update fs with
  | some e => pure (.invalid e)
  | none =>
    match fs.get? .descriptorId with
    | some id => c.postTo [id] fs opts
    | none => pure (.invalid .descriptorIdRequired)

/-- Creates a descriptor after the model of the one that the fields name; the other fields override
those of the model. -/
def copy (c : Client) (fs : Fields) (opts : WriteOptions) : Session WriteOutcome :=
  match validate .copy fs with
  | some e => pure (.invalid e)
  | none =>
    match fs.get? .descriptorId with
    | none => pure (.invalid .sourceIdRequired)
    | some sourceId => do
      match ← (c.descriptorsOfIds [sourceId] { showUrls := opts.showUrls }).run with
      | .error e => return .failed e none
      | .ok [] => return .failed (.descriptorNotFound sourceId) none
      | .ok (source :: _) => c.submit (Post.copyFields source fs) opts

def write (c : Client) : Kind → Fields → WriteOptions → Session WriteOutcome
  | .submit => c.submit
  | .update => c.update
  | .copy => c.copy

end Client
end ThreatGraph
