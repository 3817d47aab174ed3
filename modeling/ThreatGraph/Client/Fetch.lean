import ThreatGraph.Client.Basic
import ThreatGraph.Client.Traffic
import ThreatGraph.Web.Redaction

/-!
# Fetching

Reads of one URL.  A response with a server error is asked for again, a bounded number of times; any
other outcome is final.
-/

namespace ThreatGraph

open Json (Value)
open Web (Request Response Url redact)

def readBody (r : Response) : Except ClientError Value :=
  if !r.complete then .error (.transfer .truncated)
  else
    match Text.Utf8.decode r.body with
    | .error f => .error (.notText f)
    | .ok text =>
      match Json.read text with
      | .error f => .error (.notJson (.fault f))
      | .ok v => .ok v

/-- The body of a response that is no success.  An empty one, or one cut short, is none. -/
def errorBody (r : Response) : Option Value :=
  if !r.complete || r.body.isEmpty then none
  else
    let text := Text.Utf8.decodeLossy r.body
    match Json.read text with
    | .ok v => some v
    | .error _ => some (.string text)

def httpError (url : Url) (r : Response) : HttpError := ⟨r.status, redact url, errorBody r⟩

/-- What one attempt to read comes to, short of an error that is final. -/
inductive Attempt where
  | done (body : Value)
  | serverError (e : HttpError)
  deriving DecidableEq, Repr

def tryFetch (url : Url) (attempt : Nat) : Exchange Attempt := do
  note (.attempt attempt (redact url))
  match ← send ⟨.get, url, none⟩ with
  | .error fault => throw (.transfer fault)
  | .ok response =>
    if Web.Status.isSuccess response.status then
      return .done (← Exchange.ofExcept id (readBody response))
    else if Web.Status.isServerError response.status then
      return .serverError (httpError url response)
    else throw (.status (httpError url response))

/-- Tries once, and `retries` times more as long as a server error comes back. -/
def fetchFrom (url : Url) : (attempt retries : Nat) → Exchange Value
  | attempt, 0 => do
    match ← tryFetch url attempt with
    | .done body => return body
    | .serverError e => throw (.status e)
  | attempt, retries + 1 => do
    match ← tryFetch url attempt with
    | .done body => return body
    | .serverError e =>
      note (.retrying attempt e.status e.url)
      fetchFrom url (attempt + 1) retries

namespace Client

def fetchJson (c : Client) (url : Url) : Exchange Value := fetchFrom url 1 (c.maxAttempts - 1)

/-- The base URL with segments added to its path and the token to its query. -/
def endpoint (c : Client) (segments : List String) : Except ClientError Url :=
  match Url.read c.baseUrl with
  | .error f => .error (.invalidUrl f)
  | .ok base =>
    match base.extendPath? segments with
    | none => .error (.invalidBaseUrl c.baseUrl)
    | some url => .ok (url.appendPairs [(Web.tokenName, c.accessToken)])

end Client
end ThreatGraph
