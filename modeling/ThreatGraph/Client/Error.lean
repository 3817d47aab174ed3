import ThreatGraph.InputError
import ThreatGraph.Json.Read
import ThreatGraph.Web.Http

/-!
# Errors of the client

What can go wrong between a call and its answer, the message, and the causes behind it.
-/

namespace ThreatGraph

open Json (Value Mismatch)
open Web (UrlFault TransferFault)

/-- A response with a status other than success.  The URL is shown without its token; the body is
JSON if it reads as such, and text otherwise. -/
structure HttpError where
  status : Nat
  url : String
  body : Option Value
  deriving DecidableEq, Repr

def HttpError.message (e : HttpError) : String :=
  "HTTP " ++ Web.Status.text e.status ++ " from " ++ e.url

/-- Why a text is not the JSON that was expected: its spelling, or its shape. -/
inductive JsonError where
  | fault (f : Json.Fault)
  | mismatch (m : Mismatch)
  deriving DecidableEq, Repr

def JsonError.message : JsonError → String
  | .fault f => f.message
  | .mismatch m => m.message

inductive ShapeFault where
  | pageWithoutData
  | dataNotList (found : Value)
  | lookupWithoutData
  | lookupNotObject
  deriving DecidableEq, Repr

def ShapeFault.message : ShapeFault → String
  | .pageWithoutData => "response has no `data`"
  | .dataNotList found => "`data` is not a list: " ++ found.text
  | .lookupWithoutData => "tag lookup response has no `data`"
  | .lookupNotObject => "descriptor lookup did not return an object"

inductive ClientError where
  | missingCredential (name : String)
  | status (e : HttpError)
  | transfer (f : TransferFault)
  | notText (f : Text.Utf8.Fault)
  | notJson (e : JsonError)
  | unexpectedShape (f : ShapeFault)
  | descriptorNotFound (id : String)
  | invalidUrl (f : UrlFault)
  | invalidBaseUrl (url : String)
  | input (e : InputError)
  deriving DecidableEq, Repr

namespace ClientError

def message : ClientError → String
  | .missingCredential name => "$" ++ name ++ " not found in environment."
  | .status e => e.message
  | .transfer f => "http error: " ++ f.message
  | .notText f => "response body is not UTF-8: " ++ f.message
  | .notJson e => "response body is not JSON: " ++ e.message
  | .unexpectedShape f => "unexpected response shape: " ++ f.message
  | .descriptorNotFound id => "descriptor " ++ id ++ " not found"
  | .invalidUrl f => "invalid url: " ++ f.message
  | .invalidBaseUrl url => "base url cannot carry a path: " ++ url
  | .input e => e.message

/-- What lies behind the message, from the outside in. -/
def causes : ClientError → List String
  | .transfer f => f.message :: f.causes
  | .notText f => [f.message]
  | .notJson e => [e.message]
  | .invalidUrl f => [f.message]
  | .input (.mismatch m) => [m.message]
  | _ => []

end ClientError
end ThreatGraph
