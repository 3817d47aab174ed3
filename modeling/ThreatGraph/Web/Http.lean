import ThreatGraph.Web.UrlReader

/-!
# Requests and responses

What is sent, what comes back, and the network between the two: either nothing can be reached, or a
script gives the replies in their order.  A reply is the last word on its request, and it is there at
once: time is no part of this, so no request runs out of it.
-/

namespace ThreatGraph
namespace Web

inductive Method where
  | get
  | post
  deriving DecidableEq, Inhabited, Repr

/-- A request as it goes over the wire; a post has its fields as a form. -/
structure Request where
  method : Method
  url : Url
  form : Option (List Char)
  deriving DecidableEq, Inhabited, Repr

/-- What answers a request in the end.  There are no headers, so no response names another place to go
on to, and none is an interim one: redirects and the statuses from 100 to 199 that come before the real
answer do not arise.  The body is not complete if the connection broke while it was read. -/
structure Response where
  status : Nat
  body : List UInt8
  complete : Bool
  deriving DecidableEq, Inhabited, Repr

namespace Status

def isSuccess (status : Nat) : Bool := 200 ≤ status && status ≤ 299

def isServerError (status : Nat) : Bool := 500 ≤ status && status ≤ 599

def isBodiless (status : Nat) : Bool := status == 204 || status == 304

def reasons : List (Nat × String) :=
  [(100, "Continue"), (101, "Switching Protocols"), (102, "Processing"), (200, "OK"),
   (201, "Created"), (202, "Accepted"), (203, "Non Authoritative Information"),
   (204, "No Content"), (205, "Reset Content"), (206, "Partial Content"), (207, "Multi-Status"),
   (208, "Already Reported"), (226, "IM Used"), (300, "Multiple Choices"),
   (301, "Moved Permanently"), (302, "Found"), (303, "See Other"), (304, "Not Modified"),
   (305, "Use Proxy"), (307, "Temporary Redirect"), (308, "Permanent Redirect"),
   (400, "Bad Request"), (401, "Unauthorized"), (402, "Payment Required"), (403, "Forbidden"),
   (404, "Not Found"), (405, "Method Not Allowed"), (406, "Not Acceptable"),
   (407, "Proxy Authentication Required"), (408, "Request Timeout"), (409, "Conflict"),
   (410, "Gone"), (411, "Length Required"), (412, "Precondition Failed"),
   (413, "Payload Too Large"), (414, "URI Too Long"), (415, "Unsupported Media Type"),
   (416, "Range Not Satisfiable"), (417, "Expectation Failed"), (418, "I'm a teapot"),
   (421, "Misdirected Request"), (422, "Unprocessable Entity"), (423, "Locked"),
   (424, "Failed Dependency"), (425, "Too Early"), (426, "Upgrade Required"),
   (428, "Precondition Required"), (429, "Too Many Requests"),
   (431, "Request Header Fields Too Large"), (451, "Unavailable For Legal Reasons"),
   (500, "Internal Server Error"), (501, "Not Implemented"), (502, "Bad Gateway"),
   (503, "Service Unavailable"), (504, "Gateway Timeout"), (505, "HTTP Version Not Supported"),
   (506, "Variant Also Negotiates"), (507, "Insufficient Storage"), (508, "Loop Detected"),
   (510, "Not Extended"), (511, "Network Authentication Required")]

/-- The number and the reason phrase that goes with it. -/
def text (status : Nat) : String :=
  toString status ++ " " ++ (reasons.lookup status).getD "<unknown status code>"

end Status

/-- A reply of a script: a response, or the connection closes before there is one. -/
inductive Reply where
  | response (r : Response)
  | closed
  deriving DecidableEq, Inhabited, Repr

inductive Network where
  | down
  | scripted (replies : List Reply)
  deriving DecidableEq, Inhabited, Repr

namespace Network

/-- What is answered when a script has no reply left. -/
def exhausted : Response :=
  ⟨404, Text.Utf8.encode "script exhausted".toList, true⟩

/-- The next reply and the network after it, unless nothing can be reached. -/
def next? : Network → Option (Reply × Network)
  | .down => none
  | .scripted [] => some (.response exhausted, .scripted [])
  | .scripted (reply :: rest) => some (reply, .scripted rest)

def size : Network → Nat
  | .down => 0
  | .scripted replies => replies.length

end Network

/-- Why a request got no complete response. -/
inductive TransferFault where
  | unsupportedScheme (url : String)
  | unusableUrl (url : String)
  | unreachable (url : String)
  | closed (url : String)
  | truncated
  deriving DecidableEq, Repr

namespace TransferFault

def message : TransferFault → String
  | .unsupportedScheme url => "builder error for url (" ++ url ++ ")"
  | .unusableUrl url => "builder error for url (" ++ url ++ ")"
  | .unreachable url => "error sending request for url (" ++ url ++ ")"
  | .closed url => "error sending request for url (" ++ url ++ ")"
  | .truncated => "error decoding response body"

/-- What lies behind the message, from the outside in. -/
def causes : TransferFault → List String
  | .unsupportedScheme _ => ["URL scheme is not allowed"]
  | .unusableUrl _ => ["Parsed Url is not a valid Uri"]
  | .unreachable _ =>
    ["client error (Connect)", "tcp connect error", "Network is unreachable (os error 101)"]
  | .closed _ => ["client error (SendRequest)", "connection closed before message completed"]
  | .truncated =>
    ["request or response body error", "error reading a body from connection",
     "end of file before message length reached"]

end TransferFault

namespace Url

def isText (cs : List Char) : Bool :=
  match Text.Utf8.decode (Percent.decodeText cs) with
  | .ok _ => true
  | .error _ => false

/-- The credentials of a URL travel in a header of their own, provided that they are text. -/
def withoutUserinfo (u : Url) : Url :=
  match u.authority with
  | some a =>
    match a.userinfo with
    | some i =>
      if isText i.username && (!i.username.isEmpty || i.password.any isText) then
        { u with authority := some { a with userinfo := none } }
      else u
    | none => u
  | none => u

/-- What a request names: neither credentials nor the fragment. -/
def target (u : Url) : Url := { u.withoutUserinfo with fragment := none }

def isHttp (u : Url) : Bool := u.scheme == "http".toList || u.scheme == "https".toList

/-- The longest URL that is sent, in bytes. -/
def maxLength : Nat := 65534

/-- The characters that a host may have in a URL, but not in a request. -/
def isUnsendable (c : Char) : Bool := ['"', '\x60', '\x7b', '\x7d'].contains c

def hasSendableHost (u : Url) : Bool :=
  match u.authority with
  | some a => !a.host.print.any isUnsendable
  | none => false

/-- Why a URL cannot be requested at all. -/
def requestFault? (u : Url) : Option TransferFault :=
  if !u.isHttp then some (.unsupportedScheme u.withoutUserinfo.text)
  else if !u.hasSendableHost || maxLength < u.withoutUserinfo.print.length then
    some (.unusableUrl u.withoutUserinfo.text)
  else none

end Url
end Web
end ThreatGraph
