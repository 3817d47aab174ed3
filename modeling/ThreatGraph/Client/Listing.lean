import ThreatGraph.Client.Fetch

/-!
# Listings

Pages that are linked from one to the next.  A listing ends with the first page that has no link, or
with the first failure; there is no limit on the number of pages.
-/

namespace ThreatGraph

open Json (Value)
open Web (Url redact)

/-- Options of listings and lookups. -/
structure QueryOptions where
  /-- How many items a page should have; only the first request says so. -/
  pageSize : Nat := 10
  taggedSince : Option Int := none
  taggedUntil : Option Int := none
  includeIndicator : Bool := true
  verbose : Bool := false
  showUrls : Bool := false
  deriving DecidableEq, Inhabited, Repr

structure Page where
  index : Nat
  data : List Value
  next : Option Url
  deriving DecidableEq, Inhabited, Repr

/-- Where a listing goes on. -/
structure Listing where
  next : Option Url
  index : Nat
  showUrls : Bool
  deriving DecidableEq, Inhabited, Repr

def Listing.start (url : Url) (showUrls : Bool) : Listing := ⟨some url, 0, showUrls⟩

def pageData (response : Value) : Except ClientError (List Value) :=
  match response.get? "data" with
  | some (.array items) => .ok items
  | some v => .error (.unexpectedShape (.dataNotList v))
  | none => .error (.unexpectedShape .pageWithoutData)

def pageLink (response : Value) : Except ClientError (Option Url) :=
  match ((response.get? "paging").bind (·.get? "next")).bind Value.text? with
  | none => .ok none
  | some text =>
    match Url.read text with
    | .ok url => .ok (some url)
    | .error f => .error (.invalidUrl f)

def readPage (index : Nat) (response : Value) : Except ClientError Page :=
  match pageData response with
  | .error e => .error e
  | .ok data =>
    match pageLink response with
    | .error e => .error e
    | .ok next => .ok ⟨index, data, next⟩

namespace Client

def fetchPage (c : Client) (index : Nat) (showUrls : Bool) (url : Url) : Exchange Page := do
  noteIf showUrls (.fetchingPage index (redact url))
  let response ← c.fetchJson url
  let page ← Exchange.ofExcept id (readPage index response)
  note (.receivedPage index page.data.length page.next.isSome)
  return page

/-- The next page, none at the end, and where the listing goes on; after a failure nowhere. -/
def nextPage (c : Client) (l : Listing) : Session (Except ClientError (Option Page) × Listing) :=
  match l.next with
  | none => pure (.ok none, l)
  | some url => do
    match ← (c.fetchPage l.index l.showUrls url).run with
    | .ok page => return (.ok (some page), { l with next := page.next, index := l.index + 1 })
    | .error e => return (.error e, { l with next := none })

/-- What a walk through a listing delivered, and what it ended in. -/
abbrev Walk (ε α : Type) := List α × Option ε

/-- Delivers `read page` for one page after the other until there is none or one fails; a page that
could not be fetched fails with `wrap`.  Every page takes a reply of the network, so `fuel` is the
number of those that are left, and one. -/
def walkFrom {ε α : Type} (c : Client) (wrap : ClientError → ε) (read : Page → ExceptT ε Session α) :
    Nat → Listing → Session (Walk ε α)
  | 0, _ => pure ([], none)
  | fuel + 1, l => do
    match ← c.nextPage l with
    | (.error e, _) => return ([], some (wrap e))
    | (.ok none, _) => return ([], none)
    | (.ok (some page), l) =>
      match ← (read page).run with
      | .error e => return ([], some e)
      | .ok a =>
        let (rest, failure) ← walkFrom c wrap read fuel l
        return (a :: rest, failure)

def walk {ε α : Type} (c : Client) (wrap : ClientError → ε) (read : Page → ExceptT ε Session α)
    (l : Listing) : Session (Walk ε α) := do
  let t ← get
  c.walkFrom wrap read (t.network.size + 1) l

end Client
end ThreatGraph
