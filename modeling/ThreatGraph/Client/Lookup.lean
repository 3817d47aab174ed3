import ThreatGraph.Client.Listing
import ThreatGraph.Descriptor.Normalize
import ThreatGraph.Descriptor.Tagged
import ThreatGraph.Text.Integer

/-!
# Reads

Looking up a tag, listing what carries it, fetching descriptors by their ids, and searching for
them.
-/

namespace ThreatGraph

open Json (Value Members Mismatch)
open Web (Url redact)

/-- The fields that are asked for wherever whole descriptors are fetched. -/
def descriptorFields : String :=
  "raw_indicator,type,added_on,last_updated,confidence,owner,privacy_type,review_status,status," ++
    "severity,share_level,tags,description,reactions,my_reactions"

def ofMismatch (m : Mismatch) : ClientError := .notJson (.mismatch m)

/-- Whether an item says of itself that it is a threat descriptor. -/
def claimsDescriptor (item : Value) : Bool :=
  (item.get? "type").bind Value.text? == some descriptorType

/-- An entry without its name, which is the indicator, unless that is wanted. -/
def stripName (opts : QueryOptions) (o : TaggedObject) : TaggedObject :=
  if opts.includeIndicator then o else { o with name := none }

def readTagged (opts : QueryOptions) : List Value → Exchange (List TaggedObject)
  | [] => pure []
  | item :: rest =>
    if claimsDescriptor item then do
      let o ← Exchange.ofExcept ofMismatch (TaggedObject.decode item)
      let o := stripName opts o
      noteIf opts.verbose (.taggedObject o.line)
      let os ← readTagged opts rest
      return o :: os
    else readTagged opts rest

/-- The threat descriptors among the items of a page, in order.  Other items are dropped, whatever
their shape. -/
def taggedDescriptors (opts : QueryOptions) (page : Page) : Exchange (List TaggedObject) := do
  let os ← readTagged opts page.data
  note (.page opts.verbose page.index page.data.length os.length)
  return os

def descriptorIds (opts : QueryOptions) (page : Page) : Exchange (List String) := do
  let os ← taggedDescriptors opts page
  return os.map (·.id)

/-- The descriptors on a page of search results. -/
def pageDescriptors (opts : QueryOptions) (page : Page) : Exchange (List Descriptor) := do
  let ds ← Exchange.ofExcept .input
    (page.data.mapM fun raw => Descriptor.normalize raw opts.includeIndicator)
  note (.page opts.verbose page.index page.data.length ds.length)
  return ds

/-- The first id that is not a whole number. -/
def malformedId? (ids : List String) : Option String :=
  ids.find? fun id => (Text.readInt64? id).isNone

def withId (id : String) : Value → Value
  | .object ms => if (Members.get? "id" ms).isSome then .object ms
      else .object (Members.insert "id" (.string id) ms)
  | v => v

/-- The descriptors of a response in the order in which they were asked for.  Each member is used
once, and ids that the response lacks are passed over. -/
def collectDescriptors (opts : QueryOptions) :
    List String → Members Value → Exchange (List Descriptor)
  | [], _ => pure []
  | id :: ids, byId =>
    match Members.get? id byId with
    | none => do
      note (.missingDescriptor id)
      collectDescriptors opts ids byId
    | some raw => do
      let d ← Exchange.ofExcept .input
        (Descriptor.normalize (withId id raw) opts.includeIndicator)
      noteIf opts.verbose (.descriptor d.line)
      let ds ← collectDescriptors opts ids (Members.erase id byId)
      return d :: ds

namespace Client

/-- The id of the tag with exactly this text.  The server answers with all tags that start with
it. -/
def tagId (c : Client) (name : String) (showUrls : Bool) : Exchange (Option String) := do
  let url ← Exchange.ofExcept id (c.endpoint ["threat_tags"])
  let url := url.appendPairs [("text", name)]
  noteIf showUrls (.request (redact url))
  let response ← c.fetchJson url
  match response.get? "data" with
  | none => throw (.unexpectedShape .lookupWithoutData)
  | some data =>
    let tags ← Exchange.ofExcept ofMismatch (Json.readSequence TagRef.decode data)
    return (tags.find? fun t => t.text == name).map (·.id)

def boundPair (name : String) : Option Int → Web.Form.Pairs
  | some n => [(name, toString n)]
  | none => []

def taggedObjects (c : Client) (tagId : String) (opts : QueryOptions) :
    Except ClientError Listing :=
  match c.endpoint [tagId, "tagged_objects"] with
  | .error e => .error e
  | .ok url =>
    let pairs := ("limit", toString opts.pageSize) ::
      (boundPair "tagged_since" opts.taggedSince ++ boundPair "tagged_until" opts.taggedUntil)
    .ok (.start (url.appendPairs pairs) opts.showUrls)

/-- Walks through the listing of a tag, delivering the ids on each page. -/
def descriptorIdsOfTag (c : Client) (tagId : String) (opts : QueryOptions) :
    Session (Walk ClientError (List String)) :=
  match c.taggedObjects tagId opts with
  | .error e => pure ([], some e)
  | .ok listing => c.walk id (descriptorIds opts) listing

/-- The descriptors with these ids, in this order.  All ids are checked before anything is sent. -/
def descriptorsOfIds (c : Client) (ids : List String) (opts : QueryOptions) :
    Exchange (List Descriptor) := do
  match malformedId? ids with
  | some id => throw (.input (.malformedDescriptorId id))
  | none =>
    let url ← Exchange.ofExcept id (c.endpoint [])
    let url := url.appendPairs
      [("ids", String.intercalate "," ids), ("fields", descriptorFields)]
    noteIf opts.showUrls (.request (redact url))
    let response ← c.fetchJson url
    match response with
    | .object byId => collectDescriptors opts ids byId
    | _ => throw (.unexpectedShape .lookupNotObject)

def searchListing (c : Client) (params : Web.Form.Pairs) (opts : QueryOptions) :
    Except ClientError Listing :=
  match c.endpoint ["threat_descriptors"] with
  | .error e => .error e
  | .ok url => .ok (.start (url.appendPairs (("fields", descriptorFields) :: params)) opts.showUrls)

/-- Walks through the results of a search, delivering the descriptors on each page. -/
def search (c : Client) (params : Web.Form.Pairs) (opts : QueryOptions) :
    Session (Walk ClientError (List Descriptor)) :=
  match c.searchListing params opts with
  | .error e => pure ([], some e)
  | .ok listing => c.walk id (pageDescriptors opts) listing

end Client
end ThreatGraph
