import ThreatGraph.Proofs.Coupling
import ThreatGraph.Proofs.Framing
import ThreatGraph.Proofs.IndicatorSecrecy
import ThreatGraph.Proofs.TagRoutes

/-!
# Courses of reading commands

A command that reads goes from chunk to chunk, or from page to page.  For each of them it sends its
requests and prints its lines; the first that fails prints nothing and is the last.  A course says
what was done in this order: pieces that were printed, and what it stopped at, if it did.
-/

namespace ThreatGraph

open Json (Value)
open Web (Network Request Url redact)

variable {α β : Type}

/-- What a session comes to that starts at a network: its result, the requests it sends, and the
network that it leaves. -/
def Does (s : Session α) (before : Network) (result : α) (requests : List Request)
    (after : Network) : Prop :=
  ∃ log, s.run (.start before) = (result, ⟨after, requests, log⟩)

/-- A framed session does the same behind other requests. -/
theorem Framed.does {s : Session α} (hs : Framed s) (t : Traffic) :
    ∃ requests, Does s t.network (s.run t).1 requests (s.run t).2.network ∧
      (s.run t).2.sent = t.sent ++ requests := by
  have hrun := hs.run_eq t
  refine ⟨(s.run (.start t.network)).2.sent, ⟨(s.run (.start t.network)).2.log, ?_⟩, ?_⟩
  · rw [hrun]
    rfl
  · rw [hrun]
    rfl

/-- A read that was tried a number of times, at least once unless the transfer itself failed. -/
structure Fetches (c : Client) (url : Url) (before : Network) (result : Except ClientError Value)
    (requests : List Request) (after : Network) : Prop where
  does : Does (c.fetchJson url).run before result requests after
  attempts : ∃ n ≤ max 1 c.maxAttempts, requests = List.replicate n (getOf url).onWire ∧
    (0 < n ∨ ∃ fault, result = .error (.transfer fault))

theorem Client.fetchJson_fetches (c : Client) (url : Url) (t : Traffic) :
    ∃ requests, Fetches c url t.network ((c.fetchJson url).run.run t).1 requests
        ((c.fetchJson url).run.run t).2.network ∧
      ((c.fetchJson url).run.run t).2.sent = t.sent ++ requests := by
  obtain ⟨requests, hdoes, hsent⟩ := (framed_fetchFrom url 1 (c.maxAttempts - 1)).does t
  obtain ⟨n, hn, hattempts, htried⟩ := c.fetchJson_sent url t
  have hrequests : requests = List.replicate n (getOf url).onWire :=
    List.append_cancel_left (hsent.symm.trans hattempts)
  exact ⟨requests, ⟨hdoes, n, hn, hrequests, htried⟩, hsent⟩

theorem Fetches.size_lt {c : Client} {url : Url} {before after : Network} {v : Value}
    {requests : List Request} (h : Fetches c url before (.ok v) requests after) :
    after.size < before.size := by
  obtain ⟨log, hrun⟩ := h.does
  obtain ⟨n, hn, -, -, hsize⟩ := Client.fetchJson_ok hrun
  simp only [Traffic.start] at hsize
  omega

/-- A lookup of descriptors: all that it sends are reads of the URL for its ids. -/
structure Looks (c : Client) (opts : QueryOptions) (ids : List String) (before : Network)
    (result : Except ClientError (List Descriptor)) (requests : List Request) (after : Network) :
    Prop where
  does : Does (c.descriptorsOfIds ids opts).run before result requests after
  reads : ∀ r ∈ requests, ∃ url, c.lookupUrl ids = .ok url ∧ r = (getOf url).onWire

theorem Client.descriptorsOfIds_looks (c : Client) (ids : List String) (opts : QueryOptions)
    (t : Traffic) :
    ∃ requests, Looks c opts ids t.network ((c.descriptorsOfIds ids opts).run.run t).1 requests
        ((c.descriptorsOfIds ids opts).run.run t).2.network ∧
      ((c.descriptorsOfIds ids opts).run.run t).2.sent = t.sent ++ requests := by
  obtain ⟨requests, hdoes, hsent⟩ := (c.framed_descriptorsOfIds ids opts).does t
  obtain ⟨gets, hgets, -, hreads⟩ := c.descriptorsOfIds_sent ids opts t
  obtain rfl : requests = gets := List.append_cancel_left (hsent.symm.trans hgets)
  exact ⟨requests, ⟨hdoes, hreads⟩, hsent⟩

theorem Client.descriptorsOfIds_later (c : Client) (ids : List String) (opts : QueryOptions)
    (t : Traffic) : Later t ((c.descriptorsOfIds ids opts).run.run t).2 := by
  rcases c.descriptorsOfIds_traffic ids opts t with
    h | ⟨url, start, -, hnetwork, hsent, hnetwork', hsent'⟩
  · rw [h]
    exact .rfl
  · have hstart : Later t start := .of_same ⟨hnetwork, hsent⟩
    have hfetch := hstart.trans (fetchFrom_later url 1 (c.maxAttempts - 1) start)
    exact hfetch.trans (.of_same ⟨hnetwork', hsent'⟩)

/-- The fetch of a page: it fails, brings something else, or brings the page. -/
inductive FetchesPage (c : Client) (index : Nat) (url : Url) (before : Network) :
    Except ClientError Page → List Request → Network → Prop
  | failed {e : ClientError} {requests : List Request} {after : Network}
    (h : Fetches c url before (.error e) requests after) :
    FetchesPage c index url before (.error e) requests after
  | noPage {response : Value} {e : ClientError} {requests : List Request} {after : Network}
    (h : Fetches c url before (.ok response) requests after) (none : NoPage response e) :
    FetchesPage c index url before (.error e) requests after
  | page {response : Value} {page : Page} {requests : List Request} {after : Network}
    (h : Fetches c url before (.ok response) requests after) (isPage : IsPage response page)
    (number : page.index = index) :
    FetchesPage c index url before (.ok page) requests after

theorem FetchesPage.size_lt {c : Client} {index : Nat} {url : Url} {before after : Network}
    {page : Page} {requests : List Request}
    (h : FetchesPage c index url before (.ok page) requests after) : after.size < before.size := by
  cases h with
  | page h _ _ => exact h.size_lt

/-- What a call for the next page delivers, once the page was fetched. -/
def pulled (l : Listing) : Except ClientError Page → Except ClientError (Option Page) × Listing
  | .ok page => (.ok (some page), { l with next := page.next, index := l.index + 1 })
  | .error e => (.error e, { l with next := none })

theorem Client.nextPage_fetches (c : Client) {l : Listing} {url : Url} (hl : l.next = some url)
    (t : Traffic) :
    ∃ result requests u, FetchesPage c l.index url t.network result requests u.network ∧
      u.sent = t.sent ++ requests ∧ (c.nextPage l).run t = (pulled l result, u) := by
  have hsame := SameTraffic.noteIf l.showUrls (.fetchingPage l.index (redact url)) t
  obtain ⟨requests, hfetch, hsent⟩ := c.fetchJson_fetches url
    (if l.showUrls then t.note (.fetchingPage l.index (redact url)) else t)
  rw [hsame.1] at hfetch
  rw [hsame.2] at hsent
  rw [nextPage_run, hl]
  simp only
  rw [fetchPage_run]
  rcases hrun : (c.fetchJson url).run.run
      (if l.showUrls then t.note (.fetchingPage l.index (redact url)) else t)
    with ⟨e | response, u⟩ <;> rw [hrun] at hfetch hsent
  · exact ⟨.error e, requests, u, .failed hfetch, hsent, rfl⟩
  · simp only
    cases hpage : readPage l.index response with
    | error e => exact ⟨.error e, requests, u, .noPage hfetch (readPage_error hpage), hsent, rfl⟩
    | ok page =>
      obtain ⟨hnumber, hisPage⟩ := readPage_ok hpage
      exact ⟨.ok page, requests, u.note _, .page hfetch hisPage hnumber, hsent, rfl⟩

/-- The id of the tag with exactly this text, in the answer to its look-up. -/
def exactTag (name : String) (response : Value) : Except ClientError (Option String) :=
  match readTags response with
  | none => .error (.unexpectedShape .lookupWithoutData)
  | some tags => (tags.mapError ofMismatch).map fun tags =>
      (tags.find? fun t => t.text == name).map (·.id)

theorem Client.tagId_run (c : Client) (name : String) (showUrls : Bool) (t : Traffic) :
    (c.tagId name showUrls).run.run t =
      match c.tagUrl name with
      | .error e => (.error e, t)
      | .ok url =>
        match (c.fetchJson url).run.run
            (if showUrls then t.note (.request (redact url)) else t) with
        | (.error e, u) => (.error e, u)
        | (.ok response, u) => (exactTag name response, u) := by
  unfold tagId tagUrl
  rw [run_exchange_bind, run_ofExcept]
  cases c.endpoint ["threat_tags"] with
  | error e => rfl
  | ok url =>
    simp only [mapError_ok, Except.map]
    rw [run_lift_bind, run_noteIf, run_exchange_bind]
    rcases (c.fetchJson _).run.run _ with ⟨e | response, u⟩
    · rfl
    · simp only [exactTag, readTags]
      cases response.get? "data" with
      | none => rfl
      | some data =>
        simp only [Option.map_some]
        rw [run_exchange_bind, run_ofExcept]
        cases Json.readSequence TagRef.decode data <;> rfl

namespace Command

/-- What was done about a chunk or a page: the requests sent for it, and the lines printed. -/
structure Piece where
  requests : List Request
  lines : List String

/-- What a command stopped at: the requests sent in vain, and the report. -/
structure Stop where
  requests : List Request
  report : Report

/-- What comes of one chunk or page: the lines to print, or a report that nothing is printed for. -/
abbrev Work (α : Type) :=
  α → Network → Except Report (List String) → List Request → Network → Prop

/-- Chunks that are worked off one after the other, up to the first that fails. -/
inductive Chunked (work : Work (List String)) :
    List (List String) → Network → List Piece → Option Stop → Prop
  | done {before : Network} : Chunked work [] before [] none
  | stopped {chunk : List String} {chunks : List (List String)} {before after : Network}
    {report : Report} {requests : List Request}
    (h : work chunk before (.error report) requests after) :
    Chunked work (chunk :: chunks) before [] (some ⟨requests, report⟩)
  | next {chunk : List String} {chunks : List (List String)} {before after : Network}
    {lines : List String} {requests : List Request} {pieces : List Piece} {stop : Option Stop}
    (h : work chunk before (.ok lines) requests after)
    (rest : Chunked work chunks after pieces stop) :
    Chunked work (chunk :: chunks) before (⟨requests, lines⟩ :: pieces) stop

/-- Pages that are fetched and worked off one after the other, up to the first that fails: the next
page is fetched when all is done about the one before. -/
inductive Paged (c : Client) (failed : ClientError → Report) (work : Work Page) :
    Nat → Option Url → Network → List Piece → Option Stop → Prop
  | done {index : Nat} {before : Network} : Paged c failed work index none before [] none
  | unfetched {index : Nat} {url : Url} {before after : Network} {e : ClientError}
    {requests : List Request} (h : FetchesPage c index url before (.error e) requests after) :
    Paged c failed work index (some url) before [] (some ⟨requests, failed e⟩)
  | stopped {index : Nat} {url : Url} {before between after : Network} {page : Page}
    {report : Report} {requests more : List Request}
    (h : FetchesPage c index url before (.ok page) requests between)
    (h' : work page between (.error report) more after) :
    Paged c failed work index (some url) before [] (some ⟨requests ++ more, report⟩)
  | next {index : Nat} {url : Url} {before between after : Network} {page : Page}
    {lines : List String} {requests more : List Request} {pieces : List Piece}
    {stop : Option Stop} (h : FetchesPage c index url before (.ok page) requests between)
    (h' : work page between (.ok lines) more after)
    (rest : Paged c failed work (index + 1) page.next after pieces stop) :
    Paged c failed work index (some url) before (⟨requests ++ more, lines⟩ :: pieces) stop

/-- The look-up of a tag: its id is that of the tag with exactly its text. -/
inductive Resolves (c : Client) (tag : String) (before : Network) :
    Except Report String → List Request → Network → Prop
  | noUrl {e : ClientError} (h : c.tagUrl tag = .error e) :
    Resolves c tag before (.error (.ofClientError e)) [] before
  | unfetched {url : Url} {e : ClientError} {requests : List Request} {after : Network}
    (hurl : c.tagUrl tag = .ok url) (h : Fetches c url before (.error e) requests after) :
    Resolves c tag before (.error (.ofClientError e)) requests after
  | withoutTags {url : Url} {response : Value} {requests : List Request} {after : Network}
    (hurl : c.tagUrl tag = .ok url) (h : Fetches c url before (.ok response) requests after)
    (htags : readTags response = none) :
    Resolves c tag before
      (.error (.ofClientError (.unexpectedShape .lookupWithoutData))) requests after
  | undecoded {url : Url} {response : Value} {m : Json.Mismatch} {requests : List Request}
    {after : Network} (hurl : c.tagUrl tag = .ok url)
    (h : Fetches c url before (.ok response) requests after)
    (htags : readTags response = some (.error m)) :
    Resolves c tag before (.error (.ofClientError (ofMismatch m))) requests after
  | unknown {url : Url} {response : Value} {tags : List TagRef} {requests : List Request}
    {after : Network} (hurl : c.tagUrl tag = .ok url)
    (h : Fetches c url before (.ok response) requests after)
    (htags : readTags response = some (.ok tags)) (hnone : ∀ t ∈ tags, t.text ≠ tag) :
    Resolves c tag before (.error (.ofMessage ("tag \"" ++ tag ++ "\" not found"))) requests after
  | found {url : Url} {response : Value} {tags : List TagRef} {t : TagRef}
    {requests : List Request} {after : Network} (hurl : c.tagUrl tag = .ok url)
    (h : Fetches c url before (.ok response) requests after)
    (htags : readTags response = some (.ok tags))
    (hfound : tags.find? (fun t => t.text == tag) = some t) :
    Resolves c tag before (.ok t.id) requests after

/-- What is made of the look-up of a tag. -/
def resolved (tag : String) : Except ClientError (Option String) → Except Report String
  | .error e => .error (.ofClientError e)
  | .ok none => .error (.ofMessage ("tag \"" ++ tag ++ "\" not found"))
  | .ok (some id) => .ok id

theorem Resolves.of_response {c : Client} {tag : String} {url : Url} {before after : Network}
    {response : Value} {requests : List Request} (hurl : c.tagUrl tag = .ok url)
    (h : Fetches c url before (.ok response) requests after) :
    Resolves c tag before (resolved tag (exactTag tag response)) requests after := by
  unfold exactTag
  rcases htags : readTags response with _ | (m | tags)
  · exact .withoutTags hurl h htags
  · exact .undecoded hurl h htags
  · simp only [mapError_ok, Except.map]
    cases hfound : tags.find? fun t => t.text == tag with
    | none => exact .unknown hurl h htags (by simpa using hfound)
    | some t => exact .found hurl h htags hfound

namespace Setup

def windowLines (s : Setup) (ds : List Descriptor) : List String :=
  (ds.filter (s.created.contains s.now)).map (·.line)

/-- A lookup of ids, for the lines of their descriptors. -/
inductive LooksUp (s : Setup) : Work (List String)
  | found {ids : List String} {before after : Network} {ds : List Descriptor}
    {requests : List Request}
    (h : Looks s.client s.query ids before (.ok ds) requests after) :
    LooksUp s ids before (.ok (s.windowLines ds)) requests after
  | failed {ids : List String} {before after : Network} {e : ClientError} {requests : List Request}
    (h : Looks s.client s.query ids before (.error e) requests after) :
    LooksUp s ids before (.error (during fetchingDetails e)) requests after

/-- The ids on a page, each printed as it is. -/
inductive PrintsIds (tag : String) : Work Page
  | decoded {page : Page} {before : Network} {ids : List String} (h : itemIds page = .ok ids) :
    PrintsIds tag page before (.ok (ids.flatMap splitLines)) [] before
  | undecoded {page : Page} {before : Network} {e : ClientError} (h : itemIds page = .error e) :
    PrintsIds tag page before (.error (during (listing tag) e)) [] before

/-- The descriptors on a page of results. -/
inductive PrintsResults (s : Setup) : Work Page
  | decoded {page : Page} {before : Network} {ds : List Descriptor}
    (h : itemDescriptors s.query page = .ok ds) :
    PrintsResults s page before (.ok (s.windowLines ds)) [] before
  | undecoded {page : Page} {before : Network} {e : ClientError}
    (h : itemDescriptors s.query page = .error e) :
    PrintsResults s page before (.error (during "searching descriptors" e)) [] before

/-- The details of the ids on a page, which are looked up unless there are none. -/
inductive PrintsDetails (s : Setup) : Work Page
  | undecoded {page : Page} {before : Network} {e : ClientError} (h : itemIds page = .error e) :
    PrintsDetails s page before (.error (.ofClientError e)) [] before
  | nothing {page : Page} {before : Network} (h : itemIds page = .ok []) :
    PrintsDetails s page before (.ok []) [] before
  | lookedUp {page : Page} {before after : Network} {ids : List String}
    {result : Except Report (List String)} {requests : List Request}
    (h : itemIds page = .ok ids) (hsome : ids ≠ [])
    (h' : LooksUp s ids before result requests after) :
    PrintsDetails s page before result requests after

/-- What carries a tag.  The tag is looked up first, and nothing is listed of one that is not
found. -/
inductive Tagged (s : Setup) (tag : String) (failed : ClientError → Report) (work : Work Page)
    (before : Network) : List Piece → Option Stop → Prop
  | unresolved {report : Report} {requests : List Request} {after : Network}
    (h : Resolves s.client tag before (.error report) requests after) :
    Tagged s tag failed work before [] (some ⟨requests, report⟩)
  | unlisted {id : String} {e : ClientError} {requests : List Request} {after : Network}
    (h : Resolves s.client tag before (.ok id) requests after)
    (h' : s.client.taggedObjects id s.query = .error e) :
    Tagged s tag failed work before [⟨requests, []⟩] (some ⟨[], failed e⟩)
  | listed {id : String} {l : Listing} {requests : List Request} {after : Network}
    {pieces : List Piece} {stop : Option Stop}
    (h : Resolves s.client tag before (.ok id) requests after)
    (h' : s.client.taggedObjects id s.query = .ok l)
    (pages : Paged s.client (during (listing tag)) work l.index l.next after pieces stop) :
    Tagged s tag failed work before (⟨requests, []⟩ :: pieces) stop

/-- The results of a search. -/
inductive Searched (s : Setup) (params : List (String × String)) (before : Network) :
    List Piece → Option Stop → Prop
  | unlisted {e : ClientError} (h : s.client.searchListing params s.query = .error e) :
    Searched s params before [] (some ⟨[], during "searching descriptors" e⟩)
  | listed {l : Listing} {pieces : List Piece} {stop : Option Stop}
    (h : s.client.searchListing params s.query = .ok l)
    (pages : Paged s.client (during "searching descriptors") s.PrintsResults l.index l.next before
      pieces stop) :
    Searched s params before pieces stop

/-- The details of ids, in chunks. -/
inductive Detailed (s : Setup) (args : List String) (before : Network) :
    List Piece → Option Stop → Prop
  | unread {report : Report} (h : s.asked args = .error report) :
    Detailed s args before [] (some ⟨[], report⟩)
  | chunked {ids : List String} {pieces : List Piece} {stop : Option Stop}
    (h : s.asked args = .ok ids)
    (chunked : Chunked s.LooksUp (chunks s.query.pageSize ids) before pieces stop) :
    Detailed s args before pieces stop

/-- The course of an action that reads. -/
def Course (s : Setup) : Action → Network → List Piece → Option Stop → Prop
  | .tagToIds tag => s.Tagged tag (during (listing tag)) (PrintsIds tag)
  | .tagToDetails tag => s.Tagged tag .ofClientError s.PrintsDetails
  | .search params => s.Searched params
  | .idsToDetails args => s.Detailed args
  | .write .. => fun _ _ _ => False

end Setup

def spent (pieces : List Piece) (stop : Option Stop) : List Request :=
  pieces.flatMap (·.requests) ++ stop.elim [] (·.requests)

def ending : Option Stop → Except Report Unit
  | none => .ok ()
  | some stop => .error stop.report

def OnlyReads (requests : List Request) : Prop := ∀ r ∈ requests, r.method = .get

theorem OnlyReads.append {requests more : List Request} (h : OnlyReads requests)
    (h' : OnlyReads more) : OnlyReads (requests ++ more) :=
  List.forall_mem_append.2 ⟨h, h'⟩

theorem onlyReads_nil : OnlyReads [] := List.forall_mem_nil _

theorem onlyReads_fetches {c : Client} {url : Url} {before after : Network}
    {result : Except ClientError Value} {requests : List Request}
    (h : Fetches c url before result requests after) : OnlyReads requests := by
  obtain ⟨n, -, rfl, -⟩ := h.attempts
  intro r hr
  rw [List.eq_of_mem_replicate hr]
  rfl

theorem onlyReads_page {c : Client} {index : Nat} {url : Url} {before after : Network}
    {result : Except ClientError Page} {requests : List Request}
    (h : FetchesPage c index url before result requests after) : OnlyReads requests := by
  cases h with
  | failed h => exact onlyReads_fetches h
  | noPage h _ => exact onlyReads_fetches h
  | page h _ _ => exact onlyReads_fetches h

/-- Work for which only reads are sent. -/
def Reading (work : Work α) : Prop :=
  ∀ {a before result requests after}, work a before result requests after → OnlyReads requests

theorem OnlyReads.spent_cons {piece : Piece} {pieces : List Piece} {stop : Option Stop}
    (h : OnlyReads piece.requests) (h' : OnlyReads (spent pieces stop)) :
    OnlyReads (spent (piece :: pieces) stop) := by
  unfold spent at h' ⊢
  rw [List.flatMap_cons, List.append_assoc]
  exact h.append h'

theorem Chunked.onlyReads {work : Work (List String)} (hwork : Reading work)
    {chunks : List (List String)} {before : Network} {pieces : List Piece} {stop : Option Stop}
    (h : Chunked work chunks before pieces stop) : OnlyReads (spent pieces stop) := by
  induction h with
  | done => exact onlyReads_nil
  | stopped h => exact hwork h
  | next h _ ih => exact (hwork h).spent_cons ih

theorem Paged.onlyReads {c : Client} {failed : ClientError → Report} {work : Work Page}
    (hwork : Reading work) {index : Nat} {link : Option Url} {before : Network}
    {pieces : List Piece} {stop : Option Stop}
    (h : Paged c failed work index link before pieces stop) : OnlyReads (spent pieces stop) := by
  induction h with
  | done => exact onlyReads_nil
  | unfetched h => exact onlyReads_page h
  | stopped h h' => exact (onlyReads_page h).append (hwork h')
  | next h h' _ ih => exact ((onlyReads_page h).append (hwork h')).spent_cons ih

theorem Resolves.onlyReads {c : Client} {tag : String} {before after : Network}
    {result : Except Report String} {requests : List Request}
    (h : Resolves c tag before result requests after) : OnlyReads requests := by
  cases h with
  | noUrl => exact onlyReads_nil
  | unfetched _ h => exact onlyReads_fetches h
  | withoutTags _ h _ => exact onlyReads_fetches h
  | undecoded _ h _ => exact onlyReads_fetches h
  | unknown _ h _ _ => exact onlyReads_fetches h
  | found _ h _ _ => exact onlyReads_fetches h

namespace Setup

variable {s : Setup}

theorem reading_lookups : Reading s.LooksUp := by
  have hlooks : ∀ {ids before result requests after},
      Looks s.client s.query ids before result requests after → OnlyReads requests := by
    intro ids before result requests after h r hr
    obtain ⟨url, -, rfl⟩ := h.reads r hr
    rfl
  intro ids before result requests after h
  cases h with
  | found h => exact hlooks h
  | failed h => exact hlooks h

theorem reading_ids (tag : String) : Reading (PrintsIds tag) := by
  intro page before result requests after h
  cases h <;> exact onlyReads_nil

theorem reading_results : Reading s.PrintsResults := by
  intro page before result requests after h
  cases h <;> exact onlyReads_nil

theorem reading_details : Reading s.PrintsDetails := by
  intro page before result requests after h
  cases h with
  | undecoded => exact onlyReads_nil
  | nothing => exact onlyReads_nil
  | lookedUp _ _ h => exact reading_lookups h

theorem Tagged.onlyReads {tag : String} {failed : ClientError → Report} {work : Work Page}
    (hwork : Reading work) {before : Network} {pieces : List Piece} {stop : Option Stop}
    (h : s.Tagged tag failed work before pieces stop) : OnlyReads (spent pieces stop) := by
  cases h with
  | unresolved h => exact h.onlyReads
  | unlisted h _ => exact h.onlyReads.spent_cons onlyReads_nil
  | listed h _ pages => exact h.onlyReads.spent_cons (pages.onlyReads hwork)

theorem onlyReads_of_course {a : Action} {before : Network} {pieces : List Piece}
    {stop : Option Stop} (h : s.Course a before pieces stop) : OnlyReads (spent pieces stop) := by
  cases a with
  | tagToIds tag => exact Tagged.onlyReads (reading_ids tag) h
  | tagToDetails tag => exact Tagged.onlyReads reading_details h
  | search params =>
    cases h with
    | unlisted => exact onlyReads_nil
    | listed _ pages => exact pages.onlyReads reading_results
  | idsToDetails args =>
    cases h with
    | unread => exact onlyReads_nil
    | chunked _ h => exact h.onlyReads reading_lookups
  | write => exact h.elim

end Setup

/-- What a run comes to, whatever was printed before it: its result, the lines that it prints, the
requests that it sends, and the traffic that it leaves. -/
structure Leads (x : Run α) (t : Traffic) (result : Except Report α) (lines : List String)
    (requests : List Request) (u : Traffic) : Prop where
  run : ∀ out, runFrom x out t = ((result, out ++ lines), u)
  sent : u.sent = t.sent ++ requests

namespace Leads

variable {t u v : Traffic} {a : α} {lines others : List String} {requests more : List Request}

theorem pure (a : α) (t : Traffic) : Leads (pure a) t (.ok a) [] [] t :=
  ⟨fun out => by simp, by simp⟩

theorem fail (r : Report) (t : Traffic) : Leads (Command.fail r : Run α) t (.error r) [] [] t := by
  have hrun : ∀ out, runFrom (Command.fail r : Run α) out t = ((.error r, out), t) := fun _ => rfl
  exact ⟨fun out => by simp [hrun], by simp⟩

theorem bind {x : Run α} {f : α → Run β} {result : Except Report β}
    (hx : Leads x t (.ok a) lines requests u) (hf : Leads (f a) u result others more v) :
    Leads (x >>= f) t result (lines ++ others) (requests ++ more) v := by
  constructor
  · intro out
    rw [runFrom_bind, hx.run]
    simp only
    rw [hf.run, List.append_assoc]
  · rw [hf.sent, hx.sent, List.append_assoc]

theorem bindError {x : Run α} {f : α → Run β} {r : Report}
    (hx : Leads x t (.error r) lines requests u) :
    Leads (x >>= f) t (.error r) lines requests u := by
  constructor
  · intro out
    rw [runFrom_bind, hx.run]
  · exact hx.sent

theorem printText (text : String) (t : Traffic) :
    Leads (Command.printText text) t (.ok ()) (splitLines text) [] t :=
  ⟨fun out => by simp, by simp⟩

theorem inSession {s : Session α} (hsent : (s.run t).2.sent = t.sent ++ requests) :
    Leads (Command.inSession s) t (.ok (s.run t).1) [] requests (s.run t).2 :=
  ⟨fun out => by simp, hsent⟩

theorem ofExcept {ε : Type} (report : ε → Report) (x : Except ε α) (t : Traffic) :
    Leads (Command.ofExcept report x) t (x.mapError report) [] [] t :=
  ⟨fun out => by simp [runFrom_ofExcept], by simp⟩

theorem exchange {x : Exchange α} (report : ClientError → Report)
    (hsent : (x.run.run t).2.sent = t.sent ++ requests) :
    Leads (Command.exchange report x) t ((x.run.run t).1.mapError report) [] requests
      (x.run.run t).2 :=
  ⟨fun out => by simp [runFrom_exchange], hsent⟩

theorem forM {as : List α} {f : α → Run Unit} {printed : α → List String}
    (h : ∀ a, Leads (f a) t (.ok ()) (printed a) [] t) :
    Leads (as.forM f) t (.ok ()) (as.flatMap printed) [] t := by
  induction as with
  | nil => exact pure () t
  | cons a as ih => exact (h a).bind ih

theorem printDescriptors (s : Setup) (ds : List Descriptor) (t : Traffic) :
    Leads (s.printDescriptors ds) t (.ok ()) (s.windowLines ds) [] t := by
  have hline : ∀ d : Descriptor, Leads (Command.printText d.line) t (.ok ()) [d.line] [] t := by
    intro d
    have hprint := printText d.line t
    rwa [Descriptor.line, splitLines_text] at hprint
  unfold Setup.windowLines
  rw [List.map_eq_flatMap]
  exact forM hline

theorem finishWalk {print : α → Run Unit} {printed : α → List String}
    (h : ∀ a, Leads (print a) t (.ok ()) (printed a) [] t) (items : List α)
    (failure : Option Report) :
    Leads (Command.finishWalk print (items, failure)) t (failure.elim (.ok ()) .error)
      (items.flatMap printed) [] t := by
  have hprint : Leads (items.forM print) t (.ok ()) (items.flatMap printed) [] t := forM h
  cases failure with
  | none =>
    have hall := hprint.bind (f := fun _ => Pure.pure ()) (pure () t)
    rw [List.append_nil] at hall
    exact hall
  | some r =>
    have hall := hprint.bind (f := fun _ => (Command.fail r : Run Unit)) (fail r t)
    rw [List.append_nil] at hall
    exact hall

end Leads

/-- A run that goes this way. -/
def Went (x : Run Unit) (t : Traffic) (pieces : List Piece) (stop : Option Stop) : Prop :=
  ∃ u, Leads x t (ending stop) (pieces.flatMap (·.lines)) (spent pieces stop) u

namespace Went

variable {t u : Traffic} {a : α} {x : Run α} {f : α → Run Unit} {requests : List Request}
  {pieces : List Piece} {stop : Option Stop}

theorem failed {r : Report} (hx : Leads x t (.error r) [] requests u) :
    Went (x >>= f) t [] (some ⟨requests, r⟩) :=
  ⟨u, hx.bindError⟩

theorem after {lines : List String} (hx : Leads x t (.ok a) lines requests u)
    (hf : Went (f a) u pieces stop) : Went (x >>= f) t (⟨requests, lines⟩ :: pieces) stop := by
  obtain ⟨v, hf⟩ := hf
  have hall := hx.bind hf
  refine ⟨v, ?_⟩
  simpa [spent] using hall

theorem afterSilent (hx : Leads x t (.ok a) [] [] u) (hf : Went (f a) u pieces stop) :
    Went (x >>= f) t pieces stop := by
  obtain ⟨v, hf⟩ := hf
  exact ⟨v, hx.bind hf⟩

end Went

/-- A run that does the work for one chunk: it prints its lines, or nothing if there is a report. -/
inductive Works (x : Run Unit) (t : Traffic) :
    Except Report (List String) → List Request → Traffic → Prop
  | ok {lines : List String} {requests : List Request} {u : Traffic}
    (h : Leads x t (.ok ()) lines requests u) : Works x t (.ok lines) requests u
  | error {r : Report} {requests : List Request} {u : Traffic}
    (h : Leads x t (.error r) [] requests u) : Works x t (.error r) requests u

theorem chunks_went {work : Work (List String)} {f : List String → Run Unit}
    (hf : ∀ chunk t, ∃ result requests u, work chunk t.network result requests u.network ∧
      Works (f chunk) t result requests u) (chunks : List (List String)) (t : Traffic) :
    ∃ pieces stop, Chunked work chunks t.network pieces stop ∧
      Went (chunks.forM f) t pieces stop := by
  induction chunks generalizing t with
  | nil => exact ⟨[], none, .done, t, .pure () t⟩
  | cons chunk chunks ih =>
    obtain ⟨result, requests, u, hwork, hchunk⟩ := hf chunk t
    cases hchunk with
    | error h => exact ⟨[], _, .stopped hwork, Went.failed h⟩
    | ok h =>
      obtain ⟨pieces, stop, hchunked, hwent⟩ := ih u
      exact ⟨_, stop, .next hwork hchunked, Went.after h hwent⟩

/-- What a walk delivered, as a course tells it. -/
structure Told {ε : Type} (printed : α → List String) (report : ε → Report)
    (x : Client.Walk ε α × Traffic) (t : Traffic) (pieces : List Piece) (stop : Option Stop) :
    Prop where
  lines : x.1.1.flatMap printed = pieces.flatMap (·.lines)
  failure : x.1.2.map report = stop.map (·.report)
  sent : x.2.sent = t.sent ++ spent pieces stop

/-- What is done about a page, as work. -/
def ReadsAs {ε : Type} (read : Page → ExceptT ε Session α) (printed : α → List String)
    (report : ε → Report) (work : Work Page) : Prop :=
  ∀ page t, ∃ requests,
    work page t.network (((read page).run.run t).1.mapError report |>.map printed) requests
      ((read page).run.run t).2.network ∧
    ((read page).run.run t).2.sent = t.sent ++ requests ∧
    ((read page).run.run t).2.network.size ≤ t.network.size

theorem Told.unlisted {ε : Type} (printed : α → List String) (report : ε → Report) (e : ε)
    (t : Traffic) :
    Told printed report ((pure ([], some e) : Session (Client.Walk ε α)).run t) t []
      (some ⟨[], report e⟩) :=
  ⟨rfl, rfl, (List.append_nil _).symm⟩

theorem Went.finishWalk {ε : Type} {x : Session (Client.Walk ε α)} {print : α → Run Unit}
    {printed : α → List String} {report : ε → Report} {t : Traffic} {pieces : List Piece}
    {stop : Option Stop} (hprint : ∀ a u, Leads (print a) u (.ok ()) (printed a) [] u)
    (h : Told printed report (x.run t) t pieces stop) :
    Went (inSession x >>= fun w => Command.finishWalk print (w.1, w.2.map report)) t pieces
      stop := by
  have hwalk : Leads (inSession x) t _ _ _ _ := Leads.inSession h.sent
  have hending : ((x.run t).1.2.map report).elim (.ok ()) .error = ending stop := by
    rw [h.failure]
    cases stop <;> rfl
  have hfinish : Leads (Command.finishWalk print ((x.run t).1.1, (x.run t).1.2.map report))
      (x.run t).2 _ _ _ _ := Leads.finishWalk (fun a => hprint a (x.run t).2) _ _
  rw [hending, h.lines] at hfinish
  have hall := hwalk.bind
    (f := fun w => Command.finishWalk print (w.1, w.2.map report)) hfinish
  rw [List.append_nil] at hall
  exact ⟨_, hall⟩

theorem ReadsAs.of_silent {ε : Type} {read : Page → ExceptT ε Session α}
    {decode : Page → Except ε α} {printed : α → List String} {report : ε → Report}
    {work : Work Page} (hsilent : ∀ page, Silent (read page).run)
    (hdecode : ∀ page t, ((read page).run.run t).1 = decode page)
    (hwork : ∀ page before,
      work page before (((decode page).mapError report).map printed) [] before) :
    ReadsAs read printed report work := by
  intro page t
  obtain ⟨hnetwork, hsent⟩ := hsilent page t
  rw [hdecode, hnetwork, hsent]
  exact ⟨[], hwork page t.network, by simp, Nat.le_refl _⟩

/-- Pages are fetched and worked off one after the other. -/
theorem walkFrom_told {ε : Type} (c : Client) {wrap : ClientError → ε}
    {read : Page → ExceptT ε Session α} {printed : α → List String} {report : ε → Report}
    {work : Work Page} (hread : ReadsAs read printed report work) (fuel : Nat) (l : Listing)
    (t : Traffic) (hfuel : t.network.size < fuel) :
    ∃ pieces stop,
      Paged c (fun e => report (wrap e)) work l.index l.next t.network pieces stop ∧
      Told printed report ((c.walkFrom wrap read fuel l).run t) t pieces stop := by
  -- Each page takes a reply of the network, so the fuel lasts as long as the network does.
  induction fuel generalizing l t with
  | zero => exact absurd hfuel (Nat.not_lt_zero _)
  | succ fuel ih =>
    rw [Client.walkFrom_succ_run]
    cases hl : l.next with
    | none =>
      rw [Client.nextPage_run, hl]
      exact ⟨[], none, .done, rfl, rfl, by simp [spent]⟩
    | some url =>
      obtain ⟨result, requests, u, hfetch, hsent, hrun⟩ := c.nextPage_fetches hl t
      rw [hrun]
      cases result with
      | error e =>
        simp only [pulled]
        exact ⟨[], _, .unfetched hfetch, rfl, rfl, by simp [spent, hsent]⟩
      | ok page =>
        simp only [pulled]
        have hlt := hfetch.size_lt
        obtain ⟨more, hwork, hmore, hsize⟩ := hread page u
        rw [hsent, List.append_assoc] at hmore
        rcases hr : (read page).run.run u with ⟨e | a, v⟩ <;> rw [hr] at hwork hmore hsize <;>
          simp only at hmore hsize
        · exact ⟨[], _, .stopped hfetch hwork, rfl, rfl, by simp [spent, hmore]⟩
        · have hfuel' : v.network.size < fuel := by omega
          obtain ⟨pieces, stop, hpaged, hlines, hfailure, hrest⟩ :=
            ih { l with next := page.next, index := l.index + 1 } v hfuel'
          refine ⟨_, stop, .next hfetch hwork hpaged, ?_, hfailure, ?_⟩
          · simp [hlines]
          · rw [hrest, hmore]
            simp [spent]

theorem walk_told {ε : Type} (c : Client) (wrap : ClientError → ε)
    {read : Page → ExceptT ε Session α} {printed : α → List String} {report : ε → Report}
    {work : Work Page} (hread : ReadsAs read printed report work) (l : Listing) (t : Traffic) :
    ∃ pieces stop,
      Paged c (fun e => report (wrap e)) work l.index l.next t.network pieces stop ∧
      Told printed report ((c.walk wrap read l).run t) t pieces stop :=
  walkFrom_told c hread (t.network.size + 1) l t (Nat.lt_succ_self _)

namespace Setup

variable (s : Setup)

theorem looksUp (ids : List String) (t : Traffic) :
    ∃ requests,
      s.LooksUp ids t.network
        ((((s.client.descriptorsOfIds ids s.query).run.run t).1.mapError
          (during fetchingDetails)).map s.windowLines) requests
        ((s.client.descriptorsOfIds ids s.query).run.run t).2.network ∧
      ((s.client.descriptorsOfIds ids s.query).run.run t).2.sent = t.sent ++ requests := by
  obtain ⟨requests, hlooks, hsent⟩ := s.client.descriptorsOfIds_looks ids s.query t
  rcases hr : (s.client.descriptorsOfIds ids s.query).run.run t with ⟨e | ds, u⟩ <;>
    rw [hr] at hlooks hsent
  · exact ⟨requests, .failed hlooks, hsent⟩
  · exact ⟨requests, .found hlooks, hsent⟩

theorem printDetails_works (ids : List String) (t : Traffic) :
    ∃ result requests u, s.LooksUp ids t.network result requests u.network ∧
      Works (s.printDetails ids) t result requests u := by
  obtain ⟨requests, hwork, hsent⟩ := s.looksUp ids t
  have hlookup := Leads.exchange (during fetchingDetails) hsent
  rcases hr : (s.client.descriptorsOfIds ids s.query).run.run t with ⟨e | ds, u⟩ <;>
    rw [hr] at hwork hlookup
  · exact ⟨_, requests, u, hwork, .error hlookup.bindError⟩
  · have hprint := hlookup.bind (Leads.printDescriptors s ds u)
    rw [List.append_nil] at hprint
    exact ⟨_, requests, u, hwork, .ok hprint⟩

theorem descriptorIds_readsAs (tag : String) :
    ReadsAs (descriptorIds s.query) (·.flatMap splitLines) (during (listing tag))
      (PrintsIds tag) := by
  refine .of_silent (silent_descriptorIds s.query) (descriptorIds_result s.query) ?_
  intro page before
  cases hids : itemIds page with
  | error e => exact .undecoded hids
  | ok ids => exact .decoded hids

theorem pageDescriptors_readsAs :
    ReadsAs (pageDescriptors s.query) s.windowLines (during "searching descriptors")
      s.PrintsResults := by
  refine .of_silent (silent_pageDescriptors s.query) (pageDescriptors_result s.query) ?_
  intro page before
  cases hds : itemDescriptors s.query page with
  | error e => exact .undecoded hds
  | ok ds => exact .decoded hds

theorem pageDetails_run (page : Page) (t : Traffic) :
    (s.pageDetails page).run.run t =
      match (descriptorIds s.query page).run.run t with
      | (.error e, u) => (.error (.ofClientError e), u)
      | (.ok ids, u) =>
        if ids.isEmpty then (.ok [], u)
        else
          (((s.client.descriptorsOfIds ids s.query).run.run u).1.mapError (during fetchingDetails),
            ((s.client.descriptorsOfIds ids s.query).run.run u).2) := by
  have hadapt : ((descriptorIds s.query page).adapt Report.ofClientError).run.run t =
      (((descriptorIds s.query page).run.run t).1.mapError .ofClientError,
        ((descriptorIds s.query page).run.run t).2) := rfl
  unfold pageDetails
  rw [ExceptT.run_bind, run_bind, hadapt]
  rcases (descriptorIds s.query page).run.run t with ⟨e | ids, u⟩
  · rfl
  · simp only [mapError_ok]
    split <;> rfl

theorem pageDetails_readsAs : ReadsAs s.pageDetails s.windowLines id s.PrintsDetails := by
  intro page t
  obtain ⟨hnetwork, hsent⟩ := silent_descriptorIds s.query page t
  have hids := descriptorIds_result s.query page t
  rw [pageDetails_run]
  rcases hr : (descriptorIds s.query page).run.run t with ⟨e | ids, u⟩ <;>
    rw [hr] at hnetwork hsent hids <;> simp only at hnetwork hsent hids ⊢ <;>
    rw [← hnetwork, ← hsent]
  · exact ⟨[], .undecoded hids.symm, by simp, Nat.le_refl _⟩
  · split
    · next hempty =>
      obtain rfl := List.isEmpty_iff.1 hempty
      exact ⟨[], .nothing hids.symm, by simp, Nat.le_refl _⟩
    · next hsome =>
      have hids' : ids ≠ [] := fun h => hsome (List.isEmpty_iff.2 h)
      obtain ⟨requests, hlookup, hmore⟩ := s.looksUp ids u
      have hlater := s.client.descriptorsOfIds_later ids s.query u
      refine ⟨requests, .lookedUp hids.symm hids' ?_, hmore, hlater.size⟩
      have hsame : ∀ x : Except ClientError (List Descriptor),
          ((x.mapError (during fetchingDetails)).mapError id) =
            x.mapError (during fetchingDetails) := by
        intro x
        cases x <;> rfl
      rw [hsame]
      exact hlookup

theorem runFrom_resolveTag (tag : String) (t : Traffic) :
    ∃ u, SameTraffic u ((s.client.tagId tag s.query.showUrls).run.run t).2 ∧
      ∀ out, runFrom (s.resolveTag tag) out t =
        ((resolved tag ((s.client.tagId tag s.query.showUrls).run.run t).1, out), u) := by
  unfold resolveTag
  simp only [runFrom_bind, runFrom_exchange]
  rcases (s.client.tagId tag s.query.showUrls).run.run t with ⟨e | (_ | id), u⟩
  · exact ⟨u, .rfl, fun _ => rfl⟩
  · exact ⟨u, .rfl, fun _ => rfl⟩
  · simp only [mapError_ok, runFrom_bind, runFrom_inSession, run_noteIf]
    exact ⟨_, .noteIf s.query.verbose (.resolvedTag tag id) u, fun _ => rfl⟩

theorem resolveTag_leads (tag : String) (t : Traffic) :
    ∃ result requests u, Resolves s.client tag t.network result requests u.network ∧
      Leads (s.resolveTag tag) t result [] requests u := by
  obtain ⟨u, hsame, hrun⟩ := s.runFrom_resolveTag tag t
  have hleads : ∀ result requests,
      resolved tag ((s.client.tagId tag s.query.showUrls).run.run t).1 = result →
      ((s.client.tagId tag s.query.showUrls).run.run t).2.sent = t.sent ++ requests →
      Leads (s.resolveTag tag) t result [] requests u := by
    rintro result requests rfl hsent
    exact ⟨fun out => by simp [hrun], hsame.2.trans hsent⟩
  rw [Client.tagId_run] at hsame hleads
  cases hurl : s.client.tagUrl tag with
  | error e =>
    simp only [hurl] at hsame hleads
    refine ⟨_, [], u, ?_, hleads _ [] rfl (by simp)⟩
    rw [hsame.1]
    exact .noUrl hurl
  | ok url =>
    simp only [hurl] at hsame hleads
    have hnote := SameTraffic.noteIf s.query.showUrls (.request (redact url)) t
    obtain ⟨requests, hfetch, hsent⟩ := s.client.fetchJson_fetches url
      (if s.query.showUrls then t.note (.request (redact url)) else t)
    rw [hnote.1] at hfetch
    rw [hnote.2] at hsent
    rcases hr : (s.client.fetchJson url).run.run
      (if s.query.showUrls then t.note (.request (redact url)) else t) with ⟨e | response, v⟩ <;>
      rw [hr] at hfetch hsent hsame hleads
    · refine ⟨_, requests, u, ?_, hleads _ _ rfl hsent⟩
      rw [hsame.1]
      exact .unfetched hurl hfetch
    · refine ⟨_, requests, u, ?_, hleads _ _ rfl hsent⟩
      rw [hsame.1]
      exact .of_response hurl hfetch

theorem tagged_went {failed : ClientError → Report} {work : Work Page} {f : String → Run Unit}
    {tag : String}
    (herror : ∀ id e u, s.client.taggedObjects id s.query = .error e →
      Went (f id) u [] (some ⟨[], failed e⟩))
    (hok : ∀ id l u, s.client.taggedObjects id s.query = .ok l → ∃ pieces stop,
      Paged s.client (during (listing tag)) work l.index l.next u.network pieces stop ∧
        Went (f id) u pieces stop) (t : Traffic) :
    ∃ pieces stop, s.Tagged tag failed work t.network pieces stop ∧
      Went (s.resolveTag tag >>= f) t pieces stop := by
  obtain ⟨result, requests, u, hresolves, hleads⟩ := s.resolveTag_leads tag t
  cases result with
  | error r => exact ⟨[], _, .unresolved hresolves, .failed hleads⟩
  | ok id =>
    cases hl : s.client.taggedObjects id s.query with
    | error e => exact ⟨_, _, .unlisted hresolves hl, .after hleads (herror id e u hl)⟩
    | ok l =>
      obtain ⟨pieces, stop, hpaged, hwent⟩ := hok id l u hl
      exact ⟨_, stop, .listed hresolves hl hpaged, .after hleads hwent⟩

theorem tagToIds_went (tag : String) (t : Traffic) :
    ∃ pieces stop, s.Tagged tag (during (listing tag)) (PrintsIds tag) t.network pieces stop ∧
      Went (s.tagToIds tag) t pieces stop := by
  have hprint : ∀ ids u, Leads (List.forM ids Command.printText) u (.ok ())
      (ids.flatMap splitLines) [] u := fun ids u => .forM fun id => .printText id u
  apply s.tagged_went
  · intro tagId e u hl
    have hwalk : s.client.descriptorIdsOfTag tagId s.query = pure ([], some e) := by
      simp only [Client.descriptorIdsOfTag, hl]
    have htold := Told.unlisted (List.flatMap splitLines) (during (listing tag)) e u
    rw [← hwalk] at htold
    exact .finishWalk hprint htold
  · intro tagId l u hl
    obtain ⟨pieces, stop, hpaged, htold⟩ :=
      walk_told s.client id (s.descriptorIds_readsAs tag) l u
    have hwalk : s.client.descriptorIdsOfTag tagId s.query =
        s.client.walk id (descriptorIds s.query) l := by
      simp only [Client.descriptorIdsOfTag, hl]
    rw [← hwalk] at htold
    exact ⟨pieces, stop, hpaged, .finishWalk hprint htold⟩

theorem tagToDetails_went (tag : String) (t : Traffic) :
    ∃ pieces stop, s.Tagged tag .ofClientError s.PrintsDetails t.network pieces stop ∧
      Went (s.tagToDetails tag) t pieces stop := by
  apply s.tagged_went
  · intro tagId e u hl
    have hread := Leads.ofExcept Report.ofClientError (s.client.taggedObjects tagId s.query) u
    rw [hl] at hread ⊢
    exact .failed hread
  · intro tagId l u hl
    have hread := Leads.ofExcept Report.ofClientError (s.client.taggedObjects tagId s.query) u
    rw [hl] at hread ⊢
    obtain ⟨pieces, stop, hpaged, htold⟩ :=
      walk_told s.client (during (listing tag)) s.pageDetails_readsAs l u
    have hwent := Went.finishWalk (Leads.printDescriptors s) htold
    simp only [Option.map_id_fun, id] at hwent
    exact ⟨pieces, stop, hpaged, .afterSilent hread hwent⟩

theorem search_went (params : List (String × String)) (t : Traffic) :
    ∃ pieces stop, s.Searched params t.network pieces stop ∧
      Went (s.search params) t pieces stop := by
  have hprint := Leads.printDescriptors s
  cases hl : s.client.searchListing params s.query with
  | error e =>
    have hwalk : s.client.search params s.query = pure ([], some e) := by
      simp only [Client.search, hl]
    have htold := Told.unlisted s.windowLines (during "searching descriptors") e t
    rw [← hwalk] at htold
    exact ⟨[], _, .unlisted hl, .finishWalk hprint htold⟩
  | ok l =>
    obtain ⟨pieces, stop, hpaged, htold⟩ :=
      walk_told s.client id s.pageDescriptors_readsAs l t
    have hwalk : s.client.search params s.query = s.client.walk id (pageDescriptors s.query) l := by
      simp only [Client.search, hl]
    rw [← hwalk] at htold
    exact ⟨pieces, stop, .listed hl hpaged, .finishWalk hprint htold⟩

theorem idsToDetails_went (args : List String) (t : Traffic) :
    ∃ pieces stop, s.Detailed args t.network pieces stop ∧
      Went (s.idsToDetails args) t pieces stop := by
  cases hids : s.asked args with
  | error r =>
    have hinput : args.isEmpty = true ∧ inputLines s.input = .error r := by
      unfold asked at hids
      split at hids
      · next hempty => exact ⟨hempty, hids⟩
      · cases hids
    have hread := Leads.ofExcept id (inputLines s.input) t
    unfold idsToDetails
    rw [if_pos hinput.1, hinput.2]
    rw [hinput.2] at hread
    exact ⟨[], _, .unread hids, .failed hread⟩
  | ok ids =>
    obtain ⟨pieces, stop, hchunked, u, hleads⟩ :=
      chunks_went s.printDetails_works (chunks s.query.pageSize ids) t
    refine ⟨pieces, stop, .chunked hids hchunked, u, ?_, hleads.sent⟩
    intro out
    rw [runFrom_idsToDetails hids]
    exact hleads.run out

theorem act_went {a : Action} (ha : a.reads = true) (t : Traffic) :
    ∃ pieces stop, s.Course a t.network pieces stop ∧ Went (s.act a) t pieces stop := by
  cases a with
  | tagToIds tag => exact s.tagToIds_went tag t
  | idsToDetails args => exact s.idsToDetails_went args t
  | tagToDetails tag => exact s.tagToDetails_went tag t
  | search params => exact s.search_went params t
  | write => cases ha

end Setup

/-- How a run ends that takes a course. -/
structure Outcome.Ends (o : Outcome) (pieces : List Piece) (stop : Option Stop) : Prop where
  output : o.output = pieces.flatMap (·.lines)
  sent : o.traffic.sent = spent pieces stop
  exitCode : o.exitCode = 0 ↔ stop = none
  errors : o.errors = stop.elim [] (·.report.lines)

theorem Went.ends {x : Run Unit} {network : Network} {log : List Event} {pieces : List Piece}
    {stop : Option Stop} (h : Went x ⟨network, [], log⟩ pieces stop) :
    (outcomeOf (runFrom x [] ⟨network, [], log⟩)).Ends pieces stop := by
  obtain ⟨u, hrun, hsent⟩ := h
  rw [hrun]
  cases stop with
  | none => exact ⟨rfl, hsent, by simp [ending, outcomeOf], rfl⟩
  | some stop => exact ⟨rfl, hsent, by simp [ending, outcomeOf], rfl⟩

theorem runInvocation_course {w : World} {i : Invocation} {s : Setup}
    (ha : i.action.reads = true) (hs : setupOf w i.options = .ok s) :
    ∃ pieces stop, s.Course i.action w.network pieces stop ∧
      (runInvocation w i).Ends pieces stop := by
  obtain ⟨log, hrun⟩ := runInvocation_eq hs
  obtain ⟨pieces, stop, hcourse, hwent⟩ := s.act_went ha ⟨w.network, [], log⟩
  rw [hrun]
  exact ⟨pieces, stop, hcourse, hwent.ends⟩

theorem runInvocation_onlyReads (w : World) {i : Invocation} (ha : i.action.reads = true) :
    OnlyReads (runInvocation w i).traffic.sent := by
  cases hs : setupOf w i.options with
  | error r =>
    obtain ⟨log, hrun⟩ := runInvocation_unprepared hs
    rw [hrun]
    exact onlyReads_nil
  | ok s =>
    obtain ⟨pieces, stop, hcourse, hends⟩ := runInvocation_course ha hs
    rw [hends.sent]
    exact Setup.onlyReads_of_course hcourse

theorem length_splitLines (text : String) :
    (splitLines text).length = text.toList.count '\n' + 1 := by
  have hsplit : ∀ cs : List Char, (Text.split (· == '\n') cs).length = cs.count '\n' + 1 := by
    intro cs
    induction cs with
    | nil => rfl
    | cons c cs ih =>
      rw [Text.split, List.count_cons]
      split
      · simp [ih]
      · cases hparts : Text.split (· == '\n') cs with
        | nil => exact absurd hparts (Text.split_ne_nil _ _)
        | cons part rest => simpa [hparts] using ih
  rw [splitLines, List.length_map, hsplit]

/-- An action that reads prints the lines of whole chunks or pages: those that its course comes
through, in their order, and nothing of what it stops at.  It sends nothing after that, and it ends
well exactly if it stops at nothing.  A course prints a line for each descriptor in the window, or
each id on a page, which takes a line more for every line feed in it.  Without a setup nothing is
printed or sent. -/
theorem reads_print_whole_pieces (w : World) (i : Invocation) (ha : i.action.reads = true) :
    (∀ r, setupOf w i.options = .error r →
      (runInvocation w i).Ends [] (some ⟨[], r⟩)) ∧
    (∀ s, setupOf w i.options = .ok s →
      ∃ pieces stop, s.Course i.action w.network pieces stop ∧
        (runInvocation w i).Ends pieces stop) ∧
    ∀ id, (splitLines id).length = id.toList.count '\n' + 1 ∧
      ('\n' ∉ id.toList → splitLines id = [id]) := by
  refine ⟨fun r hr => ?_, fun s hs => runInvocation_course ha hs,
    fun id => ⟨length_splitLines id, fun hfree => ?_⟩⟩
  · obtain ⟨log, hrun⟩ := runInvocation_unprepared hr
    rw [hrun]
    exact ⟨rfl, rfl, by simp, rfl⟩
  · have hlines := splitLines_of_free hfree
    rwa [String.ofList_toList] at hlines

/-- A tag, the first page of its listing, and nothing where the next should be. -/
def cutShort : List Web.Reply :=
  [.response ⟨200, Text.Utf8.encode
     "\x7b\"data\":[\x7b\"id\":\"7\",\"text\":\"t\"\x7d]\x7d".toList, true⟩,
   .response ⟨200, Text.Utf8.encode
     ("\x7b\"data\":[\x7b\"id\":\"1\",\"type\":\"THREAT_DESCRIPTOR\"\x7d]," ++
       "\"paging\":\x7b\"next\":\"http://graph.test/next\"\x7d\x7d").toList, true⟩,
   .response ⟨404, [], true⟩]

def worldOf (replies : List Web.Reply) : World :=
  ⟨[(Client.defaultTokenVariable, "t")], [], [], 0, .scripted replies⟩

def tagListing : Invocation := ⟨({} : Scan).options, .tagToIds "t"⟩

/-- Of a listing that breaks off, what came before is printed. -/
theorem listing_cut_short :
    ∃ (s : Setup) (pieces : List Piece) (stop : Stop),
      s.Course tagListing.action (worldOf cutShort).network pieces (some stop) ∧
      (runInvocation (worldOf cutShort) tagListing).Ends pieces (some stop) ∧
      pieces.flatMap (·.lines) = ["1"] ∧ (spent pieces (some stop)).length = 3 := by
  obtain ⟨-, hcourse, -⟩ := reads_print_whole_pieces (worldOf cutShort) tagListing rfl
  have hprepared : (setupOf (worldOf cutShort) tagListing.options).toOption.isSome = true := by
    decide +kernel
  cases hs : setupOf (worldOf cutShort) tagListing.options with
  | error r =>
    rw [hs] at hprepared
    cases hprepared
  | ok s =>
    obtain ⟨pieces, stop, hcourse, hends⟩ := hcourse s hs
    obtain ⟨hexit, houtput, hsent⟩ :
        (runInvocation (worldOf cutShort) tagListing).exitCode = 1 ∧
        (runInvocation (worldOf cutShort) tagListing).output = ["1"] ∧
        (runInvocation (worldOf cutShort) tagListing).traffic.sent.length = 3 := by
      decide +kernel
    cases stop with
    | none =>
      have hzero := hends.exitCode.2 rfl
      rw [hexit] at hzero
      cases hzero
    | some stop =>
      rw [hends.output] at houtput
      rw [hends.sent] at hsent
      exact ⟨s, pieces, stop, hcourse, hends, houtput, hsent⟩

/-- A tag, and one page with one id, which has a line feed in it. -/
def brokenId : List Web.Reply :=
  [.response ⟨200, Text.Utf8.encode
     "\x7b\"data\":[\x7b\"id\":\"7\",\"text\":\"t\"\x7d]\x7d".toList, true⟩,
   .response ⟨200, Text.Utf8.encode
     "\x7b\"data\":[\x7b\"id\":\"1\\n2\",\"type\":\"THREAT_DESCRIPTOR\"\x7d]\x7d".toList,
     true⟩]

/-- The ids of a listing are not always printed on one line each. -/
theorem id_on_two_lines :
    ¬ ∀ (s : Setup) (tag id : String) (t : Traffic) (pages : List (List String)),
        ((s.client.tagId tag s.query.showUrls).run.run t).1 = .ok (some id) →
        ((s.client.descriptorIdsOfTag id s.query).run
          ((s.client.tagId tag s.query.showUrls).run.run t).2).1 = (pages, none) →
        (runFrom (s.tagToIds tag) [] t).1.2.length = pages.flatten.length := by
  intro h
  have hone := h bare "t" "7" (.start (.scripted brokenId)) [["1\n2"]] (by decide +kernel)
    (by decide +kernel)
  have htwo : (runFrom (bare.tagToIds "t") [] (.start (.scripted brokenId))).1.2 = ["1", "2"] := by
    decide +kernel
  rw [htwo] at hone
  cases hone

end Command
end ThreatGraph
