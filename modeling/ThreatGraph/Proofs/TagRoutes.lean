import ThreatGraph.Proofs.Chunks
import ThreatGraph.Proofs.Endpoints
import ThreatGraph.Proofs.TokenSecrecy

/-!
# Two routes to the details of a tag

The ids that a tag's listing prints, fed back as input, lead to the same details as the tag itself:
one route looks up page by page, the other chunk by chunk, and neither changes the order of the ids.
-/

namespace ThreatGraph

open Json (Value Members)
open Web (Request Response Url redact)

/-- A page of a listing: where it is, and the ids on it. -/
structure IdPage where
  url : Url
  ids : List String

/-- The pages of a listing that goes on at a link, as a server gives them. -/
inductive Server.Lists (server : Server) : Nat → Option Url → List IdPage → Prop
  | ended (index : Nat) : server.Lists index none []
  | page {index : Nat} {url : Url} {v : Value} {page : Page} {ids : List String}
    {rest : List IdPage} (fault : url.requestFault? = none) (answers : server.Answers url v)
    (reads : readPage index v = .ok page) (ids_eq : itemIds page = .ok ids)
    (more : server.Lists (index + 1) page.next rest) :
    server.Lists index (some url) (⟨url, ids⟩ :: rest)

def Client.tagUrl (c : Client) (name : String) : Except ClientError Url :=
  (c.endpoint ["threat_tags"]).map fun url => url.appendPairs [("text", name)]

/-- The server names the id of a tag. -/
structure Server.Resolves (server : Server) (c : Client) (tag id : String) (url : Url) : Prop where
  url_eq : c.tagUrl tag = .ok url
  fault : url.requestFault? = none
  answers : ∃ v tags, server.Answers url v ∧ readTags v = some (.ok tags) ∧
    (tags.find? fun t => t.text == tag).map (·.id) = some id

/-- The server names the id of a tag and lists on these pages what carries it. -/
def Server.ListsTag (server : Server) (c : Client) (opts : QueryOptions) (tag : String)
    (pages : List IdPage) : Prop :=
  ∃ id url start, server.Resolves c tag id url ∧
    c.taggedObjects id opts = .ok (.start start opts.showUrls) ∧ server.Lists 0 (some start) pages

variable {server : Server}

theorem descriptorIds_asks {opts : QueryOptions} {page : Page} {ids : List String}
    (h : itemIds page = .ok ids) : Asks server (descriptorIds opts page).run [] (.ok ids) :=
  .silent (silent_descriptorIds opts page) fun t => (descriptorIds_result opts page t).trans h

theorem length_le_flatMap_cons {α β : Type} (f : α → β) (g : α → List β) (as : List α) :
    as.length ≤ (as.flatMap fun a => f a :: g a).length := by
  induction as with
  | nil => exact Nat.le_refl 0
  | cons a as ih =>
    simp only [List.flatMap_cons, List.length_append, List.length_cons]
    omega

namespace Client

variable {c : Client}

theorem tagId_asks {tag id : String} {url : Url} (h : server.Resolves c tag id url)
    (showUrls : Bool) :
    Asks server (c.tagId tag showUrls).run [(getOf url).onWire] (.ok (some id)) := by
  obtain ⟨hurl, hfault, v, tags, hanswers, htags, hid⟩ := h
  rw [tagUrl] at hurl
  cases hendpoint : c.endpoint ["threat_tags"] with
  | error e =>
    rw [hendpoint] at hurl
    cases hurl
  | ok u =>
    rw [hendpoint] at hurl
    obtain rfl := Except.ok.inj hurl
    rw [readTags] at htags
    cases hdata : v.get? "data" with
    | none =>
      rw [hdata] at htags
      cases htags
    | some data =>
      rw [hdata] at htags
      have hread := Option.some.inj htags
      have hreturn : Asks server (return (tags.find? fun t => t.text == tag).map (·.id) :
          Exchange (Option String)).run [] (.ok (some id)) := by
        rw [hid]
        exact .pure _
      refine (Asks.ofExcept hendpoint).bindExcept ((Asks.noteIf _ _).bindExcept
        ((c.fetchJson_asks hfault hanswers).bindExcept ?_))
      rw [hdata]
      exact (Asks.ofExcept hread).bindExcept hreturn

theorem nextPage_asks {l : Listing} {url : Url} {v : Value} {page : Page} (hl : l.next = some url)
    (hfault : url.requestFault? = none) (hanswers : server.Answers url v)
    (hpage : readPage l.index v = .ok page) :
    Asks server (c.nextPage l) [(getOf url).onWire]
      (.ok (some page), { l with next := page.next, index := l.index + 1 }) := by
  have hnote : Asks server
      (monadLift (note (.receivedPage l.index page.data.length page.next.isSome)) :
        Exchange Unit).run [] (.ok ()) := .silent (.lift (.note _)) fun _ => rfl
  have hfetch : Asks server (c.fetchPage l.index l.showUrls url).run [(getOf url).onWire]
      (.ok page) :=
    (Asks.noteIf _ _).bindExcept ((c.fetchJson_asks hfault hanswers).bindExcept
      ((Asks.ofExcept hpage).bindExcept (hnote.bindExcept (.pure _))))
  unfold nextPage
  rw [hl]
  exact hfetch.bind (.pure _)

theorem walkFrom_asks {ε α : Type} {wrap : ClientError → ε} {read : Page → ExceptT ε Session α}
    {requests : IdPage → List Request} {given : IdPage → α} {pages : List IdPage}
    {index : Nat} {link : Option Url} (h : server.Lists index link pages)
    (hread : ∀ p ∈ pages, ∀ page, itemIds page = .ok p.ids →
      Asks server (read page).run (requests p) (.ok (given p)))
    (showUrls : Bool) {fuel : Nat} (hfuel : pages.length < fuel) :
    Asks server (c.walkFrom wrap read fuel ⟨link, index, showUrls⟩)
      (pages.flatMap fun p => (getOf p.url).onWire :: requests p)
      (pages.map given, none) := by
  -- The fuel exceeds the pages that are still to come.
  induction h generalizing fuel with
  | ended index =>
    cases fuel with
    | zero => exact absurd hfuel (Nat.not_lt_zero _)
    | succ fuel => exact .pure _
  | @page index url v page ids rest hfault hanswers hreads hids _ ih =>
    cases fuel with
    | zero => exact absurd hfuel (Nat.not_lt_zero _)
    | succ fuel =>
      obtain ⟨hfirst, hread⟩ := List.forall_mem_cons.1 hread
      have hrest := ih hread (Nat.lt_of_succ_lt_succ hfuel)
      have hnext : Asks server (c.nextPage ⟨some url, index, showUrls⟩) _ _ :=
        nextPage_asks rfl hfault hanswers hreads
      have hall := hrest.bind (f := fun w => pure (given ⟨url, ids⟩ :: w.1, w.2)) (.pure _)
      rw [List.append_nil] at hall
      unfold walkFrom
      exact hnext.bind ((hfirst page hids).bind hall)

theorem walk_asks {ε α : Type} {wrap : ClientError → ε} {read : Page → ExceptT ε Session α}
    {requests : IdPage → List Request} {given : IdPage → α} {pages : List IdPage}
    {start : Url} (h : server.Lists 0 (some start) pages)
    (hread : ∀ p ∈ pages, ∀ page, itemIds page = .ok p.ids →
      Asks server (read page).run (requests p) (.ok (given p)))
    (showUrls : Bool) :
    Asks server (c.walk wrap read (.start start showUrls))
      (pages.flatMap fun p => (getOf p.url).onWire :: requests p)
      (pages.map given, none) := by
  intro rest t ht
  -- Every page takes a reply, so the network has more fuel than there are pages.
  have hlength := length_le_flatMap_cons (fun p : IdPage => (getOf p.url).onWire) requests pages
  have hsize : pages.length < t.network.size + 1 := by
    rw [ht]
    simp only [Web.Network.size, Server.script, List.length_append, List.length_map]
    omega
  exact walkFrom_asks h hread showUrls hsize rest t ht

end Client

namespace Command

variable {known : String → Option Value}

theorem finishWalk_prints {α : Type} {print : α → Run Unit} {given : List α}
    {printed : α → List String} (h : ∀ a ∈ given, Prints server (print a) [] (printed a) ()) :
    Prints server (finishWalk print (given, none)) [] (given.flatMap printed) () := by
  have hall := (Prints.forM_silent h).bind (f := fun _ => pure ()) (.pure ())
  rw [List.append_nil, List.append_nil] at hall
  exact hall

namespace Setup

variable {s : Setup} {tag id : String} {url start : Url} {pages : List IdPage}

theorem resolveTag_prints (h : server.Resolves s.client tag id url) :
    Prints server (s.resolveTag tag) [(getOf url).onWire] [] id := by
  have hfound : Prints server
      (Command.exchange .ofClientError (s.client.tagId tag s.query.showUrls)) _ _ (some id) :=
    .exchange (Client.tagId_asks h s.query.showUrls)
  have hnote : Prints server (Command.inSession (noteIf s.query.verbose (.resolvedTag tag id)))
      [] [] () :=
    .inSession (.silent (.noteIf _ _) fun _ => rfl)
  exact hfound.bind (hnote.bind (.pure id))

theorem tagToIds_prints (hresolves : server.Resolves s.client tag id url)
    (hlisting : s.client.taggedObjects id s.query = .ok (.start start s.query.showUrls))
    (hpages : server.Lists 0 (some start) pages)
    (hlines : ∀ p ∈ pages, ∀ id ∈ p.ids, splitLines id = [id]) :
    Prints server (s.tagToIds tag)
      ((getOf url).onWire :: pages.flatMap fun p => [(getOf p.url).onWire])
      (pages.flatMap (·.ids)) () := by
  have hwalk : Asks server (s.client.descriptorIdsOfTag id s.query)
      (pages.flatMap fun p => [(getOf p.url).onWire]) (pages.map fun p => p.ids, none) := by
    unfold Client.descriptorIdsOfTag
    rw [hlisting]
    exact Client.walk_asks hpages (fun p _ page hids => descriptorIds_asks hids) _
  have hprint : ∀ ids ∈ pages.map (fun p => p.ids),
      Prints server (ids.forM Command.printText) [] ids () := by
    intro ids hids
    obtain ⟨p, hp, rfl⟩ := List.mem_map.1 hids
    have hloop : Prints server (p.ids.forM Command.printText) []
        (p.ids.flatMap fun id => [id]) () :=
      .forM_silent fun id hid => .printText (hlines p hp id hid)
    rwa [List.flatMap_singleton'] at hloop
  have hfinish := finishWalk_prints hprint
  rw [List.flatMap_map] at hfinish
  exact (resolveTag_prints hresolves).bind ((Prints.inSession hwalk).askThenPrint hfinish)

def pageRequests (s : Setup) (p : IdPage) : List Request :=
  if p.ids.isEmpty then [] else s.client.lookupRequests p.ids

theorem pageDetails_asks {p : IdPage} {page : Page} (hids : itemIds page = .ok p.ids)
    (hwhole : Whole p.ids) (hanswers : server.AnswersLookup s.client known p.ids)
    (hcan : p.ids ≠ [] → s.client.CanLookUp p.ids) (honce : KnownOnce known p.ids)
    (hnormal : Normalizing s.query known p.ids) :
    Asks server (s.pageDetails page).run (s.pageRequests p)
      (.ok (p.ids.filterMap (described s.query known))) := by
  have hread : Asks server ((descriptorIds s.query page).adapt Report.ofClientError).run []
      (.ok p.ids) := .adapt (descriptorIds_asks hids)
  have hlookup : Asks server
      (if p.ids.isEmpty then pure []
        else (s.client.descriptorsOfIds p.ids s.query).adapt (during fetchingDetails) :
        ExceptT Report Session (List Descriptor)).run
      (s.pageRequests p) (.ok (p.ids.filterMap (described s.query known))) := by
    unfold pageRequests
    cases hempty : p.ids.isEmpty with
    | true =>
      rw [List.isEmpty_iff.1 hempty]
      exact .pure _
    | false =>
      have hsome : p.ids ≠ [] := fun h => by simp [h] at hempty
      exact .adapt (Client.descriptorsOfIds_known hwhole hanswers (hcan hsome) honce hnormal)
  exact hread.bindExcept hlookup

theorem tagToDetails_prints (hresolves : server.Resolves s.client tag id url)
    (hlisting : s.client.taggedObjects id s.query = .ok (.start start s.query.showUrls))
    (hpages : server.Lists 0 (some start) pages)
    (hwhole : ∀ p ∈ pages, Whole p.ids) (hknows : server.Knows s.client known)
    (hcan : ∀ p ∈ pages, p.ids ≠ [] → s.client.CanLookUp p.ids)
    (honce : ∀ p ∈ pages, KnownOnce known p.ids)
    (hnormal : ∀ p ∈ pages, Normalizing s.query known p.ids) :
    Prints server (s.tagToDetails tag)
      ((getOf url).onWire :: pages.flatMap fun p => (getOf p.url).onWire :: s.pageRequests p)
      ((pages.flatMap (·.ids)).flatMap (s.detailLines known)) () := by
  have hwalk : Asks server (s.client.walk (during (listing tag)) s.pageDetails
      (.start start s.query.showUrls)) _ _ :=
    Client.walk_asks hpages (fun p hp page hids => pageDetails_asks hids (hwhole p hp)
      (hknows p.ids (hwhole p hp)) (hcan p hp) (honce p hp) (hnormal p hp)) _
  have hfinish : Prints server (finishWalk s.printDescriptors
      (pages.map fun p => p.ids.filterMap (described s.query known), none)) [] _ () :=
    finishWalk_prints fun ds _ => s.printDescriptors_prints ds
  simp only [List.flatMap_map, map_described] at hfinish
  have hread : Prints server (Command.ofExcept .ofClientError (s.client.taggedObjects id s.query))
      [] [] _ := .ofExcept hlisting
  rw [List.flatMap_assoc]
  exact (resolveTag_prints hresolves).bind
    (hread.bind ((Prints.inSession hwalk).askThenPrint hfinish))

def withInput (s : Setup) (input : List UInt8) : Setup := { s with input }

theorem sublist_of_mem_chunks {size : Nat} {ids chunk : List String} (h : chunk ∈ chunks size ids) :
    chunk.Sublist ids := by
  have hflat := List.sublist_flatten_of_mem h
  rwa [chunks_flatten] at hflat

theorem tagToIds_serves (hlists : server.ListsTag s.client s.query tag pages)
    (hwhole : Whole (pages.flatMap (·.ids))) :
    Serves server (s.tagToIds tag) (.ok ()) (pages.flatMap (·.ids)) := by
  obtain ⟨id, url, start, hresolves, hlisting, hlists⟩ := hlists
  refine (tagToIds_prints hresolves hlisting hlists fun p hp id hid => ?_).serves
  exact splitLines_of_whole (hwhole id (List.mem_flatMap.2 ⟨p, hp, hid⟩))

theorem known_once {ids sub : List String} (honce : ids.Nodup) (h : sub.Sublist ids) :
    KnownOnce known sub :=
  (honce.sublist h).sublist List.filter_sublist

theorem tagToDetails_serves (hlists : server.ListsTag s.client s.query tag pages)
    (hwhole : Whole (pages.flatMap (·.ids))) (honce : (pages.flatMap (·.ids)).Nodup)
    (hnormal : Normalizing s.query known (pages.flatMap (·.ids)))
    (hknows : server.Knows s.client known)
    (hpages : ∀ p ∈ pages, p.ids ≠ [] → s.client.CanLookUp p.ids) :
    Serves server (s.tagToDetails tag) (.ok ())
      ((pages.flatMap (·.ids)).flatMap (s.detailLines known)) := by
  obtain ⟨id, url, start, hresolves, hlisting, hlists⟩ := hlists
  have hsub : ∀ p ∈ pages, p.ids.Sublist (pages.flatMap (·.ids)) := by
    intro p hp
    rw [List.flatMap_def]
    exact List.sublist_flatten_of_mem (List.mem_map_of_mem hp)
  exact (tagToDetails_prints hresolves hlisting hlists
    (fun p hp id hid => hwhole id ((hsub p hp).mem hid)) hknows hpages
    (fun p hp => known_once honce (hsub p hp))
    (fun p hp id hid => hnormal id ((hsub p hp).mem hid))).serves

theorem idsToDetails_refused {args ids chunk : List String} {rest : List (List String)} {url : Url}
    {fault : Web.TransferFault} (hids : s.asked args = .ok ids)
    (hchunks : chunks s.query.pageSize ids = chunk :: rest)
    (hwhole : Whole chunk)
    (hurl : s.client.lookupUrl chunk = .ok url) (hfault : url.requestFault? = some fault) :
    Serves server (s.idsToDetails args) (.error (during fetchingDetails (.transfer fault))) [] := by
  have hchunk : ∀ t, ∃ log, runFrom (s.printDetails chunk) [] t =
      ((.error (during fetchingDetails (.transfer fault)), []), ⟨t.network, t.sent, log⟩) := by
    intro t
    refine ⟨((if s.query.showUrls then t.note (.request (redact url)) else t).note
      (.attempt 1 (redact url))).log, ?_⟩
    unfold printDetails
    rw [runFrom_bind, runFrom_exchange, Client.descriptorsOfIds_run, malformedId?_eq_none hwhole,
      hurl]
    simp only
    rw [fetchJson_refused _ hfault]
    cases s.query.showUrls <;> rfl
  obtain ⟨log, hlog⟩ := hchunk (.start (.scripted []))
  have hloop : runFrom ((chunks s.query.pageSize ids).forM s.printDetails) []
      (.start (.scripted [])) =
      ((.error (during fetchingDetails (.transfer fault)), []), ⟨.scripted [], [], log⟩) := by
    have hcons : (chunk :: rest).forM s.printDetails =
      s.printDetails chunk >>= fun _ => rest.forM s.printDetails := rfl
    rw [hchunks, hcons, runFrom_bind, hlog]
    rfl
  refine ⟨[], log, ?_⟩
  rw [runFrom_idsToDetails hids]
  exact hloop

end Setup

/-- The details of a tag are those of the ids that its listing prints. -/
theorem tag_routes_agree {s : Setup} {tag : String} {pages : List IdPage}
    (hlists : server.ListsTag s.client s.query tag pages)
    (hwhole : Whole (pages.flatMap (·.ids))) (honce : (pages.flatMap (·.ids)).Nodup)
    (hnormal : Normalizing s.query known (pages.flatMap (·.ids)))
    (hknows : server.Knows s.client known)
    (hpages : ∀ p ∈ pages, p.ids ≠ [] → s.client.CanLookUp p.ids)
    (hchunks : ∀ chunk ∈ chunks s.query.pageSize (pages.flatMap (·.ids)),
      s.client.CanLookUp chunk) :
    Serves server (s.tagToIds tag) (.ok ()) (pages.flatMap (·.ids)) ∧
    Serves server (s.tagToDetails tag) (.ok ())
      ((pages.flatMap (·.ids)).flatMap (s.detailLines known)) ∧
    Serves server ((s.withInput (outputBytes (pages.flatMap (·.ids)))).idsToDetails []) (.ok ())
      ((pages.flatMap (·.ids)).flatMap (s.detailLines known)) := by
  have hprinted : inputLines (outputBytes (pages.flatMap (·.ids))) = .ok (pages.flatMap (·.ids)) :=
    inputLines_outputBytes fun id hid => Text.not_blank_of_readInt64? (hwhole id hid)
  have hback : Prints server
      ((s.withInput (outputBytes (pages.flatMap (·.ids)))).idsToDetails []) _ _ () :=
    Setup.idsToDetails_prints (s := s.withInput _) hprinted hwhole hnormal hknows hchunks
      fun chunk hchunk => Setup.known_once honce (Setup.sublist_of_mem_chunks hchunk)
  exact ⟨Setup.tagToIds_serves hlists hwhole,
    Setup.tagToDetails_serves hlists hwhole honce hnormal hknows hpages, hback.serves⟩

/-- Answers by path: a tag, the two pages of its listing, and what is known of two ids. -/
def twoPagesAt (path : Web.Path) : Response :=
  let text :=
    if path = .segments ["v6.0".toList, "threat_tags".toList, []] then
      "\x7b\"data\":[\x7b\"id\":\"7\",\"text\":\"t\"\x7d]\x7d"
    else if path = .segments ["v6.0".toList, "7".toList, "tagged_objects".toList, []] then
      "\x7b\"data\":[\x7b\"id\":\"1\",\"type\":\"THREAT_DESCRIPTOR\"\x7d]," ++
        "\"paging\":\x7b\"next\":\"http://graph.test/next\"\x7d\x7d"
    else if path = .segments ["next".toList] then
      "\x7b\"data\":[\x7b\"id\":\"2\",\"type\":\"THREAT_DESCRIPTOR\"\x7d]\x7d"
    else "\x7b\"1\":\x7b\x7d,\"2\":\x7b\x7d\x7d"
  ⟨200, Text.Utf8.encode text.toList, true⟩

def twoPages : Server := fun r => twoPagesAt r.url.path

def knowsTwo (id : String) : Option Value :=
  if id = "1" ∨ id = "2" then some (.object []) else none

theorem twoPages_answers {url : Url} {path : Web.Path} {v : Value} (hpath : url.path = path)
    (h : readBody (twoPagesAt path) = .ok v) : twoPages.Answers url v := by
  have hreply : twoPages (getOf url).onWire = twoPagesAt path := by
    rw [twoPages, Client.onWire_path, ← hpath]
    rfl
  exact ⟨by rw [hreply]; rfl, by rw [hreply]; exact h⟩

def probeUrl (path : List String) : Url :=
  ⟨"http".toList, some ⟨none, .name "graph.test".toList, none⟩,
    .segments (path.map String.toList), none, none⟩

/-- The same with a token of `n` letters. -/
def letteredUrl (path : List String) (n : Nat) : Url :=
  (probeUrl path).appendPairs [(Web.tokenName, String.ofList (List.replicate n 'a'))]

def lettered (n : Nat) : Client := probe.withToken (String.ofList (List.replicate n 'a'))

theorem lettered_endpoint (n : Nat) {ids path : List String}
    (h : (probeUrl ["v6.0"]).extendPath? ids = some (probeUrl path)) :
    (lettered n).endpoint ids = .ok (letteredUrl path n) := by
  have hread : Url.read probe.baseUrl = .ok (probeUrl ["v6.0"]) := rfl
  obtain ⟨u, hu, -, -, hendpoint⟩ := Client.endpoint_eq (c := lettered n) hread rfl ids
  obtain rfl := Option.some.inj (h.symm.trans hu)
  exact hendpoint

theorem length_letteredUrl (path : List String) (n : Nat) :
    (letteredUrl path n).withoutUserinfo.print.length =
      (letteredUrl path 0).print.length + n := by
  have huser : (letteredUrl path n).withoutUserinfo = letteredUrl path n := rfl
  rw [huser, letteredUrl, Url.length_print_pair, encodeText_letters, List.length_replicate]
  rfl

theorem letteredUrl_sendable {path : List String} {n : Nat} {pairs : Web.Form.Pairs}
    (h : (letteredUrl path 0).print.length + n +
      (pairs.flatMap fun p => '&' :: Web.Form.encodePair p).length ≤ Url.maxLength) :
    ((letteredUrl path n).appendPairs pairs).requestFault? = none := by
  have hhttp : (probeUrl []).isHttp = true := by decide
  have hhost : (probeUrl []).hasSendableHost = true := by decide
  have hne : Web.Form.append [] [(Web.tokenName, String.ofList (List.replicate n 'a'))] ≠ [] := by
    simp [Web.Form.append, Web.Form.encodePair]
  have hlength := Url.length_print_appendPairs (u := (letteredUrl path n).withoutUserinfo) rfl hne
    pairs
  rw [← Web.withoutUserinfo_appendPairs, length_letteredUrl] at hlength
  exact Url.requestFault?_eq_none.2 ⟨hhttp, hhost, by rw [hlength]; exact h⟩

theorem lettered_canLookUp_iff (n : Nat) (ids : List String) : (lettered n).CanLookUp ids ↔
    n + (Web.Form.encodePair ("ids", String.intercalate "," ids)).length + 226 ≤ Url.maxLength := by
  have hroot : (probeUrl ["v6.0"]).extendPath? [] = some (probeUrl ["v6.0", ""]) := rfl
  have hplain : (letteredUrl ["v6.0", ""] 0).print.length = 37 := rfl
  have hhttp : (probeUrl []).isHttp = true := by decide
  have hhost : (probeUrl []).hasSendableHost = true := by decide
  rw [Client.canLookUp_iff (lettered_endpoint n hroot), length_letteredUrl, hplain,
    Client.length_fields]
  constructor
  · rintro ⟨-, -, h⟩
    omega
  · exact fun h => ⟨hhttp, hhost, by omega⟩

theorem twoPages_resolves {n : Nat} (hn : n ≤ 65303) : twoPages.Resolves (lettered n) "t" "7"
    ((letteredUrl ["v6.0", "threat_tags", ""] n).appendPairs [("text", "t")]) := by
  have hpath : (probeUrl ["v6.0"]).extendPath? ["threat_tags"] =
      some (probeUrl ["v6.0", "threat_tags", ""]) := rfl
  have hlength : (letteredUrl ["v6.0", "threat_tags", ""] 0).print.length = 49 := rfl
  have hpairs : ([("text", "t")].flatMap fun p => '&' :: Web.Form.encodePair p).length = 7 := rfl
  have hbody : readBody (twoPagesAt (probeUrl ["v6.0", "threat_tags", ""]).path) =
      .ok (.object [("data", .array [.object [("id", .string "7"), ("text", .string "t")]])]) := rfl
  refine ⟨?url, letteredUrl_sendable ?fault, _, [⟨"7", "t"⟩], twoPages_answers rfl hbody,
    rfl, rfl⟩
  case url =>
    rw [Client.tagUrl, lettered_endpoint n hpath]
    rfl
  case fault =>
    rw [hlength, hpairs, Url.maxLength]
    omega

def letteredSetup (n : Nat) : Setup := ⟨lettered n, { pageSize := 2 }, ⟨none, none⟩, 0, []⟩

def firstPage (n : Nat) : IdPage :=
  ⟨(letteredUrl ["v6.0", "7", "tagged_objects", ""] n).appendPairs [("limit", toString 2)],
    ["1"]⟩

def lastPage : IdPage := ⟨probeUrl ["next"], ["2"]⟩

def taggedItem (id : String) : Value :=
  .object [("id", .string id), ("type", .string descriptorType)]

theorem twoPages_lists {n : Nat} (hn : n ≤ 65303) :
    twoPages.Lists 0 (some (firstPage n).url) [firstPage n, lastPage] := by
  have hlength : (letteredUrl ["v6.0", "7", "tagged_objects", ""] 0).print.length = 54 := rfl
  have hpairs :
      ([("limit", toString 2)].flatMap fun p => '&' :: Web.Form.encodePair p).length = 8 := rfl
  have hfirst : readBody (twoPagesAt (probeUrl ["v6.0", "7", "tagged_objects", ""]).path) =
      .ok (.object [("data", .array [taggedItem "1"]),
        ("paging", .object [("next", .string "http://graph.test/next")])]) := rfl
  have hlast : readBody (twoPagesAt (probeUrl ["next"]).path) =
      .ok (.object [("data", .array [taggedItem "2"])]) := rfl
  have hreads : readPage 0 (.object [("data", .array [taggedItem "1"]),
      ("paging", .object [("next", .string "http://graph.test/next")])]) =
      .ok ⟨0, [taggedItem "1"], some (probeUrl ["next"])⟩ := rfl
  have hsendable : (firstPage n).url.requestFault? = none := by
    refine letteredUrl_sendable ?_
    rw [hlength, hpairs, Url.maxLength]
    omega
  refine .page hsendable (twoPages_answers rfl hfirst) hreads rfl ?_
  exact .page rfl (twoPages_answers rfl hlast) rfl rfl (.ended 2)

theorem twoPages_listsTag {n : Nat} (hn : n ≤ 65303) :
    twoPages.ListsTag (letteredSetup n).client (letteredSetup n).query "t"
      [firstPage n, lastPage] := by
  have hpath : (probeUrl ["v6.0"]).extendPath? ["7", "tagged_objects"] =
      some (probeUrl ["v6.0", "7", "tagged_objects", ""]) := rfl
  have hlisting : (lettered n).taggedObjects "7" (letteredSetup n).query =
      .ok (.start (firstPage n).url false) := by
    rw [Client.taggedObjects, lettered_endpoint n hpath]
    rfl
  exact ⟨"7", _, _, twoPages_resolves hn, hlisting, twoPages_lists hn⟩

theorem twoPages_knows (n : Nat) : twoPages.Knows (lettered n) knowsTwo := by
  have hroot : (probeUrl ["v6.0"]).extendPath? [] = some (probeUrl ["v6.0", ""]) := rfl
  have hbody : readBody (twoPagesAt (probeUrl ["v6.0", ""]).path) =
      .ok (.object [("1", .object []), ("2", .object [])]) := rfl
  intro ids _ url hurl
  rw [Client.lookupUrl, lettered_endpoint n hroot] at hurl
  obtain rfl := Except.ok.inj hurl
  refine ⟨_, twoPages_answers rfl hbody, fun id _ => ?_⟩
  unfold knowsTwo
  by_cases hone : id = "1"
  · subst hone
    rfl
  · by_cases htwo : id = "2"
    · subst htwo
      rfl
    · simp [Members.get?, hone, htwo, Ne.symm hone, Ne.symm htwo]

theorem knowsTwo_normal (n : Nat) (ids : List String) :
    Normalizing (letteredSetup n).query knowsTwo ids := by
  have hnormal : ∀ id ∈ ["1", "2"],
      (Descriptor.normalize (withId id (.object [])) true).toOption.isSome = true := by
    decide +kernel
  intro id _ raw hraw
  unfold knowsTwo at hraw
  split at hraw
  · next hid =>
    obtain rfl := Option.some.inj hraw
    have hsome := hnormal id (by simpa using hid)
    change ∃ d, Descriptor.normalize (withId id (.object [])) true = .ok d
    cases hd : Descriptor.normalize (withId id (.object [])) true with
    | error e => simp [hd, Except.toOption] at hsome
    | ok d => exact ⟨d, rfl⟩
  · cases hraw

/-- With short URLs, both routes lead to the same. -/
theorem two_pages_agree :
    Serves twoPages ((letteredSetup 0).tagToIds "t") (.ok ()) ["1", "2"] ∧
    Serves twoPages ((letteredSetup 0).tagToDetails "t") (.ok ())
      (["1", "2"].flatMap ((letteredSetup 0).detailLines knowsTwo)) ∧
    Serves twoPages (((letteredSetup 0).withInput (outputBytes ["1", "2"])).idsToDetails [])
      (.ok ()) (["1", "2"].flatMap ((letteredSetup 0).detailLines knowsTwo)) := by
  have hshort : ∀ ids ∈ [["1"], ["2"], ["1", "2"]],
      0 + (Web.Form.encodePair ("ids", String.intercalate "," ids)).length + 226 ≤
        Url.maxLength := by decide +kernel
  have hcan : ∀ ids ∈ [["1"], ["2"], ["1", "2"]], (lettered 0).CanLookUp ids := fun ids h =>
    (lettered_canLookUp_iff 0 ids).2 (hshort ids h)
  have hchunks : ∀ chunk ∈ chunks 2 ["1", "2"], chunk = ["1", "2"] := by decide +kernel
  refine tag_routes_agree (twoPages_listsTag (Nat.zero_le _)) (by decide) (by decide)
    (knowsTwo_normal 0 _) (twoPages_knows 0) (fun p hp _ => hcan p.ids ?_)
    fun chunk hchunk => hcan chunk ?_
  · rcases List.mem_pair.1 hp with rfl | rfl
    · exact .head _
    · exact .tail _ (.head _)
  · rw [hchunks chunk hchunk]
    exact .tail _ (.tail _ (.head _))

/-- With as many letters as leave room for one id, there is none for two. -/
theorem pair_refused : ∃ result, Serves twoPages
    (((letteredSetup 65303).withInput (outputBytes ["1", "2"])).idsToDetails []) result [] := by
  have hlong : ¬ 65303 + (Web.Form.encodePair ("ids", String.intercalate "," ["1", "2"])).length +
      226 ≤ Url.maxLength := by decide
  have hroot : (probeUrl ["v6.0"]).extendPath? [] = some (probeUrl ["v6.0", ""]) := rfl
  have hchunks : chunks 2 ["1", "2"] = [["1", "2"]] := by simp [chunks]
  have hwhole : Whole ["1", "2"] := by decide
  have hprinted : inputLines (outputBytes ["1", "2"]) = .ok ["1", "2"] :=
    inputLines_outputBytes fun id hid => Text.not_blank_of_readInt64? (hwhole id hid)
  obtain ⟨url, hurl⟩ : ∃ url, (lettered 65303).lookupUrl ["1", "2"] = .ok url := by
    rw [Client.lookupUrl, lettered_endpoint _ hroot]
    exact ⟨_, rfl⟩
  cases hfault : url.requestFault? with
  | none => exact absurd ((lettered_canLookUp_iff _ _).1 ⟨url, hurl, hfault⟩) hlong
  | some fault =>
    exact ⟨_, Setup.idsToDetails_refused (s := (letteredSetup 65303).withInput _) hprinted hchunks
      hwhole hurl hfault⟩

/-- Without a bound on lookups the routes part: with a long token, the lookup of each page can be
requested, and that of both ids together cannot. -/
theorem tag_routes_part :
    ¬ ∀ (s : Setup) (server : Server) (known : String → Option Value) (tag : String)
        (pages : List IdPage) (ids lines lines' : List String)
        (result result' : Except Report Unit),
        server.ListsTag s.client s.query tag pages →
        Whole (pages.flatMap (·.ids)) →
        (pages.flatMap (·.ids)).Nodup → Normalizing s.query known (pages.flatMap (·.ids)) →
        server.Knows s.client known →
        Serves server (s.tagToIds tag) (.ok ()) ids →
        Serves server (s.tagToDetails tag) result lines →
        Serves server ((s.withInput (outputBytes ids)).idsToDetails []) result' lines' →
        lines = lines' := by
  intro h
  have hn : 65303 ≤ 65303 := Nat.le_refl _
  have hshort : ∀ ids ∈ [["1"], ["2"]],
      65303 + (Web.Form.encodePair ("ids", String.intercalate "," ids)).length + 226 ≤
        Url.maxLength := by decide +kernel
  have hpages : ∀ p ∈ [firstPage 65303, lastPage], p.ids ≠ [] →
      (lettered 65303).CanLookUp p.ids := by
    intro p hp _
    rcases List.mem_pair.1 hp with rfl | rfl
    · exact (lettered_canLookUp_iff _ _).2 (hshort ["1"] (.head _))
    · exact (lettered_canLookUp_iff _ _).2 (hshort ["2"] (.tail _ (.head _)))
  have hids : Serves twoPages ((letteredSetup 65303).tagToIds "t") (.ok ()) ["1", "2"] :=
    Setup.tagToIds_serves (twoPages_listsTag hn) (by decide)
  have hdetails : Serves twoPages ((letteredSetup 65303).tagToDetails "t") (.ok ())
      (["1", "2"].flatMap ((letteredSetup 65303).detailLines knowsTwo)) :=
    Setup.tagToDetails_serves (twoPages_listsTag hn) (by decide) (by decide) (knowsTwo_normal _ _)
      (twoPages_knows _) hpages
  obtain ⟨result, hrefused⟩ := pair_refused
  have hsame := h (letteredSetup 65303) twoPages knowsTwo "t" [firstPage 65303, lastPage] ["1", "2"]
    _ _ _ _ (twoPages_listsTag hn) (by decide) (by decide) (knowsTwo_normal _ _)
    (twoPages_knows _) hids hdetails hrefused
  have hlines : ∀ n, (["1", "2"].flatMap ((letteredSetup n).detailLines knowsTwo)).length = 2 := by
    intro n
    change (["1", "2"].flatMap ((letteredSetup 0).detailLines knowsTwo)).length = 2
    decide +kernel
  have hlength := congrArg List.length hsame
  rw [hlines] at hlength
  cases hlength

end Command
end ThreatGraph
