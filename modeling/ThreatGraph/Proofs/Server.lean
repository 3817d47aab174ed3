import ThreatGraph.Proofs.CommandRuns
import ThreatGraph.Proofs.Lengths
import ThreatGraph.Proofs.Lockstep

/-!
# Runs against a server

A server answers a request by itself, whatever came before.  A run asks a server some requests if,
given the answers to just these, it sends them and leaves whatever else there is for it.  Runs that
ask a server compose: the requests of the second half follow those of the first.
-/

namespace ThreatGraph

open Json (Value Members)
open Web (Network Reply Request Response Url redact)

abbrev Server := Request → Response

namespace Server

def script (server : Server) (requests : List Request) : List Reply :=
  requests.map fun r => .response (server r)

theorem script_append (server : Server) (requests more : List Request) :
    server.script (requests ++ more) = server.script requests ++ server.script more :=
  List.map_append

/-- A read of the URL is answered with success and a JSON value. -/
def Answers (server : Server) (url : Url) (v : Value) : Prop :=
  Web.Status.isSuccess (server (getOf url).onWire).status = true ∧
    readBody (server (getOf url).onWire) = .ok v

end Server

variable {server : Server} {requests more : List Request} {α β : Type} {a : α} {b : β}

/-- A session that asks the server for these requests, and what it gives. -/
def Asks (server : Server) (s : Session α) (requests : List Request) (a : α) : Prop :=
  ∀ rest t, t.network = .scripted (server.script requests ++ rest) →
    (s.run t).1 = a ∧ (s.run t).2.network = .scripted rest ∧ (s.run t).2.sent = t.sent ++ requests

namespace Asks

theorem silent {s : Session α} (h : Silent s) (hresult : ∀ t, (s.run t).1 = a) :
    Asks server s [] a :=
  fun _ t ht => ⟨hresult t, (h t).1.trans ht, by rw [(h t).2, List.append_nil]⟩

theorem bind {s : Session α} {f : α → Session β} (hs : Asks server s requests a)
    (hf : Asks server (f a) more b) : Asks server (s >>= f) (requests ++ more) b := by
  intro rest t ht
  rw [Server.script_append, List.append_assoc] at ht
  obtain ⟨hresult, hnetwork, hsent⟩ := hs _ t ht
  obtain ⟨hresult', hnetwork', hsent'⟩ := hf rest (s.run t).2 hnetwork
  rw [run_bind, hresult]
  exact ⟨hresult', hnetwork', by rw [hsent', hsent, List.append_assoc]⟩

theorem bindExcept {ε : Type} {x : ExceptT ε Session α} {f : α → ExceptT ε Session β}
    {result : Except ε β} (hx : Asks server x.run requests (.ok a))
    (hf : Asks server (f a).run more result) :
    Asks server (x >>= f).run (requests ++ more) result := by
  rw [ExceptT.run_bind]
  exact hx.bind hf

theorem pure (a : α) : Asks server (pure a) [] a := silent (.pure a) fun _ => rfl

theorem adapt {ε ε' : Type} {wrap : ε → ε'} {x : ExceptT ε Session α}
    (h : Asks server x.run requests (.ok a)) : Asks server (x.adapt wrap).run requests (.ok a) := by
  have hmapped : Asks server (Pure.pure ((Except.ok a : Except ε α).mapError wrap)) [] (.ok a) :=
    pure _
  have hmap := h.bind (f := fun result => Pure.pure (result.mapError wrap)) hmapped
  rw [List.append_nil] at hmap
  exact hmap

theorem ofExcept {ε : Type} {wrap : ε → ClientError} {x : Except ε α} (h : x = .ok a) :
    Asks server (Exchange.ofExcept wrap x).run [] (.ok a) :=
  silent (.ofExcept wrap x) fun t => by rw [run_ofExcept, h]; rfl

theorem noteIf (wanted : Bool) (e : Event) :
    Asks server (monadLift (noteIf wanted e) : Exchange Unit).run [] (.ok ()) :=
  silent (.lift (.noteIf wanted e)) fun _ => rfl

end Asks

theorem fetchFrom_asks {url : Url} {v : Value} (hfault : url.requestFault? = none)
    (h : server.Answers url v) (attempt retries : Nat) :
    Asks server (fetchFrom url attempt retries).run [(getOf url).onWire] (.ok v) := by
  intro rest t ht
  have hsend : (t.note (.attempt attempt (redact url))).send (getOf url) =
      (.ok (server (getOf url).onWire),
        ⟨.scripted rest, t.sent ++ [(getOf url).onWire],
          (t.note (.attempt attempt (redact url))).log⟩) := by
    simp only [Traffic.send, getOf, hfault, Traffic.note, ht]
    rfl
  have hjudge : judge url (server (getOf url).onWire) = .ok (.done v) := by
    rw [judge, if_pos h.1, h.2]
    rfl
  have htry := tryFetch_run url attempt t
  rw [hsend] at htry
  simp only [hjudge] at htry
  cases retries with
  | zero =>
    rw [fetchFrom_zero_run, htry]
    exact ⟨rfl, rfl, rfl⟩
  | succ retries =>
    rw [fetchFrom_succ_run, htry]
    exact ⟨rfl, rfl, rfl⟩

theorem Client.fetchJson_asks (c : Client) {url : Url} {v : Value}
    (hfault : url.requestFault? = none) (h : server.Answers url v) :
    Asks server (c.fetchJson url).run [(getOf url).onWire] (.ok v) :=
  fetchFrom_asks hfault h 1 (c.maxAttempts - 1)

/-- The descriptor that is made of what is known of an id. -/
def described (opts : QueryOptions) (known : String → Option Value) (id : String) :
    Option Descriptor :=
  (known id).bind fun raw => (Descriptor.normalize (withId id raw) opts.includeIndicator).toOption

/-- Whatever is known of these ids can be normalized. -/
def Normalizing (opts : QueryOptions) (known : String → Option Value) (ids : List String) : Prop :=
  ∀ id ∈ ids, ∀ raw, known id = some raw →
    ∃ d, Descriptor.normalize (withId id raw) opts.includeIndicator = .ok d

/-- None of these ids of which something is known stands there twice. -/
abbrev KnownOnce (known : String → Option Value) (ids : List String) : Prop :=
  (ids.filter fun id => (known id).isSome).Nodup

theorem collectDescriptors_known {opts : QueryOptions} {known : String → Option Value}
    {ids : List String} {byId : Members Value} (hknown : ∀ id ∈ ids, byId.get? id = known id)
    (honce : KnownOnce known ids) (hnormal : Normalizing opts known ids) (t : Traffic) :
    ((collectDescriptors opts ids byId).run.run t).1 =
      .ok (ids.filterMap (described opts known)) := by
  -- Each step takes its member away, which the ids to come do not miss: none of them is this one.
  induction ids generalizing byId t with
  | nil => rfl
  | cons id ids ih =>
    obtain ⟨hid, hknown⟩ := List.forall_mem_cons.1 hknown
    obtain ⟨hidNormal, hnormal⟩ := List.forall_mem_cons.1 hnormal
    unfold KnownOnce at honce
    unfold collectDescriptors
    rw [hid]
    cases hraw : known id with
    | none =>
      rw [List.filter_cons_of_neg (by simp [hraw])] at honce
      rw [List.filterMap_cons_none (by simp [described, hraw])]
      exact ih hknown honce hnormal _
    | some raw =>
      obtain ⟨d, hd⟩ := hidNormal raw hraw
      rw [List.filter_cons_of_pos (by simp [hraw]), List.nodup_cons] at honce
      have herased : ∀ id' ∈ ids, Members.get? id' (Members.erase id byId) = known id' := by
        intro id' hid'
        rw [Members.get?_erase]
        by_cases heq : id' = id
        · subst heq
          exact absurd (List.mem_filter.2 ⟨hid', by simp [hraw]⟩) honce.1
        · rw [if_neg heq, hknown id' hid']
      have hdescribed : described opts known id = some d := by
        simp [described, hraw, hd, Except.toOption]
      rw [List.filterMap_cons_some hdescribed]
      simp only
      rw [run_exchange_bind, run_ofExcept, hd]
      simp only [mapError_ok]
      rw [run_lift_bind, run_exchange_bind]
      generalize ((ThreatGraph.noteIf opts.verbose (.descriptor d.line)).run t).2 = u
      have hrest := ih herased honce.2 hnormal u
      rcases hr : (collectDescriptors opts ids (Members.erase id byId)).run.run u with ⟨result, w⟩
      rw [hr] at hrest
      obtain rfl : result = _ := hrest
      rfl

abbrev Whole (ids : List String) : Prop := ∀ id ∈ ids, (Text.readInt64? id).isSome = true

/-- The server answers a lookup of ids with an object that has what is known of each. -/
def Server.AnswersLookup (server : Server) (c : Client) (known : String → Option Value)
    (ids : List String) : Prop :=
  ∀ url, c.lookupUrl ids = .ok url → ∃ ms : Members Value, server.Answers url (.object ms) ∧
    ∀ id ∈ ids, Members.get? id ms = known id

/-- All lookups are answered with what is known. -/
def Server.Knows (server : Server) (c : Client) (known : String → Option Value) : Prop :=
  ∀ ids, Whole ids → server.AnswersLookup c known ids

def Client.lookupRequests (c : Client) (ids : List String) : List Request :=
  match c.lookupUrl ids with
  | .ok url => [(getOf url).onWire]
  | .error _ => []

theorem malformedId?_eq_none {ids : List String} (h : Whole ids) : malformedId? ids = none := by
  refine List.find?_eq_none.2 fun id hid => ?_
  have hsome := h id hid
  cases hread : Text.readInt64? id with
  | some n => simp
  | none => simp [hread] at hsome

theorem Client.descriptorsOfIds_asks {c : Client} {opts : QueryOptions} {ids : List String}
    {url : Url} {byId : Members Value} {ds : List Descriptor}
    (hwhole : Whole ids) (hurl : c.lookupUrl ids = .ok url)
    (hfault : url.requestFault? = none) (hanswers : server.Answers url (.object byId))
    (hcollect : ∀ t, ((collectDescriptors opts ids byId).run.run t).1 = .ok ds) :
    Asks server (c.descriptorsOfIds ids opts).run (c.lookupRequests ids) (.ok ds) := by
  have hrequests : c.lookupRequests ids = [(getOf url).onWire] := by rw [lookupRequests, hurl]
  rw [lookupUrl] at hurl
  cases hendpoint : c.endpoint [] with
  | error e =>
    rw [hendpoint] at hurl
    cases hurl
  | ok u =>
    rw [hendpoint] at hurl
    obtain rfl := Except.ok.inj hurl
    rw [hrequests]
    unfold descriptorsOfIds
    rw [malformedId?_eq_none hwhole]
    exact (Asks.ofExcept hendpoint).bindExcept ((Asks.noteIf _ _).bindExcept
      ((c.fetchJson_asks hfault hanswers).bindExcept
        (.silent (silent_collectDescriptors opts ids byId) hcollect)))

theorem Client.descriptorsOfIds_known {c : Client} {opts : QueryOptions}
    {known : String → Option Value} {ids : List String}
    (hwhole : Whole ids) (hanswers : server.AnswersLookup c known ids) (hurl : c.CanLookUp ids)
    (honce : KnownOnce known ids) (hnormal : Normalizing opts known ids) :
    Asks server (c.descriptorsOfIds ids opts).run (c.lookupRequests ids)
      (.ok (ids.filterMap (described opts known))) := by
  obtain ⟨url, hurl, hfault⟩ := hurl
  obtain ⟨byId, hanswers, hknown⟩ := hanswers url hurl
  exact c.descriptorsOfIds_asks hwhole hurl hfault hanswers
    (collectDescriptors_known hknown honce hnormal)

namespace Command

variable {lines out : List String}

/-- A run that asks the server for these requests and prints these lines, and what it gives. -/
def Prints (server : Server) (x : Run α) (requests : List Request) (lines : List String)
    (a : α) : Prop :=
  ∀ rest out t, t.network = .scripted (server.script requests ++ rest) →
    (runFrom x out t).1 = (.ok a, out ++ lines) ∧
    (runFrom x out t).2.network = .scripted rest ∧ (runFrom x out t).2.sent = t.sent ++ requests

/-- A run whose requests the server answers comes to this result and prints these lines. -/
def Serves (server : Server) (x : Run α) (result : Except Report α) (lines : List String) : Prop :=
  ∃ requests log, runFrom x [] (.start (.scripted (server.script requests))) =
    ((result, lines), ⟨.scripted [], requests, log⟩)

namespace Prints

theorem pure (a : α) : Prints server (pure a) [] [] a :=
  fun _ out t ht => by
    rw [runFrom_pure]
    exact ⟨by rw [List.append_nil], ht, (List.append_nil _).symm⟩

theorem bind {x : Run α} {f : α → Run β} {moreLines : List String}
    (hx : Prints server x requests lines a) (hf : Prints server (f a) more moreLines b) :
    Prints server (x >>= f) (requests ++ more) (lines ++ moreLines) b := by
  intro rest out t ht
  rw [Server.script_append, List.append_assoc] at ht
  obtain ⟨hresult, hnetwork, hsent⟩ := hx _ out t ht
  rw [runFrom_bind]
  rcases hr : runFrom x out t with ⟨result, u⟩
  rw [hr] at hresult hnetwork hsent
  obtain rfl : result = _ := hresult
  obtain ⟨hresult', hnetwork', hsent'⟩ := hf rest (out ++ lines) u hnetwork
  exact ⟨by rw [hresult', List.append_assoc], hnetwork', by rw [hsent', hsent, List.append_assoc]⟩

theorem askThenPrint {x : Run α} {f : α → Run β} (hx : Prints server x requests [] a)
    (hf : Prints server (f a) [] lines b) : Prints server (x >>= f) requests lines b := by
  have h := hx.bind hf
  rw [List.append_nil] at h
  exact h

theorem printText {text : String} (h : splitLines text = [text]) :
    Prints server (printText text) [] [text] () :=
  fun _ out t ht => by
    rw [runFrom_printText, h]
    exact ⟨rfl, ht, (List.append_nil _).symm⟩

theorem inSession {s : Session α} (h : Asks server s requests a) :
    Prints server (inSession s) requests [] a := by
  intro rest out t ht
  obtain ⟨hresult, hnetwork, hsent⟩ := h rest t ht
  rw [runFrom_inSession, hresult, List.append_nil]
  exact ⟨rfl, hnetwork, hsent⟩

theorem ofExcept {ε : Type} {report : ε → Report} {x : Except ε α} (h : x = .ok a) :
    Prints server (ofExcept report x) [] [] a := by
  rw [h]
  exact pure a

theorem exchange {report : ClientError → Report} {x : Exchange α}
    (h : Asks server x.run requests (.ok a)) : Prints server (exchange report x) requests [] a :=
  (inSession h).askThenPrint (pure a)

theorem serves {x : Run α} (h : Prints server x requests lines a) :
    Serves server x (.ok a) lines := by
  obtain ⟨hresult, hnetwork, hsent⟩ := h [] [] (.start (.scripted (server.script requests)))
    (by rw [List.append_nil, Traffic.start])
  rcases hr : runFrom x [] (.start (.scripted (server.script requests))) with
    ⟨result, network, sent, log⟩
  rw [hr] at hresult hnetwork hsent
  obtain rfl : result = _ := hresult
  obtain rfl : network = _ := hnetwork
  obtain rfl : sent = _ := hsent
  exact ⟨_, log, hr⟩

theorem forM {as : List α} {f : α → Run Unit} {asked : α → List Request}
    {printed : α → List String}
    (h : ∀ a ∈ as, Prints server (f a) (asked a) (printed a) ()) :
    Prints server (as.forM f) (as.flatMap asked) (as.flatMap printed) () := by
  induction as with
  | nil => exact pure ()
  | cons a as ih =>
    obtain ⟨ha, has⟩ := List.forall_mem_cons.1 h
    exact ha.bind (ih has)

theorem forM_silent {as : List α} {f : α → Run Unit} {printed : α → List String}
    (h : ∀ a ∈ as, Prints server (f a) [] (printed a) ()) :
    Prints server (as.forM f) [] (as.flatMap printed) () := by
  have hloop : Prints server (as.forM f) _ _ () := forM h
  rw [List.flatMap_eq_nil_iff.2 fun _ _ => rfl] at hloop
  exact hloop

end Prints

end Command
end ThreatGraph
