import Mathlib.Data.List.Forall2
import ThreatGraph.Client.Lookup
import ThreatGraph.Proofs.Fetch

/-!
# Two runs side by side

Two runs that differ in something neither of them shows.  A `Pairing` says which URLs, responses and
values may stand for each other, and how failures compare; from that follows, call by call, that the
runs log the same and send requests that stand for each other.  A failure may also be one that only
one of the runs has; there the runs part, and nothing is said of what follows.
-/

namespace ThreatGraph

open Json (Value Members Mismatch)
open Web (Network Reply Request Response TransferFault Url redact)

variable {ε ε' α α' β β' : Type}

/-- How the failures of two runs compare: those that stand for each other, and those that the first
or the second run has alone. -/
structure Failures (ε : Type) where
  same : ε → ε → Prop
  left : ε → Prop
  right : ε → Prop

namespace Failures

/-- What becomes a failure by `wrap`, compared as such. -/
def under (F : Failures ε) (wrap : ε' → ε) : Failures ε' :=
  ⟨fun e e' => F.same (wrap e) (wrap e'), fun e => F.left (wrap e), fun e => F.right (wrap e)⟩

/-- Results with which two runs go on side by side. -/
inductive Alike (F : Failures ε) (R : α → β → Prop) : Except ε α → Except ε β → Prop
  | ok {a : α} {b : β} (h : R a b) : F.Alike R (.ok a) (.ok b)
  | error {e e' : ε} (h : F.same e e') : F.Alike R (.error e) (.error e')

/-- Results of which one is a failure of its own. -/
def Parted (F : Failures ε) (x : Except ε α) (y : Except ε β) : Prop :=
  (∃ e, x = .error e ∧ F.left e) ∨ ∃ e, y = .error e ∧ F.right e

/-- Walks that delivered the same for all that can be seen. -/
structure AlikeWalks (F : Failures ε) (R : α → β → Prop) (w : Client.Walk ε α)
    (w' : Client.Walk ε β) : Prop where
  delivered : List.Forall₂ R w.1 w'.1
  failure : Option.Rel F.same w.2 w'.2

def PartedWalks (F : Failures ε) (w : Client.Walk ε α) (w' : Client.Walk ε β) : Prop :=
  (∃ e, w.2 = some e ∧ F.left e) ∨ ∃ e, w'.2 = some e ∧ F.right e

/-- Failures that compare the same way among others. -/
structure Within (F G : Failures ε) : Prop where
  same : ∀ {e e'}, F.same e e' → G.same e e'
  left : ∀ {e}, F.left e → G.left e
  right : ∀ {e}, F.right e → G.right e

theorem Within.refl (F : Failures ε) : F.Within F := ⟨id, id, id⟩

theorem alike_refl {F : Failures ε} (hrefl : ∀ e, F.same e e) (x : Except ε α) :
    F.Alike Eq x x := by
  cases x with
  | ok a => exact .ok rfl
  | error e => exact .error (hrefl e)

theorem Alike.imp {F : Failures ε} {R R' : α → β → Prop} (hR : ∀ a b, R a b → R' a b)
    {x : Except ε α} {y : Except ε β} (h : F.Alike R x y) : F.Alike R' x y := by
  cases h with
  | ok h => exact .ok (hR _ _ h)
  | error h => exact .error h

end Failures

/-- What may go wrong with one of two URLs before a request reaches the network goes wrong with the
other, unless the runs part over it. -/
inductive AlikeFaults (F : Failures ClientError) (u u' : Url) : Prop
  | refused {f f' : TransferFault} (h : u.requestFault? = some f) (h' : u'.requestFault? = some f')
    (hsame : F.same (.transfer f) (.transfer f'))
  | sendable (h : u.requestFault? = none) (h' : u'.requestFault? = none)
    (hunreachable : F.same (.transfer (.unreachable u.withoutUserinfo.text))
      (.transfer (.unreachable u'.withoutUserinfo.text)))
    (hclosed : F.same (.transfer (.closed u.withoutUserinfo.text))
      (.transfer (.closed u'.withoutUserinfo.text)))
  | left {f : TransferFault} (h : u.requestFault? = some f) (halone : F.left (.transfer f))
  | right {f : TransferFault} (h : u'.requestFault? = some f) (halone : F.right (.transfer f))

/-- Pages that are the same but for their items. -/
structure AlikePages (R : Value → Value → Prop) (p p' : Page) : Prop where
  index : p.index = p'.index
  data : List.Forall₂ R p.data p'.data
  next : p.next = p'.next

/-- What may stand for what in two runs. -/
structure Pairing where
  url : Url → Url → Prop
  response : Response → Response → Prop
  /-- The bodies of two responses. -/
  value : Value → Value → Prop
  /-- The items of two pages. -/
  item : Value → Value → Prop
  failures : Failures ClientError
  url_refl : ∀ u, url u u
  url_append : ∀ {u u'} pairs, url u u' → url (u.appendPairs pairs) (u'.appendPairs pairs)
  url_target : ∀ {u u'}, url u u' → url u.target u'.target
  url_redact : ∀ {u u'}, url u u' → redact u = redact u'
  url_fault : ∀ {u u'}, url u u' → AlikeFaults failures u u'
  same_refl : ∀ e, failures.same e e
  response_refl : ∀ r, response r r
  response_status : ∀ {r r'}, response r r' → r.status = r'.status
  response_body : ∀ {r r'}, response r r' → Web.Status.isSuccess r.status = true →
    failures.Alike value (readBody r) (readBody r')
  response_error : ∀ {r r'}, response r r' → Web.Status.isSuccess r.status = false → ∀ url,
    failures.same (.status ⟨r.status, url, errorBody r⟩) (.status ⟨r.status, url, errorBody r'⟩)
  value_page : ∀ {v v'}, value v v' → ∀ index,
    failures.Alike (AlikePages item) (readPage index v) (readPage index v')

/-- Replies of which the responses may stand for each other. -/
inductive AlikeReplies (R : Response → Response → Prop) : Reply → Reply → Prop
  | response {r r' : Response} (h : R r r') : AlikeReplies R (.response r) (.response r')
  | closed : AlikeReplies R .closed .closed

/-- Networks that give such replies in the same order. -/
inductive AlikeNetworks (R : Response → Response → Prop) : Network → Network → Prop
  | down : AlikeNetworks R .down .down
  | scripted {replies replies' : List Reply}
    (h : List.Forall₂ (AlikeReplies R) replies replies') :
    AlikeNetworks R (.scripted replies) (.scripted replies')

theorem AlikeNetworks.size_eq {R : Response → Response → Prop} {n n' : Network}
    (h : AlikeNetworks R n n') : n.size = n'.size := by
  cases h with
  | down => rfl
  | scripted h => exact h.length_eq

namespace Pairing

/-- Requests that are the same but for their URLs. -/
structure Requests (P : Pairing) (r r' : Request) : Prop where
  method : r.method = r'.method
  url : P.url r.url r'.url
  form : r.form = r'.form

/-- What two runs that go on side by side have left behind. -/
structure Alongside (P : Pairing) (t t' : Traffic) : Prop where
  network : AlikeNetworks P.response t.network t'.network
  sent : List.Forall₂ P.Requests t.sent t'.sent
  log : t.log = t'.log

structure Listings (P : Pairing) (l l' : Listing) : Prop where
  next : Option.Rel P.url l.next l'.next
  index : l.index = l'.index
  showUrls : l.showUrls = l'.showUrls

variable {P : Pairing}

theorem links_refl (P : Pairing) (link : Option Url) : Option.Rel P.url link link := by
  cases link with
  | none => exact .none
  | some u => exact .some (P.url_refl u)

theorem Alongside.start {n n' : Network} (h : AlikeNetworks P.response n n') :
    P.Alongside (.start n) (.start n') := ⟨h, .nil, rfl⟩

theorem Alongside.note {t t' : Traffic} (h : P.Alongside t t') (e : Event) :
    P.Alongside (t.note e) (t'.note e) :=
  ⟨h.network, h.sent, congrArg (· ++ [e]) h.log⟩

end Pairing

/-- Two sessions stay side by side and give results that are alike, or they part. -/
def Lockstep (P : Pairing) (R X : α → β → Prop) (s : Session α) (s' : Session β) : Prop :=
  ∀ t t', P.Alongside t t' →
    (R (s.run t).1 (s'.run t').1 ∧ P.Alongside (s.run t).2 (s'.run t').2) ∨
      X (s.run t).1 (s'.run t').1

/-- Lockstep of what may fail. -/
abbrev InStep (P : Pairing) (F : Failures ε) (R : α → β → Prop) (x : ExceptT ε Session α)
    (x' : ExceptT ε Session β) : Prop :=
  Lockstep P (F.Alike R) F.Parted x.run x'.run

/-- Sessions that never part. -/
abbrev Together (P : Pairing) (R : α → β → Prop) (s : Session α) (s' : Session β) : Prop :=
  Lockstep P R (fun _ _ => False) s s'

namespace Lockstep

variable {P : Pairing} {R X : α → β → Prop}

theorem pure {a : α} {b : β} (h : R a b) : Lockstep P R X (pure a) (pure b) :=
  fun _ _ ht => .inl ⟨h, ht⟩

theorem imp {R' X' : α → β → Prop} {s : Session α} {s' : Session β} (hs : Lockstep P R X s s')
    (hR : ∀ a b, R a b → R' a b) (hX : ∀ a b, X a b → X' a b) : Lockstep P R' X' s s' := by
  intro t t' ht
  rcases hs t t' ht with ⟨h, ht⟩ | h
  · exact .inl ⟨hR _ _ h, ht⟩
  · exact .inr (hX _ _ h)

/-- What is done after sessions have parted has to keep them parted. -/
theorem bind {R' Y : α' → β' → Prop} {s : Session α} {s' : Session β} {f : α → Session α'}
    {f' : β → Session β'} (hs : Lockstep P R X s s')
    (hf : ∀ a b, R a b → Lockstep P R' Y (f a) (f' b))
    (hX : ∀ a b, X a b → ∀ t t', Y ((f a).run t).1 ((f' b).run t').1) :
    Lockstep P R' Y (s >>= f) (s' >>= f') := by
  intro t t' ht
  rw [run_bind, run_bind]
  rcases hs t t' ht with ⟨h, ht⟩ | h
  · exact hf _ _ h _ _ ht
  · exact .inr (hX _ _ h _ _)

theorem note (e : Event) : Together P Eq (note e) (note e) :=
  fun _ _ ht => .inl ⟨rfl, ht.note e⟩

theorem noteIf (wanted : Bool) (e : Event) : Together P Eq (noteIf wanted e) (noteIf wanted e) := by
  cases wanted with
  | true => exact note e
  | false => exact Lockstep.pure rfl

end Lockstep

namespace InStep

variable {P : Pairing} {F : Failures ε} {R : α → β → Prop}

theorem pure {a : α} {b : β} (h : R a b) :
    InStep P F R (pure a : ExceptT ε Session α) (pure b : ExceptT ε Session β) :=
  Lockstep.pure (.ok h)

theorem throw {e e' : ε} (h : F.same e e') :
    InStep P F R (throw e : ExceptT ε Session α) (throw e' : ExceptT ε Session β) :=
  Lockstep.pure (.error h)

theorem bind {R' : α' → β' → Prop} {x : ExceptT ε Session α} {x' : ExceptT ε Session β}
    {f : α → ExceptT ε Session α'} {f' : β → ExceptT ε Session β'} (hx : InStep P F R x x')
    (hf : ∀ a b, R a b → InStep P F R' (f a) (f' b)) : InStep P F R' (x >>= f) (x' >>= f') := by
  unfold InStep
  rw [ExceptT.run_bind, ExceptT.run_bind]
  refine Lockstep.bind hx (fun a b hab => ?_) (fun a b hab t t' => ?_)
  · cases hab with
    | ok h => exact hf _ _ h
    | error h => exact Lockstep.pure (.error h)
  · rcases hab with ⟨e, rfl, h⟩ | ⟨e, rfl, h⟩
    · exact .inl ⟨e, rfl, h⟩
    · exact .inr ⟨e, rfl, h⟩

theorem lift {s : Session α} {s' : Session β} (hs : Together P R s s') :
    InStep P F R (liftM s : ExceptT ε Session α) (liftM s' : ExceptT ε Session β) := by
  intro t t' ht
  rcases hs t t' ht with ⟨h, ht⟩ | h
  · exact .inl ⟨.ok h, ht⟩
  · exact h.elim

theorem ofExcept {F : Failures ClientError} {wrap : ε → ClientError} {x : Except ε α}
    {y : Except ε β} (h : (F.under wrap).Alike R x y) :
    InStep P F R (Exchange.ofExcept wrap x) (Exchange.ofExcept wrap y) := by
  cases h with
  | ok h => exact pure h
  | error h => exact throw h

theorem same {F : Failures ClientError} {wrap : ε → ClientError} (hrefl : ∀ e, F.same e e)
    (x : Except ε α) : InStep P F Eq (Exchange.ofExcept wrap x) (Exchange.ofExcept wrap x) := by
  cases x with
  | ok a => exact pure rfl
  | error e => exact throw (hrefl _)

end InStep

section Fetches

variable {P : Pairing} {url url' : Url}

theorem send_sendable {r r' : Request} (h : P.Requests r r') (hf : r.url.requestFault? = none)
    (hf' : r'.url.requestFault? = none)
    (hunreachable : P.failures.same (.transfer (.unreachable r.url.withoutUserinfo.text))
      (.transfer (.unreachable r'.url.withoutUserinfo.text)))
    (hclosed : P.failures.same (.transfer (.closed r.url.withoutUserinfo.text))
      (.transfer (.closed r'.url.withoutUserinfo.text))) {t t' : Traffic}
    (ht : P.Alongside t t') :
    (P.failures.under .transfer).Alike P.response (t.send r).1 (t'.send r').1 ∧
      P.Alongside (t.send r).2 (t'.send r').2 := by
  have hsent : P.Requests { r with url := r.url.target } { r' with url := r'.url.target } :=
    ⟨h.method, P.url_target h.url, h.form⟩
  have hsents := List.rel_append ht.sent (List.Forall₂.cons hsent .nil)
  obtain ⟨network, sent, log⟩ := t
  obtain ⟨network', sent', log'⟩ := t'
  obtain ⟨hnetwork, hprior, hlog⟩ := ht
  simp only [Traffic.send, hf, hf']
  cases hnetwork with
  | down => exact ⟨.error hunreachable, .down, hprior, hlog⟩
  | scripted hreplies =>
    cases hreplies with
    | nil => exact ⟨.ok (P.response_refl _), .scripted .nil, hsents, hlog⟩
    | cons hreply hrest =>
      cases hreply with
      | response hr => exact ⟨.ok hr, .scripted hrest, hsents, hlog⟩
      | closed => exact ⟨.error hclosed, .scripted hrest, hsents, hlog⟩

theorem send_lockstep {r r' : Request} (h : P.Requests r r') :
    Lockstep P ((P.failures.under .transfer).Alike P.response)
      (P.failures.under .transfer).Parted (send r) (send r') := by
  intro t t' ht
  rw [run_send, run_send]
  cases P.url_fault h.url with
  | sendable hf hf' hunreachable hclosed =>
    exact .inl (send_sendable h hf hf' hunreachable hclosed ht)
  | refused hf hf' hsame =>
    simp only [Traffic.send, hf, hf']
    exact .inl ⟨.error hsame, ht⟩
  | left hf halone =>
    refine .inr (.inl ⟨_, ?_, halone⟩)
    simp only [Traffic.send, hf]
  | right hf' halone =>
    refine .inr (.inr ⟨_, ?_, halone⟩)
    simp only [Traffic.send, hf']

/-- Attempts that both brought a body, or both met a server error. -/
inductive AlikeAttempts (P : Pairing) : Attempt → Attempt → Prop
  | done {v v' : Value} (h : P.value v v') : AlikeAttempts P (.done v) (.done v')
  | serverError {e e' : HttpError} (hstatus : e.status = e'.status) (hurl : e.url = e'.url)
    (h : P.failures.same (.status e) (.status e')) :
    AlikeAttempts P (.serverError e) (.serverError e')

theorem judge_alike {r r' : Response} (hurl : P.url url url') (h : P.response r r') :
    P.failures.Alike (AlikeAttempts P) (judge url r) (judge url' r') := by
  have hstatus := P.response_status h
  unfold judge
  rw [← hstatus]
  by_cases hsuccess : Web.Status.isSuccess r.status = true
  · rw [if_pos hsuccess, if_pos hsuccess]
    have hbody := P.response_body h hsuccess
    revert hbody
    generalize readBody r = x
    generalize readBody r' = y
    intro hbody
    cases hbody with
    | ok hv => exact .ok (.done hv)
    | error he => exact .error he
  · have herror : P.failures.same (.status (httpError url r)) (.status (httpError url' r')) := by
      rw [httpError, httpError, ← hstatus, P.url_redact hurl]
      exact P.response_error h (Bool.eq_false_iff.2 hsuccess) _
    rw [if_neg hsuccess, if_neg hsuccess]
    by_cases hserver : Web.Status.isServerError r.status = true
    · rw [if_pos hserver, if_pos hserver]
      exact .ok (.serverError hstatus (P.url_redact hurl) herror)
    · rw [if_neg hserver, if_neg hserver]
      exact .error herror

theorem tryFetch_inStep (hurl : P.url url url') (attempt : Nat) :
    InStep P P.failures (AlikeAttempts P) (tryFetch url attempt) (tryFetch url' attempt) := by
  intro t t' ht
  have hnoted := ht.note (.attempt attempt (redact url))
  have hrequests : P.Requests (getOf url) (getOf url') := ⟨rfl, hurl, rfl⟩
  have hsend := send_lockstep hrequests _ _ hnoted
  simp only [run_send] at hsend
  rw [tryFetch_run, tryFetch_run, ← P.url_redact hurl]
  revert hsend
  generalize (t.note (.attempt attempt (redact url))).send (getOf url) = x
  generalize (t'.note (.attempt attempt (redact url))).send (getOf url') = y
  obtain ⟨result, u⟩ := x
  obtain ⟨result', u'⟩ := y
  rintro (⟨hresult, hu⟩ | ⟨e, rfl, h⟩ | ⟨e, rfl, h⟩)
  · cases hresult with
    | ok h => exact .inl ⟨judge_alike hurl h, hu⟩
    | error h => exact .inl ⟨.error h, hu⟩
  · exact .inr (.inl ⟨_, rfl, h⟩)
  · exact .inr (.inr ⟨_, rfl, h⟩)

theorem fetchFrom_inStep (hurl : P.url url url') (attempt retries : Nat) :
    InStep P P.failures P.value (fetchFrom url attempt retries)
      (fetchFrom url' attempt retries) := by
  induction retries generalizing attempt with
  | zero =>
    refine (tryFetch_inStep hurl attempt).bind fun a b hab => ?_
    cases hab with
    | done h => exact InStep.pure h
    | serverError _ _ h => exact InStep.throw h
  | succ retries ih =>
    refine (tryFetch_inStep hurl attempt).bind fun a b hab => ?_
    cases hab with
    | done h => exact InStep.pure h
    | serverError hstatus hshown _ =>
      dsimp only
      rw [hstatus, hshown]
      exact (InStep.lift (Lockstep.note _)).bind fun _ _ _ => ih (attempt + 1)

end Fetches

/-- Clients that make the same of a call but for its URLs. -/
structure Peers (P : Pairing) (c c' : Client) : Prop where
  maxAttempts : c.maxAttempts = c'.maxAttempts
  endpoint : ∀ segments, P.failures.Alike P.url (c.endpoint segments) (c'.endpoint segments)

namespace Peers

variable {P : Pairing} {c c' : Client}

theorem fetchJson (h : Peers P c c') {url url' : Url} (hurl : P.url url url') :
    InStep P P.failures P.value (c.fetchJson url) (c'.fetchJson url') := by
  have hfetch := fetchFrom_inStep hurl 1 (c.maxAttempts - 1)
  rw [Client.fetchJson, Client.fetchJson, ← h.maxAttempts]
  exact hfetch

theorem fetchPage (h : Peers P c c') {url url' : Url} (hurl : P.url url url') (index : Nat)
    (showUrls : Bool) :
    InStep P P.failures (AlikePages P.item) (c.fetchPage index showUrls url)
      (c'.fetchPage index showUrls url') := by
  unfold Client.fetchPage
  rw [P.url_redact hurl]
  refine (InStep.lift (Lockstep.noteIf _ _)).bind fun _ _ _ => ?_
  refine (h.fetchJson hurl).bind fun v v' hv => ?_
  refine (InStep.ofExcept (P.value_page hv index)).bind fun p p' hp => ?_
  rw [hp.data.length_eq, hp.next]
  exact (InStep.lift (Lockstep.note _)).bind fun _ _ _ => InStep.pure hp

theorem nextPage (h : Peers P c c') {l l' : Listing} (hl : P.Listings l l') :
    Lockstep P
      (fun x y => P.failures.Alike (Option.Rel (AlikePages P.item)) x.1 y.1 ∧ P.Listings x.2 y.2)
      (fun x y => P.failures.Parted x.1 y.1) (c.nextPage l) (c'.nextPage l') := by
  obtain ⟨next, index, showUrls⟩ := l
  obtain ⟨next', index', showUrls'⟩ := l'
  obtain ⟨hnext, rfl, rfl⟩ := hl
  cases hnext with
  | none => exact Lockstep.pure ⟨.ok .none, .none, rfl, rfl⟩
  | some hurl =>
    refine Lockstep.bind (h.fetchPage hurl index showUrls) (fun x y hxy => ?_)
      (fun x y hxy t t' => ?_)
    · cases hxy with
      | ok hp =>
        refine Lockstep.pure ⟨.ok (.some hp), ?_, rfl, rfl⟩
        rw [hp.next]
        exact P.links_refl _
      | error he => exact Lockstep.pure ⟨.error he, .none, rfl, rfl⟩
    · rcases hxy with ⟨e, rfl, he⟩ | ⟨e, rfl, he⟩
      · exact .inl ⟨e, rfl, he⟩
      · exact .inr ⟨e, rfl, he⟩

section Walks

variable {F : Failures ε} {wrap : ClientError → ε} {R : α → β → Prop}
  {read : Page → ExceptT ε Session α} {read' : Page → ExceptT ε Session β}

/-- Walks stay side by side if reading a page does: each page is pulled, read and delivered in both
runs, until there is none or one fails. -/
theorem walkFrom (h : Peers P c c') (hwrap : P.failures.Within (F.under wrap))
    (hread : ∀ p p', AlikePages P.item p p' → InStep P F R (read p) (read' p')) (fuel : Nat)
    {l l' : Listing} (hl : P.Listings l l') :
    Lockstep P (F.AlikeWalks R) F.PartedWalks (c.walkFrom wrap read fuel l)
      (c'.walkFrom wrap read' fuel l') := by
  induction fuel generalizing l l' with
  | zero => exact Lockstep.pure ⟨.nil, .none⟩
  | succ fuel ih =>
    refine Lockstep.bind (h.nextPage hl) (fun x y hxy => ?_) (fun x y hxy t t' => ?_)
    · obtain ⟨result, l⟩ := x
      obtain ⟨result', l'⟩ := y
      obtain ⟨hresult, hl⟩ := hxy
      cases hresult with
      | error he => exact Lockstep.pure ⟨.nil, .some (hwrap.same he)⟩
      | ok hpage =>
        cases hpage with
        | none => exact Lockstep.pure ⟨.nil, .none⟩
        | some hp =>
          refine Lockstep.bind (hread _ _ hp) (fun x y hxy => ?_) (fun x y hxy t t' => ?_)
          · cases hxy with
            | error he => exact Lockstep.pure ⟨.nil, .some he⟩
            | ok hab =>
              refine Lockstep.bind (ih hl) (fun w w' hw => ?_) (fun w w' hw t t' => ?_)
              · exact Lockstep.pure ⟨.cons hab hw.delivered, hw.failure⟩
              · exact hw
          · rcases hxy with ⟨e, rfl, he⟩ | ⟨e, rfl, he⟩
            · exact .inl ⟨e, rfl, he⟩
            · exact .inr ⟨e, rfl, he⟩
    · obtain ⟨result, l⟩ := x
      obtain ⟨result', l'⟩ := y
      rcases hxy with ⟨e, rfl, he⟩ | ⟨e, rfl, he⟩
      · exact .inl ⟨wrap e, rfl, hwrap.left he⟩
      · exact .inr ⟨wrap e, rfl, hwrap.right he⟩

theorem walk (h : Peers P c c') (hwrap : P.failures.Within (F.under wrap))
    (hread : ∀ p p', AlikePages P.item p p' → InStep P F R (read p) (read' p')) {l l' : Listing}
    (hl : P.Listings l l') :
    Lockstep P (F.AlikeWalks R) F.PartedWalks (c.walk wrap read l) (c'.walk wrap read' l') := by
  intro t t' ht
  have hfuel := ht.network.size_eq
  have hwalk := h.walkFrom hwrap hread (t.network.size + 1) hl t t' ht
  have hrun' : (c'.walk wrap read' l').run t' =
      (c'.walkFrom wrap read' (t.network.size + 1) l').run t' := by
    rw [hfuel]
    rfl
  rw [hrun']
  exact hwalk

end Walks

end Peers

/-- Items of which the same is read from a page of tagged objects. -/
structure AlikeTagged (opts : QueryOptions) (item item' : Value) : Prop where
  claims : claimsDescriptor item = claimsDescriptor item'
  object : claimsDescriptor item = true → (TaggedObject.decode item).map (stripName opts) =
    (TaggedObject.decode item').map (stripName opts)

section Reading

variable {P : Pairing} {opts : QueryOptions}

theorem readTagged_inStep {items items' : List Value}
    (h : List.Forall₂ (AlikeTagged opts) items items') :
    InStep P P.failures Eq (readTagged opts items) (readTagged opts items') := by
  induction h with
  | nil => exact InStep.pure rfl
  | @cons item item' _ _ hitem _ ih =>
    unfold readTagged
    rw [← hitem.claims]
    by_cases hclaims : claimsDescriptor item = true
    · have hobject := hitem.object hclaims
      rw [if_pos hclaims, if_pos hclaims]
      cases ho : TaggedObject.decode item <;> cases ho' : TaggedObject.decode item' <;>
        rw [ho, ho'] at hobject <;> simp only [Except.map, reduceCtorEq, Except.error.injEq,
          Except.ok.injEq] at hobject
      · subst hobject
        exact InStep.throw (P.same_refl _)
      · simp only [Exchange.ofExcept, pure_bind, hobject]
        refine (InStep.lift (Lockstep.noteIf _ _)).bind fun _ _ _ => ?_
        refine ih.bind fun os os' hos => ?_
        rw [hos]
        exact InStep.pure rfl
    · rw [if_neg hclaims, if_neg hclaims]
      exact ih

theorem taggedDescriptors_inStep {p p' : Page} (h : AlikePages (AlikeTagged opts) p p') :
    InStep P P.failures Eq (taggedDescriptors opts p) (taggedDescriptors opts p') := by
  unfold taggedDescriptors
  refine (readTagged_inStep h.data).bind fun os os' hos => ?_
  rw [hos, h.index, h.data.length_eq]
  exact (InStep.lift (Lockstep.note _)).bind fun _ _ _ => InStep.pure rfl

theorem descriptorIds_inStep {p p' : Page} (h : AlikePages (AlikeTagged opts) p p') :
    InStep P P.failures Eq (descriptorIds opts p) (descriptorIds opts p') := by
  unfold descriptorIds
  refine (taggedDescriptors_inStep h).bind fun os os' hos => ?_
  rw [hos]
  exact InStep.pure rfl

theorem mapM_eq_of_forall₂ {f : α → Except ε α'} {g : β → Except ε α'} {as : List α}
    {bs : List β} (h : List.Forall₂ (fun a b => f a = g b) as bs) : as.mapM f = bs.mapM g := by
  induction h with
  | nil => rfl
  | cons hab _ ih => rw [List.mapM_cons, List.mapM_cons, hab, ih]

/-- Raw descriptors that are normalized into the same. -/
def AlikeRaw (opts : QueryOptions) (raw raw' : Value) : Prop :=
  Descriptor.normalize raw opts.includeIndicator = Descriptor.normalize raw' opts.includeIndicator

theorem pageDescriptors_inStep {p p' : Page} (h : AlikePages (AlikeRaw opts) p p') :
    InStep P P.failures Eq (pageDescriptors opts p) (pageDescriptors opts p') := by
  have hread : (p.data.mapM fun raw => Descriptor.normalize raw opts.includeIndicator) =
      p'.data.mapM fun raw => Descriptor.normalize raw opts.includeIndicator :=
    mapM_eq_of_forall₂ h.data
  unfold pageDescriptors
  rw [hread, h.index, h.data.length_eq]
  refine InStep.bind (InStep.same P.same_refl _) fun ds ds' hds => ?_
  rw [hds]
  exact (InStep.lift (Lockstep.note _)).bind fun _ _ _ => InStep.pure rfl

/-- Members among which every one of the ids finds raw descriptors that are normalized into the
same. -/
def AlikeLookups (opts : QueryOptions) (ids : List String) (ms ms' : Members Value) : Prop :=
  ∀ id ∈ ids, Option.Rel (fun raw raw' => AlikeRaw opts (withId id raw) (withId id raw'))
    (ms.get? id) (ms'.get? id)

theorem collectDescriptors_inStep {ids : List String} {ms ms' : Members Value}
    (h : AlikeLookups opts ids ms ms') :
    InStep P P.failures Eq (collectDescriptors opts ids ms) (collectDescriptors opts ids ms') := by
  induction ids generalizing ms ms' with
  | nil => exact InStep.pure rfl
  | cons id ids ih =>
    have hid := h id List.mem_cons_self
    have hrest : ∀ id' ∈ ids, Option.Rel
        (fun raw raw' => AlikeRaw opts (withId id' raw) (withId id' raw'))
        (ms.get? id') (ms'.get? id') := fun id' hid' => h id' (List.mem_cons_of_mem _ hid')
    unfold collectDescriptors
    generalize ms.get? id = found at hid ⊢
    generalize ms'.get? id = found' at hid ⊢
    cases hid with
    | none => exact (InStep.lift (Lockstep.note _)).bind fun _ _ _ => ih hrest
    | some hraw =>
      have herased : AlikeLookups opts ids (ms.erase id) (ms'.erase id) := by
        intro id' hid'
        rw [Members.get?_erase, Members.get?_erase]
        by_cases hsame : id' = id
        · rw [if_pos hsame, if_pos hsame]
          exact .none
        · rw [if_neg hsame, if_neg hsame]
          exact hrest id' hid'
      dsimp only
      rw [show Descriptor.normalize _ _ = _ from hraw]
      refine InStep.bind (InStep.same P.same_refl _) fun d d' hd => ?_
      rw [hd]
      refine (InStep.lift (Lockstep.noteIf _ _)).bind fun _ _ _ => ?_
      refine (ih herased).bind fun ds ds' hds => ?_
      rw [hds]
      exact InStep.pure rfl

end Reading

/-- Walks through a listing, unless there was no URL to start it from. -/
def Client.walkOf (c : Client) (read : Page → Exchange α) :
    Except ClientError Listing → Session (Client.Walk ClientError α)
  | .error e => pure ([], some e)
  | .ok l => c.walk id read l

def readTags (response : Value) : Option (Except Mismatch (List TagRef)) :=
  (response.get? "data").map (Json.readSequence TagRef.decode)

namespace Peers

variable {P : Pairing} {c c' : Client}

theorem start_listings {u u' : Url} (h : P.url u u') (showUrls : Bool) :
    P.Listings (.start u showUrls) (.start u' showUrls) := ⟨.some h, rfl, rfl⟩

theorem taggedObjects (h : Peers P c c') (tag : String) (opts : QueryOptions) :
    P.failures.Alike P.Listings (c.taggedObjects tag opts) (c'.taggedObjects tag opts) := by
  have hendpoint := h.endpoint [tag, "tagged_objects"]
  unfold Client.taggedObjects
  generalize c.endpoint [tag, "tagged_objects"] = x at hendpoint ⊢
  generalize c'.endpoint [tag, "tagged_objects"] = y at hendpoint ⊢
  cases hendpoint with
  | ok h => exact .ok (start_listings (P.url_append _ h) _)
  | error h => exact .error h

theorem searchListing (h : Peers P c c') (params : Web.Form.Pairs) (opts : QueryOptions) :
    P.failures.Alike P.Listings (c.searchListing params opts) (c'.searchListing params opts) := by
  have hendpoint := h.endpoint ["threat_descriptors"]
  unfold Client.searchListing
  generalize c.endpoint ["threat_descriptors"] = x at hendpoint ⊢
  generalize c'.endpoint ["threat_descriptors"] = y at hendpoint ⊢
  cases hendpoint with
  | ok h => exact .ok (start_listings (P.url_append _ h) _)
  | error h => exact .error h

theorem tagId (h : Peers P c c') (htags : ∀ v v', P.value v v' → readTags v = readTags v')
    (name : String) (showUrls : Bool) :
    InStep P P.failures Eq (c.tagId name showUrls) (c'.tagId name showUrls) := by
  unfold Client.tagId
  refine InStep.bind (InStep.ofExcept (h.endpoint _)) fun u u' hu => ?_
  have hurl := P.url_append [("text", name)] hu
  dsimp only
  rw [P.url_redact hurl]
  refine (InStep.lift (Lockstep.noteIf _ _)).bind fun _ _ _ => ?_
  refine (h.fetchJson hurl).bind fun v v' hv => ?_
  have hread := htags v v' hv
  unfold readTags at hread
  generalize v.get? "data" = data at hread ⊢
  generalize v'.get? "data" = data' at hread ⊢
  cases data <;> cases data' <;>
    simp only [Option.map_none, Option.map_some, reduceCtorEq, Option.some.injEq] at hread
  · exact InStep.throw (P.same_refl _)
  · dsimp only
    rw [hread]
    refine InStep.bind (InStep.same P.same_refl _) fun tags tags' htags => ?_
    rw [htags]
    exact InStep.pure rfl

theorem descriptorsOfIds (h : Peers P c c') {ids : List String} {opts : QueryOptions}
    (hlookup : malformedId? ids = none → ∀ v v', P.value v v' →
      v = v' ∧ (∀ ms, v ≠ .object ms) ∨
        ∃ ms ms', v = .object ms ∧ v' = .object ms' ∧ AlikeLookups opts ids ms ms') :
    InStep P P.failures Eq (c.descriptorsOfIds ids opts) (c'.descriptorsOfIds ids opts) := by
  unfold Client.descriptorsOfIds
  cases hids : malformedId? ids with
  | some id => exact InStep.throw (P.same_refl _)
  | none =>
    refine InStep.bind (InStep.ofExcept (h.endpoint _)) fun u u' hu => ?_
    have hurl := P.url_append [("ids", String.intercalate "," ids), ("fields", descriptorFields)] hu
    dsimp only
    rw [P.url_redact hurl]
    refine (InStep.lift (Lockstep.noteIf _ _)).bind fun _ _ _ => ?_
    refine (h.fetchJson hurl).bind fun v v' hv => ?_
    rcases hlookup hids v v' hv with ⟨rfl, hother⟩ | ⟨ms, ms', rfl, rfl, hms⟩
    · cases v with
      | object ms => exact absurd rfl (hother ms)
      | _ => exact InStep.throw (P.same_refl _)
    · exact collectDescriptors_inStep hms

theorem walkOf {R : α → β → Prop} (h : Peers P c c') {read : Page → Exchange α}
    {read' : Page → Exchange β}
    (hread : ∀ p p', AlikePages P.item p p' → InStep P P.failures R (read p) (read' p'))
    {listing listing' : Except ClientError Listing}
    (hlisting : P.failures.Alike P.Listings listing listing') :
    Lockstep P (P.failures.AlikeWalks R) P.failures.PartedWalks (c.walkOf read listing)
      (c'.walkOf read' listing') := by
  cases hlisting with
  | error he => exact Lockstep.pure ⟨.nil, .some he⟩
  | ok hl => exact h.walk (.refl _) hread hl

theorem descriptorIdsOfTag (h : Peers P c c') {opts : QueryOptions}
    (hitem : ∀ v v', P.item v v' → AlikeTagged opts v v') (tag : String) :
    Lockstep P (P.failures.AlikeWalks Eq) P.failures.PartedWalks
      (c.descriptorIdsOfTag tag opts) (c'.descriptorIdsOfTag tag opts) :=
  h.walkOf (fun _ _ hp => descriptorIds_inStep ⟨hp.index, hp.data.imp hitem, hp.next⟩)
    (h.taggedObjects tag opts)

theorem search (h : Peers P c c') {opts : QueryOptions}
    (hitem : ∀ v v', P.item v v' → AlikeRaw opts v v') (params : Web.Form.Pairs) :
    Lockstep P (P.failures.AlikeWalks Eq) P.failures.PartedWalks (c.search params opts)
      (c'.search params opts) :=
  h.walkOf (fun _ _ hp => pageDescriptors_inStep ⟨hp.index, hp.data.imp hitem, hp.next⟩)
    (h.searchListing params opts)

end Peers
end ThreatGraph
