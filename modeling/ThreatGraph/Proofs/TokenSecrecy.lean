import ThreatGraph.Client.Write
import ThreatGraph.Proofs.Lockstep
import ThreatGraph.Proofs.Redaction

/-!
# The token stays secret

Clients that differ in the token only make the same of the same calls and the same replies: they
answer and log the same, and their requests differ in the token alone.  There is one thing that a
token can show through: URLs have a greatest length, and a longer token may be what makes one too
long to be requested.
-/

namespace ThreatGraph

open Json (Value)
open Post (Field Fields Kind ValidationError)
open Web (Network Request Response TransferFault Url SameButToken redact tokenName)

/-- A request that is refused for the length of its URL, where the other token leaves the URL short
enough. -/
def RefusedForLength (token token' : String) (e : ClientError) : Prop :=
  ∃ u u', SameButToken token token' u u' ∧
    Url.maxLength < u.withoutUserinfo.print.length ∧ u'.requestFault? = none ∧
    e = .transfer (.unusableUrl u.withoutUserinfo.text)

/-- Errors with the same text, or the texts that the HTTP client has for both of them. -/
def SameError (e e' : ClientError) : Prop :=
  e = e' ∨ ∃ f f', e = .transfer f ∧ e' = .transfer f'

theorem SameError.refl (e : ClientError) : SameError e e := .inl rfl

def tokenFailures (token token' : String) : Failures ClientError :=
  ⟨SameError, RefusedForLength token token', RefusedForLength token' token⟩

theorem Web.SameButToken.symm {token token' : String} {u u' : Url}
    (h : SameButToken token token' u u') : SameButToken token' token u' u := by
  cases h with
  | same => exact .same _
  | token base pairs => exact .token base pairs

/-- What may be sent depends on the length of a URL, and on nothing else that the token changes. -/
theorem tokenFaults {token token' : String} {u u' : Url} (h : SameButToken token token' u u') :
    AlikeFaults (tokenFailures token token') u u' := by
  have htransfer : ∀ f f', (tokenFailures token token').same (.transfer f) (.transfer f') :=
    fun f f' => .inr ⟨f, f', rfl, rfl⟩
  have hhttp : u.isHttp = u'.isHttp := by cases h <;> rfl
  have hhost : u.hasSendableHost = u'.hasSendableHost := by cases h <;> rfl
  by_cases hsendable : u.isHttp = true ∧ u.hasSendableHost = true
  · obtain ⟨h₁, h₂⟩ := hsendable
    have h₁' := hhttp ▸ h₁
    have h₂' := hhost ▸ h₂
    by_cases hlong : Url.maxLength < u.withoutUserinfo.print.length
    · have hfault : u.requestFault? = some (.unusableUrl u.withoutUserinfo.text) := by
        simp [Url.requestFault?, h₁, h₂, hlong]
      by_cases hlong' : Url.maxLength < u'.withoutUserinfo.print.length
      · have hfault' : u'.requestFault? = some (.unusableUrl u'.withoutUserinfo.text) := by
          simp [Url.requestFault?, h₁', h₂', hlong']
        exact .refused hfault hfault' (htransfer _ _)
      · have hfault' : u'.requestFault? = none := by
          simp [Url.requestFault?, h₁', h₂', hlong']
        exact .left hfault ⟨u, u', h, hlong, hfault', rfl⟩
    · have hfault : u.requestFault? = none := by
        simp [Url.requestFault?, h₁, h₂, hlong]
      by_cases hlong' : Url.maxLength < u'.withoutUserinfo.print.length
      · have hfault' : u'.requestFault? = some (.unusableUrl u'.withoutUserinfo.text) := by
          simp [Url.requestFault?, h₁', h₂', hlong']
        exact .right hfault' ⟨u', u, h.symm, hlong', hfault, rfl⟩
      · have hfault' : u'.requestFault? = none := by
          simp [Url.requestFault?, h₁', h₂', hlong']
        exact .sendable hfault hfault' (htransfer _ _) (htransfer _ _)
  · have hrefused : ∀ v : Url, ¬ (v.isHttp = true ∧ v.hasSendableHost = true) →
        ∃ f, v.requestFault? = some f := by
      intro v hv
      unfold Url.requestFault?
      by_cases h₁ : v.isHttp = true
      · have h₂ : v.hasSendableHost = false := by simpa [h₁] using hv
        simp [h₁, h₂]
      · simp [h₁]
    obtain ⟨f, hf⟩ := hrefused u hsendable
    obtain ⟨f', hf'⟩ := hrefused u' (by rwa [← hhttp, ← hhost])
    exact .refused hf hf' (htransfer f f')

/-- Two runs with different tokens, and the same replies. -/
def tokenPairing (token token' : String) : Pairing where
  url := SameButToken token token'
  response := Eq
  value := Eq
  item := Eq
  failures := tokenFailures token token'
  url_refl := .same
  url_append := fun pairs h => h.appendPairs pairs
  url_target := fun h => h.target
  url_redact := fun h => h.redact_eq
  url_fault := tokenFaults
  same_refl := SameError.refl
  response_refl := fun _ => rfl
  response_status := fun h => congrArg _ h
  response_body := by
    rintro r _ rfl -
    exact Failures.alike_refl SameError.refl _
  response_error := by
    rintro r _ rfl - url
    exact SameError.refl _
  value_page := by
    rintro v _ rfl index
    refine (Failures.alike_refl SameError.refl _).imp ?_
    rintro p _ rfl
    exact ⟨rfl, List.forall₂_same.2 fun _ _ => rfl, rfl⟩

namespace Client

def withToken (c : Client) (token : String) : Client := { c with accessToken := token }

theorem peers_withToken (c : Client) (token token' : String) :
    Peers (tokenPairing token token') (c.withToken token) (c.withToken token') := by
  refine ⟨rfl, fun segments => ?_⟩
  unfold endpoint withToken
  dsimp only
  cases Url.read c.baseUrl with
  | error f => exact .error ((tokenPairing token token').same_refl _)
  | ok base =>
    have hpair : ∀ u : Url, (tokenPairing token token').url
        (u.appendPairs [(tokenName, token)]) (u.appendPairs [(tokenName, token')]) :=
      fun u => SameButToken.token u []
    dsimp only
    cases base.extendPath? segments with
    | none => exact .error ((tokenPairing token token').same_refl _)
    | some u => exact .ok (hpair u)

end Client

/-- Outcomes that differ at most in the text of the HTTP client. -/
structure AlikeOutcomes (F : Failures ClientError) (o o' : WriteOutcome) : Prop where
  validationError : o.validationError = o'.validationError
  transportError : Option.Rel F.same o.transportError o'.transportError
  body : o.body = o'.body

def PartedOutcomes (F : Failures ClientError) (o o' : WriteOutcome) : Prop :=
  (∃ e, o.transportError = some e ∧ F.left e) ∨ ∃ e, o'.transportError = some e ∧ F.right e

section Writes

variable {token token' : String}

theorem alikeOutcomes_refl (o : WriteOutcome) : AlikeOutcomes (tokenFailures token token') o o := by
  refine ⟨rfl, ?_, rfl⟩
  cases o.transportError with
  | none => exact .none
  | some e => exact .some (SameError.refl e)

abbrev WriteInStep (token token' : String) (s s' : Session WriteOutcome) : Prop :=
  Lockstep (tokenPairing token token') (AlikeOutcomes (tokenFailures token token'))
    (PartedOutcomes (tokenFailures token token')) s s'

theorem postFields_inStep {url url' : Url} (hurl : SameButToken token token' url url')
    (fs : Fields) (opts : WriteOptions) :
    WriteInStep token token' (postFields url fs opts) (postFields url' fs opts) := by
  have happended := hurl.appendPairs fs.pairs
  unfold postFields
  dsimp only
  rw [happended.redact_eq]
  refine Lockstep.bind (Lockstep.noteIf _ _) (fun _ _ _ => ?_) (fun _ _ h => h.elim)
  by_cases hdry : opts.dryRun = true
  · rw [if_pos hdry, if_pos hdry]
    exact Lockstep.pure (alikeOutcomes_refl _)
  · rw [if_neg hdry, if_neg hdry]
    refine Lockstep.bind (send_lockstep ⟨rfl, happended, rfl⟩) (fun x y hxy => ?_)
      (fun x y hxy t t' => ?_)
    · cases hxy with
      | error h => exact Lockstep.pure ⟨rfl, .some h, rfl⟩
      | @ok r r' h =>
        obtain rfl : r = r' := h
        refine Lockstep.bind (Lockstep.note _) (fun _ _ _ => ?_) (fun _ _ h => h.elim)
        have houtcome : WriteOutcome.ofResponse (url.appendPairs fs.pairs) r =
            WriteOutcome.ofResponse (url'.appendPairs fs.pairs) r := by
          simp only [WriteOutcome.ofResponse, httpError, happended.redact_eq]
        rw [houtcome]
        exact Lockstep.pure (alikeOutcomes_refl _)
    · rcases hxy with ⟨f, rfl, hf⟩ | ⟨f, rfl, hf⟩
      · exact .inl ⟨_, rfl, hf⟩
      · exact .inr ⟨_, rfl, hf⟩

namespace Client

variable (c : Client)

theorem postTo_inStep (segments : List String) (fs : Fields) (opts : WriteOptions) :
    WriteInStep token token' ((c.withToken token).postTo segments fs opts)
      ((c.withToken token').postTo segments fs opts) := by
  have hendpoint := (c.peers_withToken token token').endpoint segments
  unfold postTo
  generalize (c.withToken token).endpoint segments = x at hendpoint ⊢
  generalize (c.withToken token').endpoint segments = y at hendpoint ⊢
  cases hendpoint with
  | ok h => exact postFields_inStep h fs opts
  | error h => exact Lockstep.pure ⟨rfl, .some h, rfl⟩

theorem submit_inStep (fs : Fields) (opts : WriteOptions) :
    WriteInStep token token' ((c.withToken token).submit fs opts)
      ((c.withToken token').submit fs opts) := by
  unfold submit
  cases Post.validate .submit fs with
  | some e => exact Lockstep.pure (alikeOutcomes_refl _)
  | none => exact c.postTo_inStep _ fs opts

theorem update_inStep (fs : Fields) (opts : WriteOptions) :
    WriteInStep token token' ((c.withToken token).update fs opts)
      ((c.withToken token').update fs opts) := by
  unfold update
  cases Post.validate .update fs with
  | some e => exact Lockstep.pure (alikeOutcomes_refl _)
  | none =>
    cases fs.get? .descriptorId with
    | some id => exact c.postTo_inStep _ fs opts
    | none => exact Lockstep.pure (alikeOutcomes_refl _)

theorem descriptorsOfIds_inStep (ids : List String) (opts : QueryOptions) :
    InStep (tokenPairing token token') (tokenFailures token token') Eq
      ((c.withToken token).descriptorsOfIds ids opts)
      ((c.withToken token').descriptorsOfIds ids opts) := by
  refine (c.peers_withToken token token').descriptorsOfIds fun _ v v' hv => ?_
  obtain rfl : v = v' := hv
  cases v with
  | object ms =>
    refine .inr ⟨ms, ms, rfl, rfl, fun id _ => ?_⟩
    cases Json.Members.get? id ms with
    | none => exact .none
    | some raw => exact .some rfl
  | _ => exact .inl ⟨rfl, fun ms => by simp⟩

theorem copy_inStep (fs : Fields) (opts : WriteOptions) :
    WriteInStep token token' ((c.withToken token).copy fs opts)
      ((c.withToken token').copy fs opts) := by
  unfold copy
  cases Post.validate .copy fs with
  | some e => exact Lockstep.pure (alikeOutcomes_refl _)
  | none =>
    cases fs.get? .descriptorId with
    | none => exact Lockstep.pure (alikeOutcomes_refl _)
    | some sourceId =>
      refine Lockstep.bind (c.descriptorsOfIds_inStep _ _) (fun x y hxy => ?_)
        (fun x y hxy t t' => ?_)
      · cases hxy with
        | error h => exact Lockstep.pure ⟨rfl, .some h, rfl⟩
        | @ok ds ds' h =>
          obtain rfl : ds = ds' := h
          cases ds with
          | nil => exact Lockstep.pure (alikeOutcomes_refl _)
          | cons source _ => exact c.submit_inStep _ opts
      · rcases hxy with ⟨e, rfl, he⟩ | ⟨e, rfl, he⟩
        · exact .inl ⟨_, rfl, he⟩
        · exact .inr ⟨_, rfl, he⟩

theorem write_inStep (kind : Kind) (fs : Fields) (opts : WriteOptions) :
    WriteInStep token token' ((c.withToken token).write kind fs opts)
      ((c.withToken token').write kind fs opts) := by
  cases kind with
  | submit => exact c.submit_inStep fs opts
  | update => exact c.update_inStep fs opts
  | copy => exact c.copy_inStep fs opts

end Client
end Writes

/-- One call of a client.  Listings are numbered in the order in which they were opened. -/
inductive Call where
  | fetch (url : Url)
  | tagId (name : String) (showUrls : Bool)
  | openTag (tag : String) (opts : QueryOptions)
  | openSearch (params : Web.Form.Pairs) (opts : QueryOptions)
  | openUrl (url : Url) (showUrls : Bool)
  | pull (listing : Nat)
  | pageObjects (page : Page) (opts : QueryOptions)
  | pageIds (page : Page) (opts : QueryOptions)
  | pageDescriptors (page : Page) (opts : QueryOptions)
  | idsOfTag (tag : String) (opts : QueryOptions)
  | descriptorsOfIds (ids : List String) (opts : QueryOptions)
  | search (params : Web.Form.Pairs) (opts : QueryOptions)
  | write (kind : Kind) (fields : Fields) (opts : WriteOptions)

/-- What a call gives, short of an error of the client. -/
inductive Delivery where
  | value (v : Value)
  | tag (id : Option String)
  | page (p : Option Page)
  | objects (os : List TaggedObject)
  | ids (ids : List String)
  | descriptors (ds : List Descriptor)
  | outcome (e : Option ValidationError) (body : Option Value)
  deriving DecidableEq

/-- What came of a call: what it delivered, in its order, and the error that it ended in. -/
structure Answer where
  delivered : List Delivery
  failure : Option ClientError
  deriving DecidableEq

namespace Answer

variable {α : Type} (f : α → Delivery)

def ofResult : Except ClientError α → Answer
  | .ok a => ⟨[f a], none⟩
  | .error e => ⟨[], some e⟩

def ofWalk (w : Client.Walk ClientError α) : Answer := ⟨w.1.map f, w.2⟩

def ofOutcome (o : WriteOutcome) : Answer :=
  ⟨[.outcome o.validationError o.body], o.transportError⟩

def ofOpened : Except ClientError Listing → Answer
  | .ok _ => ⟨[], none⟩
  | .error e => ⟨[], some e⟩

end Answer

def opened (ls : List Listing) : Except ClientError Listing → List Listing
  | .ok l => ls ++ [l]
  | .error _ => ls

def Call.run (c : Client) (ls : List Listing) : Call → Session (Answer × List Listing)
  | .fetch url => return (.ofResult .value (← (c.fetchJson url).run), ls)
  | .tagId name showUrls => return (.ofResult .tag (← (c.tagId name showUrls).run), ls)
  | .openTag tag opts =>
    return (.ofOpened (c.taggedObjects tag opts), opened ls (c.taggedObjects tag opts))
  | .openSearch params opts =>
    return (.ofOpened (c.searchListing params opts), opened ls (c.searchListing params opts))
  | .openUrl url showUrls => return (⟨[], none⟩, ls ++ [.start url showUrls])
  | .pull n =>
    match ls[n]? with
    | none => return (⟨[], none⟩, ls)
    | some l => do
      let (page, l) ← c.nextPage l
      return (.ofResult .page page, ls.set n l)
  | .pageObjects page opts =>
    return (.ofResult .objects (← (taggedDescriptors opts page).run), ls)
  | .pageIds page opts => return (.ofResult .ids (← (ThreatGraph.descriptorIds opts page).run), ls)
  | .pageDescriptors page opts =>
    return (.ofResult .descriptors (← (ThreatGraph.pageDescriptors opts page).run), ls)
  | .idsOfTag tag opts => return (.ofWalk .ids (← c.descriptorIdsOfTag tag opts), ls)
  | .descriptorsOfIds ids opts =>
    return (.ofResult .descriptors (← (c.descriptorsOfIds ids opts).run), ls)
  | .search params opts => return (.ofWalk .descriptors (← c.search params opts), ls)
  | .write kind fields opts => return (.ofOutcome (← c.write kind fields opts), ls)

def runCalls (c : Client) : List Call → List Listing → Session (List Answer × List Listing)
  | [], ls => return ([], ls)
  | call :: calls, ls => do
    let (answer, ls) ← call.run c ls
    let (answers, ls) ← runCalls c calls ls
    return (answer :: answers, ls)

/-- Answers that differ at most in the text of the HTTP client. -/
structure AlikeAnswers (a a' : Answer) : Prop where
  delivered : a.delivered = a'.delivered
  failure : Option.Rel SameError a.failure a'.failure

/-- Answers of which one is a request refused for the length of its URL, which with the other token
would not be. -/
def PartedAnswers (token token' : String) (a a' : Answer) : Prop :=
  (∃ e, a.failure = some e ∧ RefusedForLength token token' e) ∨
    ∃ e, a'.failure = some e ∧ RefusedForLength token' token e

section Calls

variable {token token' : String} {c : Client} {ls ls' : List Listing}

abbrev CallInStep (token token' : String) (s s' : Session (Answer × List Listing)) : Prop :=
  Lockstep (tokenPairing token token')
    (fun x x' => AlikeAnswers x.1 x'.1 ∧
      List.Forall₂ (tokenPairing token token').Listings x.2 x'.2)
    (fun x x' => PartedAnswers token token' x.1 x'.1) s s'

theorem callInStep_ofResult {α : Type} {f : α → Delivery} {x x' : Exchange α}
    (h : InStep (tokenPairing token token') (tokenFailures token token') Eq x x')
    (hls : List.Forall₂ (tokenPairing token token').Listings ls ls') :
    CallInStep token token' (do return (.ofResult f (← x.run), ls))
      (do return (.ofResult f (← x'.run), ls')) := by
  refine Lockstep.bind h (fun a b hab => ?_) (fun a b hab t t' => ?_)
  · cases hab with
    | ok h => exact Lockstep.pure ⟨⟨by rw [h], .none⟩, hls⟩
    | error h => exact Lockstep.pure ⟨⟨rfl, .some h⟩, hls⟩
  · rcases hab with ⟨e, rfl, he⟩ | ⟨e, rfl, he⟩
    · exact .inl ⟨e, rfl, he⟩
    · exact .inr ⟨e, rfl, he⟩

theorem callInStep_ofWalk {α : Type} {f : α → Delivery}
    {s s' : Session (Client.Walk ClientError α)}
    (h : Lockstep (tokenPairing token token') ((tokenFailures token token').AlikeWalks Eq)
      (tokenFailures token token').PartedWalks s s')
    (hls : List.Forall₂ (tokenPairing token token').Listings ls ls') :
    CallInStep token token' (do return (.ofWalk f (← s), ls))
      (do return (.ofWalk f (← s'), ls')) := by
  refine Lockstep.bind h (fun w w' hw => ?_) (fun w w' hw t t' => hw)
  have hdelivered := List.forall₂_eq_eq_eq ▸ hw.delivered
  exact Lockstep.pure ⟨⟨congrArg (List.map f) hdelivered, hw.failure⟩, hls⟩

theorem callInStep_open {x x' : Except ClientError Listing}
    (h : (tokenFailures token token').Alike (tokenPairing token token').Listings x x')
    (hls : List.Forall₂ (tokenPairing token token').Listings ls ls') :
    CallInStep token token' (pure (.ofOpened x, opened ls x))
      (pure (.ofOpened x', opened ls' x')) := by
  cases h with
  | ok h => exact Lockstep.pure ⟨⟨rfl, .none⟩, List.rel_append hls (.cons h .nil)⟩
  | error h => exact Lockstep.pure ⟨⟨rfl, .some h⟩, hls⟩

theorem forall₂_getElem? {α β : Type} {R : α → β → Prop} {as : List α} {bs : List β}
    (h : List.Forall₂ R as bs) (n : Nat) : Option.Rel R as[n]? bs[n]? := by
  induction h generalizing n with
  | nil => exact .none
  | cons hab _ ih =>
    cases n with
    | zero => exact .some hab
    | succ n => exact ih n

theorem forall₂_set {α β : Type} {R : α → β → Prop} {as : List α} {bs : List β}
    (h : List.Forall₂ R as bs) (n : Nat) {a : α} {b : β} (hab : R a b) :
    List.Forall₂ R (as.set n a) (bs.set n b) := by
  induction h generalizing n with
  | nil => exact .nil
  | cons hcd hrest ih =>
    cases n with
    | zero => exact .cons hab hrest
    | succ n => exact .cons hcd (ih n)

theorem AlikePages.eq {p p' : Page} (h : AlikePages Eq p p') : p = p' := by
  obtain ⟨hindex, hdata, hnext⟩ := h
  rw [List.forall₂_eq_eq_eq] at hdata
  cases p
  cases p'
  simp only [Page.mk.injEq]
  exact ⟨hindex, hdata, hnext⟩

theorem alikePages_refl (opts : QueryOptions) (page : Page) :
    AlikePages (AlikeTagged opts) page page :=
  ⟨rfl, List.forall₂_same.2 fun _ _ => ⟨rfl, fun _ => rfl⟩, rfl⟩

/-- One call goes the same way with either token, unless it meets a URL that one of them makes too
long. -/
theorem call_inStep (c : Client) (call : Call)
    (hls : List.Forall₂ (tokenPairing token token').Listings ls ls') :
    CallInStep token token' (call.run (c.withToken token) ls)
      (call.run (c.withToken token') ls') := by
  have hpeers := c.peers_withToken token token'
  cases call with
  | fetch url => exact callInStep_ofResult (hpeers.fetchJson (.same url)) hls
  | tagId name showUrls =>
    exact callInStep_ofResult (hpeers.tagId (fun v v' h => congrArg readTags h) name showUrls) hls
  | openTag tag opts => exact callInStep_open (hpeers.taggedObjects tag opts) hls
  | openSearch params opts => exact callInStep_open (hpeers.searchListing params opts) hls
  | openUrl url showUrls =>
    have hstart : (tokenPairing token token').Listings (.start url showUrls)
        (.start url showUrls) := ⟨.some (.same url), rfl, rfl⟩
    exact Lockstep.pure ⟨⟨rfl, .none⟩, List.rel_append hls (.cons hstart .nil)⟩
  | pull n =>
    have hlisting := forall₂_getElem? hls n
    unfold Call.run
    dsimp only
    generalize ls[n]? = listing at hlisting ⊢
    generalize ls'[n]? = listing' at hlisting ⊢
    cases hlisting with
    | none => exact Lockstep.pure ⟨⟨rfl, .none⟩, hls⟩
    | some hl =>
      refine Lockstep.bind (hpeers.nextPage hl) (fun x y hxy => ?_) (fun x y hxy t t' => ?_)
      · obtain ⟨page, l⟩ := x
        obtain ⟨page', l'⟩ := y
        obtain ⟨hpage, hl⟩ := hxy
        refine Lockstep.pure ⟨?_, forall₂_set hls n hl⟩
        cases hpage with
        | error h => exact ⟨rfl, .some h⟩
        | ok h =>
          cases h with
          | none => exact ⟨rfl, .none⟩
          | some hp => exact ⟨by rw [hp.eq], .none⟩
      · obtain ⟨page, l⟩ := x
        obtain ⟨page', l'⟩ := y
        rcases hxy with ⟨e, rfl, he⟩ | ⟨e, rfl, he⟩
        · exact .inl ⟨e, rfl, he⟩
        · exact .inr ⟨e, rfl, he⟩
  | pageObjects page opts =>
    exact callInStep_ofResult (taggedDescriptors_inStep (alikePages_refl opts page)) hls
  | pageIds page opts =>
    exact callInStep_ofResult (descriptorIds_inStep (alikePages_refl opts page)) hls
  | pageDescriptors page opts =>
    exact callInStep_ofResult
      (pageDescriptors_inStep ⟨rfl, List.forall₂_same.2 fun _ _ => rfl, rfl⟩) hls
  | idsOfTag tag opts =>
    refine callInStep_ofWalk (hpeers.descriptorIdsOfTag (fun v v' h => ?_) tag) hls
    obtain rfl : v = v' := h
    exact ⟨rfl, fun _ => rfl⟩
  | descriptorsOfIds ids opts => exact callInStep_ofResult (c.descriptorsOfIds_inStep ids opts) hls
  | search params opts =>
    refine callInStep_ofWalk (hpeers.search (fun v v' h => ?_) params) hls
    obtain rfl : v = v' := h
    rfl
  | write kind fields opts =>
    refine Lockstep.bind (c.write_inStep kind fields opts) (fun o o' ho => ?_)
      (fun o o' ho t t' => ho)
    refine Lockstep.pure ⟨⟨?_, ho.transportError⟩, hls⟩
    simp only [Answer.ofOutcome, ho.validationError, ho.body]

theorem runCalls_inStep (c : Client) (calls : List Call)
    (hls : List.Forall₂ (tokenPairing token token').Listings ls ls') {t t' : Traffic}
    (ht : (tokenPairing token token').Alongside t t') :
    ∃ n ≤ calls.length,
      let run := (runCalls (c.withToken token) (calls.take n) ls).run t
      let run' := (runCalls (c.withToken token') (calls.take n) ls').run t'
      List.Forall₂ AlikeAnswers run.1.1 run'.1.1 ∧
      (tokenPairing token token').Alongside run.2 run'.2 ∧
      (n = calls.length ∨ ∃ call, calls[n]? = some call ∧ PartedAnswers token token'
        ((call.run (c.withToken token) run.1.2).run run.2).1.1
        ((call.run (c.withToken token') run'.1.2).run run'.2).1.1) := by
  induction calls generalizing ls ls' t t' with
  | nil => exact ⟨0, Nat.le_refl 0, .nil, ht, .inl rfl⟩
  | cons call calls ih =>
    rcases call_inStep c call hls t t' ht with ⟨⟨hanswer, hls⟩, ht⟩ | hparted
    · obtain ⟨n, hn, hanswers, hrest, hend⟩ := ih hls ht
      refine ⟨n + 1, Nat.succ_le_succ hn, .cons hanswer hanswers, hrest, ?_⟩
      rcases hend with hend | hend
      · exact .inl (congrArg (· + 1) hend)
      · exact .inr hend
    · exact ⟨0, Nat.zero_le _, .nil, ht, .inr ⟨call, rfl, hparted⟩⟩

end Calls

theorem length_append_eq {query query' : List Char} (h : query.length = query'.length)
    (pairs : Web.Form.Pairs) :
    (Web.Form.append query pairs).length = (Web.Form.append query' pairs).length := by
  induction pairs generalizing query query' with
  | nil => exact h
  | cons p pairs ih =>
    refine ih ?_
    cases query <;> cases query' <;> simp_all

theorem length_print_eq {token token' : String} {u u' : Url}
    (hlength : (Web.Form.encodeText token).length = (Web.Form.encodeText token').length)
    (h : SameButToken token token' u u') :
    u.withoutUserinfo.print.length = u'.withoutUserinfo.print.length := by
  cases h with
  | same => rfl
  | token base pairs =>
    have hquery : ∀ query, (Web.Form.append query ((tokenName, token) :: pairs)).length =
        (Web.Form.append query ((tokenName, token') :: pairs)).length := by
      intro query
      refine length_append_eq ?_ pairs
      simp only [Web.Form.encodePair, List.length_append, List.length_cons, hlength]
    have hprint : ∀ (u : Url) (pairs : Web.Form.Pairs), (u.appendPairs pairs).print =
        u.printFront ++ u.path.print ++ '?' :: Web.Form.append (u.query.getD []) pairs ++
          u.printFragment := fun _ _ => rfl
    rw [Web.withoutUserinfo_appendPairs, Web.withoutUserinfo_appendPairs, hprint, hprint]
    simp only [List.length_append, List.length_cons, hquery]

theorem not_parted {token token' : String} {a a' : Answer}
    (hlength : (Web.Form.encodeText token).length = (Web.Form.encodeText token').length) :
    ¬ PartedAnswers token token' a a' := by
  have hnever : ∀ {token token' : String} {e : ClientError},
      (Web.Form.encodeText token).length = (Web.Form.encodeText token').length →
      ¬ RefusedForLength token token' e := by
    rintro token token' e hlength ⟨u, u', h, hlong, hfault, -⟩
    rw [length_print_eq hlength h] at hlong
    simp only [Url.requestFault?, hlong, decide_true, Bool.or_true, if_true] at hfault
    split at hfault <;> cases hfault
  rintro (⟨e, -, h⟩ | ⟨e, -, h⟩)
  · exact hnever hlength h
  · exact hnever hlength.symm h

/-- Two clients that differ in the token only show the same of themselves.  Given the same replies,
they make the same of the same calls: the same answers, the same log, and requests that differ in
the token alone.  This goes on to the end if the tokens are encoded in the same length, and else
until the first call, if there is one, at which one of the clients is refused a request for the
length of its URL that the other may make. -/
theorem token_noninterference (c : Client) (token token' : String) (calls : List Call)
    (network : Network) :
    (c.withToken token).describe = (c.withToken token').describe ∧
    ∃ n ≤ calls.length,
      let run := (runCalls (c.withToken token) (calls.take n) []).run (.start network)
      let run' := (runCalls (c.withToken token') (calls.take n) []).run (.start network)
      List.Forall₂ AlikeAnswers run.1.1 run'.1.1 ∧
      List.Forall₂ (tokenPairing token token').Requests run.2.sent run'.2.sent ∧
      run.2.log = run'.2.log ∧
      ((Web.Form.encodeText token).length = (Web.Form.encodeText token').length →
        n = calls.length) ∧
      (n = calls.length ∨ ∃ call, calls[n]? = some call ∧ PartedAnswers token token'
        ((call.run (c.withToken token) run.1.2).run run.2).1.1
        ((call.run (c.withToken token') run'.1.2).run run'.2).1.1) := by
  have hnetwork : AlikeNetworks (tokenPairing token token').response network network := by
    cases network with
    | down => exact .down
    | scripted replies =>
      refine .scripted (List.forall₂_same.2 fun reply _ => ?_)
      cases reply with
      | response r => exact .response rfl
      | closed => exact .closed
  obtain ⟨n, hn, hanswers, ht, hend⟩ :=
    @runCalls_inStep token token' [] [] c calls .nil _ _ (Pairing.Alongside.start hnetwork)
  refine ⟨rfl, n, hn, hanswers, ht.sent, ht.log, fun hlength => ?_, hend⟩
  rcases hend with hend | ⟨call, -, hparted⟩
  · exact hend
  · exact absurd hparted (not_parted hlength)

def probe : Client := ⟨"http://graph.test/v6.0", "", 60000, 1, 0⟩

def noTags : Network :=
  .scripted [.response ⟨200, Text.Utf8.encode "\x7b\"data\":[]\x7d".toList, true⟩]

/-- Tokens of the same length give the same away to the end. -/
theorem probe_alike : ∃ n, n = 1 ∧
    List.Forall₂ AlikeAnswers
      ((runCalls (probe.withToken "tok") ([Call.tagId "t" false].take n) []).run
        (.start noTags)).1.1
      ((runCalls (probe.withToken "key") ([Call.tagId "t" false].take n) []).run
        (.start noTags)).1.1 := by
  obtain ⟨-, n, -, hanswers, -, -, hend, -⟩ :=
    token_noninterference probe "tok" "key" [.tagId "t" false] noTags
  exact ⟨n, hend (by decide), hanswers⟩

theorem encodeText_letters (n : Nat) :
    Web.Form.encodeText (String.ofList (List.replicate n 'a')) = List.replicate n 'a' := by
  rw [Web.Form.encodeText, String.toList_ofList]
  induction n with
  | zero => rfl
  | succ n ih =>
    rw [List.replicate_succ, List.flatMap_cons, ih]
    rfl

theorem length_le_append (query : List Char) (pairs : Web.Form.Pairs) :
    query.length ≤ (Web.Form.append query pairs).length := by
  induction pairs generalizing query with
  | nil => exact Nat.le_refl _
  | cons p pairs ih =>
    refine Nat.le_trans ?_ (ih _)
    cases query <;> simp

theorem length_query_lt (u : Url) {query : List Char} (h : u.query = some query) :
    query.length < u.print.length := by
  simp only [Url.print, Url.printQuery, h, List.length_append, List.length_cons]
  omega

theorem requestFault?_of_long {base : Url} {pairs : Web.Form.Pairs} {n : Nat}
    (hn : Url.maxLength ≤ n) :
    (base.appendPairs ((tokenName, String.ofList (List.replicate n 'a')) :: pairs)).requestFault? ≠
      none := by
  have hpair : n ≤ (Web.Form.append (base.withoutUserinfo.query.getD [])
      ((tokenName, String.ofList (List.replicate n 'a')) :: pairs)).length := by
    refine Nat.le_trans ?_ (length_le_append _ pairs)
    simp only [Web.Form.encodePair, encodeText_letters, List.length_append, List.length_cons,
      List.length_replicate]
    omega
  have hquery := length_query_lt (base.withoutUserinfo.appendPairs
    ((tokenName, String.ofList (List.replicate n 'a')) :: pairs)) rfl
  have hlong : Url.maxLength < (base.appendPairs ((tokenName, String.ofList
      (List.replicate n 'a')) :: pairs)).withoutUserinfo.print.length := by
    rw [Web.withoutUserinfo_appendPairs]
    omega
  simp only [Url.requestFault?, hlong, decide_true, Bool.or_true, if_true]
  split <;> simp

theorem fetchJson_refused (c : Client) {url : Url} {f : TransferFault}
    (hf : url.requestFault? = some f) (t : Traffic) :
    (c.fetchJson url).run.run t = (.error (.transfer f), t.note (.attempt 1 (redact url))) := by
  have htry : (tryFetch url 1).run.run t =
      (.error (.transfer f), t.note (.attempt 1 (redact url))) := by
    simp only [tryFetch_run, Traffic.send, getOf, hf]
  unfold Client.fetchJson
  cases c.maxAttempts - 1 with
  | zero => rw [fetchFrom_zero_run, htry]
  | succ retries => rw [fetchFrom_succ_run, htry]

theorem probe_endpoint : ∃ u : Url, ∀ token, (probe.withToken token).endpoint ["threat_tags"] =
    .ok (u.appendPairs [(tokenName, token)]) := by
  have hreads : ((Url.read "http://graph.test/v6.0").toOption.bind
    (·.extendPath? ["threat_tags"])).isSome = true := rfl
  cases hbase : Url.read "http://graph.test/v6.0" with
  | error f => simp [hbase, Except.toOption] at hreads
  | ok base =>
    cases hu : base.extendPath? ["threat_tags"] with
    | none => simp [hbase, hu, Except.toOption] at hreads
    | some u =>
      refine ⟨u, fun token => ?_⟩
      simp only [Client.endpoint, Client.withToken, probe, hbase, hu]

theorem sent_of_long {n : Nat} (hn : Url.maxLength ≤ n) (t : Traffic) :
    (((probe.withToken (String.ofList (List.replicate n 'a'))).tagId "t" false).run.run t).2.sent =
      t.sent := by
  obtain ⟨u, hu⟩ := probe_endpoint
  obtain ⟨f, hf⟩ := Option.ne_none_iff_exists'.1 (@requestFault?_of_long u [("text", "t")] n hn)
  have happend := Web.appendPairs_appendPairs u
    [(tokenName, String.ofList (List.replicate n 'a'))] [("text", "t")]
  rw [List.singleton_append] at happend
  unfold Client.tagId
  rw [run_exchange_bind, run_ofExcept, hu, mapError_ok]
  dsimp only
  rw [happend, run_lift_bind, run_exchange_bind, fetchJson_refused _ hf]
  rfl

theorem runCalls_tagId (c : Client) (name : String) (showUrls : Bool) (ls : List Listing)
    (t : Traffic) : ((runCalls c [.tagId name showUrls] ls).run t).2 =
      ((c.tagId name showUrls).run.run t).2 := rfl

/-- Tokens can differ in their length, so that one of the two runs alone is refused a request. -/
theorem token_shows_in_length : ¬ ∀ (c : Client) (token token' : String) (calls : List Call)
    (network : Network),
    let run := (runCalls (c.withToken token) calls []).run (.start network)
    let run' := (runCalls (c.withToken token') calls []).run (.start network)
    List.Forall₂ AlikeAnswers run.1.1 run'.1.1 ∧
    List.Forall₂ (tokenPairing token token').Requests run.2.sent run'.2.sent ∧
    run.2.log = run'.2.log := by
  intro h
  obtain ⟨-, hsent, -⟩ := h probe "tok" (String.ofList (List.replicate Url.maxLength 'a'))
    [.tagId "t" false] noTags
  have hlength := hsent.length_eq
  have hshort : ((runCalls (probe.withToken "tok") [.tagId "t" false] []).run
    (.start noTags)).2.sent.length = 1 := by decide +kernel
  have hlong := sent_of_long (Nat.le_refl _) (.start noTags)
  rw [hshort, runCalls_tagId, hlong] at hlength
  cases hlength

end ThreatGraph
