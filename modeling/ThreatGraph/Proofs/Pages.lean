import Mathlib.Data.List.Forall2
import ThreatGraph.Proofs.Lookup

/-!
# Whole listings

A listing that is pulled page by page leaves a trail of visits: the first one fetches the start,
each other one the link of the page before it.  Past the last page, and past a failure, nothing is
delivered and nothing is sent.  A walk delivers the pages of such a trail, decoded, up to the first
that fails.
-/

namespace ThreatGraph

open Json (Value)
open Web (Network Request Url redact)

/-- Traffics that differ at most in what was logged. -/
def SameTraffic (t u : Traffic) : Prop := t.network = u.network ∧ t.sent = u.sent

namespace SameTraffic

theorem rfl {t : Traffic} : SameTraffic t t := ⟨Eq.refl _, Eq.refl _⟩

theorem trans {t u w : Traffic} (h : SameTraffic t u) (h' : SameTraffic u w) : SameTraffic t w :=
  ⟨h.1.trans h'.1, h.2.trans h'.2⟩

theorem noteIf (wanted : Bool) (e : Event) (t : Traffic) :
    SameTraffic (if wanted then t.note e else t) t :=
  ⟨noteIf_network _ _ _, noteIf_sent _ _ _⟩

end SameTraffic

def linkText (response : Value) : Option String :=
  ((response.get? "paging").bind (·.get? "next")).bind Value.text?

/-- The page that a response makes: its `data` item for item, and the URL that its link spells. -/
structure IsPage (response : Value) (page : Page) : Prop where
  data : response.get? "data" = some (.array page.data)
  last : linkText response = none → page.next = none
  linked : ∀ text, linkText response = some text →
    ∃ url, Url.read text = .ok url ∧ page.next = some url

inductive NoPage (response : Value) : ClientError → Prop
  | withoutData (h : response.get? "data" = none) :
    NoPage response (.unexpectedShape .pageWithoutData)
  | dataNotList {v : Value} (h : response.get? "data" = some v) (hv : ∀ items, v ≠ .array items) :
    NoPage response (.unexpectedShape (.dataNotList v))
  | badLink {text : String} {fault : Web.UrlFault} (h : linkText response = some text)
    (hu : Url.read text = .error fault) : NoPage response (.invalidUrl fault)

theorem pageLink_eq (response : Value) :
    pageLink response =
      match linkText response with
      | none => .ok none
      | some text => (Url.read text).map some |>.mapError .invalidUrl := by
  unfold pageLink
  rw [← linkText]
  cases linkText response with
  | none => rfl
  | some text => cases h : Url.read text <;> simp only [h] <;> rfl

theorem pageData_ok {response : Value} {items : List Value}
    (h : pageData response = .ok items) : response.get? "data" = some (.array items) := by
  unfold pageData at h
  split at h
  · next heq =>
    cases h
    exact heq
  · cases h
  · cases h

theorem pageData_error {response : Value} {e : ClientError} (h : pageData response = .error e) :
    NoPage response e := by
  unfold pageData at h
  split at h
  · cases h
  · next v hv heq =>
    cases h
    exact .dataNotList heq fun items hitems => hv items (hitems ▸ rfl)
  · next heq =>
    cases h
    exact .withoutData heq

theorem readPage_ok {index : Nat} {response : Value} {page : Page}
    (h : readPage index response = .ok page) : page.index = index ∧ IsPage response page := by
  unfold readPage at h
  split at h
  · cases h
  · next items hdata =>
    split at h
    · cases h
    · next next hlink =>
      cases h
      refine ⟨rfl, pageData_ok hdata, fun hnone => ?_, fun text htext => ?_⟩
      · rw [pageLink_eq, hnone] at hlink
        exact (Except.ok.inj hlink).symm
      · rw [pageLink_eq] at hlink
        cases hurl : Url.read text with
        | ok url =>
          simp only [htext, hurl] at hlink
          exact ⟨url, rfl, (Except.ok.inj hlink).symm⟩
        | error fault =>
          simp only [htext, hurl] at hlink
          cases hlink

theorem readPage_error {index : Nat} {response : Value} {e : ClientError}
    (h : readPage index response = .error e) : NoPage response e := by
  unfold readPage at h
  split at h
  · next hdata =>
    cases h
    exact pageData_error hdata
  · split at h
    · next hlink =>
      cases h
      rw [pageLink_eq] at hlink
      cases htext : linkText response with
      | none =>
        rw [htext] at hlink
        cases hlink
      | some text =>
        cases hurl : Url.read text with
        | ok url =>
          simp only [htext, hurl] at hlink
          cases hlink
        | error fault =>
          simp only [htext, hurl] at hlink
          cases hlink
          exact .badLink htext hurl
    · cases h

/-- A page of a listing as it was fetched: from where, in which traffic, and out of what. -/
structure Visit where
  url : Url
  before : Traffic
  response : Value
  after : Traffic
  page : Page

/-- The fetch of the visit's URL, tried once or more, brought the response that makes its page. -/
structure Visit.Valid (c : Client) (v : Visit) : Prop where
  fetched : (c.fetchJson v.url).run.run v.before = (.ok v.response, v.after)
  requests : ∃ n, 0 < n ∧ n ≤ max 1 c.maxAttempts ∧
    v.after.sent = v.before.sent ++ List.replicate n (getOf v.url).onWire
  isPage : IsPage v.response v.page

theorem Visit.Valid.size_lt {c : Client} {v : Visit} (hv : v.Valid c) :
    v.after.network.size < v.before.network.size := by
  obtain ⟨n, hpos, -, -, hsize⟩ := Client.fetchJson_ok hv.fetched
  omega

/-- Where a listing goes on after some visits, and in which traffic. -/
def goesOn (start : Url) (t : Traffic) (visits : List Visit) : Option Url × Traffic :=
  match visits.getLast? with
  | none => (some start, t)
  | some v => (v.page.next, v.after)

@[simp] theorem goesOn_snoc (start : Url) (t : Traffic) (visits : List Visit) (v : Visit) :
    goesOn start t (visits ++ [v]) = (v.page.next, v.after) := by
  simp [goesOn]

/-- Visits from `start` on, each at the link of the page before it, and nothing in between; pages
are numbered from zero. -/
inductive Trail (c : Client) (start : Url) (t : Traffic) : List Visit → Prop
  | nil : Trail c start t []
  | snoc {visits : List Visit} {v : Visit} (trail : Trail c start t visits) (valid : v.Valid c)
    (number : v.page.index = visits.length) (url : (goesOn start t visits).1 = some v.url)
    (before : SameTraffic v.before (goesOn start t visits).2) : Trail c start t (visits ++ [v])

/-- A fetch that brings no page: it fails, or its response is none. -/
inductive Fails (c : Client) (url : Url) (before after : Traffic) : ClientError → Prop
  | fetch {e : ClientError} (h : (c.fetchJson url).run.run before = (.error e, after)) :
    Fails c url before after e
  | response {response : Value} {e : ClientError}
    (h : (c.fetchJson url).run.run before = (.ok response, after)) (none : NoPage response e) :
    Fails c url before after e

namespace Client

theorem fetchPage_run (c : Client) (index : Nat) (showUrls : Bool) (url : Url) (t : Traffic) :
    (c.fetchPage index showUrls url).run.run t =
      match (c.fetchJson url).run.run
          (if showUrls then t.note (.fetchingPage index (redact url)) else t) with
      | (.error e, u) => (.error e, u)
      | (.ok response, u) =>
        match readPage index response with
        | .error e => (.error e, u)
        | .ok page =>
          (.ok page, u.note (.receivedPage index page.data.length page.next.isSome)) := by
  unfold fetchPage
  rw [run_lift_bind, run_noteIf, run_exchange_bind]
  rcases (c.fetchJson url).run.run _ with ⟨e | response, u⟩
  · rfl
  · simp only
    rw [run_exchange_bind, run_ofExcept]
    cases readPage index response <;> rfl

theorem nextPage_run (c : Client) (l : Listing) (t : Traffic) :
    (c.nextPage l).run t =
      match l.next with
      | none => ((.ok none, l), t)
      | some url =>
        match (c.fetchPage l.index l.showUrls url).run.run t with
        | (.ok page, u) =>
          ((.ok (some page), { l with next := page.next, index := l.index + 1 }), u)
        | (.error e, u) => ((.error e, { l with next := none }), u) := by
  unfold nextPage
  cases l.next with
  | none => rfl
  | some url =>
    simp only
    rw [run_bind]
    rcases (c.fetchPage l.index l.showUrls url).run.run t with ⟨e | page, u⟩ <;> rfl

theorem nextPage_visits (c : Client) {l : Listing} {url : Url} (hl : l.next = some url)
    (t : Traffic) :
    (∃ (v : Visit) (u : Traffic), v.Valid c ∧ v.url = url ∧ v.page.index = l.index ∧
      SameTraffic v.before t ∧ SameTraffic u v.after ∧ (c.nextPage l).run t =
        ((.ok (some v.page), { l with next := v.page.next, index := l.index + 1 }), u)) ∨
    ∃ e before after, Fails c url before after e ∧ SameTraffic before t ∧
      (c.nextPage l).run t = ((.error e, { l with next := none }), after) := by
  rw [nextPage_run, hl]
  simp only
  rw [fetchPage_run]
  have hbefore := SameTraffic.noteIf l.showUrls (.fetchingPage l.index (redact url)) t
  generalize (if l.showUrls = true then t.note _ else t) = before at hbefore
  rcases hf : (c.fetchJson url).run.run before with ⟨e | response, after⟩
  · exact .inr ⟨e, before, after, .fetch hf, hbefore, rfl⟩
  · cases hp : readPage l.index response with
    | error e =>
      exact .inr ⟨e, before, after, .response hf (readPage_error hp), hbefore, by simp only [hp]⟩
    | ok page =>
      obtain ⟨hindex, hpage⟩ := readPage_ok hp
      obtain ⟨n, hpos, hn, hsent, -⟩ := fetchJson_ok hf
      exact .inl ⟨⟨url, before, response, after, page⟩,
        after.note (.receivedPage l.index page.data.length page.next.isSome),
        ⟨hf, ⟨n, hpos, hn, hsent⟩, hpage⟩, rfl, hindex, hbefore, ⟨rfl, rfl⟩, by simp only [hp]⟩

/-- `n` calls for the next page, one after the other, and where the listing stands then. -/
def pulls (c : Client) :
    Nat → Listing → Session (List (Except ClientError (Option Page)) × Listing)
  | 0, l => pure ([], l)
  | n + 1, l => do
    let (rs, l) ← c.pulls n l
    let (r, l) ← c.nextPage l
    return (rs ++ [r], l)

theorem pulls_succ_run (c : Client) (n : Nat) (l : Listing) (t : Traffic) :
    (c.pulls (n + 1) l).run t =
      let before := (c.pulls n l).run t
      let last := (c.nextPage before.1.2).run before.2
      ((before.1.1 ++ [last.1.1], last.1.2), last.2) := rfl

end Client

/-- What calls for the next page come to: the pages of a trail; the pages of a trail that has ended,
and nothing from then on; or the pages of a trail, a failure at the link of the last of them, and
nothing from then on. -/
inductive Pulled (c : Client) (start : Url) (t : Traffic) :
    List (Except ClientError (Option Page)) → Listing → Traffic → Prop
  | reading {visits : List Visit} {l : Listing} {u : Traffic} (trail : Trail c start t visits)
    (next : l.next = (goesOn start t visits).1) (number : l.index = visits.length)
    (same : SameTraffic u (goesOn start t visits).2) :
    Pulled c start t (visits.map fun v => .ok (some v.page)) l u
  | ended {visits : List Visit} {l : Listing} {u : Traffic} (idle : Nat)
    (trail : Trail c start t visits) (last : (goesOn start t visits).1 = none)
    (next : l.next = none) (same : SameTraffic u (goesOn start t visits).2) :
    Pulled c start t ((visits.map fun v => .ok (some v.page)) ++ List.replicate idle (.ok none)) l u
  | failed {visits : List Visit} {url : Url} {before after : Traffic} {e : ClientError}
    {l : Listing} {u : Traffic} (idle : Nat) (trail : Trail c start t visits)
    (link : (goesOn start t visits).1 = some url)
    (before_same : SameTraffic before (goesOn start t visits).2)
    (fails : Fails c url before after e) (next : l.next = none) (same : SameTraffic u after) :
    Pulled c start t
      ((visits.map fun v => .ok (some v.page)) ++ .error e :: List.replicate idle (.ok none)) l u

namespace Client

theorem nextPage_pulled (c : Client) {start : Url} {t u : Traffic} {l : Listing}
    {rs : List (Except ClientError (Option Page))} (h : Pulled c start t rs l u) :
    Pulled c start t (rs ++ [((c.nextPage l).run u).1.1]) ((c.nextPage l).run u).1.2
      ((c.nextPage l).run u).2 := by
  cases h with
  | @reading visits _ _ trail next number same =>
    cases hl : l.next with
    | none =>
      rw [nextPage_run, hl]
      exact .ended 1 trail (next.symm.trans hl) hl same
    | some url =>
      have hlink : (goesOn start t visits).1 = some url := next.symm.trans hl
      rcases c.nextPage_visits hl u with
        ⟨v, w, hv, rfl, hindex, hbefore, hafter, hrun⟩ | ⟨e, before, after, hfails, hbefore, hrun⟩
      · have htrail : Trail c start t (visits ++ [v]) :=
          trail.snoc hv (hindex.trans number) hlink (hbefore.trans same)
        rw [hrun]
        simpa using Pulled.reading htrail
          (l := { l with next := v.page.next, index := l.index + 1 }) (u := w) (by simp)
          (by simp [number]) (by simpa using hafter)
      · rw [hrun]
        exact .failed 0 trail hlink (hbefore.trans same) hfails rfl .rfl
  | ended idle trail last next same =>
    rw [nextPage_run, next]
    simp only [List.append_assoc, ← List.replicate_succ']
    exact .ended (idle + 1) trail last next same
  | failed idle trail link before_same fails next same =>
    rw [nextPage_run, next]
    simp only [List.append_assoc, List.cons_append, ← List.replicate_succ']
    exact .failed (idle + 1) trail link before_same fails next same

theorem pulls_length (c : Client) (n : Nat) (l : Listing) (t : Traffic) :
    ((c.pulls n l).run t).1.1.length = n := by
  induction n with
  | zero => rfl
  | succ n ih =>
    rw [pulls_succ_run]
    simp [ih]

theorem pulls_pulled (c : Client) (start : Url) (showUrls : Bool) (n : Nat) (t : Traffic) :
    let run := (c.pulls n (.start start showUrls)).run t
    Pulled c start t run.1.1 run.1.2 run.2 := by
  induction n with
  | zero => exact .reading .nil rfl rfl .rfl
  | succ n ih => exact c.nextPage_pulled ih

theorem walkFrom_succ_run {ε α : Type} (c : Client) (wrap : ClientError → ε)
    (read : Page → ExceptT ε Session α) (fuel : Nat) (l : Listing) (t : Traffic) :
    (c.walkFrom wrap read (fuel + 1) l).run t =
      match (c.nextPage l).run t with
      | ((.error e, _), u) => (([], some (wrap e)), u)
      | ((.ok none, _), u) => (([], none), u)
      | ((.ok (some page), l'), u) =>
        match (read page).run.run u with
        | (.error e, w) => (([], some e), w)
        | (.ok a, w) =>
          let rest := (c.walkFrom wrap read fuel l').run w
          ((a :: rest.1.1, rest.1.2), rest.2) := by
  rw [walkFrom, run_bind]
  rcases (c.nextPage l).run t with ⟨⟨_ | (_ | page), l'⟩, u⟩
  · rfl
  · rfl
  · simp only
    rw [run_bind]
    rcases (read page).run.run u with ⟨_ | a, w⟩ <;> rfl

end Client

/-- What a walk comes to that decodes every page with `decode`: all pages of a trail that ended; the
pages of a trail at whose end no page could be fetched; or the pages of a trail up to one that could
not be decoded. -/
inductive Walked {α : Type} (c : Client) (start : Url) (t : Traffic)
    (decode : Page → Except ClientError α) : List α → Option ClientError → Traffic → Prop
  | done {visits : List Visit} {items : List α} {u : Traffic} (trail : Trail c start t visits)
    (last : (goesOn start t visits).1 = none)
    (decoded : List.Forall₂ (fun v a => decode v.page = .ok a) visits items)
    (same : SameTraffic u (goesOn start t visits).2) : Walked c start t decode items none u
  | unfetched {visits : List Visit} {items : List α} {url : Url} {before after u : Traffic}
    {e : ClientError} (trail : Trail c start t visits) (link : (goesOn start t visits).1 = some url)
    (before_same : SameTraffic before (goesOn start t visits).2)
    (fails : Fails c url before after e)
    (decoded : List.Forall₂ (fun v a => decode v.page = .ok a) visits items)
    (same : SameTraffic u after) : Walked c start t decode items (some e) u
  | undecoded {visits : List Visit} {items : List α} {v : Visit} {u : Traffic} {e : ClientError}
    (trail : Trail c start t (visits ++ [v])) (fails : decode v.page = .error e)
    (decoded : List.Forall₂ (fun v a => decode v.page = .ok a) visits items)
    (same : SameTraffic u v.after) : Walked c start t decode items (some e) u

namespace Client

/-- More fuel than the network has replies is enough to walk on from anywhere on a trail. -/
theorem walkFrom_walked {α : Type} (c : Client) {read : Page → Exchange α}
    {decode : Page → Except ClientError α} (hsilent : ∀ page, Silent (read page).run)
    (hdecode : ∀ page t, ((read page).run.run t).1 = decode page)
    {start : Url} {t : Traffic} (fuel : Nat) {visits : List Visit} {items : List α} {l : Listing}
    {u : Traffic} (trail : Trail c start t visits) (next : l.next = (goesOn start t visits).1)
    (number : l.index = visits.length) (same : SameTraffic u (goesOn start t visits).2)
    (decoded : List.Forall₂ (fun v a => decode v.page = .ok a) visits items)
    (hfuel : u.network.size < fuel) :
    let run := (c.walkFrom id read fuel l).run u
    Walked c start t decode (items ++ run.1.1) run.1.2 run.2 := by
  induction fuel generalizing visits items l u with
  | zero => exact absurd hfuel (Nat.not_lt_zero _)
  | succ fuel ih =>
    simp only
    rw [walkFrom_succ_run]
    cases hl : l.next with
    | none =>
      rw [nextPage_run, hl]
      simpa using Walked.done trail (next.symm.trans hl) decoded same
    | some url =>
      have hlink : (goesOn start t visits).1 = some url := next.symm.trans hl
      rcases c.nextPage_visits hl u with
        ⟨v, w, hv, rfl, hindex, hbefore, hafter, hrun⟩ | ⟨e, before, after, hfails, hbefore, hrun⟩
      · have htrail : Trail c start t (visits ++ [v]) :=
          trail.snoc hv (hindex.trans number) hlink (hbefore.trans same)
        rw [hrun]
        simp only
        have hread := hsilent v.page w
        have hresult := hdecode v.page w
        rcases hr : (read v.page).run.run w with ⟨e | a, x⟩ <;> rw [hr] at hread hresult
        · simpa using Walked.undecoded htrail hresult.symm decoded (SameTraffic.trans hread hafter)
        · have hsize : x.network.size < fuel := by
            have hlt := hv.size_lt
            rw [hread.1, hafter.1]
            rw [hbefore.1] at hlt
            omega
          have hdecoded : List.Forall₂ (fun v a => decode v.page = .ok a) (visits ++ [v])
              (items ++ [a]) := List.rel_append decoded (.cons hresult.symm .nil)
          have hrest := ih (l := { l with next := v.page.next, index := l.index + 1 }) htrail
            (by simp) (by simp [number]) (by simpa using SameTraffic.trans hread hafter) hdecoded
            hsize
          simpa using hrest
      · rw [hrun]
        simpa using Walked.unfetched trail hlink (hbefore.trans same) hfails decoded .rfl

theorem walk_walked {α : Type} (c : Client) {read : Page → Exchange α}
    {decode : Page → Except ClientError α} (hsilent : ∀ page, Silent (read page).run)
    (hdecode : ∀ page t, ((read page).run.run t).1 = decode page) (start : Url) (showUrls : Bool)
    (t : Traffic) :
    let run := (c.walk id read (.start start showUrls)).run t
    Walked c start t decode run.1.1 run.1.2 run.2 := by
  have h := c.walkFrom_walked hsilent hdecode (t.network.size + 1) (l := .start start showUrls)
    (u := t) (Trail.nil (t := t)) rfl rfl .rfl .nil (Nat.lt_succ_self _)
  exact h

end Client

/-- The ids of those items of a page that claim to be descriptors, if all of these decode. -/
def itemIds (page : Page) : Except ClientError (List String) :=
  ((page.data.filter claimsDescriptor).mapM TaggedObject.decode).mapError ofMismatch
    |>.map (·.map (·.id))

/-- The normal forms of the items of a page, if all have one. -/
def itemDescriptors (opts : QueryOptions) (page : Page) : Except ClientError (List Descriptor) :=
  (page.data.mapM fun raw => Descriptor.normalize raw opts.includeIndicator).mapError .input

theorem readTagged_result (opts : QueryOptions) (items : List Value) (t : Traffic) :
    ((readTagged opts items).run.run t).1 =
      (((items.filter claimsDescriptor).mapM TaggedObject.decode).mapError ofMismatch).map
        (·.map (stripName opts)) := by
  induction items generalizing t with
  | nil => rfl
  | cons item rest ih =>
    unfold readTagged
    split
    · next hclaims =>
      rw [List.filter_cons_of_pos hclaims, List.mapM_cons, run_exchange_bind, run_ofExcept]
      cases TaggedObject.decode item with
      | error m => rfl
      | ok o =>
        simp only [mapError_ok]
        rw [run_lift_bind, run_noteIf, run_exchange_bind]
        generalize (if opts.verbose then t.note (.taggedObject _) else t) = u
        have hrest := ih u
        rcases hr : (readTagged opts rest).run.run u with ⟨e | os, w⟩ <;> rw [hr] at hrest <;>
          cases hm : (rest.filter claimsDescriptor).mapM TaggedObject.decode <;>
          rw [hm] at hrest <;> cases hrest <;> rfl
    · next hclaims =>
      rw [List.filter_cons_of_neg hclaims]
      exact ih t

theorem stripName_id (opts : QueryOptions) (o : TaggedObject) : (stripName opts o).id = o.id := by
  unfold stripName
  split <;> rfl

theorem taggedDescriptors_result (opts : QueryOptions) (page : Page) (t : Traffic) :
    ((taggedDescriptors opts page).run.run t).1 =
      (((page.data.filter claimsDescriptor).mapM TaggedObject.decode).mapError ofMismatch).map
        (·.map (stripName opts)) := by
  have hread := readTagged_result opts page.data t
  unfold taggedDescriptors
  rw [run_exchange_bind, ← hread]
  rcases (readTagged opts page.data).run.run t with ⟨e | os, u⟩ <;> rfl

theorem descriptorIds_eq (opts : QueryOptions) (page : Page) (t : Traffic) :
    ((descriptorIds opts page).run.run t).1 =
      ((taggedDescriptors opts page).run.run t).1.map (·.map (·.id)) := by
  unfold descriptorIds
  rw [run_exchange_bind]
  rcases (taggedDescriptors opts page).run.run t with ⟨e | os, u⟩ <;> rfl

theorem descriptorIds_result (opts : QueryOptions) (page : Page) (t : Traffic) :
    ((descriptorIds opts page).run.run t).1 = itemIds page := by
  rw [descriptorIds_eq, taggedDescriptors_result, itemIds]
  cases (page.data.filter claimsDescriptor).mapM TaggedObject.decode with
  | error m => rfl
  | ok os =>
    change Except.ok ((List.map (stripName opts) os).map (·.id)) = Except.ok _
    rw [List.map_map]
    exact congrArg _ (List.map_congr_left fun o _ => stripName_id opts o)

theorem pageDescriptors_result (opts : QueryOptions) (page : Page) (t : Traffic) :
    ((pageDescriptors opts page).run.run t).1 = itemDescriptors opts page := by
  unfold pageDescriptors itemDescriptors
  rw [run_exchange_bind, run_ofExcept]
  cases page.data.mapM fun raw => Descriptor.normalize raw opts.includeIndicator <;> rfl

theorem silent_descriptorIds (opts : QueryOptions) (page : Page) :
    Silent (descriptorIds opts page).run := by
  refine Silent.exchangeBind ?_ fun os => Silent.pure _
  refine (silent_readTagged opts page.data).exchangeBind fun os => ?_
  exact (Silent.lift (Silent.note _)).exchangeBind fun _ => Silent.pure _

theorem silent_pageDescriptors (opts : QueryOptions) (page : Page) :
    Silent (pageDescriptors opts page).run := by
  refine (Silent.ofExcept _ _).exchangeBind fun ds => ?_
  exact (Silent.lift (Silent.note _)).exchangeBind fun _ => Silent.pure _

namespace Client

/-- Pulling a listing from any start delivers the pages of a trail and then nothing, with at most
one failure in between.  Walking through what carries a tag, or through the results of a search,
delivers the decoded pages of such a trail up to the first failure, which it ends in; without a URL
to start at, that is the failure and nothing is sent. -/
theorem listings_follow_links (c : Client) (t : Traffic) :
    (∀ start showUrls n,
      let run := (c.pulls n (.start start showUrls)).run t
      run.1.1.length = n ∧ Pulled c start t run.1.1 run.1.2 run.2) ∧
    (∀ tagId opts,
      let run := (c.descriptorIdsOfTag tagId opts).run t
      (∃ e, c.taggedObjects tagId opts = .error e ∧ run = (([], some e), t)) ∨
      ∃ start, c.taggedObjects tagId opts = .ok (.start start opts.showUrls) ∧
        Walked c start t itemIds run.1.1 run.1.2 run.2) ∧
    (∀ params opts,
      let run := (c.search params opts).run t
      (∃ e, c.searchListing params opts = .error e ∧ run = (([], some e), t)) ∨
      ∃ start, c.searchListing params opts = .ok (.start start opts.showUrls) ∧
        Walked c start t (itemDescriptors opts) run.1.1 run.1.2 run.2) := by
  refine ⟨fun start showUrls n => ⟨c.pulls_length n _ t, c.pulls_pulled start showUrls n t⟩,
    fun tagId opts => ?_, fun params opts => ?_⟩
  · have hwalk := c.walk_walked (silent_descriptorIds opts) (descriptorIds_result opts)
    unfold descriptorIdsOfTag
    cases he : c.endpoint [tagId, "tagged_objects"] with
    | error e =>
      have hl : c.taggedObjects tagId opts = .error e := by simp only [taggedObjects, he]
      simp only [hl]
      exact .inl ⟨e, rfl, rfl⟩
    | ok url =>
      have hl : ∃ start, c.taggedObjects tagId opts = .ok (.start start opts.showUrls) := by
        simp only [taggedObjects, he]
        exact ⟨_, rfl⟩
      obtain ⟨start, hl⟩ := hl
      simp only [hl]
      exact .inr ⟨start, rfl, hwalk start opts.showUrls t⟩
  · have hwalk := c.walk_walked (silent_pageDescriptors opts) (pageDescriptors_result opts)
    unfold search
    cases he : c.endpoint ["threat_descriptors"] with
    | error e =>
      have hl : c.searchListing params opts = .error e := by simp only [searchListing, he]
      simp only [hl]
      exact .inl ⟨e, rfl, rfl⟩
    | ok url =>
      have hl : ∃ start, c.searchListing params opts = .ok (.start start opts.showUrls) := by
        simp only [searchListing, he]
        exact ⟨_, rfl⟩
      obtain ⟨start, hl⟩ := hl
      simp only [hl]
      exact .inr ⟨start, rfl, hwalk start opts.showUrls t⟩

end Client
end ThreatGraph
