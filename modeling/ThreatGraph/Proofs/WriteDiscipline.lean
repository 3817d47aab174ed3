import ThreatGraph.Client.Write
import ThreatGraph.Proofs.Lookup

/-!
# The discipline of writes

A write sends at most one post, and nothing after it.  Only a copy reads before it posts, and what
it reads is one lookup.  `Posting` says which post a write comes to.
-/

namespace ThreatGraph

open Post (Field Fields Kind validate copyFields)
open Web (Network Request Reply Url redact)

def postOf (url : Url) (fs : Fields) : Request :=
  ⟨.post, url.appendPairs fs.pairs, some (Web.Form.encode fs.pairs)⟩

theorem postFields_run (url : Url) (fs : Fields) (opts : WriteOptions) (t : Traffic) :
    (postFields url fs opts).run t =
      let target := url.appendPairs fs.pairs
      let start :=
        if opts.showUrls || opts.dryRun then t.note (.post (redact target) opts.dryRun) else t
      if opts.dryRun then (.nothing, start)
      else
        match start.send (postOf url fs) with
        | (.error fault, u) => (.failed (.transfer fault) none, u)
        | (.ok r, u) => (.ofResponse target r, u.note (.posted r.status (redact target))) := by
  unfold postFields
  rw [run_bind, run_noteIf]
  cases opts.dryRun with
  | true => rfl
  | false =>
    simp only [Bool.false_eq_true, if_false]
    rw [run_bind, run_send, ← postOf]
    generalize (if (opts.showUrls || false) = true then t.note _ else t) = start
    rcases start.send (postOf url fs) with ⟨fault | r, u⟩ <;> rfl

namespace Client

/-- What the network gets of a post: the one request, unless it is withheld or cannot be made. -/
def posted (c : Client) (segments : List String) (fs : Fields) (opts : WriteOptions) :
    List Request :=
  match c.endpoint segments with
  | .error _ => []
  | .ok url =>
    if opts.dryRun = false ∧ (postOf url fs).url.requestFault? = none then
      [(postOf url fs).onWire]
    else []

theorem postTo_sent (c : Client) (segments : List String) (fs : Fields) (opts : WriteOptions)
    {t : Traffic} (hup : t.network ≠ .down) :
    ((c.postTo segments fs opts).run t).2.sent = t.sent ++ c.posted segments fs opts := by
  unfold postTo posted
  cases c.endpoint segments with
  | error e => exact (List.append_nil _).symm
  | ok url =>
    simp only
    rw [postFields_run]
    cases hdry : opts.dryRun with
    | true => simp
    | false =>
      simp only [Bool.false_eq_true, if_false, true_and]
      generalize hstart : (if (opts.showUrls || false) = true then t.note _ else t) = start
      have hs := send_sent start (postOf url fs)
      have hnetwork : start.network = t.network := by rw [← hstart, noteIf_network]
      have hsent : start.sent = t.sent := by rw [← hstart, noteIf_sent]
      rw [hnetwork, hsent] at hs
      simp only [hup, ne_eq, not_false_eq_true, and_true] at hs
      rcases hr : start.send (postOf url fs) with ⟨fault | r, u⟩ <;> rw [hr] at hs <;> exact hs

/-- A post that cannot be requested is refused before it is sent, and the refusal is the outcome. -/
theorem postTo_refused (c : Client) {segments : List String} {fs : Fields} {opts : WriteOptions}
    {url : Url} {fault : Web.TransferFault} (hurl : c.endpoint segments = .ok url)
    (hdry : opts.dryRun = false) (hfault : (postOf url fs).url.requestFault? = some fault)
    (t : Traffic) : ((c.postTo segments fs opts).run t).1 = .failed (.transfer fault) none := by
  unfold postTo
  simp only [hurl]
  rw [postFields_run]
  simp only [hdry, Bool.false_eq_true, if_false, Traffic.send, hfault]

/-- Where a write is to post, and what: its fields passed validation, and a copy found its model and
passed validation again.  `t` is the traffic before the write. -/
inductive Posting (c : Client) (opts : WriteOptions) (t : Traffic) :
    Kind → Fields → List String → Fields → Prop
  | submit {fs : Fields} (valid : validate .submit fs = none) :
    Posting c opts t .submit fs ["threat_descriptors"] fs
  | update {fs : Fields} {id : String} (valid : validate .update fs = none)
    (named : fs.get? .descriptorId = some id) : Posting c opts t .update fs [id] fs
  | copy {fs : Fields} {id : String} {source : Descriptor} {others : List Descriptor}
    (valid : validate .copy fs = none) (named : fs.get? .descriptorId = some id)
    (found : ((c.descriptorsOfIds [id] { showUrls := opts.showUrls }).run.run t).1 =
      .ok (source :: others))
    (complete : validate .submit (copyFields source fs) = none) :
    Posting c opts t .copy fs ["threat_descriptors"] (copyFields source fs)

def IsLookup (c : Client) (kind : Kind) (fs : Fields) (r : Request) : Prop :=
  kind = .copy ∧ ∃ id url, fs.get? .descriptorId = some id ∧ c.lookupUrl [id] = .ok url ∧
    r = (getOf url).onWire

/-- From `t` to `start`, a write does nothing but its reads. -/
structure ReadsFirst (c : Client) (kind : Kind) (fs : Fields) (t start : Traffic)
    (gets : List Request) : Prop where
  sent : start.sent = t.sent ++ gets
  up : t.network ≠ .down → start.network ≠ .down
  few : gets.length ≤ max 1 c.maxAttempts
  lookups : ∀ r ∈ gets, c.IsLookup kind fs r
  checked : validate kind fs ≠ none → gets = []

theorem ReadsFirst.nothing (c : Client) (kind : Kind) (fs : Fields) (t : Traffic) :
    c.ReadsFirst kind fs t t [] :=
  ⟨(List.append_nil _).symm, id, Nat.zero_le _, by simp, fun _ => rfl⟩

/-- What a write does once its reads are done: it posts to where `Posting` says, or stops. -/
def Ends (c : Client) (kind : Kind) (fs : Fields) (opts : WriteOptions)
    (t start : Traffic) : Prop :=
  (∃ segments fields, Posting c opts t kind fs segments fields ∧
    (c.write kind fs opts).run t = (c.postTo segments fields opts).run start) ∨
  ((∀ segments fields, ¬ Posting c opts t kind fs segments fields) ∧
    ((c.write kind fs opts).run t).2 = start)

theorem Posting.valid {c : Client} {opts : WriteOptions} {t : Traffic} {kind : Kind}
    {fs fields : Fields} {segments : List String} (hp : Posting c opts t kind fs segments fields) :
    validate kind fs = none := by
  cases hp <;> assumption

theorem not_posting {c : Client} {opts : WriteOptions} {t : Traffic} {kind : Kind} {fs : Fields}
    {e : Post.ValidationError} (hv : validate kind fs = some e) (segments : List String)
    (fields : Fields) : ¬ Posting c opts t kind fs segments fields := by
  intro hp
  rw [hp.valid] at hv
  cases hv

theorem submit_ends (c : Client) (fs : Fields) (opts : WriteOptions) (t : Traffic) :
    c.Ends .submit fs opts t t := by
  simp only [Ends, write, submit]
  cases hv : validate .submit fs with
  | none => exact .inl ⟨_, _, .submit hv, rfl⟩
  | some e => exact .inr ⟨not_posting hv, rfl⟩

theorem update_ends (c : Client) (fs : Fields) (opts : WriteOptions) (t : Traffic) :
    c.Ends .update fs opts t t := by
  simp only [Ends, write, update]
  cases hv : validate .update fs with
  | none =>
    cases hid : fs.get? .descriptorId with
    | some id => exact .inl ⟨_, _, .update hv hid, rfl⟩
    | none =>
      refine .inr ⟨fun segments fields hp => ?_, rfl⟩
      cases hp with
      | update _ named => simp [named] at hid
  | some e => exact .inr ⟨not_posting hv, rfl⟩

theorem Posting.found_of_copy {c : Client} {opts : WriteOptions} {t : Traffic} {fs fields : Fields}
    {id : String} {segments : List String} (hp : Posting c opts t .copy fs segments fields)
    (hid : fs.get? .descriptorId = some id) :
    ∃ source others, ((c.descriptorsOfIds [id] { showUrls := opts.showUrls }).run.run t).1 =
      .ok (source :: others) ∧ validate .submit (copyFields source fs) = none := by
  cases hp with
  | copy _ named found complete =>
    obtain rfl := Option.some.inj (named.symm.trans hid)
    exact ⟨_, _, found, complete⟩

theorem not_posting_of_lost {c : Client} {opts : WriteOptions} {t : Traffic} {fs : Fields}
    {id : String} (hid : fs.get? .descriptorId = some id)
    (hlost : ∀ source others,
      ((c.descriptorsOfIds [id] { showUrls := opts.showUrls }).run.run t).1 ≠
        .ok (source :: others))
    (segments : List String) (fields : Fields) : ¬ Posting c opts t .copy fs segments fields := by
  intro hp
  obtain ⟨source, others, found, -⟩ := hp.found_of_copy hid
  exact hlost source others found

theorem copy_ends (c : Client) {fs : Fields} {id : String} (opts : WriteOptions) (t : Traffic)
    (hv : validate .copy fs = none) (hid : fs.get? .descriptorId = some id) :
    c.Ends .copy fs opts t
      ((c.descriptorsOfIds [id] { showUrls := opts.showUrls }).run.run t).2 := by
  simp only [Ends, write, copy, hv, hid]
  rw [run_bind]
  rcases hr : (c.descriptorsOfIds [id] { showUrls := opts.showUrls }).run.run t with
    ⟨e | (_ | ⟨source, others⟩), u⟩
  · exact .inr ⟨not_posting_of_lost hid fun _ _ => by simp [hr], rfl⟩
  · exact .inr ⟨not_posting_of_lost hid fun _ _ => by simp [hr], rfl⟩
  · change (∃ segments fields, _ ∧ (c.submit (copyFields source fs) opts).run u = _) ∨
      (_ ∧ ((c.submit (copyFields source fs) opts).run u).2 = u)
    unfold submit
    cases hs : validate .submit (copyFields source fs) with
    | none => exact .inl ⟨_, _, .copy hv hid (congrArg Prod.fst hr) hs, rfl⟩
    | some e =>
      refine .inr ⟨fun segments fields hp => ?_, rfl⟩
      obtain ⟨_, _, found, complete⟩ := hp.found_of_copy hid
      rw [hr] at found
      cases found
      rw [complete] at hs
      cases hs

theorem write_reads_then_ends (c : Client) (kind : Kind) (fs : Fields) (opts : WriteOptions)
    (t : Traffic) :
    ∃ gets start, c.ReadsFirst kind fs t start gets ∧ c.Ends kind fs opts t start := by
  cases kind with
  | submit => exact ⟨[], t, .nothing c _ fs t, c.submit_ends fs opts t⟩
  | update => exact ⟨[], t, .nothing c _ fs t, c.update_ends fs opts t⟩
  | copy =>
    cases hv : validate .copy fs with
    | some e =>
      refine ⟨[], t, .nothing c _ fs t, .inr ⟨not_posting hv, ?_⟩⟩
      simp only [write, copy, hv]
      rfl
    | none =>
      cases hid : fs.get? .descriptorId with
      | none => simp [validate, Fields.contains, hid] at hv
      | some id =>
        obtain ⟨gets, hsent, hfew, hgets⟩ :=
          c.descriptorsOfIds_sent [id] { showUrls := opts.showUrls } t
        refine ⟨gets, _, ⟨hsent, c.descriptorsOfIds_up _ _, hfew, fun r hr => ?_, ?_⟩,
          c.copy_ends opts t hv hid⟩
        · obtain ⟨url, hurl, rfl⟩ := hgets r hr
          exact ⟨rfl, id, url, hid, hurl, rfl⟩
        · intro h
          exact absurd hv h

/-- A write posts to one place. -/
theorem Posting.unique {c : Client} {opts : WriteOptions} {t : Traffic} {kind : Kind}
    {fs fields fields' : Fields} {segments segments' : List String}
    (hp : Posting c opts t kind fs segments fields)
    (hp' : Posting c opts t kind fs segments' fields') :
    segments = segments' ∧ fields = fields' := by
  cases hp with
  | submit _ =>
    cases hp'
    exact ⟨rfl, rfl⟩
  | update _ named =>
    cases hp' with
    | update _ named' =>
      obtain rfl := Option.some.inj (named.symm.trans named')
      exact ⟨rfl, rfl⟩
  | copy _ named found _ =>
    cases hp' with
    | copy _ named' found' _ =>
      obtain rfl := Option.some.inj (named.symm.trans named')
      rw [found] at found'
      cases found'
      exact ⟨rfl, rfl⟩

theorem mem_posted {c : Client} {segments : List String} {fs : Fields} {opts : WriteOptions}
    {r : Request} :
    r ∈ c.posted segments fs opts ↔ opts.dryRun = false ∧ ∃ url, c.endpoint segments = .ok url ∧
      (postOf url fs).url.requestFault? = none ∧ r = (postOf url fs).onWire := by
  unfold posted
  cases c.endpoint segments with
  | error e => simp
  | ok url =>
    by_cases h : opts.dryRun = false ∧ (postOf url fs).url.requestFault? = none
    · simp [h]
    · simp only [h, if_false, List.not_mem_nil, false_iff]
      rintro ⟨hdry, _, ⟨rfl⟩, hfault, -⟩
      exact h ⟨hdry, hfault⟩

theorem posted_length_le (c : Client) (segments : List String) (fs : Fields) (opts : WriteOptions) :
    (c.posted segments fs opts).length ≤ 1 := by
  unfold posted
  split
  · exact Nat.zero_le 1
  · split <;> simp

/-- A write sends its reads and then at most one post, last of all; there is a post exactly when
`Posting` has one, it is no dry run, and the endpoint gives a URL that can be requested.  A URL that
cannot be is refused instead. -/
theorem write_discipline (c : Client) (kind : Kind) (fs : Fields) (opts : WriteOptions)
    (replies : List Reply) (sent : List Request) (log : List Event) :
    let t : Traffic := ⟨.scripted replies, sent, log⟩
    ∃ gets posts : List Request,
      ((c.write kind fs opts).run t).2.sent = sent ++ gets ++ posts ∧
      (∀ r ∈ gets, r.method = .get ∧ c.IsLookup kind fs r) ∧
      gets.length ≤ max 1 c.maxAttempts ∧
      (∀ r ∈ posts, r.method = .post) ∧
      posts.length ≤ 1 ∧
      (validate kind fs ≠ none → gets = [] ∧ posts = []) ∧
      (opts.dryRun = true → posts = []) ∧
      (opts.dryRun = false →
        ∀ r, r ∈ posts ↔ ∃ segments fields url, Posting c opts t kind fs segments fields ∧
          c.endpoint segments = .ok url ∧ (postOf url fields).url.requestFault? = none ∧
          r = (postOf url fields).onWire) ∧
      (opts.dryRun = false → ∀ segments fields url fault,
        Posting c opts t kind fs segments fields → c.endpoint segments = .ok url →
        (postOf url fields).url.requestFault? = some fault →
        posts = [] ∧ ((c.write kind fs opts).run t).1 = .failed (.transfer fault) none) := by
  intro t
  obtain ⟨gets, start, hreads, hends⟩ := c.write_reads_then_ends kind fs opts t
  have hup : start.network ≠ .down := hreads.up (by simp [t])
  have hgets : ∀ r ∈ gets, r.method = .get ∧ c.IsLookup kind fs r := by
    intro r hr
    refine ⟨?_, hreads.lookups r hr⟩
    obtain ⟨_, _, _, _, _, rfl⟩ := hreads.lookups r hr
    rfl
  rcases hends with ⟨segments, fields, hp, hrun⟩ | ⟨hnone, hrun⟩
  · refine ⟨gets, c.posted segments fields opts, ?_, hgets, hreads.few, fun r hr => ?_,
      c.posted_length_le segments fields opts, fun h => absurd hp.valid h, fun hdry => ?_,
      fun hdry r => ?_, fun hdry segments' fields' url fault hp' hurl hfault => ?_⟩
    · rw [hrun, postTo_sent c segments fields opts hup, hreads.sent]
    · obtain ⟨_, _, _, _, rfl⟩ := mem_posted.1 hr
      rfl
    · refine List.eq_nil_iff_forall_not_mem.2 fun r hr => ?_
      simp [(mem_posted.1 hr).1] at hdry
    · constructor
      · intro hr
        obtain ⟨_, url, hurl, hfault, h⟩ := mem_posted.1 hr
        exact ⟨segments, fields, url, hp, hurl, hfault, h⟩
      · rintro ⟨segments', fields', url, hp', hurl, hfault, h⟩
        obtain ⟨rfl, rfl⟩ := hp.unique hp'
        exact mem_posted.2 ⟨hdry, url, hurl, hfault, h⟩
    · obtain ⟨rfl, rfl⟩ := hp.unique hp'
      refine ⟨List.eq_nil_iff_forall_not_mem.2 fun r hr => ?_, ?_⟩
      · obtain ⟨_, url', hurl', hfault', -⟩ := mem_posted.1 hr
        obtain rfl := Except.ok.inj (hurl.symm.trans hurl')
        rw [hfault] at hfault'
        cases hfault'
      · rw [hrun]
        exact c.postTo_refused hurl hdry hfault start
  · refine ⟨gets, [], ?_, hgets, hreads.few, by simp, by simp, fun h => ⟨hreads.checked h, rfl⟩,
      fun _ => rfl, fun _ r => ?_, fun _ segments fields _ _ hp => absurd hp (hnone _ _)⟩
    · rw [hrun, List.append_nil, hreads.sent]
    · simp only [List.not_mem_nil, false_iff]
      rintro ⟨segments, fields, _, hp, -⟩
      exact hnone segments fields hp

/-- A client whose endpoints have URLs, but none that can be requested. -/
def overFtp : Client := { ofToken "tok" with baseUrl := "ftp://graph.test/v6.0" }

def completeFields : Fields :=
  .ofEntries [(.indicator, "evil.example.com"), (.type, "DOMAIN"), (.description, "d"),
    (.shareLevel, "AMBER"), (.status, "MALICIOUS"), (.privacyType, "VISIBLE")]

/-- Validation and an endpoint with a URL do not make a post. -/
theorem not_sent_iff_posting :
    ¬ ∀ (c : Client) (kind : Kind) (fs : Fields) (opts : WriteOptions) (replies : List Reply),
      opts.dryRun = false →
      ((∃ r ∈ ((c.write kind fs opts).run (.start (.scripted replies))).2.sent, r.method = .post) ↔
        ∃ segments fields url, Posting c opts (.start (.scripted replies)) kind fs segments fields ∧
          c.endpoint segments = .ok url) := by
  intro h
  have hvalid : validate .submit completeFields = none := by decide
  have hurl : ∃ url, overFtp.endpoint ["threat_descriptors"] = .ok url := by
    have hsome : (overFtp.endpoint ["threat_descriptors"]).toOption.isSome := by decide +kernel
    cases he : overFtp.endpoint ["threat_descriptors"] with
    | error e => simp [he, Except.toOption] at hsome
    | ok url => exact ⟨url, rfl⟩
  have hsent :
      ((overFtp.write .submit completeFields {}).run (.start (.scripted []))).2.sent = [] := by
    decide +kernel
  obtain ⟨url, hurl⟩ := hurl
  obtain ⟨r, hr, -⟩ := (h overFtp .submit completeFields {} [] rfl).2
    ⟨_, _, url, .submit hvalid, hurl⟩
  rw [hsent] at hr
  cases hr

end Client
end ThreatGraph
