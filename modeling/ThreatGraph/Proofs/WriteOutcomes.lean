import ThreatGraph.Proofs.Replies
import ThreatGraph.Proofs.WriteDiscipline

/-!
# What the outcome of a write says

A post is the last request of a write, so the number of requests sent tells the reply that it got.
From that reply alone follows the outcome; without a post the outcome is an error, or nothing at all
for a dry run.
-/

namespace ThreatGraph

open Json (Value)
open Post (Field Fields Kind ValidationError validate copyFields)
open Web (Network Reply Request Response Url)

/-- The response is whole, and its body is UTF-8 text that spells a JSON value. -/
def Web.Response.Spells (r : Response) (v : Value) : Prop :=
  r.complete = true ∧ ∃ text, Text.Utf8.decode r.body = .ok text ∧ Json.read text = .ok v

/-- What a body is read as. -/
inductive BodyRead (r : Response) : Except ClientError Value → Prop
  | spelled {v : Value} (h : r.Spells v) : BodyRead r (.ok v)
  | brokenOff (h : r.complete = false) : BodyRead r (.error (.transfer .truncated))
  | notText {f : Text.Utf8.Fault} (whole : r.complete = true)
    (h : Text.Utf8.decode r.body = .error f) : BodyRead r (.error (.notText f))
  | notJson {text : String} {f : Json.Fault} (whole : r.complete = true)
    (decoded : Text.Utf8.decode r.body = .ok text) (h : Json.read text = .error f) :
    BodyRead r (.error (.notJson (.fault f)))

theorem readBody_read (r : Response) : BodyRead r (readBody r) := by
  unfold readBody
  cases hcomplete : r.complete with
  | false => exact .brokenOff hcomplete
  | true =>
    cases hdecode : Text.Utf8.decode r.body with
    | error f => exact .notText hcomplete hdecode
    | ok text =>
      cases hread : Json.read text with
      | error f =>
        simp only [Bool.not_true, Bool.false_eq_true, if_false, hread]
        exact .notJson hcomplete hdecode hread
      | ok v =>
        simp only [Bool.not_true, Bool.false_eq_true, if_false, hread]
        exact .spelled ⟨hcomplete, text, hdecode, hread⟩

/-- What is kept of the body of a response that is no success. -/
inductive KeptBody (r : Response) : Option Value → Prop
  | brokenOff (h : r.complete = false) : KeptBody r none
  | empty (h : r.body = []) : KeptBody r none
  | json {v : Value} (whole : r.complete = true) (some : r.body ≠ [])
    (h : Json.read (Text.Utf8.decodeLossy r.body) = .ok v) : KeptBody r (.some v)
  | text {f : Json.Fault} (whole : r.complete = true) (some : r.body ≠ [])
    (h : Json.read (Text.Utf8.decodeLossy r.body) = .error f) :
    KeptBody r (.some (.string (Text.Utf8.decodeLossy r.body)))

theorem errorBody_kept (r : Response) : KeptBody r (errorBody r) := by
  unfold errorBody
  cases hcomplete : r.complete with
  | false => exact .brokenOff hcomplete
  | true =>
    cases hbody : r.body with
    | nil => exact .empty hbody
    | cons b bytes =>
      have hsome : r.body ≠ [] := by simp [hbody]
      simp only [Bool.not_true, List.isEmpty_cons, Bool.or_false, Bool.false_eq_true, if_false]
      rw [← hbody]
      cases hread : Json.read (Text.Utf8.decodeLossy r.body) with
      | ok v => exact .json hcomplete hsome hread
      | error f => exact .text hcomplete hsome hread

namespace WriteOutcome

/-- The outcome of a post that was sent. -/
def ofReply (post : Request) : Reply → WriteOutcome
  | .response r => .ofResponse post.url r
  | .closed => .failed (.transfer (.closed post.url.withoutUserinfo.text)) none

theorem ofResponse_success {url : Url} {r : Response} (h : Web.Status.isSuccess r.status = true) :
    ofResponse url r =
      match readBody r with
      | .ok v => succeeded v
      | .error e => failed e none := by
  unfold ofResponse
  exact if_pos h

theorem ofResponse_failure {url : Url} {r : Response} (h : Web.Status.isSuccess r.status = false) :
    ofResponse url r = failed (.status (httpError url r)) (errorBody r) := by
  unfold ofResponse
  exact if_neg (Bool.eq_false_iff.1 h)

/-- The outcomes of a write that sends no post. -/
inductive Unposted (opts : WriteOptions) : WriteOutcome → Prop
  | invalid (e : ValidationError) : Unposted opts (.invalid e)
  | failed (e : ClientError) : Unposted opts (.failed e none)
  | withheld (h : opts.dryRun = true) : Unposted opts .nothing

end WriteOutcome

/-- The reply to the post of a run, which is the last request if there is one. -/
def postReply? (replies : List Reply) (sent : List Request) : Option Reply :=
  match sent.getLast? with
  | some r => if r.method = .post then some (replyAt replies (sent.length - 1)) else none
  | none => none

theorem postReply?_of_gets (replies : List Reply) {gets : List Request}
    (h : ∀ r ∈ gets, r.method = .get) : postReply? replies gets = none := by
  unfold postReply?
  cases hlast : gets.getLast? with
  | none => rfl
  | some r =>
    have hr := h r (List.mem_of_getLast? hlast)
    simp [hr]

theorem postReply?_snoc (replies : List Reply) (gets : List Request) {post : Request}
    (h : post.method = .post) :
    postReply? replies (gets ++ [post]) = some (replyAt replies gets.length) := by
  simp [postReply?, h]

namespace Client

variable {replies : List Reply} {t : Traffic}

theorem postTo_outcome (c : Client) (segments : List String) (fs : Fields) (opts : WriteOptions)
    (h : Follows replies t) :
    let run := (c.postTo segments fs opts).run t
    (WriteOutcome.Unposted opts run.1 ∧ run.2.sent = t.sent) ∨
    ∃ post : Request, post.method = .post ∧ opts.dryRun = false ∧
      run.2.sent = t.sent ++ [post.onWire] ∧
      run.1 = .ofReply post (replyAt replies t.sent.length) := by
  intro run
  unfold run postTo
  cases c.endpoint segments with
  | error e => exact .inl ⟨.failed e, rfl⟩
  | ok url =>
    simp only
    rw [postFields_run]
    have hstart := h.noteIf (opts.showUrls || opts.dryRun)
      (.post (Web.redact (url.appendPairs fs.pairs)) opts.dryRun)
    have hsent := noteIf_sent (opts.showUrls || opts.dryRun)
      (.post (Web.redact (url.appendPairs fs.pairs)) opts.dryRun) t
    dsimp only
    generalize (if (opts.showUrls || opts.dryRun) = true then t.note _ else t) = start
      at hstart hsent
    cases hdry : opts.dryRun with
    | true => exact .inl ⟨.withheld hdry, hsent⟩
    | false =>
      simp only [Bool.false_eq_true, if_false]
      cases hfault : (postOf url fs).url.requestFault? with
      | some fault =>
        have hsend : start.send (postOf url fs) = (.error fault, start) := by
          simp only [Traffic.send, hfault]
        rw [hsend]
        exact .inl ⟨.failed _, hsent⟩
      | none =>
        obtain ⟨u, hsend, -, husent⟩ := hstart.send hfault
        rw [hsend]
        refine .inr ⟨postOf url fs, rfl, trivial, ?_, ?_⟩
        · rw [← hsent]
          cases replyAt replies start.sent.length <;> exact husent
        · rw [← hsent]
          cases replyAt replies start.sent.length <;> rfl

/-- A write reads, and then either ends without a post or in the reply to its post. -/
def Concludes (replies : List Reply) (opts : WriteOptions) (t : Traffic)
    (run : WriteOutcome × Traffic) : Prop :=
  ∃ gets : List Request, (∀ r ∈ gets, r.method = .get) ∧
    ((WriteOutcome.Unposted opts run.1 ∧ run.2.sent = t.sent ++ gets) ∨
    ∃ post : Request, post.method = .post ∧ opts.dryRun = false ∧
      run.2.sent = t.sent ++ gets ++ [post.onWire] ∧
      run.1 = .ofReply post (replyAt replies (t.sent ++ gets).length))

theorem concludes_unposted {o : WriteOutcome} {opts : WriteOptions}
    (h : WriteOutcome.Unposted opts o) (replies : List Reply) (t : Traffic) :
    Concludes replies opts t (o, t) :=
  ⟨[], by simp, .inl ⟨h, (List.append_nil _).symm⟩⟩

theorem concludes_postTo (c : Client) (segments : List String) (fs : Fields) (opts : WriteOptions)
    (h : Follows replies t) : Concludes replies opts t ((c.postTo segments fs opts).run t) := by
  refine ⟨[], by simp, ?_⟩
  simp only [List.append_nil]
  exact c.postTo_outcome segments fs opts h

theorem Concludes.after_gets {opts : WriteOptions} {start : Traffic} {gets : List Request}
    {run : WriteOutcome × Traffic} (hsent : start.sent = t.sent ++ gets)
    (hgets : ∀ r ∈ gets, r.method = .get) (h : Concludes replies opts start run) :
    Concludes replies opts t run := by
  obtain ⟨more, hmore, h⟩ := h
  refine ⟨gets ++ more, ?_, ?_⟩
  · intro r hr
    rcases List.mem_append.1 hr with hr | hr
    · exact hgets r hr
    · exact hmore r hr
  · rw [hsent, List.append_assoc] at h
    exact h

theorem submit_concludes (c : Client) (fs : Fields) (opts : WriteOptions)
    (h : Follows replies t) : Concludes replies opts t ((c.submit fs opts).run t) := by
  unfold submit
  cases validate .submit fs with
  | some e => exact concludes_unposted (.invalid e) replies t
  | none => exact c.concludes_postTo _ fs opts h

theorem update_concludes (c : Client) (fs : Fields) (opts : WriteOptions)
    (h : Follows replies t) : Concludes replies opts t ((c.update fs opts).run t) := by
  unfold update
  cases validate .update fs with
  | some e => exact concludes_unposted (.invalid e) replies t
  | none =>
    cases fs.get? .descriptorId with
    | some id => exact c.concludes_postTo _ fs opts h
    | none => exact concludes_unposted (.invalid _) replies t

theorem copy_run (c : Client) {fs : Fields} {id : String} (opts : WriteOptions)
    (hv : validate .copy fs = none) (hid : fs.get? .descriptorId = some id) (t : Traffic) :
    (c.copy fs opts).run t =
      match (c.descriptorsOfIds [id] { showUrls := opts.showUrls }).run.run t with
      | (.error e, u) => (.failed e none, u)
      | (.ok [], u) => (.failed (.descriptorNotFound id) none, u)
      | (.ok (source :: _), u) => (c.submit (copyFields source fs) opts).run u := by
  simp only [copy, hv, hid]
  rw [run_bind]
  rcases (c.descriptorsOfIds [id] { showUrls := opts.showUrls }).run.run t with
    ⟨e | (_ | ⟨source, others⟩), u⟩ <;> rfl

theorem copy_of_failure {c : Client} {fs : Fields} {id : String} {opts : WriteOptions}
    {e : ClientError} (hv : validate .copy fs = none) (hid : fs.get? .descriptorId = some id)
    (h : ((c.descriptorsOfIds [id] { showUrls := opts.showUrls }).run.run t).1 = .error e) :
    ((c.copy fs opts).run t).1 = .failed e none := by
  rw [c.copy_run opts hv hid]
  rcases hr : (c.descriptorsOfIds [id] { showUrls := opts.showUrls }).run.run t with ⟨result, u⟩
  rw [hr] at h
  cases h
  rfl

theorem copy_of_nothing {c : Client} {fs : Fields} {id : String} {opts : WriteOptions}
    (hv : validate .copy fs = none) (hid : fs.get? .descriptorId = some id)
    (h : ((c.descriptorsOfIds [id] { showUrls := opts.showUrls }).run.run t).1 = .ok []) :
    ((c.copy fs opts).run t).1 = .failed (.descriptorNotFound id) none := by
  rw [c.copy_run opts hv hid]
  rcases hr : (c.descriptorsOfIds [id] { showUrls := opts.showUrls }).run.run t with ⟨result, u⟩
  rw [hr] at h
  cases h
  rfl

theorem copy_concludes (c : Client) (fs : Fields) (opts : WriteOptions)
    (h : Follows replies t) : Concludes replies opts t ((c.copy fs opts).run t) := by
  cases hv : validate .copy fs with
  | some e =>
    simp only [copy, hv]
    exact concludes_unposted (.invalid e) replies t
  | none =>
    cases hid : fs.get? .descriptorId with
    | none =>
      simp only [copy, hv, hid]
      exact concludes_unposted (.invalid _) replies t
    | some id =>
      obtain ⟨gets, hsent, -, hlookups⟩ :=
        c.descriptorsOfIds_sent [id] { showUrls := opts.showUrls } t
      have hgets : ∀ r ∈ gets, r.method = .get := by
        intro r hr
        obtain ⟨_, _, rfl⟩ := hlookups r hr
        rfl
      have hfollows := c.descriptorsOfIds_follows [id] { showUrls := opts.showUrls } h
      refine Concludes.after_gets hsent hgets ?_
      rw [c.copy_run opts hv hid]
      rcases hr : (c.descriptorsOfIds [id] { showUrls := opts.showUrls }).run.run t with
        ⟨e | (_ | ⟨source, others⟩), u⟩ <;> rw [hr] at hfollows
      · exact concludes_unposted (.failed e) replies u
      · exact concludes_unposted (.failed _) replies u
      · exact c.submit_concludes _ opts hfollows

theorem write_concludes (c : Client) (kind : Kind) (fs : Fields) (opts : WriteOptions)
    (h : Follows replies t) : Concludes replies opts t ((c.write kind fs opts).run t) := by
  cases kind with
  | submit => exact c.submit_concludes fs opts h
  | update => exact c.update_concludes fs opts h
  | copy => exact c.copy_concludes fs opts h

end Client

/-- The outcomes of a post that was answered with success, by what its body is. -/
inductive Answered (r : Response) : WriteOutcome → Prop
  | spelled {v : Value} (h : r.Spells v) : Answered r (.succeeded v)
  | brokenOff (h : r.complete = false) : Answered r (.failed (.transfer .truncated) none)
  | notText {f : Text.Utf8.Fault} (whole : r.complete = true)
    (h : Text.Utf8.decode r.body = .error f) : Answered r (.failed (.notText f) none)
  | notJson {text : String} {f : Json.Fault} (whole : r.complete = true)
    (decoded : Text.Utf8.decode r.body = .ok text) (h : Json.read text = .error f) :
    Answered r (.failed (.notJson (.fault f)) none)

theorem ofResponse_answered (url : Url) {r : Response}
    (h : Web.Status.isSuccess r.status = true) : Answered r (.ofResponse url r) := by
  rw [WriteOutcome.ofResponse_success h]
  have hbody := readBody_read r
  generalize readBody r = x at hbody
  cases hbody with
  | spelled h => exact .spelled h
  | brokenOff h => exact .brokenOff h
  | notText whole h => exact .notText whole h
  | notJson whole decoded h => exact .notJson whole decoded h

theorem Answered.validationError {r : Response} {o : WriteOutcome} (h : Answered r o) :
    o.validationError = none := by
  cases h <;> rfl

theorem Answered.isOk_iff {r : Response} {o : WriteOutcome} (h : Answered r o) :
    o.isOk = true ↔ ∃ v, r.Spells v := by
  cases h with
  | spelled h => exact iff_of_true rfl ⟨_, h⟩
  | brokenOff h =>
    refine iff_of_false Bool.false_ne_true ?_
    rintro ⟨v, whole, -⟩
    rw [h] at whole
    cases whole
  | notText _ h =>
    refine iff_of_false Bool.false_ne_true ?_
    rintro ⟨v, -, text, decoded, -⟩
    rw [h] at decoded
    cases decoded
  | notJson _ decoded h =>
    refine iff_of_false Bool.false_ne_true ?_
    rintro ⟨v, -, text, decoded', read⟩
    cases decoded.symm.trans decoded'
    rw [h] at read
    cases read

/-- What an outcome says of the requests that were sent and of their replies. -/
structure Tells (opts : WriteOptions) (replies : List Reply) (sent : List Request)
    (o : WriteOutcome) : Prop where
  oneError : o.validationError = none ∨ o.transportError = none
  /-- Nothing was posted of what is invalid. -/
  invalid : o.validationError ≠ none → o.body = none ∧ ∀ r ∈ sent, r.method ≠ .post
  dryRun : opts.dryRun = true → o.isOk = true → o.body = none
  ok_iff : opts.dryRun = false → (o.isOk = true ↔ ∃ r v,
    postReply? replies sent = some (.response r) ∧ Web.Status.isSuccess r.status = true ∧
      r.Spells v)
  accepted : ∀ {r}, postReply? replies sent = some (.response r) →
    Web.Status.isSuccess r.status = true → Answered r o
  /-- An error of the server comes with its status and with what is kept of its body. -/
  refused : ∀ {r}, postReply? replies sent = some (.response r) →
    Web.Status.isSuccess r.status = false →
    ∃ e, o = .failed (.status e) e.body ∧ e.status = r.status ∧ KeptBody r e.body
  lost : postReply? replies sent = some .closed →
    ∃ url, o = .failed (.transfer (.closed url)) none

theorem tells_unposted {opts : WriteOptions} {o : WriteOutcome} {sent : List Request}
    (replies : List Reply) (hgets : ∀ r ∈ sent, r.method = .get)
    (h : WriteOutcome.Unposted opts o) : Tells opts replies sent o := by
  have hreply := postReply?_of_gets replies hgets
  have hno : ∀ r ∈ sent, r.method ≠ .post := by
    intro r hr
    rw [hgets r hr]
    decide
  constructor
  case oneError =>
    cases h with
    | invalid e => exact .inr rfl
    | failed e => exact .inl rfl
    | withheld _ => exact .inl rfl
  case invalid =>
    intro he
    cases h with
    | invalid e => exact ⟨rfl, hno⟩
    | failed e => exact absurd rfl he
    | withheld _ => exact absurd rfl he
  case dryRun =>
    intro _ _
    cases h <;> rfl
  case ok_iff =>
    intro hdry
    simp only [hreply, reduceCtorEq, false_and, exists_false, iff_false]
    cases h with
    | invalid e => exact Bool.false_ne_true
    | failed e => exact Bool.false_ne_true
    | withheld hwet =>
      rw [hwet] at hdry
      cases hdry
  all_goals simp [hreply]

theorem ofReply_validationError (post : Request) (reply : Reply) :
    (WriteOutcome.ofReply post reply).validationError = none := by
  cases reply with
  | closed => rfl
  | response r =>
    cases hsuccess : Web.Status.isSuccess r.status with
    | true => exact (ofResponse_answered post.url hsuccess).validationError
    | false => exact congrArg (·.validationError) (WriteOutcome.ofResponse_failure hsuccess)

theorem ofReply_isOk_iff (post : Request) (reply : Reply) :
    (WriteOutcome.ofReply post reply).isOk = true ↔
      ∃ r v, reply = .response r ∧ Web.Status.isSuccess r.status = true ∧ r.Spells v := by
  cases reply with
  | closed => simp [WriteOutcome.ofReply, WriteOutcome.failed, WriteOutcome.isOk]
  | response r =>
    simp only [WriteOutcome.ofReply, Reply.response.injEq]
    cases hsuccess : Web.Status.isSuccess r.status with
    | true =>
      rw [(ofResponse_answered post.url hsuccess).isOk_iff]
      constructor
      · rintro ⟨v, h⟩
        exact ⟨r, v, rfl, hsuccess, h⟩
      · rintro ⟨_, v, rfl, -, h⟩
        exact ⟨v, h⟩
    | false =>
      rw [WriteOutcome.ofResponse_failure hsuccess]
      refine iff_of_false Bool.false_ne_true ?_
      rintro ⟨_, v, rfl, h, -⟩
      rw [hsuccess] at h
      cases h

theorem tells_posted {opts : WriteOptions} (gets : List Request) {post : Request}
    (replies : List Reply) (hpost : post.method = .post) (hdry : opts.dryRun = false) :
    Tells opts replies (gets ++ [post.onWire]) (.ofReply post (replyAt replies gets.length)) := by
  have hreply : postReply? replies (gets ++ [post.onWire]) = some (replyAt replies gets.length) :=
    postReply?_snoc replies gets hpost
  generalize replyAt replies gets.length = reply at hreply
  have hvalid := ofReply_validationError post reply
  constructor
  case oneError => exact .inl hvalid
  case invalid => exact fun he => absurd hvalid he
  case dryRun => simp [hdry]
  case ok_iff =>
    intro _
    rw [hreply, ofReply_isOk_iff]
    simp only [Option.some.injEq]
  case accepted =>
    intro r hr hsuccess
    cases hreply.symm.trans hr
    exact ofResponse_answered post.url hsuccess
  case refused =>
    intro r hr hsuccess
    cases hreply.symm.trans hr
    refine ⟨httpError post.url r, WriteOutcome.ofResponse_failure hsuccess, rfl, ?_⟩
    exact errorBody_kept r
  case lost =>
    intro hr
    cases hreply.symm.trans hr
    exact ⟨_, rfl⟩

namespace Client

/-- The outcome of a write tells the truth about the replies to what was sent.  A copy that does not
find its model says so, and has no body. -/
theorem outcome_truthful (c : Client) (kind : Kind) (fs : Fields) (opts : WriteOptions)
    (replies : List Reply) :
    let t := Traffic.start (.scripted replies)
    let run := (c.write kind fs opts).run t
    Tells opts replies run.2.sent run.1 ∧
    ∀ id, kind = .copy → validate .copy fs = none → fs.get? .descriptorId = some id →
      let lookup := ((c.descriptorsOfIds [id] { showUrls := opts.showUrls }).run.run t).1
      (∀ e, lookup = .error e → run.1 = .failed e none) ∧
      (lookup = .ok [] → run.1 = .failed (.descriptorNotFound id) none) := by
  intro t run
  constructor
  · obtain ⟨gets, hgets, ⟨hunposted, hsent⟩ | ⟨post, hpost, hdry, hsent, hreply⟩⟩ :=
      c.write_concludes kind fs opts (follows_start replies)
    · have hread : ∀ r ∈ run.2.sent, r.method = .get := by
        rw [hsent]
        exact hgets
      exact tells_unposted replies hread hunposted
    · have htells := tells_posted gets replies hpost hdry
      have hrun : run.1 = .ofReply post (replyAt replies gets.length) := hreply
      have htraffic : run.2.sent = gets ++ [post.onWire] := hsent
      rw [hrun, htraffic]
      exact htells
  · rintro id rfl hvalid hid lookup
    exact ⟨fun e h => copy_of_failure hvalid hid h, fun h => copy_of_nothing hvalid hid h⟩

/-- An error of the server whose body breaks off is reported without a body. -/
theorem body_of_error_lost :
    ¬ ∀ (c : Client) (kind : Kind) (fs : Fields) (opts : WriteOptions) (replies : List Reply)
        (r : Response),
      let run := (c.write kind fs opts).run (.start (.scripted replies))
      postReply? replies run.2.sent = some (.response r) →
      Web.Status.isSuccess r.status = false → r.body ≠ [] → run.1.body ≠ none := by
  intro h
  let broken : Response := ⟨500, Text.Utf8.encode "oops".toList, false⟩
  have hreply : postReply? [.response broken]
      (((ofToken "tok").write .submit completeFields {}).run
        (.start (.scripted [.response broken]))).2.sent = some (.response broken) := by
    decide +kernel
  have hbody : (((ofToken "tok").write .submit completeFields {}).run
      (.start (.scripted [.response broken]))).1.body = none := by
    decide +kernel
  exact h (ofToken "tok") .submit completeFields {} [.response broken] broken hreply rfl
    (by decide) hbody

end Client
end ThreatGraph
