import ThreatGraph.Proofs.Courses
import ThreatGraph.Proofs.QueryPairs

/-!
# Retries are invisible

Server errors that come before a reply to a read, fewer than the client has attempts, are used up by
the attempts of the one fetch that gets the reply.  So the run with them is coupled to the run
without: it shows the same, and sends each request once for every error and once more.
-/

namespace ThreatGraph

open Json (Value)
open Post (Fields validate)
open Web (Network Reply Request Response Url redact)

def Web.Reply.isServerError : Reply → Bool
  | .response r => Web.Status.isServerError r.status
  | .closed => false

/-- A script with errors before its replies: the `n`-th errors of the plan come before the `n`-th
reply, which past the end of the script is that of a network with nothing left. -/
def interrupted : List (List Response) → List Reply → List Reply
  | [], replies => replies
  | errors :: plan, replies =>
    errors.map .response ++
      replies.headD (.response Network.exhausted) :: interrupted plan replies.tail

/-- Every request once for each error before its reply, and once more. -/
def repeated : List (List Response) → List Request → List Request
  | errors :: plan, r :: requests =>
    List.replicate (errors.length + 1) r ++ repeated plan requests
  | _, requests => requests

/-- The errors that come before the reply to the request that `n` others were sent before. -/
def errorsAt (plan : List (List Response)) (n : Nat) : List Response := plan.getD n []

/-- A network that gives some errors and then a reply. -/
inductive Gives : Network → List Response → Reply → Network → Prop
  | reply {before after : Network} {reply : Reply} (h : before.next? = some (reply, after)) :
    Gives before [] reply after
  | error {before between after : Network} {e : Response} {errors : List Response} {reply : Reply}
    (h : before.next? = some (.response e, between)) (rest : Gives between errors reply after) :
    Gives before (e :: errors) reply after

theorem gives_errors (errors : List Response) {reply : Reply} {replies : List Reply} :
    Gives (.scripted (errors.map .response ++ reply :: replies)) errors reply
      (.scripted replies) := by
  induction errors with
  | nil => exact .reply rfl
  | cons e errors ih => exact .error rfl ih

theorem next?_scripted (replies : List Reply) :
    (Network.scripted replies).next? =
      some (replies.headD (.response Network.exhausted), .scripted replies.tail) := by
  cases replies <;> rfl

theorem headD_drop (replies : List Reply) (n : Nat) :
    (replies.drop n).headD (.response Network.exhausted) = replyAt replies n := by
  rw [replyAt, ← List.head?_drop]
  cases replies.drop n <;> rfl

theorem interrupted_gives (plan : List (List Response)) (replies : List Reply) (n : Nat) :
    Gives (.scripted (interrupted (plan.drop n) (replies.drop n))) (errorsAt plan n)
      (replyAt replies n) (.scripted (interrupted (plan.drop (n + 1)) (replies.drop (n + 1)))) := by
  rw [← List.tail_drop, ← List.tail_drop, ← headD_drop]
  have herrors : errorsAt plan n = (plan.drop n).headD [] := by
    rw [errorsAt, List.getD_eq_getElem?_getD, ← List.head?_drop]
    cases plan.drop n <;> rfl
  rw [herrors]
  cases plan.drop n with
  | nil => exact .reply (next?_scripted _)
  | cons errors plan => exact gives_errors errors

theorem repeated_snoc (plan : List (List Response)) (requests : List Request) (r : Request) :
    repeated plan (requests ++ [r]) =
      repeated plan requests ++
        List.replicate ((errorsAt plan requests.length).length + 1) r := by
  induction plan generalizing requests with
  | nil => simp [repeated, errorsAt]
  | cons errors plan ih =>
    cases requests with
    | nil => cases plan <;> simp [repeated, errorsAt]
    | cons r' requests =>
      have hrest := ih requests
      simp only [repeated, List.cons_append, List.append_assoc, hrest]
      simp [errorsAt]

/-- What a read makes of its last reply. -/
def settled (url : Url) : Reply → Except ClientError Value
  | .closed => .error (.transfer (.closed url.withoutUserinfo.text))
  | .response r =>
    match judge url r with
    | .ok (.done v) => .ok v
    | .ok (.serverError e) => .error (.status e)
    | .error e => .error e

theorem send_next {t : Traffic} {r : Request} {reply : Reply} {network : Network}
    (hr : r.url.requestFault? = none) (h : t.network.next? = some (reply, network)) :
    t.send r = (received r reply, ⟨network, t.sent ++ [r.onWire], t.log⟩) := by
  unfold Traffic.send
  rw [hr, h]
  cases reply <;> rfl

theorem judge_success {url : Url} {r : Response} (h : Web.Status.isSuccess r.status = true) :
    judge url r = (readBody r).map .done := by
  simp [judge, h]

theorem judge_serverError {url : Url} {r : Response}
    (h : Web.Status.isServerError r.status = true) :
    judge url r = .ok (.serverError (httpError url r)) := by
  have hfailure : Web.Status.isSuccess r.status = false := by
    simp only [Web.Status.isServerError, Web.Status.isSuccess, Bool.and_eq_true,
      decide_eq_true_eq, Bool.and_eq_false_iff, decide_eq_false_iff_not] at h ⊢
    omega
  simp [judge, h, hfailure]

theorem judge_final {url : Url} {r : Response}
    (h : Web.Status.isServerError r.status = false) :
    judge url r = (settled url (.response r)).map .done := by
  by_cases hsuccess : Web.Status.isSuccess r.status = true
  · simp only [settled, judge_success hsuccess]
    cases readBody r <;> rfl
  · have hjudge : judge url r = .error (.status (httpError url r)) := by
      simp [judge, hsuccess, h]
    simp only [settled, hjudge]
    rfl

theorem fetchFrom_last {url : Url} {t : Traffic} {reply : Reply} {network : Network}
    (hurl : url.requestFault? = none) (h : t.network.next? = some (reply, network))
    (hfinal : reply.isServerError = false) (attempt retries : Nat) :
    ∃ log, (fetchFrom url attempt retries).run.run t =
      (settled url reply, ⟨network, t.sent ++ [(getOf url).onWire], log⟩) := by
  have hsend : (t.note (.attempt attempt (redact url))).send (getOf url) = _ := send_next hurl h
  have htry : (tryFetch url attempt).run.run t =
      ((settled url reply).map .done, ⟨network, t.sent ++ [(getOf url).onWire],
        (t.note (.attempt attempt (redact url))).log⟩) := by
    rw [tryFetch_run, hsend]
    cases reply with
    | closed => rfl
    | response r => exact Prod.ext (judge_final hfinal) rfl
  refine ⟨(t.note (.attempt attempt (redact url))).log, ?_⟩
  cases retries with
  | zero =>
    rw [fetchFrom_zero_run, htry]
    cases settled url reply <;> rfl
  | succ retries =>
    rw [fetchFrom_succ_run, htry]
    cases settled url reply <;> rfl

theorem tryFetch_serverError {url : Url} {t : Traffic} {e : Response} {network : Network}
    (hurl : url.requestFault? = none) (h : t.network.next? = some (.response e, network))
    (he : Web.Status.isServerError e.status = true) (attempt : Nat) :
    ∃ log, (tryFetch url attempt).run.run t =
      (.ok (.serverError (httpError url e)),
        ⟨network, t.sent ++ [(getOf url).onWire], log⟩) := by
  have hsend : (t.note (.attempt attempt (redact url))).send (getOf url) = _ := send_next hurl h
  refine ⟨(t.note (.attempt attempt (redact url))).log, ?_⟩
  rw [tryFetch_run, hsend]
  exact Prod.ext (judge_serverError he) rfl

/-- A fetch with an attempt for every error, and one more, comes to its reply. -/
theorem fetchFrom_gives {url : Url} {network network' : Network} {errors : List Response}
    {reply : Reply} (h : Gives network errors reply network') (hurl : url.requestFault? = none)
    (herrors : ∀ e ∈ errors, Web.Status.isServerError e.status = true)
    (hfinal : reply.isServerError = false) {attempt retries : Nat} {t : Traffic}
    (ht : t.network = network) (hfew : errors.length ≤ retries) :
    ∃ log, (fetchFrom url attempt retries).run.run t =
      (settled url reply,
        ⟨network', t.sent ++ List.replicate (errors.length + 1) (getOf url).onWire, log⟩) := by
  induction h generalizing attempt retries t with
  | reply h => exact fetchFrom_last hurl (ht ▸ h) hfinal attempt retries
  | @error before between after e errors reply h rest ih =>
    obtain ⟨he, herrors⟩ := List.forall_mem_cons.1 herrors
    cases retries with
    | zero => simp at hfew
    | succ retries =>
      obtain ⟨log, htry⟩ := tryFetch_serverError hurl (ht ▸ h) he attempt
      rw [fetchFrom_succ_run, htry]
      obtain ⟨log, hrest⟩ := @ih herrors hfinal (attempt + 1) retries
        (Traffic.note ⟨between, t.sent ++ [(getOf url).onWire], log⟩
          (.retrying attempt (httpError url e).status (httpError url e).url)) rfl
        (by simpa using hfew)
      refine ⟨log, hrest.trans ?_⟩
      simp [List.replicate_succ]

/-- Errors that a client bears: server errors, and fewer before each reply than it has attempts. -/
structure Bearable (c : Client) (plan : List (List Response)) : Prop where
  few : ∀ errors ∈ plan, errors.length < max 1 c.maxAttempts
  errors : ∀ errors ∈ plan, ∀ e ∈ errors, Web.Status.isServerError e.status = true

theorem Bearable.at {c : Client} {plan : List (List Response)} (h : Bearable c plan) (n : Nat) :
    (errorsAt plan n).length ≤ c.maxAttempts - 1 ∧
      ∀ e ∈ errorsAt plan n, Web.Status.isServerError e.status = true := by
  by_cases hn : n < plan.length
  · have hmem : errorsAt plan n ∈ plan := by simp [errorsAt, hn]
    have hfew := h.few _ hmem
    exact ⟨by omega, h.errors _ hmem⟩
  · simp [errorsAt, Nat.le_of_not_lt hn]

/-- A run that can be interrupted as planned: no reply to a read is a server error itself, and the
errors come before replies to reads. -/
structure Interruptible (plan : List (List Response)) (replies : List Reply)
    (requests : List Request) : Prop where
  reads : ∀ n r, requests[n]? = some r → r.method = .get →
    (replyAt replies n).isServerError = false
  writes : ∀ n r, requests[n]? = some r → r.method = .post → errorsAt plan n = []

theorem Interruptible.of_append {plan : List (List Response)} {replies : List Reply}
    {requests more : List Request} (h : Interruptible plan replies (requests ++ more)) :
    Interruptible plan replies requests := by
  have hget : ∀ (n : Nat) (r : Request), requests[n]? = some r →
      (requests ++ more)[n]? = some r := by
    intro n r hr
    obtain ⟨hn, -⟩ := List.getElem?_eq_some_iff.1 hr
    rw [List.getElem?_append_left hn, hr]
  exact ⟨fun n r hr => h.reads n r (hget n r hr), fun n r hr => h.writes n r (hget n r hr)⟩

/-- The run with errors has used up those before the replies that the run without them has used up,
and has repeated its requests. -/
structure Retried (plan : List (List Response)) (replies : List Reply) (t t' : Traffic) :
    Prop where
  follows : Follows replies t
  network : t'.network =
    .scripted (interrupted (plan.drop t.sent.length) (replies.drop t.sent.length))
  sent : t'.sent = repeated plan t.sent

section Coupling

variable {plan : List (List Response)} {replies : List Reply} {t t' : Traffic}

theorem retried_start (plan : List (List Response)) (replies : List Reply) :
    Retried plan replies (.start (.scripted replies))
      (.start (.scripted (interrupted plan replies))) :=
  ⟨follows_start replies, rfl, by cases plan <;> rfl⟩

theorem Follows.gives (h : Follows replies t) :
    Gives t.network [] (replyAt replies t.sent.length)
      (.scripted (replies.drop (t.sent.length + 1))) := by
  have hgives := interrupted_gives [] replies t.sent.length
  rw [h]
  simpa [interrupted, errorsAt] using hgives

theorem Retried.gives (h : Retried plan replies t t') :
    Gives t'.network (errorsAt plan t.sent.length) (replyAt replies t.sent.length)
      (.scripted (interrupted (plan.drop (t.sent.length + 1))
        (replies.drop (t.sent.length + 1)))) := by
  rw [h.network]
  exact interrupted_gives plan replies t.sent.length

theorem Retried.next (h : Retried plan replies t t') (r : Request) (log log' : List Event) :
    Retried plan replies ⟨.scripted (replies.drop (t.sent.length + 1)), t.sent ++ [r], log⟩
      ⟨.scripted (interrupted (plan.drop (t.sent.length + 1)) (replies.drop (t.sent.length + 1))),
        t'.sent ++ List.replicate ((errorsAt plan t.sent.length).length + 1) r, log'⟩ := by
  have hlength : (t.sent ++ [r]).length = t.sent.length + 1 := by simp
  refine ⟨?_, ?_, ?_⟩
  · simp only [Follows, hlength]
  · simp only [hlength]
  · rw [repeated_snoc, h.sent]

theorem Retried.fetch {c : Client} (hplan : Bearable c plan) (h : Retried plan replies t t')
    (url : Url) (hfair : Interruptible plan replies ((c.fetchJson url).run.run t).2.sent) :
    ((c.fetchJson url).run.run t).1 = ((c.fetchJson url).run.run t').1 ∧
      Retried plan replies ((c.fetchJson url).run.run t).2 ((c.fetchJson url).run.run t').2 := by
  cases hurl : url.requestFault? with
  | some fault =>
    rw [fetchJson_refused c hurl, fetchJson_refused c hurl]
    exact ⟨rfl, h.follows.of_same rfl rfl, h.network, h.sent⟩
  | none =>
    have hup : t.network ≠ .down := by simp [show t.network = _ from h.follows]
    obtain ⟨n, hsent⟩ := fetchFrom_requests hurl 1 (c.maxAttempts - 1) hup
    have hfinal : (replyAt replies t.sent.length).isServerError = false := by
      refine hfair.reads t.sent.length (getOf url).onWire ?_ rfl
      rw [Client.fetchJson, hsent]
      simp [List.replicate_succ]
    obtain ⟨hfew, herrors⟩ := hplan.at t.sent.length
    obtain ⟨log, hrun⟩ := @fetchFrom_gives url _ _ _ _ h.follows.gives hurl (by simp) hfinal 1
      (c.maxAttempts - 1) t rfl (Nat.zero_le _)
    obtain ⟨log', hrun'⟩ := @fetchFrom_gives url _ _ _ _ h.gives hurl herrors hfinal 1
      (c.maxAttempts - 1) t' rfl hfew
    rw [Client.fetchJson, hrun, hrun']
    exact ⟨rfl, h.next _ _ _⟩

theorem Retried.post (h : Retried plan replies t t') {r : Request} (hr : r.method = .post)
    (hfair : Interruptible plan replies (t.send r).2.sent) :
    (t.send r).1 = (t'.send r).1 ∧ Retried plan replies (t.send r).2 (t'.send r).2 := by
  cases hurl : r.url.requestFault? with
  | some fault =>
    have hrefused : ∀ t : Traffic, t.send r = (.error fault, t) := fun t => by
      simp [Traffic.send, hurl]
    rw [hrefused, hrefused]
    exact ⟨rfl, h⟩
  | none =>
    have hgives := h.follows.gives
    have hgives' := h.gives
    cases hgives with
    | reply hnext =>
      rw [send_next hurl hnext] at hfair ⊢
      have herrors : errorsAt plan t.sent.length = [] :=
        hfair.writes t.sent.length r.onWire (by simp) hr
      have hagain := h.next r.onWire t.log t'.log
      rw [herrors] at hgives' hagain
      cases hgives' with
      | reply hnext' =>
        rw [send_next hurl hnext']
        exact ⟨rfl, hagain⟩

end Coupling

def retryCoupling (c : Client) {plan : List (List Response)} (replies : List Reply)
    (hplan : Bearable c plan) : Coupling c where
  fair := Interruptible plan replies
  related := Retried plan replies
  fair_of_append := Interruptible.of_append
  silent := fun h hu hu' => by
    refine ⟨h.follows.of_same hu.1 hu.2, ?_, ?_⟩
    · rw [hu'.1, hu.2, h.network]
    · rw [hu'.2, hu.2, h.sent]
  fetch := fun url _ _ h hfair => h.fetch hplan url hfair
  post := fun hr _ _ h hfair => h.post hr hfair

open Command (World Invocation runInvocation setupOf)

theorem runCalls_retried {c : Client} {plan : List (List Response)} {replies : List Reply}
    (hplan : Bearable c plan) (calls : List Call)
    (hfair : Interruptible plan replies
      ((runCalls c calls []).run (.start (.scripted replies))).2.sent) :
    ((runCalls c calls []).run (.start (.scripted replies))).1.1 =
        ((runCalls c calls []).run (.start (.scripted (interrupted plan replies)))).1.1 ∧
      ((runCalls c calls []).run (.start (.scripted (interrupted plan replies)))).2.sent =
        repeated plan ((runCalls c calls []).run (.start (.scripted replies))).2.sent := by
  have hcalls : List.Forall₂ SameButFlags calls calls := List.forall₂_same.2 fun _ _ => .rfl
  have hcoupled := runCalls_coupled (retryCoupling c replies hplan) hcalls
    (.nil : List.Forall₂ SamePlace [] [])
  obtain ⟨hanswers, hretried⟩ := hcoupled.keeps _ _ (retried_start plan replies) hfair
  exact ⟨hanswers.1, hretried.sent⟩

def Command.runOn (w : World) (i : Invocation) (replies : List Reply) : Command.Outcome :=
  runInvocation { w with network := .scripted replies } i

open Command (runOn)

theorem runOn_retried {w : World} {i : Invocation} {plan : List (List Response)}
    {replies : List Reply} (hplan : ∀ s, setupOf w i.options = .ok s → Bearable s.client plan)
    (hfair : Interruptible plan replies (runOn w i replies).traffic.sent) :
    (runOn w i replies).Shows (runOn w i (interrupted plan replies)) ∧
      (runOn w i (interrupted plan replies)).traffic.sent =
        repeated plan (runOn w i replies).traffic.sent := by
  have hstart := retried_start plan replies
  have hsetup : ∀ network, setupOf { w with network } i.options = setupOf w i.options :=
    fun _ => rfl
  unfold runOn at hfair ⊢
  cases hs : setupOf w i.options with
  | error r =>
    obtain ⟨log, hrun⟩ := Command.runInvocation_unprepared ((hsetup (.scripted replies)).trans hs)
    obtain ⟨log', hrun'⟩ := Command.runInvocation_unprepared
      ((hsetup (.scripted (interrupted plan replies))).trans hs)
    rw [hrun, hrun']
    exact ⟨⟨rfl, rfl, rfl⟩, hstart.sent⟩
  | ok s =>
    -- A run has its own flags, so it is coupled to one that differs in none.
    have hself : i.flagged i.options.verbose i.options.showUrls = i := rfl
    have hflagged := Command.setupOf_flagged
      { w with network := .scripted (interrupted plan replies) } i.options i.options.verbose
      i.options.showUrls
    rw [hsetup, hs] at hflagged
    have hcoupled := Command.runInvocation_coupled ((hsetup (.scripted replies)).trans hs) hflagged
      (retryCoupling s.client replies (hplan s hs)) hstart hfair
    rw [hself] at hcoupled
    exact ⟨hcoupled.1, hcoupled.2.sent⟩

/-- Server errors before the replies to reads, fewer before each than the client has attempts, are
not seen.  Calls are answered alike, and a command prints the same and ends in the same; each
request is sent once for every error before its reply and once more, one right after the other.  No
reply to a read is a server error itself; replies to posts may be, and have no errors before
them. -/
theorem retries_invisible (plan : List (List Response)) (replies : List Reply) :
    (∀ (c : Client) (calls : List Call), Bearable c plan →
      let run := (runCalls c calls []).run (.start (.scripted replies))
      let run' := (runCalls c calls []).run (.start (.scripted (interrupted plan replies)))
      Interruptible plan replies run.2.sent →
      run.1.1 = run'.1.1 ∧ run'.2.sent = repeated plan run.2.sent) ∧
    ∀ (w : World) (i : Invocation),
      (∀ s, setupOf w i.options = .ok s → Bearable s.client plan) →
      Interruptible plan replies (runOn w i replies).traffic.sent →
      (runOn w i replies).Shows (runOn w i (interrupted plan replies)) ∧
        (runOn w i (interrupted plan replies)).traffic.sent =
          repeated plan (runOn w i replies).traffic.sent := by
  constructor
  · intro c calls hplan run run' hfair
    exact runCalls_retried hplan calls hfair
  · intro w i hplan hfair
    exact runOn_retried hplan hfair

def unavailable : Response := ⟨503, [], true⟩

def lookupAndPost : List Reply :=
  [.response ⟨200, Text.Utf8.encode "\x7b\"7\":\x7b\x7d\x7d".toList, true⟩,
   .response ⟨200, Text.Utf8.encode "\x7b\x7d".toList, true⟩]

def copyOfSeven : Fields :=
  .ofEntries [(.descriptorId, "7"), (.indicator, "evil.example.com"), (.type, "DOMAIN"),
    (.description, "d"), (.shareLevel, "AMBER"), (.status, "MALICIOUS"),
    (.privacyType, "HAS_WHITELIST"), (.privacyMembers, "8")]

theorem bearable_once {c : Client} (h : 2 ≤ c.maxAttempts) : Bearable c [[unavailable]] := by
  constructor
  · intro errors herrors
    obtain rfl := List.mem_singleton.1 herrors
    exact Nat.lt_of_lt_of_le (by decide) (Nat.le_trans h (Nat.le_max_right 1 _))
  · intro errors herrors e he
    obtain rfl := List.mem_singleton.1 herrors
    obtain rfl := List.mem_singleton.1 he
    rfl

theorem interruptible_once {requests : List Request}
    (h : ∀ r ∈ requests.head?, r.method = .get) :
    Interruptible [[unavailable]] lookupAndPost requests := by
  constructor
  · intro n r _ _
    rcases n with _ | _ | n <;> rfl
  · intro n r hr hpost
    cases n with
    | zero =>
      rw [← List.head?_eq_getElem?] at hr
      have hget := h r hr
      rw [hpost] at hget
      cases hget
    | succ n => rfl

theorem copy_reads_first {c : Client} {fs : Fields} {id : String}
    (hvalid : validate .copy fs = none) (hnamed : fs.get? .descriptorId = some id)
    (hid : malformedId? [id] = none) (opts : WriteOptions) (replies : List Reply) :
    ∀ r ∈ ((runCalls c [.write .copy fs opts] []).run (.start (.scripted replies))).2.sent.head?,
      r.method = .get := by
  have hcall : ((runCalls c [.write .copy fs opts] []).run (.start (.scripted replies))).2 =
      ((c.copy fs opts).run (.start (.scripted replies))).2 := rfl
  intro r hr
  rw [hcall, Client.copy_first hvalid hnamed hid opts ⟨rfl, rfl⟩] at hr
  exact Client.firstGet_method hr

/-- A copy and a lookup that are answered at the second attempt. -/
theorem copy_and_lookup_retried :
    ((runCalls (.ofToken "tok") [.write .copy copyOfSeven {}] []).run
        (.start (.scripted lookupAndPost))).1.1 =
      ((runCalls (.ofToken "tok") [.write .copy copyOfSeven {}] []).run
        (.start (.scripted (interrupted [[unavailable]] lookupAndPost)))).1.1 ∧
    (runOn lookupWorld lookupInvocation lookupAndPost).Shows
      (runOn lookupWorld lookupInvocation (interrupted [[unavailable]] lookupAndPost)) ∧
    ((runCalls (.ofToken "tok") [.write .copy copyOfSeven {}] []).run
        (.start (.scripted (interrupted [[unavailable]] lookupAndPost)))).2.sent.map (·.method) =
      [.get, .get, .post] := by
  obtain ⟨hcalls, hcommand⟩ := retries_invisible [[unavailable]] lookupAndPost
  refine ⟨?_, ?_, by decide +kernel⟩
  · have hbearable : Bearable (.ofToken "tok") [[unavailable]] := bearable_once (by decide)
    have hvalid : validate .copy copyOfSeven = none := by decide
    have hfirst := copy_reads_first (c := .ofToken "tok") hvalid rfl (by decide) {} lookupAndPost
    exact (hcalls _ _ hbearable (interruptible_once hfirst)).1
  · have hattempts : (setupOf lookupWorld lookupInvocation.options).toOption.all
        (fun s => 2 ≤ s.client.maxAttempts) = true := by decide +kernel
    refine (hcommand lookupWorld lookupInvocation (fun s hs => ?_) (interruptible_once ?_)).1
    · rw [hs] at hattempts
      exact bearable_once (of_decide_eq_true hattempts)
    · intro r hr
      exact Command.runInvocation_onlyReads _ rfl r (List.mem_of_mem_head? hr)

end ThreatGraph
