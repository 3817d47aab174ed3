import ThreatGraph.Proofs.Retries
import ThreatGraph.Proofs.WriteOutcomes

/-!
# The attempts of a read

A read goes through the replies of the network one by one.  It goes on at a server error as long as
it has attempts left, and ends at any other reply.  What comes of it is decided by the last reply
alone, whatever the ones before it were.
-/

namespace ThreatGraph

open Json (Value)
open Web (Network Reply Request Response Url redact)

/-- What a read comes to whose last reply is this one. -/
inductive Settles (url : Url) : Reply → Except ClientError Value → Prop
  | closed : Settles url .closed (.error (.transfer (.closed url.withoutUserinfo.text)))
  | body {r : Response} {result : Except ClientError Value}
    (success : Web.Status.isSuccess r.status = true) (h : BodyRead r result) :
    Settles url (.response r) result
  | refused {r : Response} {body : Option Value}
    (failure : Web.Status.isSuccess r.status = false) (h : KeptBody r body) :
    Settles url (.response r) (.error (.status ⟨r.status, redact url, body⟩))

theorem settles_settled (url : Url) (reply : Reply) : Settles url reply (settled url reply) := by
  cases reply with
  | closed => exact .closed
  | response r =>
    cases hsuccess : Web.Status.isSuccess r.status with
    | true =>
      have hsettled : settled url (.response r) = readBody r := by
        simp only [settled, judge_success hsuccess]
        cases readBody r <;> rfl
      rw [hsettled]
      exact .body hsuccess (readBody_read r)
    | false =>
      have hsettled : settled url (.response r) = .error (.status (httpError url r)) := by
        cases herror : Web.Status.isServerError r.status <;> simp [settled, judge, hsuccess, herror]
      rw [hsettled]
      exact .refused hsuccess (errorBody_kept r)

theorem fetchFrom_unsent {url : Url} {attempt : Nat} {t : Traffic} {fault : Web.TransferFault}
    (h : (t.note (.attempt attempt (redact url))).send (getOf url) =
      (.error fault, t.note (.attempt attempt (redact url)))) (retries : Nat) :
    (fetchFrom url attempt retries).run.run t =
      (.error (.transfer fault), t.note (.attempt attempt (redact url))) := by
  cases retries with
  | zero => rw [fetchFrom_zero_run, tryFetch_run, h]
  | succ retries => rw [fetchFrom_succ_run, tryFetch_run, h]

theorem next?_replyAt {network : Network} {replies : List Reply}
    (h : network = .scripted replies) :
    network.next? = some (replyAt replies 0, .scripted (replies.drop 1)) := by
  rw [h, next?_scripted, ← headD_drop, List.drop_zero, List.drop_one]

theorem replyAt_drop_one (replies : List Reply) (n : Nat) :
    replyAt (replies.drop 1) n = replyAt replies (n + 1) := by
  simp [replyAt]

theorem response_of_isServerError {reply : Reply} (h : reply.isServerError = true) :
    ∃ e, reply = .response e ∧ Web.Status.isServerError e.status = true := by
  cases reply with
  | closed => cases h
  | response e => exact ⟨e, rfl, h⟩

/-- A fetch passes the server errors before its last reply.  The last one is no server error, or no
attempt is left behind it. -/
theorem fetchFrom_replies {url : Url} (hurl : url.requestFault? = none) (attempt retries : Nat)
    {replies : List Reply} {t : Traffic} (ht : t.network = .scripted replies) :
    ∃ n ≤ retries, (∀ k < n, (replyAt replies k).isServerError = true) ∧
      ((replyAt replies n).isServerError = false ∨ n = retries) ∧
      ∃ log, (fetchFrom url attempt retries).run.run t =
        (settled url (replyAt replies n), ⟨.scripted (replies.drop (n + 1)),
          t.sent ++ List.replicate (n + 1) (getOf url).onWire, log⟩) := by
  induction retries generalizing attempt replies t with
  | zero =>
    have hnext := next?_replyAt ht
    refine ⟨0, Nat.le_refl 0, by simp, .inr rfl, ?_⟩
    cases hfinal : (replyAt replies 0).isServerError with
    | false => exact fetchFrom_last hurl hnext hfinal attempt 0
    | true =>
      obtain ⟨e, hreply, he⟩ := response_of_isServerError hfinal
      rw [hreply] at hnext ⊢
      obtain ⟨log, htry⟩ := tryFetch_serverError hurl hnext he attempt
      refine ⟨log, ?_⟩
      rw [fetchFrom_zero_run, htry, settled, judge_serverError he]
      rfl
  | succ retries ih =>
    have hnext := next?_replyAt ht
    cases hfinal : (replyAt replies 0).isServerError with
    | false =>
      exact ⟨0, Nat.zero_le _, by simp, .inl hfinal,
        fetchFrom_last hurl hnext hfinal attempt (retries + 1)⟩
    | true =>
      obtain ⟨e, hreply, he⟩ := response_of_isServerError hfinal
      rw [hreply] at hnext
      obtain ⟨log, htry⟩ := tryFetch_serverError hurl hnext he attempt
      -- What the attempts that are left come to, behind this one.
      obtain ⟨n, hn, herrors, hlast, log, hrest⟩ := @ih (attempt + 1) (replies.drop 1)
        (Traffic.note ⟨.scripted (replies.drop 1), t.sent ++ [(getOf url).onWire], log⟩
          (.retrying attempt (httpError url e).status (httpError url e).url)) rfl
      rw [replyAt_drop_one] at hlast hrest
      refine ⟨n + 1, Nat.succ_le_succ hn, ?_, ?_, log, ?_⟩
      · intro k hk
        cases k with
        | zero => exact hfinal
        | succ k =>
          rw [← replyAt_drop_one]
          exact herrors k (Nat.lt_of_succ_lt_succ hk)
      · simpa using hlast
      · rw [fetchFrom_succ_run, htry]
        simp only [hrest, Traffic.note_sent, List.drop_drop, List.append_assoc,
          List.singleton_append, ← List.replicate_succ, Nat.add_comm 1]

namespace Client

/-- What a read comes to, and the traffic that it leaves. -/
inductive Reads (c : Client) (url : Url) (t : Traffic) :
    Except ClientError Value × Traffic → Prop
  /-- A URL that cannot be requested fails at once. -/
  | unsendable {fault : Web.TransferFault} {log : List Event} (h : url.requestFault? = some fault) :
    Reads c url t (.error (.transfer fault), { t with log })
  /-- So does any other URL if nothing can be reached. -/
  | unreachable {log : List Event} (hurl : url.requestFault? = none) (h : t.network = .down) :
    Reads c url t (.error (.transfer (.unreachable url.withoutUserinfo.text)), { t with log })
  /-- One request is sent for each reply that is taken.  All replies but the last one are server
  errors; the last one is none, or there is no attempt left. -/
  | answered {replies : List Reply} {retries : Nat} {result : Except ClientError Value}
    {log : List Event} (hurl : url.requestFault? = none) (h : t.network = .scripted replies)
    (bounded : retries < max 1 c.maxAttempts)
    (retried : ∀ k < retries, (replyAt replies k).isServerError = true)
    (stopped : (replyAt replies retries).isServerError = false ∨
      retries + 1 = max 1 c.maxAttempts)
    (settles : Settles url (replyAt replies retries) result) :
    Reads c url t (result, ⟨.scripted (replies.drop (retries + 1)),
      t.sent ++ List.replicate (retries + 1) (getOf url).onWire, log⟩)

/-- Every read of every client ends in one of these ways. -/
theorem fetchJson_reads (c : Client) (url : Url) (t : Traffic) :
    Reads c url t ((c.fetchJson url).run.run t) := by
  unfold fetchJson
  cases hfault : url.requestFault? with
  | some fault =>
    have hsend (u : Traffic) : u.send (getOf url) = (.error fault, u) := by
      simp [Traffic.send, getOf, hfault]
    rw [fetchFrom_unsent (hsend _)]
    exact .unsendable hfault
  | none =>
    cases hnetwork : t.network with
    | down =>
      have hsend (u : Traffic) (hu : u.network = .down) : u.send (getOf url) =
          (.error (.unreachable url.withoutUserinfo.text), u) := by
        simp [Traffic.send, getOf, hfault, hu, Network.next?]
      rw [fetchFrom_unsent (hsend _ hnetwork)]
      exact .unreachable hfault hnetwork
    | scripted replies =>
      obtain ⟨retries, hretries, hretried, hstopped, log, hrun⟩ :=
        fetchFrom_replies hfault 1 (c.maxAttempts - 1) hnetwork
      rw [hrun]
      exact .answered hfault hnetwork (by omega) hretried (hstopped.imp_right fun _ => by omega)
        (settles_settled url _)

def plainUrl : Url :=
  ⟨"http".toList, some ⟨none, .name "graph.test".toList, none⟩, .segments ["x".toList], none, none⟩

/-- A response whose connection broke while the body was read. -/
def brokenOff (status : Nat) : Response := ⟨status, Text.Utf8.encode "\x7b\x7d".toList, false⟩

/-- A body that breaks off is not read, with success or without. -/
theorem broken_bodies_not_read :
    (¬ ∀ (c : Client) (url : Url) (r : Response), url.requestFault? = none →
      Web.Status.isSuccess r.status = true →
      let result := ((c.fetchJson url).run.run (.start (.scripted [.response r]))).1
      (∃ v, result = .ok v) ∨ (∃ f, result = .error (.notText f)) ∨
        ∃ e, result = .error (.notJson e)) ∧
    ¬ ∀ (c : Client) (url : Url) (r : Response), url.requestFault? = none →
      Web.Status.isSuccess r.status = false → r.body ≠ [] →
      let result := ((c.fetchJson url).run.run (.start (.scripted [.response r]))).1
      ∃ e, result = .error (.status e) ∧ e.body ≠ none := by
  have hurl : plainUrl.requestFault? = none := by decide +kernel
  constructor
  · intro h
    have hresult : (((ofToken "tok").fetchJson plainUrl).run.run
        (.start (.scripted [.response (brokenOff 200)]))).1 = .error (.transfer .truncated) := by
      decide +kernel
    rcases h (ofToken "tok") plainUrl (brokenOff 200) hurl rfl with ⟨v, hv⟩ | ⟨f, hf⟩ | ⟨e, he⟩
    · cases hresult.symm.trans hv
    · cases hresult.symm.trans hf
    · cases hresult.symm.trans he
  · intro h
    have hresult : (((ofToken "tok").fetchJson plainUrl).run.run
        (.start (.scripted [.response (brokenOff 404)]))).1 =
          .error (.status ⟨404, "http://graph.test/x", none⟩) := by
      decide +kernel
    obtain ⟨e, he, hbody⟩ := h (ofToken "tok") plainUrl (brokenOff 404) hurl rfl (by decide)
    cases hresult.symm.trans he
    exact hbody rfl

end Client
end ThreatGraph
