import ThreatGraph.Proofs.Lookup

/-!
# Requests and their replies

Every request that is sent takes the next reply of the script.  So the number of requests sent
before it says which reply a request got.
-/

namespace ThreatGraph

open Web (Network Reply Request Response TransferFault Url)

/-- The reply of a script to the request that `n` others were sent before. -/
def replyAt (replies : List Reply) (n : Nat) : Reply :=
  replies[n]?.getD (.response Network.exhausted)

/-- As many replies of the script have been used up as requests have been sent. -/
def Follows (replies : List Reply) (t : Traffic) : Prop :=
  t.network = .scripted (replies.drop t.sent.length)

variable {replies : List Reply} {t u : Traffic}

theorem follows_start (replies : List Reply) : Follows replies (.start (.scripted replies)) := rfl

theorem Follows.of_same (h : Follows replies t) (hnetwork : u.network = t.network)
    (hsent : u.sent = t.sent) : Follows replies u := by
  rw [Follows, hnetwork, hsent]
  exact h

theorem Follows.noteIf (h : Follows replies t) (wanted : Bool) (e : Event) :
    Follows replies (if wanted then t.note e else t) :=
  h.of_same (noteIf_network _ _ _) (noteIf_sent _ _ _)

/-- What the client makes of the reply to a request. -/
def received (r : Request) : Reply → Except TransferFault Response
  | .response response => .ok response
  | .closed => .error (.closed r.url.withoutUserinfo.text)

theorem Follows.send (h : Follows replies t) {r : Request} (hr : r.url.requestFault? = none) :
    ∃ u, t.send r = (received r (replyAt replies t.sent.length), u) ∧ Follows replies u ∧
      u.sent = t.sent ++ [r.onWire] := by
  have hdrop : replies.drop (t.sent ++ [r.onWire]).length =
      (replies.drop t.sent.length).drop 1 := by
    rw [List.drop_drop, List.length_append, List.length_singleton]
  have hat : replies[t.sent.length]? = (replies.drop t.sent.length)[0]? := by
    rw [List.getElem?_drop, Nat.add_zero]
  unfold Traffic.send
  rw [hr, h, replyAt, hat]
  cases hrest : replies.drop t.sent.length with
  | nil => exact ⟨_, rfl, by rw [Follows, ← Web.Request.onWire, hdrop, hrest]; rfl, rfl⟩
  | cons reply rest =>
    cases reply <;>
      exact ⟨_, rfl, by rw [Follows, ← Web.Request.onWire, hdrop, hrest]; rfl, rfl⟩

theorem Follows.sent (h : Follows replies t) (r : Request) : Follows replies (t.send r).2 := by
  cases hr : r.url.requestFault? with
  | none =>
    obtain ⟨u, hu, hfollows, -⟩ := h.send hr
    rw [hu]
    exact hfollows
  | some fault =>
    unfold Traffic.send
    rw [hr]
    exact h

namespace Client

theorem fetchJson_follows (c : Client) (url : Url) (h : Follows replies t) :
    Follows replies ((c.fetchJson url).run.run t).2 :=
  fetchFrom_keeps (fun _ _ h => h) (fun _ h => h.sent _) 1 (c.maxAttempts - 1) h

theorem descriptorsOfIds_follows (c : Client) (ids : List String) (opts : QueryOptions)
    (h : Follows replies t) : Follows replies ((c.descriptorsOfIds ids opts).run.run t).2 := by
  rcases c.descriptorsOfIds_traffic ids opts t with
    heq | ⟨url, start, -, hnetwork, hsent, hnetwork', hsent'⟩
  · rw [heq]
    exact h
  · exact (c.fetchJson_follows url (h.of_same hnetwork hsent)).of_same hnetwork' hsent'

end Client
end ThreatGraph
