import ThreatGraph.Client.Lookup
import ThreatGraph.Proofs.Fetch

/-!
# What lookups do

Reading a page and sorting out a lookup's answer are silent, so a lookup sends what its one fetch
sends.
-/

namespace ThreatGraph

open Json (Value Members)
open Web (Request Url redact)

theorem silent_readTagged (opts : QueryOptions) (items : List Value) :
    Silent (readTagged opts items).run := by
  induction items with
  | nil => exact Silent.pure _
  | cons item rest ih =>
    unfold readTagged
    split
    · refine (Silent.ofExcept _ _).exchangeBind fun o => ?_
      refine (Silent.lift (Silent.noteIf _ _)).exchangeBind fun _ => ?_
      exact ih.exchangeBind fun _ => Silent.pure _
    · exact ih

theorem silent_collectDescriptors (opts : QueryOptions) (ids : List String)
    (byId : Members Value) : Silent (collectDescriptors opts ids byId).run := by
  induction ids generalizing byId with
  | nil => exact Silent.pure _
  | cons id ids ih =>
    unfold collectDescriptors
    split
    · exact (Silent.lift (Silent.note _)).exchangeBind fun _ => ih byId
    · refine (Silent.ofExcept _ _).exchangeBind fun d => ?_
      refine (Silent.lift (Silent.noteIf _ _)).exchangeBind fun _ => ?_
      exact (ih _).exchangeBind fun _ => Silent.pure _

namespace Client

/-- The URL at which descriptors are looked up by their ids. -/
def lookupUrl (c : Client) (ids : List String) : Except ClientError Url :=
  (c.endpoint []).map fun url =>
    url.appendPairs [("ids", String.intercalate "," ids), ("fields", descriptorFields)]

theorem descriptorsOfIds_run (c : Client) (ids : List String) (opts : QueryOptions)
    (t : Traffic) :
    (c.descriptorsOfIds ids opts).run.run t =
      match malformedId? ids, c.lookupUrl ids with
      | some id, _ => (.error (.input (.malformedDescriptorId id)), t)
      | none, .error e => (.error e, t)
      | none, .ok url =>
        match (c.fetchJson url).run.run
            (if opts.showUrls then t.note (.request (redact url)) else t) with
        | (.error e, u) => (.error e, u)
        | (.ok (.object byId), u) => (collectDescriptors opts ids byId).run.run u
        | (.ok _, u) => (.error (.unexpectedShape .lookupNotObject), u) := by
  unfold descriptorsOfIds lookupUrl
  cases malformedId? ids with
  | some id => rfl
  | none =>
    simp only
    rw [run_exchange_bind, run_ofExcept]
    cases c.endpoint [] with
    | error e => rfl
    | ok url =>
      simp only [mapError_ok, Except.map]
      rw [run_lift_bind, run_noteIf, run_exchange_bind]
      rcases (c.fetchJson _).run.run _ with ⟨e | v, u⟩
      · rfl
      · cases v <;> rfl

theorem descriptorsOfIds_traffic (c : Client) (ids : List String) (opts : QueryOptions)
    (t : Traffic) :
    ((c.descriptorsOfIds ids opts).run.run t).2 = t ∨
      ∃ url start, c.lookupUrl ids = .ok url ∧ start.network = t.network ∧ start.sent = t.sent ∧
        ((c.descriptorsOfIds ids opts).run.run t).2.network =
          ((c.fetchJson url).run.run start).2.network ∧
        ((c.descriptorsOfIds ids opts).run.run t).2.sent =
          ((c.fetchJson url).run.run start).2.sent := by
  rw [descriptorsOfIds_run]
  cases malformedId? ids with
  | some id => exact .inl rfl
  | none =>
    cases c.lookupUrl ids with
    | error e => exact .inl rfl
    | ok url =>
      refine .inr ⟨url, if opts.showUrls then t.note (.request (redact url)) else t, rfl,
        noteIf_network _ _ _, noteIf_sent _ _ _, ?_⟩
      simp only
      rcases (c.fetchJson url).run.run
        (if opts.showUrls then t.note (.request (redact url)) else t) with ⟨e | v, u⟩
      · exact ⟨rfl, rfl⟩
      · cases v with
        | object byId => exact silent_collectDescriptors opts ids byId u
        | _ => exact ⟨rfl, rfl⟩

theorem descriptorsOfIds_sent (c : Client) (ids : List String) (opts : QueryOptions)
    (t : Traffic) :
    ∃ gets : List Request, ((c.descriptorsOfIds ids opts).run.run t).2.sent = t.sent ++ gets ∧
      gets.length ≤ max 1 c.maxAttempts ∧
      ∀ r ∈ gets, ∃ url, c.lookupUrl ids = .ok url ∧ r = (getOf url).onWire := by
  rcases c.descriptorsOfIds_traffic ids opts t with h | ⟨url, start, hurl, _, hsent, _, h⟩
  · exact ⟨[], by simp [h]⟩
  · obtain ⟨n, hn, hget, -⟩ := c.fetchJson_sent url start
    refine ⟨List.replicate n (getOf url).onWire, ?_, by simpa using hn, fun r hr =>
      ⟨url, hurl, List.eq_of_mem_replicate hr⟩⟩
    rw [h, hget, hsent]

theorem descriptorsOfIds_up (c : Client) (ids : List String) (opts : QueryOptions) {t : Traffic}
    (hup : t.network ≠ .down) : ((c.descriptorsOfIds ids opts).run.run t).2.network ≠ .down := by
  rcases c.descriptorsOfIds_traffic ids opts t with h | ⟨url, start, _, hnetwork, _, h, _⟩
  · rw [h]
    exact hup
  · rw [h]
    exact c.fetchJson_up url (hnetwork ▸ hup)

end Client
end ThreatGraph
