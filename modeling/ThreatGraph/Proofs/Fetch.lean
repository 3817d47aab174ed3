import ThreatGraph.Client.Fetch
import ThreatGraph.Proofs.Traffic

/-!
# What a fetch does

A fetch sends one and the same request over and over, at most as often as the client allows, and a
body that it brings back has used up a reply of the network.
-/

namespace ThreatGraph

open Json (Value)
open Web (Network Request Response Url redact)

def getOf (url : Url) : Request := ⟨.get, url, none⟩

/-- What a response means to the attempt that it answers. -/
def judge (url : Url) (r : Response) : Except ClientError Attempt :=
  if Web.Status.isSuccess r.status then (readBody r).map .done
  else if Web.Status.isServerError r.status then .ok (.serverError (httpError url r))
  else .error (.status (httpError url r))

theorem tryFetch_run (url : Url) (attempt : Nat) (t : Traffic) :
    (tryFetch url attempt).run.run t =
      match (t.note (.attempt attempt (redact url))).send (getOf url) with
      | (.ok r, u) => (judge url r, u)
      | (.error fault, u) => (.error (.transfer fault), u) := by
  unfold tryFetch
  rw [run_lift_bind, run_lift_bind, run_note, run_send, ← getOf]
  rcases (t.note (.attempt attempt (redact url))).send (getOf url) with ⟨fault | r, u⟩
  · rfl
  · simp only [judge]
    split
    · cases readBody r <;> rfl
    · split <;> rfl

theorem tryFetch_sent (url : Url) (attempt : Nat) (t : Traffic) :
    ((tryFetch url attempt).run.run t).2.sent = t.sent ++
      if url.requestFault? = none ∧ t.network ≠ .down then [(getOf url).onWire] else [] := by
  have hs := send_sent (t.note (.attempt attempt (redact url))) (getOf url)
  rw [tryFetch_run]
  rcases hr : (t.note (.attempt attempt (redact url))).send (getOf url) with ⟨fault | r, u⟩ <;>
    rw [hr] at hs <;> exact hs

/-- What a network says that has nothing left to say is final. -/
theorem judge_exhausted (url : Url) :
    judge url Network.exhausted = .error (.status (httpError url Network.exhausted)) := rfl

theorem tryFetch_ok {url : Url} {attempt : Nat} {t u : Traffic} {a : Attempt}
    (h : (tryFetch url attempt).run.run t = (.ok a, u)) :
    u.sent = t.sent ++ [(getOf url).onWire] ∧ u.network.size + 1 = t.network.size := by
  rw [tryFetch_run] at h
  rcases hr : (t.note (.attempt attempt (redact url))).send (getOf url) with ⟨fault | r, w⟩ <;>
    rw [hr] at h
  · cases h
  · have hj : judge url r = .ok a := congrArg Prod.fst h
    have hu : w = u := congrArg Prod.snd h
    obtain ⟨hsent, rfl | hsize⟩ := send_ok hr
    · rw [judge_exhausted] at hj
      cases hj
    · rw [← hu]
      exact ⟨hsent, hsize⟩

theorem fetchFrom_zero_run (url : Url) (attempt : Nat) (t : Traffic) :
    (fetchFrom url attempt 0).run.run t =
      match (tryFetch url attempt).run.run t with
      | (.error e, u) => (.error e, u)
      | (.ok (.done v), u) => (.ok v, u)
      | (.ok (.serverError e), u) => (.error (.status e), u) := by
  rw [fetchFrom, run_exchange_bind]
  rcases (tryFetch url attempt).run.run t with ⟨_ | (_ | _), u⟩ <;> rfl

theorem fetchFrom_succ_run (url : Url) (attempt retries : Nat) (t : Traffic) :
    (fetchFrom url attempt (retries + 1)).run.run t =
      match (tryFetch url attempt).run.run t with
      | (.error e, u) => (.error e, u)
      | (.ok (.done v), u) => (.ok v, u)
      | (.ok (.serverError e), u) =>
        (fetchFrom url (attempt + 1) retries).run.run
          (u.note (.retrying attempt e.status e.url)) := by
  rw [fetchFrom, run_exchange_bind]
  rcases (tryFetch url attempt).run.run t with ⟨_ | (_ | _), u⟩ <;> rfl

theorem fetchFrom_keeps {P : Traffic → Prop} {url : Url} (hnote : ∀ t e, P t → P (t.note e))
    (hsend : ∀ t, P t → P (t.send (getOf url)).2) (attempt retries : Nat) {t : Traffic} (h : P t) :
    P ((fetchFrom url attempt retries).run.run t).2 := by
  have htry : ∀ attempt t, P t → P ((tryFetch url attempt).run.run t).2 := by
    intro attempt t h
    have hs := hsend _ (hnote t (.attempt attempt (redact url)) h)
    rw [tryFetch_run]
    rcases hr : (t.note (.attempt attempt (redact url))).send (getOf url) with ⟨_ | _, u⟩ <;>
      rw [hr] at hs <;> exact hs
  induction retries generalizing attempt t with
  | zero =>
    have ht := htry attempt t h
    rw [fetchFrom_zero_run]
    rcases hr : (tryFetch url attempt).run.run t with ⟨_ | (_ | _), u⟩ <;> rw [hr] at ht <;>
      exact ht
  | succ retries ih =>
    have ht := htry attempt t h
    rw [fetchFrom_succ_run]
    rcases hr : (tryFetch url attempt).run.run t with ⟨_ | (_ | e), u⟩ <;> rw [hr] at ht
    · exact ht
    · exact ht
    · exact ih (attempt + 1) (hnote _ _ ht)

theorem tryFetch_attempts (url : Url) (attempt : Nat) (t : Traffic) :
    ∃ n ≤ 1, ((tryFetch url attempt).run.run t).2.sent =
        t.sent ++ List.replicate n (getOf url).onWire ∧
      (0 < n ∨ ∃ fault, ((tryFetch url attempt).run.run t).1 = .error (.transfer fault)) := by
  have hs := send_sent (t.note (.attempt attempt (redact url))) (getOf url)
  rw [tryFetch_run]
  rcases hr : (t.note (.attempt attempt (redact url))).send (getOf url) with ⟨fault | r, u⟩
  · rw [hr, Traffic.note_sent] at hs
    split at hs
    · exact ⟨1, Nat.le_refl 1, hs, .inl Nat.one_pos⟩
    · exact ⟨0, Nat.zero_le 1, hs, .inr ⟨fault, rfl⟩⟩
  · exact ⟨1, Nat.le_refl 1, (send_ok hr).1, .inl Nat.one_pos⟩

/-- All requests of a fetch are one request.  None is sent only where the transfer itself fails. -/
theorem fetchFrom_sent (url : Url) (attempt retries : Nat) (t : Traffic) :
    ∃ n ≤ retries + 1, ((fetchFrom url attempt retries).run.run t).2.sent =
        t.sent ++ List.replicate n (getOf url).onWire ∧
      (0 < n ∨ ∃ fault,
        ((fetchFrom url attempt retries).run.run t).1 = .error (.transfer fault)) := by
  induction retries generalizing attempt t with
  | zero =>
    obtain ⟨n, hn, hsent, htried⟩ := tryFetch_attempts url attempt t
    refine ⟨n, hn, ?_⟩
    rw [fetchFrom_zero_run]
    rcases hr : (tryFetch url attempt).run.run t with ⟨_ | (_ | _), u⟩ <;>
      simpa [hr] using And.intro hsent htried
  | succ retries ih =>
    obtain ⟨n, hn, hsent, htried⟩ := tryFetch_attempts url attempt t
    rw [fetchFrom_succ_run]
    rcases hr : (tryFetch url attempt).run.run t with ⟨e | (v | e), u⟩ <;>
      simp only [hr] at hsent htried ⊢
    · exact ⟨n, by omega, hsent, by simpa using htried⟩
    · exact ⟨n, by omega, hsent, .inl (by simpa using htried)⟩
    · -- The first attempt had a response, so it was sent, whatever the later ones come to.
      have hpos : 0 < n := by simpa using htried
      obtain ⟨m, hm, hrest, -⟩ := ih (attempt + 1) (u.note (.retrying attempt e.status e.url))
      refine ⟨n + m, by omega, ?_, .inl (by omega)⟩
      rw [hrest, Traffic.note_sent, hsent, List.append_assoc, List.replicate_append_replicate]

theorem fetchFrom_requests {url : Url} (hurl : url.requestFault? = none) (attempt retries : Nat)
    {t : Traffic} (hup : t.network ≠ .down) :
    ∃ n, ((fetchFrom url attempt retries).run.run t).2.sent =
      t.sent ++ List.replicate (n + 1) (getOf url).onWire := by
  have hfirst : ((tryFetch url attempt).run.run t).2.sent = t.sent ++ [(getOf url).onWire] := by
    simp [tryFetch_sent, hurl, hup]
  cases retries with
  | zero =>
    rw [fetchFrom_zero_run]
    rcases hr : (tryFetch url attempt).run.run t with ⟨_ | (_ | _), u⟩ <;> rw [hr] at hfirst <;>
      exact ⟨0, hfirst⟩
  | succ retries =>
    rw [fetchFrom_succ_run]
    rcases hr : (tryFetch url attempt).run.run t with ⟨_ | (_ | e), u⟩ <;> rw [hr] at hfirst
    · exact ⟨0, hfirst⟩
    · exact ⟨0, hfirst⟩
    · obtain ⟨n, -, hrest, -⟩ := fetchFrom_sent url (attempt + 1) retries
        (u.note (.retrying attempt e.status e.url))
      refine ⟨n, hrest.trans ?_⟩
      rw [Traffic.note_sent, hfirst, List.append_assoc, List.replicate_succ, List.singleton_append]

theorem fetchFrom_ok {url : Url} {attempt retries : Nat} {t u : Traffic} {v : Value}
    (h : (fetchFrom url attempt retries).run.run t = (.ok v, u)) :
    ∃ n, 0 < n ∧ n ≤ retries + 1 ∧ u.sent = t.sent ++ List.replicate n (getOf url).onWire ∧
      u.network.size + n = t.network.size := by
  induction retries generalizing attempt t with
  | zero =>
    rw [fetchFrom_zero_run] at h
    rcases hr : (tryFetch url attempt).run.run t with ⟨_ | (_ | _), w⟩ <;> rw [hr] at h <;> cases h
    obtain ⟨hsent, hsize⟩ := tryFetch_ok hr
    exact ⟨1, Nat.one_pos, Nat.le_refl 1, hsent, hsize⟩
  | succ retries ih =>
    rw [fetchFrom_succ_run] at h
    rcases hr : (tryFetch url attempt).run.run t with ⟨_ | (_ | e), w⟩ <;> rw [hr] at h
    · cases h
    · cases h
      obtain ⟨hsent, hsize⟩ := tryFetch_ok hr
      exact ⟨1, Nat.one_pos, by omega, hsent, hsize⟩
    · obtain ⟨hsent, hsize⟩ := tryFetch_ok hr
      obtain ⟨n, hpos, hn, hrest, hrestSize⟩ := ih h
      rw [Traffic.note_sent, hsent] at hrest
      rw [Traffic.note_network] at hrestSize
      refine ⟨n + 1, Nat.succ_pos n, by omega, ?_, by omega⟩
      rw [hrest, List.append_assoc, List.replicate_succ, List.singleton_append]

namespace Client

theorem fetchJson_sent (c : Client) (url : Url) (t : Traffic) :
    ∃ n ≤ max 1 c.maxAttempts, ((c.fetchJson url).run.run t).2.sent =
        t.sent ++ List.replicate n (getOf url).onWire ∧
      (0 < n ∨ ∃ fault, ((c.fetchJson url).run.run t).1 = .error (.transfer fault)) := by
  obtain ⟨n, hn, hsent⟩ := fetchFrom_sent url 1 (c.maxAttempts - 1) t
  exact ⟨n, by omega, hsent⟩

theorem fetchJson_ok {c : Client} {url : Url} {t u : Traffic} {v : Value}
    (h : (c.fetchJson url).run.run t = (.ok v, u)) :
    ∃ n, 0 < n ∧ n ≤ max 1 c.maxAttempts ∧
      u.sent = t.sent ++ List.replicate n (getOf url).onWire ∧
      u.network.size + n = t.network.size := by
  obtain ⟨n, hpos, hn, hsent, hsize⟩ := fetchFrom_ok h
  exact ⟨n, hpos, by omega, hsent, hsize⟩

theorem fetchJson_up (c : Client) (url : Url) {t : Traffic} (h : t.network ≠ .down) :
    ((c.fetchJson url).run.run t).2.network ≠ .down :=
  fetchFrom_keeps (P := fun t => t.network ≠ .down) (fun _ _ h => h) (fun _ h => send_up h _) _ _ h

end Client
end ThreatGraph
