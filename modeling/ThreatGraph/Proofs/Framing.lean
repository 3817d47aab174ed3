import ThreatGraph.Client.Write
import ThreatGraph.Proofs.Traffic

/-!
# Sessions one after another

A framed session sees of the traffic before it only the network.  What it sends and logs comes
behind what was sent and logged before, and its result is the same as at the start.
-/

namespace ThreatGraph

open Json (Value Members)
open Post (Field Fields Kind validate)
open Web (Network Request Url)

variable {α β : Type}

/-- The traffic with requests and a log before its own. -/
def Traffic.behind (sent : List Request) (log : List Event) (t : Traffic) : Traffic :=
  ⟨t.network, sent ++ t.sent, log ++ t.log⟩

theorem behind_start (t : Traffic) : (Traffic.start t.network).behind t.sent t.log = t := by
  simp [Traffic.behind, Traffic.start]

/-- A session that does the same whatever was sent and logged before it. -/
def Framed (s : Session α) : Prop :=
  ∀ sent log t, s.run (t.behind sent log) = ((s.run t).1, (s.run t).2.behind sent log)

/-- Any run of a framed session is its run from the start of its network. -/
theorem Framed.run_eq {s : Session α} (h : Framed s) (t : Traffic) :
    s.run t = ((s.run (.start t.network)).1,
      (s.run (.start t.network)).2.behind t.sent t.log) := by
  rw [← h t.sent t.log, behind_start]

namespace Framed

theorem pure (a : α) : Framed (pure a) := fun _ _ _ => rfl

theorem note (e : Event) : Framed (note e) := fun sent log t => by
  simp [Traffic.note, Traffic.behind]

theorem noteIf (wanted : Bool) (e : Event) : Framed (noteIf wanted e) := by
  cases wanted with
  | true => exact note e
  | false => exact pure ()

theorem send (r : Request) : Framed (send r) := by
  intro sent log t
  rw [run_send, run_send]
  unfold Traffic.send
  cases r.url.requestFault? with
  | some fault => rfl
  | none =>
    simp only [Traffic.behind]
    rcases t.network.next? with _ | ⟨_ | _, network⟩
    · rfl
    · simp
    · simp

theorem bind {s : Session α} {f : α → Session β} (hs : Framed s) (hf : ∀ a, Framed (f a)) :
    Framed (s >>= f) := by
  intro sent log t
  rw [run_bind, run_bind, hs sent log t]
  exact hf _ sent log _

theorem exchangeBind {x : Exchange α} {f : α → Exchange β} (hx : Framed x.run)
    (hf : ∀ a, Framed (f a).run) : Framed (x >>= f).run := by
  intro sent log t
  rw [run_exchange_bind, run_exchange_bind, hx sent log t]
  rcases x.run.run t with ⟨e | a, u⟩
  · rfl
  · exact hf a sent log u

theorem exchangePure (a : α) : Framed (Pure.pure a : Exchange α).run :=
  fun _ _ _ => rfl

theorem throw (e : ClientError) : Framed (MonadExcept.throw e : Exchange α).run :=
  fun _ _ _ => rfl

theorem lift {s : Session α} (h : Framed s) : Framed (monadLift s : Exchange α).run := by
  intro sent log t
  have hrun : ∀ t, (monadLift s : Exchange α).run.run t = (.ok (s.run t).1, (s.run t).2) :=
    fun _ => rfl
  rw [hrun, hrun, h sent log t]

theorem ofExcept {ε : Type} (wrap : ε → ClientError) (x : Except ε α) :
    Framed (Exchange.ofExcept wrap x).run := by
  cases x with
  | ok a => exact exchangePure a
  | error e => exact throw _

end Framed

theorem framed_tryFetch (url : Url) (attempt : Nat) : Framed (tryFetch url attempt).run := by
  unfold tryFetch
  refine (Framed.lift (.note _)).exchangeBind fun _ => ?_
  refine (Framed.lift (.send _)).exchangeBind fun reply => ?_
  cases reply with
  | error fault => exact .throw _
  | ok response =>
    simp only
    split
    · exact (Framed.ofExcept _ _).exchangeBind fun _ => .exchangePure _
    · split
      · exact .exchangePure _
      · exact .throw _

theorem framed_fetchFrom (url : Url) (attempt retries : Nat) :
    Framed (fetchFrom url attempt retries).run := by
  induction retries generalizing attempt with
  | zero =>
    refine (framed_tryFetch url attempt).exchangeBind fun result => ?_
    cases result with
    | done body => exact .exchangePure _
    | serverError e => exact .throw _
  | succ retries ih =>
    refine (framed_tryFetch url attempt).exchangeBind fun result => ?_
    cases result with
    | done body => exact .exchangePure _
    | serverError e => exact (Framed.lift (.note _)).exchangeBind fun _ => ih _

theorem framed_collectDescriptors (opts : QueryOptions) (ids : List String)
    (byId : Members Value) : Framed (collectDescriptors opts ids byId).run := by
  induction ids generalizing byId with
  | nil => exact .exchangePure _
  | cons id ids ih =>
    unfold collectDescriptors
    split
    · exact (Framed.lift (.note _)).exchangeBind fun _ => ih byId
    · refine (Framed.ofExcept _ _).exchangeBind fun d => ?_
      refine (Framed.lift (.noteIf _ _)).exchangeBind fun _ => ?_
      exact (ih _).exchangeBind fun _ => .exchangePure _

namespace Client

theorem framed_descriptorsOfIds (c : Client) (ids : List String) (opts : QueryOptions) :
    Framed (c.descriptorsOfIds ids opts).run := by
  unfold descriptorsOfIds
  cases malformedId? ids with
  | some id => exact .throw _
  | none =>
    refine (Framed.ofExcept _ _).exchangeBind fun url => ?_
    refine (Framed.lift (.noteIf _ _)).exchangeBind fun _ => ?_
    refine (framed_fetchFrom _ _ _).exchangeBind fun response => ?_
    cases response with
    | object byId => exact framed_collectDescriptors opts ids byId
    | _ => exact .throw _

theorem framed_postTo (c : Client) (segments : List String) (fs : Fields) (opts : WriteOptions) :
    Framed (c.postTo segments fs opts) := by
  unfold postTo
  cases c.endpoint segments with
  | error e => exact .pure _
  | ok url =>
    refine (Framed.noteIf _ _).bind fun _ => ?_
    split
    · exact .pure _
    · refine (Framed.send _).bind fun reply => ?_
      cases reply with
      | error fault => exact .pure _
      | ok response => exact (Framed.note _).bind fun _ => .pure _

theorem framed_submit (c : Client) (fs : Fields) (opts : WriteOptions) :
    Framed (c.submit fs opts) := by
  unfold submit
  cases validate .submit fs with
  | some e => exact .pure _
  | none => exact c.framed_postTo _ _ _

theorem framed_update (c : Client) (fs : Fields) (opts : WriteOptions) :
    Framed (c.update fs opts) := by
  unfold update
  cases validate .update fs with
  | some e => exact .pure _
  | none =>
    cases fs.get? .descriptorId with
    | some id => exact c.framed_postTo _ _ _
    | none => exact .pure _

theorem framed_copy (c : Client) (fs : Fields) (opts : WriteOptions) :
    Framed (c.copy fs opts) := by
  unfold copy
  cases validate .copy fs with
  | some e => exact .pure _
  | none =>
    cases fs.get? .descriptorId with
    | none => exact .pure _
    | some id =>
      refine (c.framed_descriptorsOfIds _ _).bind fun found => ?_
      rcases found with e | (_ | ⟨source, others⟩)
      · exact .pure _
      · exact .pure _
      · exact c.framed_submit _ _

theorem framed_write (c : Client) (kind : Kind) (fs : Fields) (opts : WriteOptions) :
    Framed (c.write kind fs opts) := by
  cases kind with
  | submit => exact c.framed_submit fs opts
  | update => exact c.framed_update fs opts
  | copy => exact c.framed_copy fs opts

end Client
end ThreatGraph
