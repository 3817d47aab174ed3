import ThreatGraph.Command.Run
import ThreatGraph.Proofs.Pages

/-!
# Running a command

One equation per step of a command.  Preparing a run reads neither the input nor the network, and
leaves nothing behind but warnings in the log.
-/

namespace ThreatGraph
namespace Command

variable {α β : Type}

/-- What comes of a run behind lines that were printed before. -/
def runFrom (x : Run α) (lines : List String) (t : Traffic) :
    (Except Report α × List String) × Traffic := (x.run.run lines).run t

@[simp] theorem runFrom_pure (a : α) (lines : List String) (t : Traffic) :
    runFrom (pure a) lines t = ((.ok a, lines), t) := rfl

@[simp] theorem runFrom_printText (text : String) (lines : List String) (t : Traffic) :
    runFrom (printText text) lines t = ((.ok (), lines ++ splitLines text), t) := rfl

@[simp] theorem runFrom_inSession (s : Session α) (lines : List String) (t : Traffic) :
    runFrom (inSession s) lines t = ((.ok (s.run t).1, lines), (s.run t).2) := rfl

theorem runFrom_bind (x : Run α) (f : α → Run β) (lines : List String) (t : Traffic) :
    runFrom (x >>= f) lines t =
      match runFrom x lines t with
      | ((.ok a, lines), t) => runFrom (f a) lines t
      | ((.error r, lines), t) => ((.error r, lines), t) := by
  unfold runFrom
  rw [ExceptT.run_bind, StateT.run_bind, run_bind]
  rcases (x.run.run lines).run t with ⟨⟨_ | a, lines⟩, t⟩ <;> rfl

theorem runFrom_ofExcept {ε : Type} (report : ε → Report) (x : Except ε α) (lines : List String)
    (t : Traffic) : runFrom (ofExcept report x) lines t = ((x.mapError report, lines), t) := by
  cases x <;> rfl

theorem runFrom_exchange (report : ClientError → Report) (x : Exchange α) (lines : List String)
    (t : Traffic) :
    runFrom (exchange report x) lines t =
      (((x.run.run t).1.mapError report, lines), (x.run.run t).2) := by
  unfold exchange
  rw [runFrom_bind, runFrom_inSession]
  exact runFrom_ofExcept _ _ _ _

def understood (now : Int) (value : Option String) : Option Int :=
  value.bind fun value => Time.resolve value now

def setupOf (w : World) (o : Options) : Except Report Setup :=
  match Settings.load w.files o.config w.environment with
  | .error e => .error (.ofLoadError e)
  | .ok settings =>
    let settings := override settings o
    match settings.client w.environment with
    | .error e => .error (.ofClientError e)
    | .ok client => .ok {
        client
        query := ⟨settings.pageSize, understood w.now o.taggedSince,
          understood w.now o.taggedUntil, !o.hideIndicator, o.verbose, o.showUrls⟩
        created := ⟨understood w.now o.createdSince, understood w.now o.createdUntil⟩
        now := w.now
        input := w.input }

theorem runFrom_resolveTime (now : Int) (flag : String) (value : Option String)
    (lines : List String) (t : Traffic) :
    ∃ u, runFrom (resolveTime now flag value) lines t = ((.ok (understood now value), lines), u) ∧
      SameTraffic u t := by
  cases value with
  | none => exact ⟨t, rfl, .rfl⟩
  | some value =>
    simp only [resolveTime, understood, Option.bind_some]
    cases Time.resolve value now with
    | some moment => exact ⟨t, rfl, .rfl⟩
    | none => exact ⟨t.note _, rfl, rfl, rfl⟩

theorem runFrom_prepare (w : World) (o : Options) (lines : List String) (t : Traffic) :
    ∃ u, runFrom (prepare w o) lines t = ((setupOf w o, lines), u) ∧ SameTraffic u t := by
  unfold prepare setupOf
  rw [runFrom_bind, runFrom_ofExcept]
  cases Settings.load w.files o.config w.environment with
  | error e => exact ⟨t, rfl, .rfl⟩
  | ok settings =>
    simp only [mapError_ok]
    rw [runFrom_bind, runFrom_ofExcept]
    cases (override settings o).client w.environment with
    | error e => exact ⟨t, rfl, .rfl⟩
    | ok client =>
      simp only [mapError_ok]
      rw [runFrom_bind]
      obtain ⟨t₁, h₁, hlog₁⟩ := runFrom_resolveTime w.now "--tagged-since" o.taggedSince lines t
      obtain ⟨t₂, h₂, hlog₂⟩ := runFrom_resolveTime w.now "--tagged-until" o.taggedUntil lines t₁
      obtain ⟨t₃, h₃, hlog₃⟩ := runFrom_resolveTime w.now "--created-since" o.createdSince lines t₂
      obtain ⟨t₄, h₄, hlog₄⟩ := runFrom_resolveTime w.now "--created-until" o.createdUntil lines t₃
      rw [h₁]
      simp only
      rw [runFrom_bind, h₂]
      simp only
      rw [runFrom_bind, h₃]
      simp only
      rw [runFrom_bind, h₄]
      exact ⟨t₄, rfl, hlog₄.trans (hlog₃.trans (hlog₂.trans hlog₁))⟩

theorem setupOf_input (w : World) (o : Options) (input : List UInt8) (network : Web.Network) :
    setupOf { w with input, network } o = (setupOf w o).map fun s => { s with input } := by
  unfold setupOf
  simp only
  cases Settings.load w.files o.config w.environment with
  | error e => rfl
  | ok settings =>
    simp only
    cases (override settings o).client w.environment <;> rfl

theorem input_of_setup {w : World} {o : Options} {s : Setup} (h : setupOf w o = .ok s) :
    s.input = w.input := by
  unfold setupOf at h
  cases hsettings : Settings.load w.files o.config w.environment with
  | error e =>
    rw [hsettings] at h
    cases h
  | ok settings =>
    simp only [hsettings] at h
    cases hclient : (override settings o).client w.environment with
    | error e =>
      rw [hclient] at h
      cases h
    | ok client =>
      rw [hclient] at h
      obtain rfl := Except.ok.inj h
      rfl

def outcomeOf (x : (Except Report Unit × List String) × Traffic) : Outcome :=
  match x with
  | ((.ok (), output), traffic) => ⟨0, output, [], traffic⟩
  | ((.error r, output), traffic) => ⟨1, output, r.lines, traffic⟩

@[simp] theorem outcomeOf_output (x : (Except Report Unit × List String) × Traffic) :
    (outcomeOf x).output = x.1.2 := by
  rcases x with ⟨⟨_ | _, output⟩, traffic⟩ <;> rfl

@[simp] theorem outcomeOf_traffic (x : (Except Report Unit × List String) × Traffic) :
    (outcomeOf x).traffic = x.2 := by
  rcases x with ⟨⟨_ | _, output⟩, traffic⟩ <;> rfl

theorem runInvocation_runFrom (w : World) (i : Invocation) :
    runInvocation w i =
      outcomeOf (runFrom (prepare w i.options >>= fun setup => setup.act i.action) []
        (.start w.network)) := by
  unfold runInvocation outcomeOf runFrom
  dsimp only
  generalize StateT.run _ (Traffic.start w.network) = x
  obtain ⟨⟨result, output⟩, traffic⟩ := x
  cases result <;> rfl

theorem runInvocation_eq {w : World} {i : Invocation} {s : Setup}
    (h : setupOf w i.options = .ok s) :
    ∃ log, runInvocation w i = outcomeOf (runFrom (s.act i.action) [] ⟨w.network, [], log⟩) := by
  obtain ⟨⟨network, sent, log⟩, hprepare, hnetwork, hsent⟩ :=
    runFrom_prepare w i.options [] (.start w.network)
  obtain rfl : network = w.network := hnetwork
  obtain rfl : sent = [] := hsent
  exact ⟨log, by rw [runInvocation_runFrom, runFrom_bind, hprepare, h]⟩

end Command
end ThreatGraph
