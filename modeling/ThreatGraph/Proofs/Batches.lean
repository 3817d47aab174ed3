import ThreatGraph.Proofs.CommandRuns
import ThreatGraph.Proofs.FieldReading
import ThreatGraph.Proofs.Framing
import ThreatGraph.Proofs.Lines

/-!
# Batches of writes

A batch reads its lines first and then makes one write after the other.  So it prints and sends what
its lines print and send alone, each on the network that the lines before it left.  Only the numbers
of lines, which are part of the reports of what could not be read, are those in the batch.
-/

namespace ThreatGraph
namespace Command

open Json (Value Members)
open Post (Field Fields Kind)
open Setup (readInputLine atLine inputErrorLine outcomeLine textMember)
open Text (trimmed)
open Text.Utf8 (encode decode)
open Web (Network Request)

/-- A line that is a JSON object with names of fields only. -/
def Recognised (line : String) : Prop :=
  ∃ ms, Json.read line = .ok (.object ms) ∧ ∀ m ∈ ms, ∃ f, Field.ofName? m.1 = some f

theorem readInputLine_eq_ok_iff {line : String} {fs : Fields} :
    readInputLine line = .ok fs ↔
      ∃ ms, Json.read line = .ok (.object ms) ∧ Fields.ofMembers ms = .ok fs := by
  unfold readInputLine
  cases Json.read line with
  | error f => simp
  | ok v =>
    cases v with
    | object ms =>
      simp only [Except.ok.injEq, Value.object.injEq, exists_eq_left']
      cases Fields.ofMembers ms <;> simp
    | _ => simp

theorem readInputLine_ok_iff {line : String} :
    (∃ fs, readInputLine line = .ok fs) ↔ Recognised line := by
  have hfields : ∀ ms, (∃ fs, Fields.ofMembers ms = .ok fs) ↔
      ∀ m ∈ ms, ∃ f, Field.ofName? m.1 = some f := by
    intro ms
    simp only [Fields.ofName?_eq_some_iff]
    exact Fields.ofMembersFrom_ok_iff
  simp only [readInputLine_eq_ok_iff, Recognised, ← hfields]
  constructor
  · rintro ⟨fs, ms, hread, hms⟩
    exact ⟨ms, hread, fs, hms⟩
  · rintro ⟨ms, hread, fs, hms⟩
    exact ⟨fs, ms, hread, hms⟩

/-- An object that says whether an outcome is a good one, and has its body and the messages of its
errors as far as there are any. -/
structure ShowsOutcome (o : WriteOutcome) (v : Value) : Prop where
  ok : v.get? "ok" = some (.bool o.isOk)
  response : v.get? "response" = o.body
  transportError : v.get? "transport_error" = o.transportError.map fun e => .string e.message
  validationError : v.get? "validation_error" = o.validationError.map fun e => .string e.message
  /-- There is nothing else in it, and no name stands twice. -/
  only : ∃ ms, v = .object ms ∧
    (Members.names ms).Sublist ["ok", "response", "transport_error", "validation_error"]

theorem names_textMember_sublist (name : String) (text : Option String) :
    (Members.names (textMember name text)).Sublist [name] := by
  cases text with
  | none => exact List.nil_sublist _
  | some s => exact .refl _

theorem showsOutcome_outcomeLine (o : WriteOutcome) : ShowsOutcome o (outcomeLine o) := by
  constructor
  case ok => rfl
  case response => rcases o with ⟨_ | v, _ | t, _ | b⟩ <;> rfl
  case transportError => rcases o with ⟨_ | v, _ | t, _ | b⟩ <;> rfl
  case validationError => rcases o with ⟨_ | v, _ | t, _ | b⟩ <;> rfl
  case only =>
    have hnames : ∀ response : Members Value, (Members.names response).Sublist ["response"] →
        (Members.names ([("ok", .bool o.isOk)] ++ response ++
          textMember "transport_error" (o.transportError.map (·.message)) ++
          textMember "validation_error" (o.validationError.map (·.message)))).Sublist
            ["ok", "response", "transport_error", "validation_error"] := by
      intro response hresponse
      have htransport :=
        names_textMember_sublist "transport_error" (o.transportError.map (·.message))
      have hvalidation :=
        names_textMember_sublist "validation_error" (o.validationError.map (·.message))
      simp only [Members.names, List.map_append] at hresponse htransport hvalidation ⊢
      exact (((List.Sublist.refl ["ok"]).append hresponse).append htransport).append hvalidation
    refine ⟨_, rfl, ?_⟩
    cases o.body with
    | none => exact hnames [] (List.nil_sublist _)
    | some body => exact hnames [("response", body)] (.refl _)

inductive LineResult where
  | refused (r : Report)
  | written (o : WriteOutcome)

namespace LineResult

/-- What is printed of a result, if its line has this number. -/
def value (number : Nat) : LineResult → Value
  | refused r => inputErrorLine (atLine number r)
  | written o => outcomeLine o

def isOk : LineResult → Bool
  | refused _ => false
  | written o => o.isOk

theorem ok_value (number : Nat) (r : LineResult) :
    (r.value number).get? "ok" = some (.bool r.isOk) := by
  cases r <;> rfl

end LineResult

/-- The result of a line on a network, and the traffic of that line. -/
def Setup.lineRun (s : Setup) (kind : Kind) (opts : WriteOptions) (network : Network)
    (line : String) : LineResult × Traffic :=
  match readInputLine (trimmed line) with
  | .error r => (.refused r, .start network)
  | .ok fs =>
    let run := (s.client.write kind fs opts).run (.start network)
    (.written run.1, run.2)

/-- The items of a batch, whose lines are numbered from `number + 1` on. -/
def lineItems (number : Nat) (lines : List String) : List (Except Report Fields) :=
  (lines.zipIdx number).map fun l => (readInputLine (trimmed l.1)).mapError (atLine (l.2 + 1))

section Runs

variable {s : Setup} {kind : Kind} {opts : WriteOptions} {line : String} {result : LineResult}

theorem runFrom_writeOne {t after : Traffic}
    (h : s.lineRun kind opts t.network line = (result, after)) (number : Nat) (out : List String) :
    ∃ u, runFrom (s.writeOne kind opts ((readInputLine (trimmed line)).mapError (atLine number)))
        out t = ((.ok result.isOk, out ++ [(result.value number).text]), u) ∧
      u.network = after.network ∧ u.sent = t.sent ++ after.sent := by
  unfold Setup.lineRun at h
  cases hread : readInputLine (trimmed line) with
  | error r =>
    rw [hread] at h
    obtain ⟨rfl, rfl⟩ := Prod.mk.inj h
    refine ⟨t.note (.rejectedInput (atLine number r).oneLine), ?_, rfl, (List.append_nil _).symm⟩
    change runFrom (do inSession (note _); printText _; pure false) out t = _
    rw [runFrom_bind, runFrom_inSession]
    simp only [run_note]
    rw [runFrom_bind, runFrom_printText, splitLines_text]
    rfl
  | ok fs =>
    rw [hread] at h
    obtain ⟨rfl, rfl⟩ := Prod.mk.inj h
    have hframed := (s.client.framed_write kind fs opts).run_eq t
    refine ⟨((s.client.write kind fs opts).run t).2, ?_, ?_, ?_⟩
    · change runFrom (do
        let o ← inSession (s.client.write kind fs opts)
        printText (outcomeLine o).text
        pure o.isOk) out t = _
      rw [runFrom_bind, runFrom_inSession]
      simp only
      rw [runFrom_bind, runFrom_printText, splitLines_text, hframed]
      rfl
    · rw [hframed]
      rfl
    · rw [hframed]
      rfl

theorem runFrom_mapM_cons {α β : Type} {f : α → Run β} {a : α} {as : List α} {b : β} {bs : List β}
    {out out' out'' : List String} {t u v : Traffic}
    (hhead : runFrom (f a) out t = ((.ok b, out'), u))
    (htail : runFrom (as.mapM f) out' u = ((.ok bs, out''), v)) :
    runFrom ((a :: as).mapM f) out t = ((.ok (b :: bs), out''), v) := by
  rw [List.mapM_cons, runFrom_bind, hhead]
  simp only
  rw [runFrom_bind, htail]
  rfl

def failedText (failed total : Nat) (kind : Kind) : String :=
  s!"{failed} of {total} {kind.name} requests failed"

/-- How a batch ends that has these results. -/
def verdict (kind : Kind) (results : List LineResult) : Except Report Unit :=
  let failed := results.countP (!·.isOk)
  if 0 < failed then
    .error (.ofMessage (failedText failed results.length kind))
  else .ok ()

/-- A batch makes its writes, whatever comes of them, and then fails if one of them did. -/
theorem runFrom_write {text : String} {results : List LineResult} {out out' : List String}
    {t u : Traffic} (htext : decode s.input = .ok text) (fields : List String)
    (h : runFrom ((lineItems 0 (nonBlankLines text)).mapM (s.writeOne kind opts)) out t =
      ((.ok (results.map (·.isOk)), out'), u)) :
    runFrom (s.write kind fields true opts) out t = ((verdict kind results, out'), u) := by
  unfold Setup.write Setup.batch
  rw [runFrom_bind, runFrom_ofExcept, if_pos rfl, inputLines_of_text htext]
  have hitems : lineItems 0 (nonBlankLines text) =
      ((nonBlankLines text).map trimmed).zipIdx.map
        fun l => (readInputLine l.1).mapError (atLine (l.2 + 1)) := by
    simp only [lineItems, List.zipIdx_map, List.map_map, Function.comp_def, Prod.map_fst,
      Prod.map_snd, id_eq]
  simp only [Except.map, mapError_ok]
  rw [← hitems, runFrom_bind, h]
  simp only [verdict, List.countP_map, List.length_map, Function.comp_def]
  split <;> rfl

end Runs

/-- The batch of writes that the input has; `fields` are not looked at. -/
def batchOf (o : Options) (kind : Kind) (fields : List String) (dryRun : Bool) : Invocation :=
  ⟨o, .write kind fields true dryRun⟩

def alone (w : World) (i : Invocation) (network : Network) (line : String) : Outcome :=
  runInvocation { w with input := encode line.toList, network } i

section Alone

variable {w : World} {o : Options} {s : Setup} {kind : Kind} {fields : List String} {dryRun : Bool}
  {network : Network} {line : String} {result : LineResult} {after : Traffic}

theorem alone_run (hs : setupOf w o = .ok s)
    (h : s.lineRun kind ⟨dryRun, s.query.showUrls⟩ network line = (result, after))
    (hline : nonBlankLines line = [line]) :
    ∃ u, alone w (batchOf o kind fields dryRun) network line =
        outcomeOf ((verdict kind [result], [(result.value 1).text]), u) ∧
      u.network = after.network ∧ u.sent = after.sent := by
  have hsetup := setupOf_input w o (encode line.toList) network
  rw [hs] at hsetup
  obtain ⟨log, hrun⟩ := runInvocation_eq (w := { w with input := encode line.toList, network })
    (i := batchOf o kind fields dryRun) hsetup
  have htext : decode (encode line.toList) = .ok line := by simp
  obtain ⟨u, hone, hnetwork, hsent⟩ := runFrom_writeOne (t := ⟨network, [], log⟩) h 1 []
  have hlines : runFrom ((lineItems 0 (nonBlankLines line)).mapM
      (s.writeOne kind ⟨dryRun, s.query.showUrls⟩)) [] ⟨network, [], log⟩ =
        ((.ok ([result].map (·.isOk)), [(result.value 1).text]), u) := by
    rw [hline]
    exact runFrom_mapM_cons hone rfl
  have hwrite := runFrom_write (s := { s with input := encode line.toList }) htext fields hlines
  refine ⟨u, ?_, hnetwork, hsent⟩
  rw [← hwrite]
  exact hrun

/-- What is printed and sent for a line alone, and its result. -/
structure LineRun (w : World) (i : Invocation) (c : Client) (kind : Kind) (opts : WriteOptions)
    (network : Network) (line : String) (result : LineResult) : Prop where
  output : (alone w i network line).output = [(result.value 1).text]
  /-- What is no object of recognised fields is refused, and nothing else is. -/
  refused_iff : (∃ r, result = .refused r) ↔ ¬ Recognised (trimmed line)
  /-- Nothing is sent for a line that is refused, and no reply is used up. -/
  refused : ∀ r, result = .refused r →
    (alone w i network line).traffic.sent = [] ∧
    (alone w i network line).traffic.network = network ∧
    ∀ number, ∃ message, (result.value number).get? "input_error" = some (.string message) ∧
      (result.value number).get? "ok" = some (.bool false)
  /-- Any other line has the outcome of its write. -/
  written : ∀ o, result = .written o →
    (∃ ms fs, Json.read (trimmed line) = .ok (.object ms) ∧ Fields.ofMembers ms = .ok fs ∧
      o = ((c.write kind fs opts).run (.start network)).1) ∧
    ∀ number, result.value number = outcomeLine o ∧ ShowsOutcome o (outcomeLine o) ∧
      ((outcomeLine o).get? "ok" = some (.bool true) ↔
        o.validationError = none ∧ o.transportError = none)

theorem lineRun_alone (hs : setupOf w o = .ok s)
    (h : s.lineRun kind ⟨dryRun, s.query.showUrls⟩ network line = (result, after))
    (hline : nonBlankLines line = [line]) :
    LineRun w (batchOf o kind fields dryRun) s.client kind ⟨dryRun, s.query.showUrls⟩ network
      line result := by
  obtain ⟨u, halone, hnetwork, hsent⟩ :
    ∃ u, alone w (batchOf o kind fields dryRun) network line = _ ∧ _ ∧ _ :=
      alone_run hs h hline
  have houtput : (alone w (batchOf o kind fields dryRun) network line).output =
      [(result.value 1).text] := by
    rw [halone, outcomeOf_output]
  unfold Setup.lineRun at h
  cases hread : readInputLine (trimmed line) with
  | error r =>
    rw [hread] at h
    obtain ⟨rfl, rfl⟩ := Prod.mk.inj h
    have hnot : ¬ Recognised (trimmed line) := by
      rw [← readInputLine_ok_iff, hread]
      simp
    refine ⟨houtput, iff_of_true ⟨r, rfl⟩ hnot, fun _ _ => ?_, ?_⟩
    · rw [halone, outcomeOf_traffic]
      exact ⟨hsent, hnetwork, fun number => ⟨_, rfl, rfl⟩⟩
    · intro o ho
      cases ho
  | ok fs =>
    rw [hread] at h
    obtain ⟨rfl, -⟩ := Prod.mk.inj h
    have hfields : Recognised (trimmed line) := readInputLine_ok_iff.1 ⟨fs, hread⟩
    refine ⟨houtput, iff_of_false ?_ (not_not_intro hfields), ?_, ?_⟩
    · rintro ⟨r, hr⟩
      cases hr
    · intro r hr
      cases hr
    · intro o ho
      cases ho
      obtain ⟨ms, hms, hfs⟩ := readInputLine_eq_ok_iff.1 hread
      refine ⟨⟨ms, fs, hms, hfs, rfl⟩, fun number => ⟨rfl, showsOutcome_outcomeLine _, ?_⟩⟩
      rw [(showsOutcome_outcomeLine _).ok]
      simp [WriteOutcome.isOk]

/-- Lines, their results and their runs alone, each on the network that the ones before it left. -/
inductive Batch (w : World) (i : Invocation) (c : Client) (kind : Kind) (opts : WriteOptions) :
    Network → List String → List LineResult → List Outcome → Network → Prop
  | nil (network : Network) : Batch w i c kind opts network [] [] [] network
  | cons {network final : Network} {line : String} {lines : List String} {result : LineResult}
    {results : List LineResult} {outcomes : List Outcome}
    (head : LineRun w i c kind opts network line result)
    (tail : Batch w i c kind opts (alone w i network line).traffic.network lines results outcomes
      final) :
    Batch w i c kind opts network (line :: lines) (result :: results)
      (alone w i network line :: outcomes) final

theorem Batch.length_eq {i : Invocation} {c : Client} {opts : WriteOptions} {final : Network}
    {lines : List String} {results : List LineResult} {outcomes : List Outcome}
    (h : Batch w i c kind opts network lines results outcomes final) :
    results.length = lines.length := by
  induction h with
  | nil => rfl
  | cons _ _ ih => rw [List.length_cons, List.length_cons, ih]

def printed (number : Nat) (results : List LineResult) : List Value :=
  (results.zipIdx number).map fun r => r.1.value (r.2 + 1)

theorem runFrom_lines (hs : setupOf w o = .ok s) {lines : List String}
    (hlines : ∀ line ∈ lines, nonBlankLines line = [line]) (number : Nat) (out : List String)
    (t : Traffic) :
    ∃ results outcomes u,
      Batch w (batchOf o kind fields dryRun) s.client kind ⟨dryRun, s.query.showUrls⟩
        t.network lines results outcomes u.network ∧
      runFrom ((lineItems number lines).mapM (s.writeOne kind ⟨dryRun, s.query.showUrls⟩)) out t =
        ((.ok (results.map (·.isOk)), out ++ (printed number results).map (·.text)), u) ∧
      u.sent = t.sent ++ outcomes.flatMap (·.traffic.sent) ∧
      ∀ (k : Nat) (line : String), lines[k]? = some line → ∃ network,
        results[k]? = some (s.lineRun kind ⟨dryRun, s.query.showUrls⟩ network line).1 := by
  induction lines generalizing number out t with
  | nil =>
    exact ⟨[], [], t, .nil _, by simp [lineItems, printed], (List.append_nil _).symm, by simp⟩
  | cons line lines ih =>
    obtain ⟨hline, hlines⟩ := List.forall_mem_cons.1 hlines
    obtain ⟨⟨result, after⟩, hrun⟩ :
      ∃ run, s.lineRun kind ⟨dryRun, s.query.showUrls⟩ t.network line = run := ⟨_, rfl⟩
    obtain ⟨v, halone, hnetwork, hsent⟩ :
      ∃ u, alone w (batchOf o kind fields dryRun) t.network line = _ ∧ _ ∧ _ :=
        alone_run hs hrun hline
    obtain ⟨u, hone, hnetwork', hsent'⟩ := runFrom_writeOne hrun (number + 1) out
    obtain ⟨results, outcomes, u', htail, hrest, hsentRest, hresults⟩ :=
      ih hlines (number + 1) (out ++ [(result.value (number + 1)).text]) u
    have hleft : (alone w (batchOf o kind fields dryRun) t.network line).traffic.network =
        u.network := by
      rw [halone, outcomeOf_traffic, hnetwork, hnetwork']
    have hown : (alone w (batchOf o kind fields dryRun) t.network line).traffic.sent =
        after.sent := by
      rw [halone, outcomeOf_traffic, hsent]
    refine ⟨result :: results, _ :: outcomes, u', .cons (lineRun_alone hs hrun hline) ?_, ?_, ?_,
      ?_⟩
    · rw [hleft]
      exact htail
    · rw [List.append_assoc] at hrest
      exact runFrom_mapM_cons hone hrest
    · rw [hsentRest, hsent', List.flatMap_cons, hown, List.append_assoc]
    · intro k later hk
      cases k with
      | zero =>
        obtain rfl := Option.some.inj hk
        exact ⟨t.network, by rw [hrun]; rfl⟩
      | succ k => exact hresults k later hk

end Alone

def failures (values : List Value) : Nat :=
  values.countP fun v => v.get? "ok" == some (.bool false)

/-- A batch is what its lines are alone, and ends well if all of them did. -/
structure Composes (w : World) (i : Invocation) (c : Client) (kind : Kind) (opts : WriteOptions)
    (text : String) (results : List LineResult) (outcomes : List Outcome) : Prop where
  batch : Batch w i c kind opts w.network (nonBlankLines text) results outcomes
    (runInvocation w i).traffic.network
  output : (runInvocation w i).output = (printed 0 results).map (·.text)
  one_each : (runInvocation w i).output.length = (nonBlankLines text).length
  sent : (runInvocation w i).traffic.sent = outcomes.flatMap (·.traffic.sent)
  success : (runInvocation w i).exitCode = 0 ↔
    ∀ v ∈ printed 0 results, v.get? "ok" ≠ some (.bool false)
  failure : (runInvocation w i).exitCode ≠ 0 →
    (runInvocation w i).exitCode = 1 ∧ (runInvocation w i).errors =
      ["Error: " ++ failedText (failures (printed 0 results)) (nonBlankLines text).length kind]

theorem failures_printed (number : Nat) (results : List LineResult) :
    failures (printed number results) = results.countP (!·.isOk) := by
  unfold failures
  induction results generalizing number with
  | nil => rfl
  | cons r rest ih =>
    have hsame : ((r.value (number + 1)).get? "ok" == some (.bool false)) = !r.isOk := by
      rw [LineResult.ok_value]
      cases r.isOk <;> rfl
    have hprinted : printed number (r :: rest) =
        r.value (number + 1) :: printed (number + 1) rest := rfl
    rw [hprinted, List.countP_cons, List.countP_cons, ih, hsame]

theorem lines_failed (failed total : Nat) (kind : Kind) :
    (Report.ofMessage (failedText failed total kind)).lines =
      ["Error: " ++ failedText failed total kind] := by
  have hname : '\n' ∉ kind.name.toList := by cases kind <;> decide
  have hfree : '\n' ∉ ("Error: " ++ failedText failed total kind).toList := by
    simp only [failedText, String.toList_append, List.mem_append, not_or, and_assoc]
    simp only [Nat.toString_eq_repr, Nat.repr, String.toList_ofList]
    exact ⟨by decide, newline_not_mem_toDigits failed, by decide, newline_not_mem_toDigits total,
      by decide, hname, by decide⟩
  have hlines := splitLines_of_free hfree
  rw [String.ofList_toList] at hlines
  simp only [Report.lines, Report.ofMessage, List.isEmpty_nil, if_true, List.append_nil, hlines]

theorem verdict_exitCode {kind : Kind} {results : List LineResult} {out : List String}
    {u : Traffic} :
    (outcomeOf ((verdict kind results, out), u)).exitCode = 0 ↔
      results.countP (!·.isOk) = 0 := by
  unfold verdict
  by_cases h : 0 < results.countP (!·.isOk)
  · rw [if_pos h]
    exact iff_of_false Nat.one_ne_zero (Nat.pos_iff_ne_zero.1 h)
  · rw [if_neg h]
    exact iff_of_true rfl (Nat.eq_zero_of_not_pos h)

theorem verdict_errors {kind : Kind} {results : List LineResult} {out : List String}
    {u : Traffic} (h : (outcomeOf ((verdict kind results, out), u)).exitCode ≠ 0) :
    (outcomeOf ((verdict kind results, out), u)).exitCode = 1 ∧
    (outcomeOf ((verdict kind results, out), u)).errors =
      ["Error: " ++ failedText (results.countP (!·.isOk)) results.length kind] := by
  have hfailed := Nat.pos_iff_ne_zero.2 (mt verdict_exitCode.2 h)
  unfold verdict
  rw [if_pos hfailed]
  exact ⟨rfl, lines_failed _ _ kind⟩

theorem fails_of_fault {w : World} {o : Options} {s : Setup} {f : Text.Utf8.Fault}
    (hs : setupOf w o = .ok s) (h : decode w.input = .error f) (kind : Kind) (fields : List String)
    (dryRun : Bool) :
    (runInvocation w (batchOf o kind fields dryRun)).output = [] ∧
    (runInvocation w (batchOf o kind fields dryRun)).traffic.sent = [] ∧
    (runInvocation w (batchOf o kind fields dryRun)).exitCode = 1 := by
  obtain ⟨r, hinput⟩ := inputLines_of_fault h
  rw [← input_of_setup hs] at hinput
  obtain ⟨log, hrun⟩ := runInvocation_eq (i := batchOf o kind fields dryRun) hs
  have hwrite : runFrom (s.write kind fields true ⟨dryRun, s.query.showUrls⟩) []
      ⟨w.network, [], log⟩ = ((.error r, []), ⟨w.network, [], log⟩) := by
    unfold Setup.write Setup.batch
    rw [runFrom_bind, runFrom_ofExcept, if_pos rfl, hinput]
    rfl
  have hwhole : runInvocation w (batchOf o kind fields dryRun) = outcomeOf _ :=
    hrun.trans (congrArg outcomeOf hwrite)
  rw [hwhole]
  exact ⟨rfl, rfl, rfl⟩

/-- A batch prints the results of its lines, and ends as they ended. -/
theorem run_of_text {w : World} {o : Options} {s : Setup} {text : String}
    (hs : setupOf w o = .ok s) (htext : decode w.input = .ok text) (kind : Kind)
    (fields : List String) (dryRun : Bool) :
    ∃ results outcomes, ∃ u : Traffic,
      Batch w (batchOf o kind fields dryRun) s.client kind ⟨dryRun, s.query.showUrls⟩ w.network
        (nonBlankLines text) results outcomes u.network ∧
      runInvocation w (batchOf o kind fields dryRun) =
        outcomeOf ((verdict kind results, (printed 0 results).map (·.text)), u) ∧
      u.sent = outcomes.flatMap (·.traffic.sent) ∧
      ∀ (k : Nat) (line : String), (nonBlankLines text)[k]? = some line → ∃ network,
        results[k]? = some (s.lineRun kind ⟨dryRun, s.query.showUrls⟩ network line).1 := by
  rw [← input_of_setup hs] at htext
  obtain ⟨log, hrun⟩ := runInvocation_eq (i := batchOf o kind fields dryRun) hs
  obtain ⟨results, outcomes, u, hbatch, hlines, hsent, hresults⟩ :
      ∃ results outcomes, ∃ u : Traffic, Batch w (batchOf o kind fields dryRun) s.client kind
        ⟨dryRun, s.query.showUrls⟩ w.network (nonBlankLines text) results outcomes u.network ∧
        _ ∧ _ ∧ _ :=
    runFrom_lines hs (fun line h => nonBlankLines_of_mem h) 0 [] ⟨w.network, [], log⟩
  have hwrite := runFrom_write htext fields hlines
  exact ⟨results, outcomes, u, hbatch, hrun.trans (congrArg outcomeOf hwrite), hsent, hresults⟩

theorem composes_of_text {w : World} {o : Options} {s : Setup} {text : String}
    (hs : setupOf w o = .ok s) (htext : decode w.input = .ok text) (kind : Kind)
    (fields : List String) (dryRun : Bool) :
    ∃ results outcomes, Composes w (batchOf o kind fields dryRun) s.client kind
      ⟨dryRun, s.query.showUrls⟩ text results outcomes := by
  obtain ⟨results, outcomes, u, hbatch, hwhole, hsent, -⟩ :=
    run_of_text hs htext kind fields dryRun
  have hlength := hbatch.length_eq
  refine ⟨results, outcomes, ?_⟩
  constructor
  case batch =>
    rw [hwhole, outcomeOf_traffic]
    exact hbatch
  case output => rw [hwhole, outcomeOf_output]
  case one_each =>
    rw [hwhole, outcomeOf_output]
    simp [printed, hlength]
  case sent =>
    rw [hwhole, outcomeOf_traffic, hsent]
  case success =>
    rw [hwhole, verdict_exitCode, ← failures_printed 0, failures, List.countP_eq_zero]
    simp
  case failure =>
    rw [hwhole, ← hlength, failures_printed]
    exact verdict_errors

/-- A batch of writes from the input prints one line for each of its lines and sends what they send,
as the runs of the lines alone do, one after the other.  If the input is no text anywhere, nothing
is sent and nothing is printed. -/
theorem batch_composes {w : World} {o : Options} {s : Setup}
    (hs : (runFrom (prepare w o) [] (.start w.network)).1.1 = .ok s) (kind : Kind)
    (fields : List String) (dryRun : Bool) :
    (∀ text, decode w.input = .ok text → ∃ results outcomes,
      Composes w (batchOf o kind fields dryRun) s.client kind ⟨dryRun, s.query.showUrls⟩ text
        results outcomes) ∧
    (∀ f, decode w.input = .error f →
      (runInvocation w (batchOf o kind fields dryRun)).output = [] ∧
      (runInvocation w (batchOf o kind fields dryRun)).traffic.sent = [] ∧
      (runInvocation w (batchOf o kind fields dryRun)).exitCode = 1) := by
  have hsetup : setupOf w o = .ok s := by
    obtain ⟨u, hprepare, -⟩ := runFrom_prepare w o [] (.start w.network)
    rw [hprepare] at hs
    exact hs
  exact ⟨fun text htext => composes_of_text hsetup htext kind fields dryRun,
    fun f hf => fails_of_fault hsetup hf kind fields dryRun⟩

def twoLines : World :=
  ⟨[(Client.defaultTokenVariable, "t")], [], encode "[]\n\x7b\x7d\n".toList, 0, .scripted []⟩

theorem batch_of_two_lines :
    ∃ s, (runFrom (prepare twoLines ({} : Scan).options) [] (.start twoLines.network)).1.1 = .ok s ∧
      ∃ results outcomes, Composes twoLines (batchOf ({} : Scan).options .submit [] false) s.client
        .submit ⟨false, s.query.showUrls⟩ "[]\n\x7b\x7d\n" results outcomes := by
  have hsome : (runFrom (prepare twoLines ({} : Scan).options) []
      (.start twoLines.network)).1.1.toOption.isSome := by decide +kernel
  cases hs : (runFrom (prepare twoLines ({} : Scan).options) [] (.start twoLines.network)).1.1 with
  | error r => simp [hs, Except.toOption] at hsome
  | ok s =>
    refine ⟨s, rfl, ?_⟩
    exact (batch_composes hs .submit [] false).1 "[]\n\x7b\x7d\n" (Text.Utf8.decode_eq_ok_iff.2 rfl)

end Command
end ThreatGraph
