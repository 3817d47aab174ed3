import ThreatGraph.Proofs.Coupling
import ThreatGraph.Proofs.Framing
import ThreatGraph.Proofs.IndicatorSecrecy

/-!
# Flags of the log

The flags ask for more to be logged, and for nothing else.  What is sent and received depends on the
network alone, so runs over traffics that differ in the log are coupled, whatever their flags are.
-/

namespace ThreatGraph

open Web (Network Request)

theorem Framed.same {α : Type} {s : Session α} (hs : Framed s) {t t' : Traffic}
    (h : SameTraffic t t') :
    (s.run t).1 = (s.run t').1 ∧ SameTraffic (s.run t).2 (s.run t').2 := by
  obtain ⟨hnetwork, hsent⟩ := h
  rw [hs.run_eq t, hs.run_eq t', hnetwork, hsent]
  exact ⟨rfl, rfl, rfl⟩

def logCoupling (c : Client) : Coupling c where
  fair := fun _ => True
  related := SameTraffic
  fair_of_append := id
  silent := fun h hu hu' => hu.trans (h.trans ⟨hu'.1.symm, hu'.2.symm⟩)
  fetch := fun url _ _ h _ => (framed_fetchFrom url 1 (c.maxAttempts - 1)).same h
  post := fun {r} _ _ _ h _ => (Framed.send r).same h

open Command (World Invocation Outcome readArguments runInvocation setupOf)

/-- Runs that show and send the same, and leave the same replies. -/
structure SameButLog (o o' : Outcome) : Prop where
  shows : o.Shows o'
  sent : o.traffic.sent = o'.traffic.sent
  network : o.traffic.network = o'.traffic.network

theorem runInvocation_flagged (w : World) (i : Invocation) (verbose showUrls : Bool) :
    SameButLog (runInvocation w i) (runInvocation w (i.flagged verbose showUrls)) := by
  have hflagged := Command.setupOf_flagged w i.options verbose showUrls
  cases hs : setupOf w i.options with
  | ok s =>
    rw [hs] at hflagged
    obtain ⟨hshows, hnetwork, hsent⟩ :=
      Command.runInvocation_coupled hs hflagged (logCoupling s.client) .rfl trivial
    exact ⟨hshows, hsent, hnetwork⟩
  | error r =>
    rw [hs] at hflagged
    obtain ⟨log, hrun⟩ := Command.runInvocation_unprepared hs
    obtain ⟨log', hrun'⟩ :=
      Command.runInvocation_unprepared (i := i.flagged verbose showUrls) hflagged
    rw [hrun, hrun']
    exact ⟨⟨rfl, rfl, rfl⟩, rfl, rfl⟩

/-- The flags change nothing but the log.  Calls of a client that differ in their flags are answered
alike, send the same requests and use up the same replies, whatever was called before them with
whatever flags; so does a command, in all that it shows; and so do two command lines that are read
to the same but for the flags. -/
theorem flags_change_only_the_log :
    (∀ (c : Client) (network : Network) (calls calls' : List Call),
      List.Forall₂ SameButFlags calls calls' →
      let run := (runCalls c calls []).run (.start network)
      let run' := (runCalls c calls' []).run (.start network)
      run.1.1 = run'.1.1 ∧ run.2.sent = run'.2.sent ∧ run.2.network = run'.2.network) ∧
    (∀ (w : World) (i : Invocation) (verbose showUrls : Bool),
      SameButLog (runInvocation w i) (runInvocation w (i.flagged verbose showUrls))) ∧
    ∀ (w : World) (args args' : List String) (i : Invocation) (verbose showUrls : Bool),
      readArguments args = .ok i → readArguments args' = .ok (i.flagged verbose showUrls) →
      SameButLog (Command.run w args) (Command.run w args') := by
  refine ⟨fun c network calls calls' h => ?_, runInvocation_flagged,
    fun w args args' i verbose showUrls h h' => ?_⟩
  · have hcalls := runCalls_coupled (logCoupling c) h (.nil : List.Forall₂ SamePlace [] [])
    obtain ⟨hanswers, htraffic⟩ := hcalls.keeps (.start network) (.start network) .rfl trivial
    exact ⟨hanswers.1, htraffic.2, htraffic.1⟩
  · have hrun : Command.run w args = runInvocation w i := by
      simp only [Command.run, h]
    have hrun' : Command.run w args' = runInvocation w (i.flagged verbose showUrls) := by
      simp only [Command.run, h']
    rw [hrun, hrun']
    exact runInvocation_flagged w i verbose showUrls

/-- A search without switches, and one that logs what it can. -/
theorem search_with_flags :
    ((runCalls probe [.tagId "t" false] []).run (.start noTags)).1.1 =
      ((runCalls probe [.tagId "t" true] []).run (.start noTags)).1.1 ∧
    SameButLog (Command.run lookupWorld ["search"])
      (Command.run lookupWorld ["-v", "--show-urls", "search"]) := by
  obtain ⟨hcalls, -, hlines⟩ := flags_change_only_the_log
  have hflagged : SameButFlags (.tagId "t" false) (.tagId "t" true) := ⟨false, true, rfl⟩
  refine ⟨(hcalls probe noTags _ _ (.cons hflagged .nil)).1, ?_⟩
  let i : Invocation := ⟨({} : Command.Scan).options, .search []⟩
  have hplain : readArguments ["search"] = .ok i := by rfl
  have hflags : readArguments ["-v", "--show-urls", "search"] = .ok (i.flagged true true) := by rfl
  exact hlines lookupWorld _ _ i true true hplain hflags

end ThreatGraph
