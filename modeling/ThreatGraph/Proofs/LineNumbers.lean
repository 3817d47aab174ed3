import ThreatGraph.Proofs.Batches

/-!
# Numbers of lines

A line of a batch that cannot be read is reported with a number.  Blank lines are dropped before the
lines are numbered, so the number counts the lines up to this one that are not blank.  It is the
position of the line in the input only if no blank line comes before.
-/

namespace ThreatGraph
namespace Command

open Json (Value)
open Post (Kind)
open Setup (readInputLine atLine outcomeLine)
open Text (trimmed)
open Text.Utf8 (encode decode)
open Web (Network)

theorem getElem?_filter_countP {α : Type} {p : α → Bool} {as : List α} {n : Nat} {a : α}
    (h : as[n]? = some a) (ha : p a = true) : (as.filter p)[(as.take n).countP p]? = some a := by
  obtain ⟨hn, rfl⟩ := List.getElem?_eq_some_iff.1 h
  have hsplit : as.filter p = (as.take n).filter p ++ (as.drop n).filter p := by
    rw [← List.filter_append, List.take_append_drop]
  rw [hsplit, List.countP_eq_length_filter, List.getElem?_append_right (Nat.le_refl _),
    Nat.sub_self, List.drop_eq_getElem_cons hn, List.filter_cons_of_pos ha]
  rfl

/-- How many of the first `n` lines are not blank. -/
def keptBefore (text : String) (n : Nat) : Nat :=
  ((splitLines text).take n).countP fun line => !(trimmed line).isEmpty

theorem getElem?_nonBlankLines {text line : String} {n : Nat}
    (h : (splitLines text)[n]? = some line) (hline : trimmed line ≠ "") :
    (nonBlankLines text)[keptBefore text n]? = some line :=
  getElem?_filter_countP h (by simpa using hline)

theorem keptBefore_eq_iff {text line : String} {n : Nat} (h : (splitLines text)[n]? = some line) :
    keptBefore text n = n ↔ ∀ earlier ∈ (splitLines text).take n, trimmed earlier ≠ "" := by
  obtain ⟨hn, -⟩ := List.getElem?_eq_some_iff.1 h
  have hlength : ((splitLines text).take n).length = n :=
    List.length_take_of_le (Nat.le_of_lt hn)
  have hall : keptBefore text n = ((splitLines text).take n).length ↔ _ := List.countP_eq_length
  rw [hlength] at hall
  simpa using hall

/-- Fields that cannot be read from a line have one message, which stands behind the number. -/
theorem oneLine_atLine {line : String} {r : Report} (h : readInputLine line = .error r)
    (number : Nat) :
    (atLine number r).oneLine =
      s!"stdin line {number}: expected a JSON object of post fields" ++ ": " ++ r.message := by
  have hcauses : r.causes = [] := by
    unfold readInputLine at h
    split at h
    · obtain rfl := Except.error.inj h
      rfl
    · split at h
      · cases h
      · obtain rfl := Except.error.inj h
        rfl
    · obtain rfl := Except.error.inj h
      rfl
  rw [atLine, Report.during, hcauses]
  rfl

theorem get?_input_error_outcomeLine (o : WriteOutcome) :
    (outcomeLine o).get? "input_error" = none := by
  rcases o with ⟨_ | v, _ | t, _ | b⟩ <;> rfl

/-- What is printed of a line that has this number. -/
structure Shows (number : Nat) (line : String) (v : Value) : Prop where
  /-- A line is refused under its number, with the reason why it cannot be read. -/
  refused : ¬ Recognised (trimmed line) → ∃ r, readInputLine (trimmed line) = .error r ∧
    v = .object [("input_error", .string
        (s!"stdin line {number}: expected a JSON object of post fields" ++ ": " ++ r.message)),
      ("ok", .bool false)]
  read : Recognised (trimmed line) → v.get? "input_error" = none

theorem shows_lineRun (s : Setup) (kind : Kind) (opts : WriteOptions) (network : Network)
    (line : String) (number : Nat) :
    Shows number line ((s.lineRun kind opts network line).1.value number) := by
  rw [Setup.lineRun]
  cases h : readInputLine (trimmed line) with
  | error r =>
    have hnot : ¬ Recognised (trimmed line) := by
      rw [← readInputLine_ok_iff, h]
      simp
    refine ⟨fun _ => ⟨r, h, ?_⟩, fun hread => absurd hread hnot⟩
    rw [← oneLine_atLine h]
    rfl
  | ok fs =>
    have hread : Recognised (trimmed line) := readInputLine_ok_iff.1 ⟨fs, h⟩
    exact ⟨fun hnot => absurd hread hnot, fun _ => get?_input_error_outcomeLine _⟩

/-- A batch prints one line for each line of its input that is not blank, and numbers these lines
only.  So a line that is refused is reported under its position in the input exactly if no line
before it is blank. -/
theorem numbers_count_kept_lines {w : World} {o : Options} {s : Setup} {text : String}
    (hs : (runFrom (prepare w o) [] (.start w.network)).1.1 = .ok s)
    (htext : decode w.input = .ok text) (kind : Kind) (fields : List String) (dryRun : Bool) :
    ∃ values : List Value,
      (runInvocation w (batchOf o kind fields dryRun)).output = values.map (·.text) ∧
      values.length = (nonBlankLines text).length ∧
      ∀ (n : Nat) (line : String), (splitLines text)[n]? = some line → trimmed line ≠ "" →
        (∃ v, values[keptBefore text n]? = some v ∧ Shows (keptBefore text n + 1) line v) ∧
        (keptBefore text n + 1 = n + 1 ↔
          ∀ earlier ∈ (splitLines text).take n, trimmed earlier ≠ "") := by
  have hsetup : setupOf w o = .ok s := by
    obtain ⟨u, hprepare, -⟩ := runFrom_prepare w o [] (.start w.network)
    rw [hprepare] at hs
    exact hs
  obtain ⟨results, outcomes, u, hbatch, hwhole, -, hresults⟩ :=
    run_of_text hsetup htext kind fields dryRun
  refine ⟨printed 0 results, ?_, ?_, fun n line hn hline => ⟨?_, ?_⟩⟩
  · rw [hwhole, outcomeOf_output]
  · simp [printed, hbatch.length_eq]
  · obtain ⟨network, hresult⟩ := hresults _ line (getElem?_nonBlankLines hn hline)
    have hshows := shows_lineRun s kind ⟨dryRun, s.query.showUrls⟩ network line
      (keptBefore text n + 1)
    exact ⟨_, by simp [printed, hresult], hshows⟩
  · rw [Nat.add_right_cancel_iff]
    exact keptBefore_eq_iff hn

def blankFirst : World := { twoLines with input := encode "\n[]\n".toList }

theorem exists_setup_blankFirst :
    ∃ s, (runFrom (prepare blankFirst ({} : Scan).options) []
      (.start blankFirst.network)).1.1 = .ok s := by
  have hsome : (runFrom (prepare blankFirst ({} : Scan).options) []
      (.start blankFirst.network)).1.1.toOption.isSome := by decide +kernel
  cases hs : (runFrom (prepare blankFirst ({} : Scan).options) []
      (.start blankFirst.network)).1.1 with
  | error r => simp [hs, Except.toOption] at hsome
  | ok s => exact ⟨s, rfl⟩

theorem decode_blankFirst : decode blankFirst.input = .ok "\n[]\n" :=
  Text.Utf8.decode_eq_ok_iff.2 rfl

theorem second_of_blankFirst : (splitLines "\n[]\n")[1]? = some "[]" := by decide +kernel

theorem numbers_count_kept_lines_blankFirst :
    ∃ values : List Value,
      (runInvocation blankFirst (batchOf ({} : Scan).options .submit [] false)).output =
        values.map (·.text) ∧
      ∃ v, values[0]? = some v ∧ Shows 1 "[]" v := by
  obtain ⟨s, hs⟩ := exists_setup_blankFirst
  obtain ⟨values, houtput, -, hvalues⟩ :=
    numbers_count_kept_lines hs decode_blankFirst .submit [] false
  obtain ⟨hshown, -⟩ := hvalues 1 "[]" second_of_blankFirst (by decide +kernel)
  have hkept : keptBefore "\n[]\n" 1 = 0 := by decide +kernel
  rw [hkept] at hshown
  exact ⟨values, houtput, hshown⟩

/-- The line of `blankFirst` that is not blank is the second one, but is reported as the first. -/
theorem blank_lines_not_counted :
    ¬ ∀ (w : World) (o : Options) (s : Setup) (text : String) (kind : Kind) (fields : List String)
        (dryRun : Bool) (n : Nat) (line : String),
      (runFrom (prepare w o) [] (.start w.network)).1.1 = .ok s → decode w.input = .ok text →
      (splitLines text)[n]? = some line → trimmed line ≠ "" → ¬ Recognised (trimmed line) →
      ∃ shown ∈ (runInvocation w (batchOf o kind fields dryRun)).output,
        (s!"\x7b\"input_error\":\"stdin line {n + 1}:").toList <+: shown.toList := by
  intro h
  obtain ⟨s, hs⟩ := exists_setup_blankFirst
  have hrefused : ¬ Recognised (trimmed "[]") := by
    rw [← readInputLine_ok_iff]
    rintro ⟨fs, hfs⟩
    have hnone : (readInputLine (trimmed "[]")).toOption.isSome = false := by decide +kernel
    simp [hfs, Except.toOption] at hnone
  have hshown := h blankFirst _ s _ .submit [] false 1 "[]" hs decode_blankFirst
    second_of_blankFirst (by decide +kernel) hrefused
  revert hshown
  decide +kernel

end Command
end ThreatGraph
