import LatencyAnalyzer.Report.Json

/-!
# Honesty — what the writers say about their files

The file always ends up with the first bytes of the text, as many as it accepts.  The writers of
`reporter.cpp` call this a success whenever the file could be opened; the labs notice a failure
only if it happens before the stream is closed.
-/

namespace LatencyAnalyzer
namespace Report

open Cxx
open Lib

/-! ## One writer -/

/-- A writer that returns `true` has put the whole text into the file. -/
def Attempt.Honest (a : Attempt) (text : Text) : Prop :=
  a.returned = true → a.file = text

theorem writeUnchecked_honest_iff (d : Destination) (pieces : List Text) :
    (writeUnchecked d pieces).Honest pieces.flatten ↔
      d.opens = false ∨ pieces.flatten.length ≤ d.sink.limit := by
  unfold writeUnchecked Attempt.Honest
  cases d.opens with
  | false => simp
  | true =>
      rw [if_pos rfl, Sink.close_putAll]
      simp

theorem writeChecked_honest_iff (d : Destination) (pieces : List Text) :
    (writeChecked d pieces).Honest pieces.flatten ↔
      d.opens = false ∨ pieces.flatten.length ≤ d.sink.limit ∨
        d.sink.limit < d.sink.handed pieces := by
  unfold writeChecked Attempt.Honest
  cases d.opens with
  | false => simp
  | true =>
      have hfailed := Sink.failed_putAll d.sink pieces
      have hclose := Sink.close_putAll d.sink pieces
      simp only [if_true, hclose, Bool.true_eq_false, false_or]
      -- What is handed on ahead of the check decides whether the check can see a failure.
      by_cases hlt : d.sink.limit < d.sink.handed pieces
      · simp [hfailed.2 hlt, hlt]
      · have hrunning : (d.sink.putAll pieces).failed = false := by
          by_contra hnot
          exact hlt (hfailed.1 (by simpa using hnot))
        simp [hrunning, hlt]

/-! ## The five writers -/

section Writers

variable {abi : Abi}

/-- A writer with all that it prints. -/
inductive Writer (abi : Abi)
  | csv (latency : List (Latency.MeasurementResult abi)) (bandwidth : List (BandwidthResult abi ℚ))
      (sharedMemory : Option SharedMemory.SharedMemoryResult) (tscHz : ℚ)
  | history (timestamp : Text) (latency : List (Latency.MeasurementResult abi))
      (bandwidth : List (BandwidthResult abi ℚ))
  | evaluation (result : EvaluationLabResult ℚ) (tvlaClean : TvlaResult ℚ) (runMedians : List ℚ)
  | operational (result : OperationalLabResult ℚ)
  | defensive (result : DefensiveLabResult ℚ) (events : List LabEvent)

namespace Writer

def pieces (fmt : Format ℚ) : Writer abi → List Text
  | .csv latency bandwidth sharedMemory tscHz =>
      csvPieces fmt latency bandwidth sharedMemory tscHz
  | .history timestamp latency bandwidth => historyPieces fmt timestamp latency bandwidth
  | .evaluation result tvlaClean runMedians =>
      EvaluationLab.reportPieces fmt result tvlaClean runMedians
  | .operational result => OperationalLab.reportPieces fmt result
  | .defensive result events =>
      DefensiveLab.reportPieces fmt result.runs result.triesPerByte result.byteAccuracyPercent
        result.exactRecoveryRatePercent events

def attempt (fmt : Format ℚ) (d : Destination) : Writer abi → Attempt
  | .csv latency bandwidth sharedMemory tscHz =>
      writeCsv fmt d latency bandwidth sharedMemory tscHz
  | .history timestamp latency bandwidth => appendHistory fmt timestamp d latency bandwidth
  | .evaluation result tvlaClean runMedians =>
      EvaluationLab.writeReport fmt d result tvlaClean runMedians
  | .operational result => OperationalLab.writeReport fmt d result
  | .defensive result events =>
      DefensiveLab.writeReport fmt d result.runs result.triesPerByte result.byteAccuracyPercent
        result.exactRecoveryRatePercent events

/-- What the caller makes of the writer: `report_written` of a lab, else the result itself. -/
def reported (fmt : Format ℚ) (d : Destination) : Writer abi → Bool
  | .csv latency bandwidth sharedMemory tscHz =>
      (writeCsv fmt d latency bandwidth sharedMemory tscHz).returned
  | .history timestamp latency bandwidth =>
      (appendHistory fmt timestamp d latency bandwidth).returned
  | .evaluation result tvlaClean runMedians =>
      (EvaluationLab.withReport fmt d result tvlaClean runMedians).reportWritten
  | .operational result => (OperationalLab.withReport fmt d result).reportWritten
  | .defensive result events => (DefensiveLab.withReport fmt d result events).reportWritten

/-- The labs look at their stream before they close it. -/
def checksStream : Writer abi → Bool
  | .csv _ _ _ _ | .history _ _ _ => false
  | .evaluation _ _ _ | .operational _ | .defensive _ _ => true

def text (fmt : Format ℚ) (w : Writer abi) : Text :=
  (w.pieces fmt).flatten

/-- Neither the writer nor its caller calls an incomplete file a success. -/
structure Honest (fmt : Format ℚ) (d : Destination) (w : Writer abi) : Prop where
  returned : (w.attempt fmt d).returned = true → (w.attempt fmt d).file = w.text fmt
  reported : w.reported fmt d = true → (w.attempt fmt d).file = w.text fmt

/-- The file cannot be opened or takes the whole text, or it fills up early enough for a lab to
see it: the bytes handed on before the check are more than the file takes. -/
def Survives (fmt : Format ℚ) (d : Destination) (w : Writer abi) : Prop :=
  d.opens = false ∨ (w.text fmt).length ≤ d.sink.limit ∨
    (w.checksStream = true ∧ d.sink.limit < d.sink.handed (w.pieces fmt))

theorem reported_eq (fmt : Format ℚ) (d : Destination) (w : Writer abi) :
    w.reported fmt d = (w.attempt fmt d).returned := by
  cases w with
  | evaluation result tvlaClean runMedians =>
      simp only [reported, attempt, EvaluationLab.withReport]
      cases (EvaluationLab.writeReport fmt d result tvlaClean runMedians).returned <;> rfl
  | _ => rfl

theorem attempt_honest_iff (fmt : Format ℚ) (d : Destination) (w : Writer abi) :
    (w.attempt fmt d).Honest (w.text fmt) ↔ w.Survives fmt d := by
  have hunchecked : ∀ pieces : List Text, (writeUnchecked d pieces).Honest pieces.flatten ↔
      d.opens = false ∨ pieces.flatten.length ≤ d.sink.limit ∨
        (false = true ∧ d.sink.limit < d.sink.handed pieces) := by
    intro pieces
    rw [writeUnchecked_honest_iff]
    simp
  have hchecked : ∀ pieces : List Text, (writeChecked d pieces).Honest pieces.flatten ↔
      d.opens = false ∨ pieces.flatten.length ≤ d.sink.limit ∨
        (true = true ∧ d.sink.limit < d.sink.handed pieces) := by
    intro pieces
    rw [writeChecked_honest_iff]
    simp
  cases w with
  | csv latency bandwidth sharedMemory tscHz => exact hunchecked _
  | history timestamp latency bandwidth => exact hunchecked _
  | evaluation result tvlaClean runMedians => exact hchecked _
  | operational result => exact hchecked _
  | defensive result events => exact hchecked _

theorem honest_iff (fmt : Format ℚ) (d : Destination) (w : Writer abi) :
    w.Honest fmt d ↔ w.Survives fmt d := by
  rw [← attempt_honest_iff]
  constructor
  · exact fun h => h.returned
  · intro h
    -- The caller passes on what the writer returns.
    refine ⟨h, ?_⟩
    rw [reported_eq]
    exact h

end Writer

/-! ## The message of `main` -/

/-- The texts of the two files. -/
def Results.csvText (fmt : Format ℚ) (r : Results abi) : Text :=
  (csvPieces fmt r.latencyResults r.bandwidthResults
    (if r.runSharedMemory then some r.sharedMemory else none) r.tscHz).flatten

def Results.historyText (fmt : Format ℚ) (r : Results abi) : Text :=
  (historyPieces fmt r.timestamp r.latencyResults r.bandwidthResults).flatten

/-- The message names both files, so both have to be complete. -/
def Results.Honest (fmt : Format ℚ) (csvAt historyAt : Destination) (r : Results abi) : Prop :=
  (reportResults fmt csvAt historyAt r).announced = true →
    (reportResults fmt csvAt historyAt r).csv.file = r.csvText fmt ∧
      (reportResults fmt csvAt historyAt r).history.file = r.historyText fmt

/-- There is no message, or both files can be opened and take their texts. -/
def Results.Survives (fmt : Format ℚ) (csvAt historyAt : Destination) (r : Results abi) : Prop :=
  r.csvFile = [] ∨ r.quiet = true ∨ csvAt.opens = false ∨
    ((r.csvText fmt).length ≤ csvAt.sink.limit ∧ historyAt.opens = true ∧
      (r.historyText fmt).length ≤ historyAt.sink.limit)

theorem file_writeUnchecked (d : Destination) (pieces : List Text) :
    (writeUnchecked d pieces).file = if d.opens then pieces.flatten.take d.sink.limit else [] := by
  unfold writeUnchecked
  cases d.opens <;> simp [Sink.close_putAll]

theorem flatten_ne_nil {pieces : List Text} (piece : Text) (hmem : piece ∈ pieces)
    (hne : piece ≠ []) : pieces.flatten ≠ [] :=
  fun hnil => hne (List.flatten_eq_nil_iff.1 hnil _ hmem)

theorem lit_ne_nil {s : String} (h : s ≠ "") : lit s ≠ [] := by
  intro hnil
  exact h (String.toList_eq_nil_iff.1 hnil)

theorem csv_ne_nil (fmt : Format ℚ) (latency : List (Latency.MeasurementResult abi))
    (bandwidth : List (BandwidthResult abi ℚ))
    (sharedMemory : Option SharedMemory.SharedMemoryResult) (tscHz : ℚ) :
    (csvPieces fmt latency bandwidth sharedMemory tscHz).flatten ≠ [] :=
  flatten_ne_nil csvHeader (by simp [csvPieces]) (lit_ne_nil (by decide))

theorem historyText_ne_nil (fmt : Format ℚ) (r : Results abi) : r.historyText fmt ≠ [] :=
  flatten_ne_nil (lit "\n") (by simp [historyPieces]) (by decide)

theorem results_honest_iff (fmt : Format ℚ) (csvAt historyAt : Destination) (r : Results abi) :
    r.Honest fmt csvAt historyAt ↔ r.Survives fmt csvAt historyAt := by
  have hhistory : [] ≠ r.historyText fmt := (historyText_ne_nil fmt r).symm
  unfold Results.Honest Results.Survives reportResults
  by_cases hfile : r.csvFile = []
  · simp [hfile]
  · simp only [hfile, if_false, false_or]
    cases hopens : csvAt.opens with
    | false => simp [writeCsv, writeUnchecked, hopens]
    | true =>
        have hreturned : (writeCsv fmt csvAt r.latencyResults r.bandwidthResults
            (if r.runSharedMemory then some r.sharedMemory else none) r.tscHz).returned =
              true := by
          simp [writeCsv, writeUnchecked, hopens]
        rw [if_pos hreturned]
        simp only [writeCsv, appendHistory, file_writeUnchecked, hopens, if_true]
        cases r.quiet with
        | true => simp
        | false =>
            -- A history that cannot be opened stays empty, and the message is printed all the same.
            cases historyAt.opens with
            | false => simp [hhistory]
            | true => simp [Results.csvText, Results.historyText]

/-- Every writer, its caller and the message of `main` are right about the files exactly if the
file cannot be opened, takes the whole text, or fills up before a lab looks at its stream. -/
theorem reporting_honest_iff (abi : Abi) (fmt : Format ℚ) :
    (∀ (w : Writer abi) (d : Destination), w.Honest fmt d ↔ w.Survives fmt d) ∧
      ∀ (r : Results abi) (csvAt historyAt : Destination),
        r.Honest fmt csvAt historyAt ↔ r.Survives fmt csvAt historyAt :=
  ⟨fun w d => w.honest_iff fmt d, fun r csvAt historyAt => results_honest_iff fmt csvAt historyAt r⟩

end Writers

/-! ## A full disk -/

/-- A file that takes no byte, behind a buffer that holds the whole text. -/
def fullDisk : Destination :=
  { opens := true, sink := { limit := 0, drain := fun _ _ => 0 } }

def integerFormat : Format ℚ :=
  { general := fun value => Text.integer value.num
    fixed := fun _ value => Text.integer value.num }

/-- One run of the operational lab, without its catalog of scenarios. -/
def oneRun : OperationalLabResult ℚ :=
  { runs := 1
    eventsGenerated := 9
    detectedEvents := 9
    missedEvents := 0
    falsePositiveEvents := 1
    recoveryAttempts := 9
    recoveredEvents := 9
    detectionRatePercent := 100
    falsePositiveRatePercent := 5
    recoveryRatePercent := 100
    referenceBoundary := "in_memory_synthetic_state_machine"
    reportPath := "operational_lab_report.json"
    scenarios := []
    reportWritten := false }

def noResults : Results .x8664 :=
  { timestamp := "2024-01-01 00:00:00".toList
    csvFile := "out.csv".toList
    quiet := false
    runSharedMemory := false
    latencyResults := []
    bandwidthResults := []
    sharedMemory :=
      { stats := Statistics.Summary.zero
        iterations := 0
        producerCpu := -1
        consumerCpu := -1
        success := false
        errorMessage := "" }
    tscHz := 1 }

theorem empty_file_reported :
    (¬ (Writer.csv ([] : List (Latency.MeasurementResult .x8664)) [] none 1).Honest
        integerFormat fullDisk) ∧
      (¬ (Writer.operational oneRun : Writer .x8664).Honest integerFormat fullDisk) ∧
      ¬ noResults.Honest integerFormat fullDisk fullDisk := by
  -- Nothing reaches the file before the destructor, so no check can fail.
  have hbuffered : ∀ pieces : List Text, fullDisk.sink.handed pieces = 0 :=
    Sink.handed_of_buffered fun _ _ => rfl
  refine ⟨?_, ?_, ?_⟩
  · rw [Writer.honest_iff]
    rintro (hopens | htext | ⟨hchecks, _⟩)
    · cases hopens
    · exact csv_ne_nil integerFormat _ _ none 1 (List.length_eq_zero_iff.1 (Nat.le_zero.1 htext))
    · cases hchecks
  · rw [Writer.honest_iff]
    rintro (hopens | htext | ⟨_, hhanded⟩)
    · cases hopens
    · have hne : (OperationalLab.reportPieces integerFormat oneRun).flatten ≠ [] :=
        flatten_ne_nil (lit "\x7b\n") (by simp [OperationalLab.reportPieces]) (by decide)
      exact hne (List.length_eq_zero_iff.1 (Nat.le_zero.1 htext))
    · rw [hbuffered] at hhanded
      exact absurd hhanded (Nat.not_lt_zero _)
  · rw [results_honest_iff]
    rintro (hfile | hquiet | hopens | ⟨htext, _⟩)
    · exact absurd hfile (by decide)
    · cases hquiet
    · cases hopens
    · exact csv_ne_nil integerFormat _ _ none 1 (List.length_eq_zero_iff.1 (Nat.le_zero.1 htext))

end Report
end LatencyAnalyzer
