import LatencyAnalyzer.Labs.Defensive
import LatencyAnalyzer.Report.Torn

/-!
# DefensiveReport — what the Phase 5 mode leaves behind

`DefensiveLab::run` counts the alerts for its result, and `write_report` counts them once more for
the file.  Both see the same events, so the file holds what the caller gets and prints.
-/

namespace LatencyAnalyzer
namespace DefensiveLab

open Cxx
open Lib (Json)
open Report (DefensiveLabResult Destination LabEvent isFixedText_fixed lit streamFormat)
open Spectre

/-! ## Counting -/

section Counting

variable {K : Type*}

theorem foldl_countAlert (events : List LabEvent) (result : DefensiveLabResult K) :
    events.foldl countAlert result =
      { result with
        simulatedAlerts := result.simulatedAlerts + events.countP LabEvent.alert
        simulatedConfirmedAlerts :=
          result.simulatedConfirmedAlerts +
            events.countP fun event => event.alert && event.confirmed
        simulatedFalsePositives :=
          result.simulatedFalsePositives +
            events.countP fun event => event.alert && !event.confirmed } := by
  induction events generalizing result with
  | nil => simp
  | cons event events ih =>
      rw [List.foldl_cons, ih]
      unfold countAlert
      -- Whoever raises no alert is in none of the counts.
      cases halert : event.alert <;> cases hconfirmed : event.confirmed <;>
        simp [halert, hconfirmed, add_assoc, add_comm]

end Counting

theorem integer_natCast (n : Nat) : Text.integer n = Text.decimal n := by
  unfold Text.integer
  rw [if_neg (by omega), Int.natAbs_natCast]

/-! ## The file of a run -/

section File

variable {abi : Abi}

/-- No run of the reliability lab changes what was asked for. -/
theorem labReport_requested (runs triesPerByte : Int) (strings : List (List UInt8)) :
    (labReport abi runs triesPerByte strings).runs = runs ∧
      (labReport abi runs triesPerByte strings).triesPerByte = triesPerByte := by
  have hrecord : ∀ (lab : SpectreLabResult abi) (recovered : List UInt8),
      (lab.record recovered).runs = lab.runs ∧
        (lab.record recovered).triesPerByte = lab.triesPerByte := by
    intro lab recovered
    unfold SpectreLabResult.record
    dsimp only
    split <;> exact ⟨rfl, rfl⟩
  unfold labReport
  refine List.foldlRecOn
    (motive := fun lab : SpectreLabResult abi => lab.runs = runs ∧ lab.triesPerByte = triesPerByte)
    _ _ ⟨rfl, rfl⟩ ?_
  intro lab hlab recovered _
  exact ⟨(hrecord lab recovered).1.trans hlab.1, (hrecord lab recovered).2.trans hlab.2⟩

/-- The report, in terms of the result that the caller gets. -/
def resultMembers (result : DefensiveLabResult ℚ) : List (Text × Json) :=
  [(lit "lab", .string (lit "phase5_defensive_lab")),
    (lit "scope", .string (lit "self_contained_local_fixture")),
    (lit "runs", .number (Text.integer result.runs)),
    (lit "tries_per_byte", .number (Text.integer result.triesPerByte)),
    (lit "byte_accuracy_percent", .number (streamFormat.fixed 2 result.byteAccuracyPercent)),
    (lit "exact_recovery_rate_percent",
      .number (streamFormat.fixed 2 result.exactRecoveryRatePercent)),
    (lit "simulated_alerts", .number (Text.integer result.simulatedAlerts)),
    (lit "simulated_confirmed_alerts",
      .number (Text.integer result.simulatedConfirmedAlerts)),
    (lit "simulated_false_positives", .number (Text.integer result.simulatedFalsePositives)),
    (lit "network_access_performed", .bool false), (lit "persistence_performed", .bool false),
    (lit "external_process_access", .bool false),
    (lit "events", .array (makeEvents.map Report.DefensiveLab.eventValue))]

theorem printable_makeEvents (byteAccuracy exactRate : ℚ) :
    Report.DefensiveLab.Printable streamFormat byteAccuracy exactRate makeEvents where
  byteAccuracy := isFixedText_fixed (by decide) byteAccuracy
  exactRate := isFixedText_fixed (by decide) exactRate
  strings := by decide +kernel

/-- The file of a run that is not refused reads as what the caller gets, whatever the runs of the
reliability lab recovered; if the disk cut it off, it does not read at all. -/
theorem run_report {runs triesPerByte : Int} (hruns : 0 < runs) (htries : 0 < triesPerByte)
    {reportPath : String} (hpath : reportPath ≠ "") (retry : Retry abi) (m : Machine abi)
    (d : Destination) (hopens : d.opens = true) :
    let spectre := (runReliabilityLab retry m runs triesPerByte).1
    let result := (run retry m streamFormat d runs triesPerByte reportPath).1
    let attempt := Report.DefensiveLab.writeReport streamFormat d spectre.runs spectre.triesPerByte
      (byteAccuracyPercent spectre) (exactRecoveryRatePercent spectre) makeEvents
    result.reportWritten = attempt.returned ∧
      ∃ text : Text, attempt.file = text.take d.sink.limit ∧
        ∀ n v, Lib.Json.readJson (text.take n) = some v ↔
          v = .object (resultMembers result) ∧ text.length ≤ n + 1 := by
  intro spectre result attempt
  have hrequested : spectre.runs = runs ∧ spectre.triesPerByte = triesPerByte := by
    have hspectre : spectre = labReport abi runs triesPerByte
        (recoveredStrings retry m triesPerByte runs.toNat).1 :=
      congrArg Prod.fst (runReliabilityLab_eq retry m hruns htries)
    rw [hspectre]
    exact labReport_requested runs triesPerByte _
  have hguard : ¬ (runs ≤ 0 ∨ triesPerByte ≤ 0 ∨ reportPath.isEmpty = true) := by
    rw [String.isEmpty_iff]
    rintro (hle | hle | hempty)
    · omega
    · omega
    · exact hpath hempty
  have hresult : result = Report.DefensiveLab.withReport streamFormat d
      (makeEvents.foldl countAlert
        { (initial runs triesPerByte reportPath : DefensiveLabResult ℚ) with
          byteAccuracyPercent := byteAccuracyPercent spectre
          exactRecoveryRatePercent := exactRecoveryRatePercent spectre }) makeEvents := by
    change (run retry m streamFormat d runs triesPerByte reportPath).1 = _
    unfold run
    rw [if_neg hguard]
  rw [foldl_countAlert] at hresult
  have hdocument := Report.DefensiveLab.isDocument spectre.runs spectre.triesPerByte
    (printable_makeEvents (byteAccuracyPercent spectre) (exactRecoveryRatePercent spectre))
  have hmembers : Report.DefensiveLab.reportMembers streamFormat spectre.runs spectre.triesPerByte
      (byteAccuracyPercent spectre) (exactRecoveryRatePercent spectre) makeEvents =
        resultMembers result := by
    rw [hresult, hrequested.1, hrequested.2]
    simp [Report.DefensiveLab.reportMembers, Report.DefensiveLab.withReport, resultMembers,
      initial, integer_natCast]
  rw [hmembers] at hdocument
  refine ⟨?_, _, ?_, hdocument.take_iff⟩
  · rw [hresult]
    change (Report.DefensiveLab.writeReport _ _ runs triesPerByte _ _ _).returned = _
    rw [← hrequested.1, ← hrequested.2]
  · change (Report.writeChecked d _).file = _
    unfold Report.writeChecked
    rw [if_pos hopens]
    exact Lib.Sink.close_putAll d.sink _

/-- The defaults of `DefensiveLab::run`, but a single run, in a process that has just started. -/
theorem run_report_once :
    let result := (run Spectre.retryIfUncertain (Machine.init .x8664 fun _ => 0) streamFormat
      Report.page 1 999 "phase5_defensive_report.json").1
    ∃ text : Text, Lib.Json.readJson (text.take text.length) =
      some (.object (resultMembers result)) := by
  have hruns : (0 : Int) < 1 := by decide
  have htries : (0 : Int) < 999 := by decide
  obtain ⟨_, text, _, hread⟩ := run_report hruns htries
    (by decide : "phase5_defensive_report.json" ≠ "") Spectre.retryIfUncertain
    (Machine.init .x8664 fun _ => 0) Report.page rfl
  exact ⟨text, (hread text.length _).2 ⟨rfl, Nat.le_succ _⟩⟩

end File

end DefensiveLab
end LatencyAnalyzer
