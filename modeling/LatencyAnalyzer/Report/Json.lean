import LatencyAnalyzer.Report.Csv

/-!
# Json — the reports of the three labs

Each lab has a `write_report` of its own, and a `json_escape` of its own with the same body.  They
look at the stream after the last insertion.
-/

namespace LatencyAnalyzer
namespace Report

open Cxx
open Lib

variable {K : Type*}

/-! ## Pieces -/

/-- The body that the three copies of `json_escape` share. -/
def escapeChar (ch : Char) : Text :=
  match ch with
  | '\\' => lit "\\\\"
  | '"' => lit "\\\""
  | '\n' => lit "\\n"
  | '\r' => lit "\\r"
  | '\t' => lit "\\t"
  -- Other control characters are copied as they are.
  | ch => [ch]

def escape (value : Text) : Text :=
  value.flatMap escapeChar

def boolean (b : Bool) : Text :=
  if b then lit "true" else lit "false"

/-- A member that is followed by another one. -/
def member (name : String) (value : Text) : List Text :=
  [lit name, value, lit ",\n"]

/-- A member that is a string. -/
def textMember (name : String) (value : Text) : List Text :=
  [lit name, value, lit "\",\n"]

/-- The elements of an array of objects, with a comma after all but the last. -/
def objects {α : Type*} (fields : α → List Text) (elements : List α) : List Text :=
  (elements.mapIdx fun i element =>
    [lit "    \x7b\n"] ++ fields element ++ [lit "    \x7d"] ++
      -- The comma is an insertion of its own.
      (if i + 1 ≠ elements.length then [lit ","] else []) ++ [lit "\n"]).flatten

/-! ## `evaluation_lab.cpp` -/

namespace EvaluationLab

def jsonEscape (value : String) : Text :=
  escape value.toList

def controlFields (c : ControlEvaluation) : List Text :=
  textMember "      \"control\": \"" (jsonEscape c.control) ++
    textMember "      \"scenario\": \"" (jsonEscape c.scenario) ++
    textMember "      \"expected_action\": \"" (jsonEscape c.expectedAction) ++
    member "      \"executed\": " (boolean c.executed) ++
    [lit "      \"evidence\": \"", jsonEscape c.evidence, lit "\"\n"]

/-- The loop over `run_medians`. -/
def medianPieces (fmt : Format K) (runMedians : List K) : List Text :=
  (runMedians.mapIdx fun i median =>
    (if i ≠ 0 then [lit ", "] else []) ++ [fmt.fixed 4 median]).flatten

def platformPieces (platform : PlatformSignature) : List Text :=
  [lit "  \"platform\": \x7b\n"] ++
    textMember "    \"vendor\": \"" (jsonEscape platform.vendor) ++
    textMember "    \"brand\": \"" (jsonEscape platform.brand) ++
    textMember "    \"os_release\": \"" (jsonEscape platform.osRelease) ++
    textMember "    \"machine\": \"" (jsonEscape platform.machine) ++
    member "    \"physical_cores\": " (Text.integer platform.physicalCores) ++
    member "    \"logical_cpus\": " (Text.integer platform.logicalCpus) ++
    member "    \"packages\": " (Text.integer platform.packages) ++
    [lit "    \"smt_active\": ", boolean platform.smtActive, lit "\n", lit "  \x7d,\n"]

def numberPieces (fmt : Format K) (result : EvaluationLabResult K) (tvlaClean : TvlaResult K) :
    List Text :=
  member "  \"runs\": " (Text.integer result.runs) ++
    member "  \"trace_samples\": " (Text.integer result.traceSamples) ++
    member "  \"averaging_window\": " (Text.integer result.averagingWindow) ++
    member "  \"simulated_capture_faults\": " (Text.integer result.simulatedCaptureFaults) ++
    member "  \"recovered_captures\": " (Text.integer result.recoveredCaptures) ++
    member "  \"recovery_rate_percent\": " (fmt.fixed 4 result.recoveryRatePercent) ++
    member "  \"aligned_samples\": " (Text.decimal result.alignedSamples) ++
    member "  \"alignment_loss_percent\": " (fmt.fixed 4 result.alignmentLossPercent) ++
    member "  \"fixed_input_count\": " (Text.decimal result.fixedMetrics.inputCount) ++
    member "  \"fixed_kept_count\": " (Text.decimal result.fixedMetrics.keptCount) ++
    member "  \"fixed_rejected_count\": " (Text.decimal result.fixedMetrics.rejectedCount) ++
    member "  \"random_input_count\": " (Text.decimal result.randomMetrics.inputCount) ++
    member "  \"random_kept_count\": " (Text.decimal result.randomMetrics.keptCount) ++
    member "  \"random_rejected_count\": " (Text.decimal result.randomMetrics.rejectedCount) ++
    member "  \"snr_linear\": " (fmt.fixed 4 result.snrLinear) ++
    member "  \"snr_db\": " (fmt.fixed 4 result.snrDb) ++
    member "  \"classification_error_percent\": "
      (fmt.fixed 4 result.classificationErrorPercent) ++
    member "  \"repeatability_cv_percent\": " (fmt.fixed 4 result.repeatabilityCvPercent) ++
    member "  \"tvla_raw_t\": " (fmt.fixed 4 result.tvla.tStatistic) ++
    member "  \"tvla_clean_t\": " (fmt.fixed 4 tvlaClean.tStatistic) ++
    member "  \"tvla_threshold\": " (fmt.fixed 4 result.tvla.threshold) ++
    member "  \"tvla_raw_threshold_exceeded\": " (boolean result.tvla.thresholdExceeded) ++
    member "  \"tvla_clean_threshold_exceeded\": " (boolean tvlaClean.thresholdExceeded) ++
    member "  \"repeatability_ok\": " (boolean result.repeatabilityOk) ++
    member "  \"leakage_detected\": " (boolean result.leakageDetected)

def criteriaPieces : List Text :=
  [lit "  \"acceptance_criteria\": \x7b\n",
    lit "    \"repeatability_cv_percent_max\": 10.0,\n",
    lit "    \"classification_error_percent_max\": 5.0,\n",
    lit "    \"tvla_reference_threshold\": 4.5\n", lit "  \x7d,\n"]

/-- The insertions of `write_report`, with `std::fixed` and precision 4. -/
def reportPieces (fmt : Format K) (result : EvaluationLabResult K) (tvlaClean : TvlaResult K)
    (runMedians : List K) : List Text :=
  [lit "\x7b\n", lit "  \"lab\": \"evaluation_validation_lab\",\n",
    lit "  \"scope\": \"local_synthetic_reference_fixture\",\n"] ++
    numberPieces fmt result tvlaClean ++ criteriaPieces ++ platformPieces result.platform ++
    [lit "  \"run_medians\": ["] ++ medianPieces fmt runMedians ++ [lit "],\n"] ++
    [lit "  \"control_evaluation\": [\n"] ++ objects controlFields result.controls ++
    [lit "  ]\n", lit "\x7d\n"]

def writeReport (fmt : Format K) (d : Destination) (result : EvaluationLabResult K)
    (tvlaClean : TvlaResult K) (runMedians : List K) : Attempt :=
  writeChecked d (reportPieces fmt result tvlaClean runMedians)

/-- The end of `EvaluationLab::run`. -/
def withReport (fmt : Format K) (d : Destination) (result : EvaluationLabResult K)
    (tvlaClean : TvlaResult K) (runMedians : List K) : EvaluationLabResult K :=
  if (writeReport fmt d result tvlaClean runMedians).returned then
    { result with reportWritten := true }
  else
    { result with reportWritten := false }

end EvaluationLab

/-! ## `operational_lab.cpp` -/

namespace OperationalLab

def jsonEscape (value : String) : Text :=
  escape value.toList

def scenarioFields (scenario : OperationalScenarioResult) : List Text :=
  textMember "      \"name\": \"" (jsonEscape scenario.name) ++
    textMember "      \"stage\": \"" (jsonEscape scenario.stage) ++
    textMember "      \"expected_control\": \"" (jsonEscape scenario.expectedControl) ++
    member "      \"detected\": " (boolean scenario.detected) ++
    [lit "      \"recovered\": ", boolean scenario.recovered, lit "\n"]

/-- The insertions of `write_report`, with `std::fixed` and precision 2. -/
def reportPieces (fmt : Format K) (result : OperationalLabResult K) : List Text :=
  [lit "\x7b\n", lit "  \"lab\": \"operational_defensive_simulation\",\n",
    lit "  \"reference_boundary\": \"in_memory_synthetic_state_machine\",\n"] ++
    member "  \"runs\": " (Text.integer result.runs) ++
    member "  \"events_generated\": " (Text.integer result.eventsGenerated) ++
    member "  \"detected_events\": " (Text.integer result.detectedEvents) ++
    member "  \"missed_events\": " (Text.integer result.missedEvents) ++
    member "  \"false_positive_events\": " (Text.integer result.falsePositiveEvents) ++
    member "  \"recovery_attempts\": " (Text.integer result.recoveryAttempts) ++
    member "  \"recovered_events\": " (Text.integer result.recoveredEvents) ++
    member "  \"detection_rate_percent\": " (fmt.fixed 2 result.detectionRatePercent) ++
    member "  \"false_positive_rate_percent\": " (fmt.fixed 2 result.falsePositiveRatePercent) ++
    member "  \"recovery_rate_percent\": " (fmt.fixed 2 result.recoveryRatePercent) ++
    [lit "  \"real_network_activity\": false,\n", lit "  \"real_persistence\": false,\n",
      lit "  \"real_privilege_change\": false,\n", lit "  \"external_process_access\": false,\n",
      lit "  \"scenarios\": [\n"] ++
    objects scenarioFields result.scenarios ++ [lit "  ]\n", lit "\x7d\n"]

def writeReport (fmt : Format K) (d : Destination) (result : OperationalLabResult K) : Attempt :=
  writeChecked d (reportPieces fmt result)

/-- The end of `OperationalLab::run`. -/
def withReport (fmt : Format K) (d : Destination) (result : OperationalLabResult K) :
    OperationalLabResult K :=
  { result with reportWritten := (writeReport fmt d result).returned }

end OperationalLab

/-! ## `defensive_lab.cpp` -/

namespace DefensiveLab

def jsonEscape (value : String) : Text :=
  escape value.toList

def eventFields (event : LabEvent) : List Text :=
  textMember "      \"name\": \"" (jsonEscape event.name) ++
    textMember "      \"action\": \"" (jsonEscape event.action) ++
    textMember "      \"disposition\": \"" (jsonEscape event.disposition) ++
    member "      \"alert\": " (boolean event.alert) ++
    [lit "      \"confirmed\": ", boolean event.confirmed, lit "\n"]

/-- The insertions of `write_report`, with `std::fixed` and precision 2.  Of the Spectre result
only `runs` and `tries_per_byte` are printed. -/
def reportPieces (fmt : Format K) (runs triesPerByte : Int) (byteAccuracy exactRate : K)
    (events : List LabEvent) : List Text :=
  -- The loop over the events counts before the first insertion.
  let alerts := events.countP LabEvent.alert
  let confirmed := events.countP fun event => event.alert && event.confirmed
  let falsePositives := events.countP fun event => event.alert && !event.confirmed
  [lit "\x7b\n", lit "  \"lab\": \"phase5_defensive_lab\",\n",
    lit "  \"scope\": \"self_contained_local_fixture\",\n"] ++
    member "  \"runs\": " (Text.integer runs) ++
    member "  \"tries_per_byte\": " (Text.integer triesPerByte) ++
    member "  \"byte_accuracy_percent\": " (fmt.fixed 2 byteAccuracy) ++
    member "  \"exact_recovery_rate_percent\": " (fmt.fixed 2 exactRate) ++
    member "  \"simulated_alerts\": " (Text.decimal alerts) ++
    member "  \"simulated_confirmed_alerts\": " (Text.decimal confirmed) ++
    member "  \"simulated_false_positives\": " (Text.decimal falsePositives) ++
    [lit "  \"network_access_performed\": false,\n", lit "  \"persistence_performed\": false,\n",
      lit "  \"external_process_access\": false,\n", lit "  \"events\": [\n"] ++
    objects eventFields events ++ [lit "  ]\n", lit "\x7d\n"]

def writeReport (fmt : Format K) (d : Destination) (runs triesPerByte : Int)
    (byteAccuracy exactRate : K) (events : List LabEvent) : Attempt :=
  writeChecked d (reportPieces fmt runs triesPerByte byteAccuracy exactRate events)

/-- The end of `DefensiveLab::run`. -/
def withReport (fmt : Format K) (d : Destination) (result : DefensiveLabResult K)
    (events : List LabEvent) : DefensiveLabResult K :=
  { result with
    reportWritten :=
      (writeReport fmt d result.runs result.triesPerByte result.byteAccuracyPercent
        result.exactRecoveryRatePercent events).returned }

end DefensiveLab

end Report
end LatencyAnalyzer
