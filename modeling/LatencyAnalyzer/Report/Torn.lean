import LatencyAnalyzer.Lib.JsonPrefix
import LatencyAnalyzer.Report.Honesty
import LatencyAnalyzer.Report.WellFormed

/-!
# Torn — reports that were not written to their end

A lab looks at its stream before it closes it, so a disk that fills up late leaves a torn report
behind that counts as written.  Whoever reads the file can tell: it is the complete report or no
JSON at all, and only the last line feed may be missing.
-/

namespace LatencyAnalyzer
namespace Report

open Cxx
open Lib
open Lib.Json

variable {K : Type*} {fmt : Format K}

/-! ## Reports as documents -/

/-- Every report has a brace of its own in its first and in its last line. -/
theorem isDocument_report {entries : List Entry} {last : List Text} {members : List (Text × Json)}
    (hlast : Members (last.flatten ++ ['\x7d']) members) :
    IsDocument ([lit "\x7b\n"] ++ entries.flatMap Entry.pieces ++ last ++ [lit "\x7d\n"]).flatten
      (entries.map Entry.named ++ members) := by
  have hopen : lit "\x7b\n" = ['\x7b', '\n'] := lit_ofList _
  have hclose : lit "\x7d\n" = ['\x7d', '\n'] := lit_ofList _
  have hmembers := Entry.members_flatMap entries hlast
  rw [← List.append_assoc] at hmembers
  have hdocument := isDocument_of_members (by decide : IsBlank ['\n']) hmembers
  simpa [hopen, hclose] using hdocument

theorem EvaluationLab.isDocument {result : EvaluationLabResult K} {tvlaClean : TvlaResult K}
    {runMedians : List K} (h : EvaluationLab.Printable fmt result tvlaClean runMedians) :
    IsDocument (EvaluationLab.reportPieces fmt result tvlaClean runMedians).flatten
      ((EvaluationLab.entries h).map Entry.named ++
        [(lit "control_evaluation",
          .array (result.controls.map EvaluationLab.controlValue))]) := by
  have hcontrols : ∀ c ∈ result.controls,
      Denotes (objectText (controlFields c)) (EvaluationLab.controlValue c) := by
    intro c hc
    refine EvaluationLab.denotes_control fun s hs => h.strings s ?_
    exact List.mem_append_right _ (List.mem_flatMap.2 ⟨c, hc, hs⟩)
  have hlast := members_end_objects "  \"control_evaluation\": [\n" "control_evaluation" hcontrols
  rw [EvaluationLab.reportPieces_eq h]
  exact isDocument_report hlast

theorem OperationalLab.isDocument {result : OperationalLabResult K}
    (h : OperationalLab.Printable fmt result) :
    ∃ members, IsDocument (OperationalLab.reportPieces fmt result).flatten members := by
  have hscenarios : ∀ scenario ∈ result.scenarios,
      Denotes (objectText (scenarioFields scenario)) (OperationalLab.scenarioValue scenario) := by
    intro scenario hscenario
    refine OperationalLab.denotes_scenario fun s hs => h.strings s ?_
    exact List.mem_flatMap.2 ⟨scenario, hscenario, hs⟩
  have hlast := members_end_objects "  \"scenarios\": [\n" "scenarios" hscenarios
  rw [OperationalLab.reportPieces_eq h]
  exact ⟨_, isDocument_report hlast⟩

theorem DefensiveLab.isDocument (runs triesPerByte : Int) {byteAccuracy exactRate : K}
    {events : List LabEvent} (h : DefensiveLab.Printable fmt byteAccuracy exactRate events) :
    IsDocument (DefensiveLab.reportPieces fmt runs triesPerByte byteAccuracy exactRate
      events).flatten
      (DefensiveLab.reportMembers fmt runs triesPerByte byteAccuracy exactRate events) := by
  have hevents : ∀ event ∈ events,
      Denotes (objectText (DefensiveLab.eventFields event)) (DefensiveLab.eventValue event) := by
    intro event hevent
    refine DefensiveLab.denotes_event fun s hs => h.strings s ?_
    exact List.mem_flatMap.2 ⟨event, hevent, hs⟩
  have hlast := members_end_objects "  \"events\": [\n" "events" hevents
  rw [DefensiveLab.reportPieces_eq runs triesPerByte h]
  exact isDocument_report hlast

/-! ## Files of the labs -/

section Files

variable {abi : Abi}

namespace Writer

/-- A lab whose numbers are finite and whose strings hold no control character that `json_escape`
leaves as it is. -/
def Printable (fmt : Format ℚ) : Writer abi → Prop
  | .csv _ _ _ _ | .history _ _ _ => False
  | .evaluation result tvlaClean runMedians =>
      EvaluationLab.Printable fmt result tvlaClean runMedians
  | .operational result => OperationalLab.Printable fmt result
  | .defensive result events =>
      DefensiveLab.Printable fmt result.byteAccuracyPercent result.exactRecoveryRatePercent events

/-- The members of the report of a lab. -/
def Reports (fmt : Format ℚ) (members : List (Text × Json)) : Writer abi → Prop
  | .csv _ _ _ _ | .history _ _ _ => False
  | .evaluation result tvlaClean runMedians =>
      EvaluationLab.IsReport fmt result runMedians
        (EvaluationLab.reportPieces fmt result tvlaClean runMedians).flatten members
  | .operational result =>
      OperationalLab.IsReport result (OperationalLab.reportPieces fmt result).flatten members
  | .defensive result events =>
      members = DefensiveLab.reportMembers fmt result.runs result.triesPerByte
        result.byteAccuracyPercent result.exactRecoveryRatePercent events

variable {fmt : Format ℚ} {w : Writer abi}

theorem Printable.isDocument (h : w.Printable fmt) :
    ∃ members, w.Reports fmt members ∧ IsDocument (w.text fmt) members := by
  cases w with
  | csv latency bandwidth sharedMemory tscHz => exact h.elim
  | history timestamp latency bandwidth => exact h.elim
  | evaluation result tvlaClean runMedians =>
      obtain ⟨members, hreport⟩ := EvaluationLab.isReport_reportPieces h
      have hdocument := EvaluationLab.isDocument h
      -- The text reads as one object only.
      cases hreport.read.symm.trans hdocument.read
      exact ⟨_, hreport, hdocument⟩
  | operational result =>
      obtain ⟨members, hreport⟩ := OperationalLab.isReport_reportPieces h
      obtain ⟨members', hdocument⟩ := OperationalLab.isDocument h
      cases hreport.read.symm.trans hdocument.read
      exact ⟨members, hreport, hdocument⟩
  | defensive result events =>
      exact ⟨_, rfl, DefensiveLab.isDocument result.runs result.triesPerByte h⟩

theorem Printable.checked (h : w.Printable fmt) (d : Destination) :
    w.attempt fmt d = writeChecked d (w.pieces fmt) := by
  cases w with
  | csv latency bandwidth sharedMemory tscHz => exact h.elim
  | history timestamp latency bandwidth => exact h.elim
  | evaluation result tvlaClean runMedians => rfl
  | operational result => rfl
  | defensive result events => rfl

end Writer

/-- The file of a lab reads as its complete report or does not read at all, and it is the disk that
decides: nothing but the last line feed may be missing.  A file that does not read counts as
written exactly if the stream still held what was lost. -/
theorem lab_file_iff {fmt : Format ℚ} {w : Writer abi} (h : w.Printable fmt) :
    ∃ members, w.Reports fmt members ∧ ∀ d : Destination, d.opens = true →
      (∀ v, readJson (w.attempt fmt d).file = some v ↔
        v = .object members ∧ (w.text fmt).length ≤ d.sink.limit + 1) ∧
      (w.reported fmt d = true ∧ readJson (w.attempt fmt d).file = none ↔
        d.sink.handed (w.pieces fmt) ≤ d.sink.limit ∧
          d.sink.limit + 1 < (w.text fmt).length) := by
  obtain ⟨members, hreports, hdocument⟩ := h.isDocument
  refine ⟨members, hreports, fun d hopens => ?_⟩
  have hattempt : w.attempt fmt d =
      { returned := !(d.sink.putAll (w.pieces fmt)).failed
        file := (w.text fmt).take d.sink.limit } := by
    rw [h.checked, writeChecked, if_pos hopens]
    exact congrArg (Attempt.mk _) (Sink.close_putAll d.sink (w.pieces fmt))
  have hfile : ∀ v, readJson (w.attempt fmt d).file = some v ↔
      v = .object members ∧ (w.text fmt).length ≤ d.sink.limit + 1 := by
    rw [hattempt]
    exact hdocument.take_iff d.sink.limit
  have hreported : w.reported fmt d = true ↔ d.sink.handed (w.pieces fmt) ≤ d.sink.limit := by
    have hfailed := Sink.failed_putAll d.sink (w.pieces fmt)
    rw [Writer.reported_eq, hattempt, ← Nat.not_lt, ← hfailed]
    simp
  have hnone : readJson (w.attempt fmt d).file = none ↔
      d.sink.limit + 1 < (w.text fmt).length := by
    rw [Option.eq_none_iff_forall_ne_some]
    constructor
    · intro hall
      by_contra hle
      exact hall _ ((hfile _).2 ⟨rfl, Nat.le_of_not_lt hle⟩)
    · intro hlt v hv
      exact absurd ((hfile v).1 hv).2 (Nat.not_le.2 hlt)
  exact ⟨hfile, and_congr hreported hnone⟩

end Files

/-! ## A report that a small disk cuts off -/

def quietLab : DefensiveLabResult ℚ :=
  { runs := 1
    triesPerByte := 999
    byteAccuracyPercent := 0
    exactRecoveryRatePercent := 0
    simulatedAlerts := 0
    simulatedConfirmedAlerts := 0
    simulatedFalsePositives := 0
    reportWritten := false
    reportPath := "phase5_defensive_report.json" }

/-- A disk of a hundred bytes, behind a buffer that is larger. -/
def smallDisk : Destination :=
  { opens := true, sink := { limit := 100, drain := fun _ _ => 0 } }

theorem lab_file_iff_small :
    let w : Writer .x8664 := .defensive quietLab []
    w.reported streamFormat smallDisk = true ∧
      readJson (w.attempt streamFormat smallDisk).file = none := by
  have hprintable : (Writer.defensive quietLab [] : Writer .x8664).Printable streamFormat :=
    { byteAccuracy := isFixedText_fixed (by decide : 0 < 2) (0 : ℚ)
      exactRate := isFixedText_fixed (by decide : 0 < 2) (0 : ℚ)
      strings := fun s hs => absurd hs List.not_mem_nil }
  obtain ⟨_, _, hfiles⟩ := lab_file_iff hprintable
  refine (hfiles smallDisk rfl).2.2 ⟨?_, ?_⟩
  · rw [Sink.handed_of_buffered fun _ _ => rfl]
    exact Nat.zero_le _
  · decide +kernel

end Report
end LatencyAnalyzer
