import Mathlib.Algebra.Order.Field.Basic
import LatencyAnalyzer.CommandLine.Options
import LatencyAnalyzer.Report.Honesty

/-!
# Operational — the bookkeeping of `operational_lab.cpp`

The lab replays a fixed catalogue of events once and multiplies the counters by the number of runs.
All of it is arithmetic in `int`, so a run has a result as long as the largest product fits.  That
is the number of benign events, 20 a run.
-/

namespace LatencyAnalyzer
namespace OperationalLab

open Cxx
open Report (Destination Format OperationalLabResult OperationalScenarioResult hundred percent
  percent_eq percent_mem)

/-! ## The code -/

structure SyntheticEvent where
  name : String
  stage : String
  control : String
  detectable : Bool
  recoverable : Bool

def scenarios : List SyntheticEvent :=
  [⟨"synthetic_target_access", "target_access", "EDR + least privilege", true, true⟩,
    ⟨"synthetic_privilege_change", "privilege_attempt", "least privilege", true, true⟩,
    ⟨"synthetic_persistence", "persistence", "persistence monitoring", true, true⟩,
    ⟨"synthetic_defense_evasion", "evasion", "EDR", true, true⟩,
    ⟨"synthetic_command_channel", "command_and_control", "network monitoring", true, true⟩,
    ⟨"synthetic_sensitive_collection", "collection", "DLP + data-flow monitoring", true, true⟩,
    ⟨"synthetic_data_staging", "staging", "DLP + EDR", true, true⟩,
    ⟨"synthetic_data_transfer", "exfiltration", "DLP + microsegmentation", true, true⟩,
    ⟨"synthetic_cleanup", "recovery", "incident response", true, true⟩]

/-- The scenario that the loop makes of an event. -/
def SyntheticEvent.outcome (event : SyntheticEvent) : OperationalScenarioResult :=
  { name := event.name
    stage := event.stage
    expectedControl := event.control
    detected := event.detectable
    recovered := event.recoverable }

section Code

variable {K : Type} [Field K]

/-- The members with their default initializers, and those that are set before the guard. -/
def initial (runs : Int) (reportPath : String) : OperationalLabResult K :=
  { runs := runs
    eventsGenerated := 0
    detectedEvents := 0
    missedEvents := 0
    falsePositiveEvents := 0
    recoveryAttempts := 0
    recoveredEvents := 0
    detectionRatePercent := 0
    falsePositiveRatePercent := 0
    recoveryRatePercent := 0
    referenceBoundary := "in_memory_synthetic_state_machine"
    reportPath := reportPath
    scenarios := []
    reportWritten := false }

/-- The loop counts the event as detected or missed. -/
def countDetection (scenario : OperationalScenarioResult) (result : OperationalLabResult K) :
    Option (OperationalLabResult K) :=
  if scenario.detected then
    (checkedInt (result.detectedEvents + 1)).map fun detected =>
      { result with detectedEvents := detected }
  else
    (checkedInt (result.missedEvents + 1)).map fun missed =>
      { result with missedEvents := missed }

/-- A recovery is attempted, with success, for what is detected and recoverable. -/
def countRecovery (scenario : OperationalScenarioResult) (result : OperationalLabResult K) :
    Option (OperationalLabResult K) :=
  if scenario.detected && scenario.recovered then do
    let attempts ← checkedInt (result.recoveryAttempts + 1)
    let recovered ← checkedInt (result.recoveredEvents + 1)
    pure { result with recoveryAttempts := attempts, recoveredEvents := recovered }
  else
    some result

/-- One iteration of the loop over the catalogue. -/
def replay (result : OperationalLabResult K) (event : SyntheticEvent) :
    Option (OperationalLabResult K) := do
  let result ← countDetection event.outcome result
  let result ← countRecovery event.outcome result
  pure { result with scenarios := result.scenarios ++ [event.outcome] }

/-- The four products after the loop. -/
def scale (runs : Int) (result : OperationalLabResult K) : Option (OperationalLabResult K) := do
  let detected ← checkedInt (result.detectedEvents * runs)
  let missed ← checkedInt (result.missedEvents * runs)
  let attempts ← checkedInt (result.recoveryAttempts * runs)
  let recovered ← checkedInt (result.recoveredEvents * runs)
  pure
    { result with
      detectedEvents := detected
      missedEvents := missed
      recoveryAttempts := attempts
      recoveredEvents := recovered }

/-- The false positives and the three rates. -/
def rate (runs benignEvents : Int) (result : OperationalLabResult K) : OperationalLabResult K :=
  { result with
    falsePositiveEvents := runs
    detectionRatePercent :=
      if result.eventsGenerated = 0 then 0
      else percent (result.detectedEvents : K) (result.eventsGenerated : K)
    falsePositiveRatePercent :=
      if benignEvents = 0 then 0 else percent (runs : K) (benignEvents : K)
    recoveryRatePercent :=
      if result.recoveryAttempts = 0 then hundred
      else percent (result.recoveredEvents : K) (result.recoveryAttempts : K) }

/-- `OperationalLab::run`.  There is no result when an operation in `int` overflows. -/
def run (fmt : Format K) (d : Destination) (runs : Int) (reportPath : String) :
    Option (OperationalLabResult K) :=
  if runs ≤ 0 ∨ reportPath.isEmpty then some (initial runs reportPath)
  else do
    let generated ← checkedInt ((scenarios.length : Int) * runs)
    let result ← scenarios.foldlM replay
      { initial runs reportPath with eventsGenerated := generated }
    let result ← scale runs result
    let benignEvents ← checkedInt (runs * 20)
    pure (Report.OperationalLab.withReport fmt d (rate runs benignEvents result))

end Code

/-! ## The loop -/

section Replay

variable {K : Type}

def detectedIn (events : List SyntheticEvent) : Nat :=
  events.countP SyntheticEvent.detectable

def missedIn (events : List SyntheticEvent) : Nat :=
  events.countP fun event => !event.detectable

def recoveredIn (events : List SyntheticEvent) : Nat :=
  events.countP fun event => event.detectable && event.recoverable

/-- A result with the counters of the loop. -/
def withCounters (start : OperationalLabResult K) (detected missed recovered : Nat)
    (outcomes : List OperationalScenarioResult) : OperationalLabResult K :=
  { start with
    detectedEvents := detected
    missedEvents := missed
    recoveryAttempts := recovered
    recoveredEvents := recovered
    scenarios := outcomes }

section

variable (start : OperationalLabResult K) (detected missed recovered : Nat)
  (outcomes : List OperationalScenarioResult)

@[simp] theorem withCounters_detectedEvents :
    (withCounters start detected missed recovered outcomes).detectedEvents = detected := rfl

@[simp] theorem withCounters_missedEvents :
    (withCounters start detected missed recovered outcomes).missedEvents = missed := rfl

@[simp] theorem withCounters_recoveryAttempts :
    (withCounters start detected missed recovered outcomes).recoveryAttempts = recovered := rfl

@[simp] theorem withCounters_recoveredEvents :
    (withCounters start detected missed recovered outcomes).recoveredEvents = recovered := rfl

end

/-- The result after the loop has seen `events`. -/
def replayed (start : OperationalLabResult K) (events : List SyntheticEvent) :
    OperationalLabResult K :=
  withCounters start (detectedIn events) (missedIn events) (recoveredIn events)
    (events.map SyntheticEvent.outcome)

theorem detectedIn_add_missedIn (events : List SyntheticEvent) :
    detectedIn events + missedIn events = events.length := by
  rw [List.length_eq_countP_add_countP SyntheticEvent.detectable]
  simp [detectedIn, missedIn]

theorem recoveredIn_le_detectedIn (events : List SyntheticEvent) :
    recoveredIn events ≤ detectedIn events := by
  apply List.countP_mono_left
  intro event _ hboth
  exact (Bool.and_eq_true_iff.1 hboth).1

/-- Counting one more of fewer than `2 ^ 31 - 1` events stays in `int`. -/
theorem checkedInt_succ {n m : Nat} (hle : n ≤ m) (hm : (m : Int) < intMax) :
    checkedInt ((n : Int) + 1) = some ((n : Int) + 1) :=
  checkedInt_of_inInt (inInt_of_nonneg_le (by omega) (by omega))

theorem countIn_concat (p : SyntheticEvent → Bool) (events : List SyntheticEvent)
    (event : SyntheticEvent) :
    (events ++ [event]).countP p = events.countP p + if p event then 1 else 0 := by
  rw [List.countP_append, List.countP_singleton]

section Iteration

variable (start : OperationalLabResult K) (detected missed recovered : Nat)
  (outcomes : List OperationalScenarioResult) (event : SyntheticEvent) {n : Nat}

theorem countDetection_withCounters (hdetected : detected ≤ n) (hmissed : missed ≤ n)
    (hn : (n : Int) < intMax) :
    countDetection event.outcome (withCounters start detected missed recovered outcomes) =
      some (withCounters start (detected + if event.detectable then 1 else 0)
        (missed + if !event.detectable then 1 else 0) recovered outcomes) := by
  have houtcome : event.outcome.detected = event.detectable := rfl
  unfold countDetection
  rw [houtcome]
  cases event.detectable with
  | true =>
      rw [if_pos rfl, withCounters_detectedEvents, checkedInt_succ hdetected hn]
      rfl
  | false =>
      rw [if_neg (by decide), withCounters_missedEvents, checkedInt_succ hmissed hn]
      rfl

theorem countRecovery_withCounters (hrecovered : recovered ≤ n) (hn : (n : Int) < intMax) :
    countRecovery event.outcome (withCounters start detected missed recovered outcomes) =
      some (withCounters start detected missed
        (recovered + if event.detectable && event.recoverable then 1 else 0) outcomes) := by
  have houtcome : (event.outcome.detected && event.outcome.recovered) =
      (event.detectable && event.recoverable) := rfl
  unfold countRecovery
  rw [houtcome]
  cases event.detectable && event.recoverable with
  | true =>
      rw [if_pos rfl, withCounters_recoveryAttempts, withCounters_recoveredEvents,
        checkedInt_succ hrecovered hn]
      rfl
  | false => rfl

end Iteration

theorem replay_replayed (start : OperationalLabResult K) (events : List SyntheticEvent)
    (event : SyntheticEvent) (hlength : (events.length : Int) < intMax) :
    replay (replayed start events) event = some (replayed start (events ++ [event])) := by
  have hrecovered : recoveredIn events ≤ events.length := List.countP_le_length
  have hdetection := countDetection_withCounters start (detectedIn events) (missedIn events)
    (recoveredIn events) (events.map SyntheticEvent.outcome) event List.countP_le_length
    List.countP_le_length hlength
  have hconcat : replayed start (events ++ [event]) =
      withCounters start (detectedIn events + if event.detectable then 1 else 0)
        (missedIn events + if !event.detectable then 1 else 0)
        (recoveredIn events + if event.detectable && event.recoverable then 1 else 0)
        (events.map SyntheticEvent.outcome ++ [event.outcome]) := by
    unfold replayed detectedIn missedIn recoveredIn
    rw [countIn_concat, countIn_concat, countIn_concat, List.map_append]
    rfl
  rw [hconcat]
  unfold replay replayed
  simp only [hdetection, Option.bind_eq_bind, Option.bind_some,
    countRecovery_withCounters start _ _ _ _ event hrecovered hlength]
  rfl

theorem foldlM_replay (start : OperationalLabResult K) (events : List SyntheticEvent)
    (hlength : (events.length : Int) ≤ intMax) (hstart : replayed start [] = start) :
    events.foldlM replay start = some (replayed start events) := by
  induction events using List.reverseRecOn with
  | nil => exact congrArg some hstart.symm
  | append_singleton events event ih =>
      rw [List.length_append, List.length_singleton] at hlength
      push_cast at hlength
      rw [List.foldlM_append, ih (by omega)]
      have hstep := replay_replayed start events event (by omega)
      simp [hstep]

end Replay

/-! ## The products -/

section Scale

variable {K : Type}

/-- The counters of all runs. -/
def scaled (runs : Int) (events : List SyntheticEvent) (start : OperationalLabResult K) :
    OperationalLabResult K :=
  { start with
    detectedEvents := detectedIn events * runs
    missedEvents := missedIn events * runs
    recoveryAttempts := recoveredIn events * runs
    recoveredEvents := recoveredIn events * runs
    scenarios := events.map SyntheticEvent.outcome }

/-- A product fits whose factor is no larger than that of a product that fits. -/
theorem checkedInt_mul {n m : Nat} (hle : n ≤ m) {runs : Int} (hruns : 1 ≤ runs)
    (hfits : (m : Int) * runs ≤ intMax) :
    checkedInt ((n : Int) * runs) = some ((n : Int) * runs) := by
  have hruns' : 0 ≤ runs := by omega
  have hmono : (n : Int) * runs ≤ (m : Int) * runs :=
    mul_le_mul_of_nonneg_right (by exact_mod_cast hle) hruns'
  exact checkedInt_of_inInt
    (inInt_of_nonneg_le (mul_nonneg (Int.natCast_nonneg n) hruns') (hmono.trans hfits))

theorem scale_replayed [Field K] (start : OperationalLabResult K) (events : List SyntheticEvent)
    {runs : Int} (hruns : 1 ≤ runs) (hfits : (events.length : Int) * runs ≤ intMax) :
    scale runs (replayed start events) = some (scaled runs events start) := by
  have hdetected : detectedIn events ≤ events.length := List.countP_le_length
  have hmissed : missedIn events ≤ events.length := List.countP_le_length
  have hrecovered : recoveredIn events ≤ events.length := List.countP_le_length
  unfold scale replayed
  simp only [withCounters_detectedEvents, withCounters_missedEvents,
    withCounters_recoveryAttempts, withCounters_recoveredEvents,
    checkedInt_mul hdetected hruns hfits, checkedInt_mul hmissed hruns hfits,
    checkedInt_mul hrecovered hruns hfits, Option.bind_eq_bind, Option.bind_some]
  rfl

end Scale

/-! ## Runs without overflow -/

section Bookkeeping

variable {K : Type} [Field K]

/-- What the result of `runs` runs has to say about the catalogue. -/
structure Bookkeeping [LinearOrder K] (runs : Int) (result : OperationalLabResult K) : Prop where
  events : result.detectedEvents + result.missedEvents = result.eventsGenerated
  generated : result.eventsGenerated = runs * scenarios.length
  recovered_nonneg : 0 ≤ result.recoveredEvents
  recovered_le : result.recoveredEvents ≤ result.recoveryAttempts
  attempts_le : result.recoveryAttempts ≤ result.detectedEvents
  detectionRate : 0 ≤ result.detectionRatePercent ∧ result.detectionRatePercent ≤ 100
  recoveryRate : 0 ≤ result.recoveryRatePercent ∧ result.recoveryRatePercent ≤ 100
  falsePositiveRate : 0 ≤ result.falsePositiveRatePercent ∧ result.falsePositiveRatePercent ≤ 100
  falsePositiveRate_eq : result.falsePositiveRatePercent =
    100 * (result.falsePositiveEvents : K) / (20 * (runs : K))
  fivePercent : result.falsePositiveRatePercent = 5

/-- The result of a run whose products all fit. -/
def finished (fmt : Format K) (d : Destination) (runs : Int) (reportPath : String) :
    OperationalLabResult K :=
  Report.OperationalLab.withReport fmt d
    (rate runs (runs * 20)
      (scaled runs scenarios
        { initial runs reportPath with eventsGenerated := (scenarios.length : Int) * runs }))

theorem not_early {runs : Int} (hruns : 1 ≤ runs) {reportPath : String} (hpath : reportPath ≠ "") :
    ¬ (runs ≤ 0 ∨ reportPath.isEmpty = true) := by
  rw [String.isEmpty_iff]
  rintro (hle | hempty)
  · omega
  · exact hpath hempty

theorem run_of_fits (fmt : Format K) (d : Destination) {runs : Int} (hruns : 1 ≤ runs)
    {reportPath : String} (hpath : reportPath ≠ "") (hfits : runs * 20 ≤ intMax) :
    run fmt d runs reportPath = some (finished fmt d runs reportPath) := by
  have hlength : scenarios.length ≤ 20 := by decide
  have hbenign : ((20 : Nat) : Int) * runs ≤ intMax := by
    rw [mul_comm]
    exact hfits
  have hgenerated := checkedInt_mul hlength hruns hbenign
  have hproduct : (scenarios.length : Int) * runs ≤ intMax := by
    have hle : (scenarios.length : Int) * runs ≤ ((20 : Nat) : Int) * runs :=
      mul_le_mul_of_nonneg_right (by exact_mod_cast hlength) (by omega)
    exact hle.trans hbenign
  have hloop := foldlM_replay
    ({ initial runs reportPath with eventsGenerated := (scenarios.length : Int) * runs } :
      OperationalLabResult K) scenarios (by decide) rfl
  have hscale := scale_replayed
    ({ initial runs reportPath with eventsGenerated := (scenarios.length : Int) * runs } :
      OperationalLabResult K) scenarios hruns hproduct
  have hbenign' : checkedInt (runs * 20) = some (runs * 20) :=
    checkedInt_of_inInt (inInt_of_nonneg_le (by omega) hfits)
  unfold run
  rw [if_neg (not_early hruns hpath), hgenerated]
  simp only [Option.bind_eq_bind, Option.bind_some]
  rw [hloop]
  simp only [Option.bind_some]
  rw [hscale]
  simp only [Option.bind_some]
  rw [hbenign']
  rfl

/-- The benign events are the largest product, so it is they that leave `int` first. -/
theorem run_of_overflow (fmt : Format K) (d : Destination) {runs : Int} (hruns : 1 ≤ runs)
    {reportPath : String} (hpath : reportPath ≠ "") (hover : ¬ runs * 20 ≤ intMax) :
    run fmt d runs reportPath = none := by
  have hbenign : checkedInt (runs * 20) = none :=
    checkedInt_of_not_inInt fun h => hover h.2
  unfold run
  rw [if_neg (not_early hruns hpath), hbenign]
  simp

theorem percent_counts_mem [LinearOrder K] [IsStrictOrderedRing K] {part whole : Int}
    (hpart : 0 ≤ part) (hle : part ≤ whole) (hwhole : whole ≠ 0) :
    0 ≤ percent (part : K) (whole : K) ∧ percent (part : K) (whole : K) ≤ 100 := by
  have hpos : 0 < whole := by omega
  exact percent_mem (by exact_mod_cast hpart) (by exact_mod_cast hle) (by exact_mod_cast hpos)

theorem bookkeeping_finished [LinearOrder K] [IsStrictOrderedRing K] (fmt : Format K)
    (d : Destination) {runs : Int} (hruns : 1 ≤ runs) (reportPath : String) :
    Bookkeeping runs (finished fmt d runs reportPath) := by
  have hruns' : 0 ≤ runs := by omega
  have hsum : (detectedIn scenarios : Int) + missedIn scenarios = scenarios.length := by
    exact_mod_cast detectedIn_add_missedIn scenarios
  have hrecovered : (recoveredIn scenarios : Int) ≤ detectedIn scenarios := by
    exact_mod_cast recoveredIn_le_detectedIn scenarios
  have hmissed : (0 : Int) ≤ missedIn scenarios := Int.natCast_nonneg _
  have hbenign : runs * 20 ≠ 0 := by omega
  have hrate : (finished fmt d runs reportPath).falsePositiveRatePercent =
      100 * (runs : K) / ((runs * 20 : Int) : K) := (if_neg hbenign).trans (percent_eq _ _)
  have hfive : 100 * (runs : K) / ((runs * 20 : Int) : K) = 5 := by
    have hne : (runs : K) ≠ 0 := by
      have : runs ≠ 0 := by omega
      exact_mod_cast this
    push_cast
    field_simp
    norm_num
  constructor
  case events =>
    show (detectedIn scenarios : Int) * runs + missedIn scenarios * runs = scenarios.length * runs
    rw [← hsum, add_mul]
  case generated => exact mul_comm _ _
  case recovered_nonneg => exact mul_nonneg (Int.natCast_nonneg (recoveredIn scenarios)) hruns'
  case recovered_le => exact le_refl (recoveredIn scenarios * runs)
  case attempts_le => exact mul_le_mul_of_nonneg_right hrecovered hruns'
  case detectionRate =>
    have hgenerated : (scenarios.length : Int) * runs ≠ 0 :=
      mul_ne_zero (by decide) (by omega)
    have hdetected : (detectedIn scenarios : Int) * runs ≤ scenarios.length * runs :=
      mul_le_mul_of_nonneg_right (by omega) hruns'
    have hdetection : (finished fmt d runs reportPath).detectionRatePercent =
        percent ((detectedIn scenarios * runs : Int) : K)
          ((scenarios.length * runs : Int) : K) := if_neg hgenerated
    rw [hdetection]
    exact percent_counts_mem (mul_nonneg (Int.natCast_nonneg _) hruns') hdetected hgenerated
  case recoveryRate =>
    show 0 ≤ (if (recoveredIn scenarios : Int) * runs = 0 then (hundred : K) else _) ∧
      (if (recoveredIn scenarios : Int) * runs = 0 then (hundred : K) else _) ≤ 100
    split
    · rw [Report.hundred_eq]
      norm_num
    · rename_i hattempts
      exact percent_counts_mem (mul_nonneg (Int.natCast_nonneg (recoveredIn scenarios)) hruns')
        le_rfl hattempts
  case falsePositiveRate =>
    rw [hrate, hfive]
    norm_num
  case falsePositiveRate_eq =>
    rw [hrate, mul_comm runs 20]
    push_cast
    rfl
  case fivePercent => exact hrate.trans hfive

/-- Every run count has its bookkeeping, without an overflow on the way, if and only if the number
of benign events fits in `int`. -/
theorem run_bookkeeping_iff [LinearOrder K] [IsStrictOrderedRing K] (fmt : Format K)
    (d : Destination) {runs : Int} (hruns : 1 ≤ runs) {reportPath : String}
    (hpath : reportPath ≠ "") :
    (∃ result, run fmt d runs reportPath = some result ∧ Bookkeeping runs result) ↔
      runs * 20 ≤ intMax := by
  constructor
  · rintro ⟨result, hrun, _⟩
    by_contra hover
    rw [run_of_overflow fmt d hruns hpath hover] at hrun
    cases hrun
  · intro hfits
    exact ⟨_, run_of_fits fmt d hruns hpath hfits, bookkeeping_finished fmt d hruns reportPath⟩

theorem run_bookkeeping_two :
    ∃ result, run Report.integerFormat Report.fullDisk 2 "operational_lab_test.json" =
      some result ∧ Bookkeeping 2 result :=
  (run_bookkeeping_iff Report.integerFormat Report.fullDisk (by decide) (by decide)).2 (by decide)

/-- The smallest run count that overflows; the command line takes it. -/
theorem bookkeeping_lost :
    CommandLine.parseInt "107374183".toList = some 107374183 ∧
      ¬ ∃ result, run Report.integerFormat Report.fullDisk 107374183
        "operational_lab_report.json" = some result ∧ Bookkeeping 107374183 result := by
  refine ⟨by decide, ?_⟩
  rintro ⟨result, hrun, _⟩
  rw [run_of_overflow Report.integerFormat Report.fullDisk (by decide) (by decide) (by decide)]
    at hrun
  cases hrun

end Bookkeeping

end OperationalLab
end LatencyAnalyzer
