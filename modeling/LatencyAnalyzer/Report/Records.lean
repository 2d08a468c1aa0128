import Mathlib.Algebra.Order.Field.Basic
import Mathlib.Tactic.NormNum
import LatencyAnalyzer.Cxx.Text

/-!
# Records — the results that the writers print

The members are those of the headers.  A `double` is a value of some type `K`, and how a stream
prints it is an argument of the writers.
-/

namespace LatencyAnalyzer
namespace Report

open Cxx

/-- How a stream prints a `double`. -/
structure Format (K : Type*) where
  /-- With the flags a stream starts with. -/
  general : K → Text
  /-- With `std::fixed` and a precision. -/
  fixed : Nat → K → Text

/-! ## Rates -/

section Rates

variable {K : Type*} [Field K]

/-- `100.0`. -/
def hundred : K := (100 : Nat)

/-- `100.0 * part / whole`, as all labs compute their rates. -/
def percent (part whole : K) : K :=
  hundred * part / whole

theorem hundred_eq : (hundred : K) = 100 :=
  Nat.cast_ofNat

theorem percent_eq (part whole : K) : percent part whole = 100 * part / whole := by
  unfold percent
  rw [hundred_eq]

theorem percent_mem [LinearOrder K] [IsStrictOrderedRing K] {part whole : K} (hpart : 0 ≤ part)
    (hle : part ≤ whole) (hwhole : 0 < whole) :
    0 ≤ percent part whole ∧ percent part whole ≤ 100 := by
  rw [percent_eq]
  constructor
  · exact div_nonneg (mul_nonneg (by norm_num) hpart) hwhole.le
  · rw [div_le_iff₀ hwhole]
    exact mul_le_mul_of_nonneg_left hle (by norm_num)

end Rates

/-! ## `bandwidth_measurer.hpp` -/

structure BandwidthResult (abi : Abi) (K : Type*) where
  allocator : String
  sizeBytes : SizeT abi
  readGbS : K
  writeGbS : K
  copyGbS : K

/-! ## `evaluation_lab.hpp` -/

structure RobustMetrics (K : Type*) where
  inputCount : Nat
  keptCount : Nat
  rejectedCount : Nat
  mean : K
  median : K
  stddev : K

structure TvlaResult (K : Type*) where
  fixedCount : Nat
  randomCount : Nat
  fixedMean : K
  randomMean : K
  fixedStddev : K
  randomStddev : K
  tStatistic : K
  absT : K
  threshold : K
  thresholdExceeded : Bool

structure PlatformSignature where
  vendor : String
  brand : String
  osRelease : String
  machine : String
  physicalCores : Int
  logicalCpus : Int
  packages : Int
  smtActive : Bool

structure ControlEvaluation where
  control : String
  scenario : String
  expectedAction : String
  evidence : String
  executed : Bool

structure EvaluationLabResult (K : Type*) where
  runs : Int
  traceSamples : Int
  averagingWindow : Int
  simulatedCaptureFaults : Int
  recoveredCaptures : Int
  recoveryRatePercent : K
  alignedSamples : Nat
  alignmentLossPercent : K
  fixedMetrics : RobustMetrics K
  randomMetrics : RobustMetrics K
  snrLinear : K
  snrDb : K
  classificationErrorPercent : K
  repeatabilityCvPercent : K
  tvla : TvlaResult K
  repeatabilityOk : Bool
  leakageDetected : Bool
  platform : PlatformSignature
  controls : List ControlEvaluation
  reportWritten : Bool
  reportPath : String

/-! ## `operational_lab.hpp` -/

structure OperationalScenarioResult where
  name : String
  stage : String
  expectedControl : String
  detected : Bool
  recovered : Bool

structure OperationalLabResult (K : Type*) where
  runs : Int
  eventsGenerated : Int
  detectedEvents : Int
  missedEvents : Int
  falsePositiveEvents : Int
  recoveryAttempts : Int
  recoveredEvents : Int
  detectionRatePercent : K
  falsePositiveRatePercent : K
  recoveryRatePercent : K
  referenceBoundary : String
  reportPath : String
  scenarios : List OperationalScenarioResult
  reportWritten : Bool

/-! ## `defensive_lab.cpp` -/

structure LabEvent where
  name : String
  action : String
  disposition : String
  alert : Bool
  confirmed : Bool

structure DefensiveLabResult (K : Type*) where
  runs : Int
  triesPerByte : Int
  byteAccuracyPercent : K
  exactRecoveryRatePercent : K
  simulatedAlerts : Int
  simulatedConfirmedAlerts : Int
  simulatedFalsePositives : Int
  reportWritten : Bool
  reportPath : String

end Report
end LatencyAnalyzer
