import LatencyAnalyzer.Lib.OrderStatistics
import LatencyAnalyzer.Lib.Sample
import LatencyAnalyzer.Report.Records

/-!
# Metrics — the statistics of `evaluation_lab.cpp`

`double` and `long double` are an ordered field `K`, as in `Statistics`, and the square root is an
argument.  The results are stated over the reals.
-/

namespace LatencyAnalyzer
namespace Evaluation

open Report (RobustMetrics TvlaResult hundred percent)

/-! ## The code -/

section Code

variable {K : Type*} [Field K] [LinearOrder K]

/-- `1e-12`, below which a spread counts as none. -/
def negligible : K := 1 / 10 ^ 12

/-- `1.4826`. -/
def madScale : K := 14826 / 10000

/-- The default of `outlier_threshold`. -/
def defaultOutlierThreshold : K := 35 / 10

/-- The default of the threshold of `welch_tvla`. -/
def defaultTvlaThreshold : K := 45 / 10

def meanOf (samples : List K) : K :=
  match samples with
  | [] => 0
  | _ => samples.sum / (samples.length : K)

def stddevOf (sqrt : K → K) (samples : List K) (mean : K) : K :=
  if samples.length < 2 then 0
  else
    let squared := (samples.map fun value => (value - mean) * (value - mean)).sum
    sqrt (squared / ((samples.length - 1 : Nat) : K))

def medianOf (samples : List K) : K :=
  match samples with
  | [] => 0
  | _ =>
      let sorted := samples.insertionSort (· ≤ ·)
      let middle := samples.length / 2
      if samples.length % 2 = 0 then
        (sorted.getD (middle - 1) 0 + sorted.getD middle 0) / 2
      else
        sorted.getD middle 0

def alignSamples (first second : List K) : List K :=
  let count := min first.length second.length
  first.take count

/-- The mean of the `i`-th block of `window` samples. -/
def blockMean (samples : List K) (window i : Nat) : K :=
  ((List.range window).map fun j => samples.getD (i * window + j) 0).sum / (window : K)

def averageBlocks (samples : List K) (window : Nat) : List K :=
  if samples.isEmpty ∨ window = 0 then []
  else
    let count := samples.length / window
    (List.range count).map (blockMean samples window)

def deviations (samples : List K) : List K :=
  samples.map fun value => |value - medianOf samples|

/-- The median of the absolute deviations from the median. -/
def mad (samples : List K) : K :=
  medianOf (deviations samples)

def removeMadOutliers (samples : List K) (threshold : K) : List K :=
  if samples.length < 5 ∨ threshold ≤ 0 then samples
  else if mad samples ≤ negligible then samples
  else
    let scale := madScale * mad samples
    samples.filter fun value => |value - medianOf samples| ≤ threshold * scale

def robustMetrics (sqrt : K → K) (samples : List K) (outlierThreshold : K) : RobustMetrics K :=
  let filtered := removeMadOutliers samples outlierThreshold
  let mean := meanOf filtered
  { inputCount := samples.length
    keptCount := filtered.length
    rejectedCount := samples.length - filtered.length
    mean := mean
    median := medianOf filtered
    stddev := stddevOf sqrt filtered mean }

/-- `noise` in `snr_linear`. -/
def pooledNoise (sqrt : K → K) (a b : RobustMetrics K) : K :=
  sqrt ((a.stddev * a.stddev + b.stddev * b.stddev) / 2)

def snrLinear (sqrt : K → K) (first second : List K) : K :=
  let a := robustMetrics sqrt first defaultOutlierThreshold
  let b := robustMetrics sqrt second defaultOutlierThreshold
  if a.keptCount < 2 ∨ b.keptCount < 2 then 0
  else
    let signal := |a.mean - b.mean|
    let noise := pooledNoise sqrt a b
    if noise ≤ negligible then 0 else signal / noise

def classificationErrorRate (sqrt : K → K) (fixedSamples randomSamples : List K) : K :=
  let fixed := robustMetrics sqrt fixedSamples defaultOutlierThreshold
  let random := robustMetrics sqrt randomSamples defaultOutlierThreshold
  if fixed.keptCount = 0 ∨ random.keptCount = 0 then hundred
  else
    let threshold := (fixed.mean + random.mean) / 2
    -- A sample on the threshold counts for the fixed class.
    let errors := fixedSamples.countP (threshold < ·) + randomSamples.countP (· ≤ threshold)
    let total := fixedSamples.length + randomSamples.length
    if total = 0 then hundred else percent (errors : K) (total : K)

/-- `denominator` in `welch_tvla`. -/
def welchDenominator (sqrt : K → K) (fixedSamples randomSamples : List K) : K :=
  let fixedStddev := stddevOf sqrt fixedSamples (meanOf fixedSamples)
  let randomStddev := stddevOf sqrt randomSamples (meanOf randomSamples)
  sqrt (fixedStddev * fixedStddev / (fixedSamples.length : K) +
    randomStddev * randomStddev / (randomSamples.length : K))

def welchTvla (sqrt : K → K) (fixedSamples randomSamples : List K) (threshold : K) :
    TvlaResult K :=
  let result : TvlaResult K :=
    { fixedCount := fixedSamples.length
      randomCount := randomSamples.length
      fixedMean := 0
      randomMean := 0
      fixedStddev := 0
      randomStddev := 0
      tStatistic := 0
      absT := 0
      threshold := threshold
      thresholdExceeded := false }
  if fixedSamples.length < 2 ∨ randomSamples.length < 2 then result
  else
    let fixedMean := meanOf fixedSamples
    let randomMean := meanOf randomSamples
    let result :=
      { result with
        fixedMean := fixedMean
        randomMean := randomMean
        fixedStddev := stddevOf sqrt fixedSamples fixedMean
        randomStddev := stddevOf sqrt randomSamples randomMean }
    let denominator := welchDenominator sqrt fixedSamples randomSamples
    -- The early return leaves the statistic at 0 and the flag down.
    if denominator ≤ negligible then result
    else
      let tStatistic := (fixedMean - randomMean) / denominator
      { result with
        tStatistic := tStatistic
        absT := |tStatistic|
        thresholdExceeded := |tStatistic| ≥ threshold }

def repeatabilityCv (sqrt : K → K) (values : List K) : K :=
  if values.length < 2 then 0
  else
    let mean := meanOf values
    if |mean| < negligible then 0 else percent (stddevOf sqrt values mean) |mean|

end Code

/-! ## The textbook statistics -/

section Textbook

variable {K : Type*} [Field K] [LinearOrder K]

omit [LinearOrder K] in
theorem meanOf_eq (samples : List K) : meanOf samples = Lib.mean samples := by
  cases samples with
  | nil => simp [meanOf, Lib.mean]
  | cons => rfl

theorem medianOf_eq [IsStrictOrderedRing K] (samples : List K) :
    medianOf samples = Lib.median samples := by
  cases samples with
  | nil => simp [medianOf, Lib.median, Lib.ranked]
  | cons value rest =>
      unfold medianOf Lib.median Lib.ranked
      dsimp only
      generalize hlength : (value :: rest).length = n
      -- An odd length has one middle position, an even one two neighbours.
      split
      · rename_i heven
        have hpos : 0 < n := by
          rw [← hlength]
          exact Nat.succ_pos _
        have hlower : (n - 1) / 2 = n / 2 - 1 := by omega
        rw [hlower, Nat.cast_ofNat]
      · rename_i hodd
        have hmiddle : (n - 1) / 2 = n / 2 := by omega
        rw [hmiddle, Nat.cast_ofNat, add_self_div_two]

theorem stddevOf_eq (samples : List ℝ) :
    stddevOf Real.sqrt samples (meanOf samples) = Lib.stddev samples := by
  unfold stddevOf Lib.stddev Lib.variance
  rw [meanOf_eq]
  split
  · -- One sample is its own mean; none leaves nothing to sum.
    match samples with
    | [] => simp
    | [value] => simp
  · rfl

end Textbook

end Evaluation
end LatencyAnalyzer
