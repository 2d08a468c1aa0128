import LatencyAnalyzer.Cxx.Machine
import LatencyAnalyzer.Evaluation.Metrics
import LatencyAnalyzer.Report.Json

/-!
# Lab — the pipeline of `EvaluationLab::run`

The lab times a small computation on a fixed byte and on random bytes, run by run, and compares the
two classes.  What the machine contributes is `Sources`: the outcome of every timed section and the
bytes of the generator, both in the order in which the program asks for them, and the room for a
vector.
-/

namespace LatencyAnalyzer
namespace EvaluationLab

open Cxx
open Evaluation
open Report (ControlEvaluation Destination EvaluationLabResult Format PlatformSignature hundred
  percent)

/-! ## Traces -/

structure Sources where
  /-- Whether both readings of the clock succeed in a timed section. -/
  reads : Nat → Bool
  /-- `end - start` of a timed section, which mixes `value` in `rounds` rounds. -/
  elapsed : Nat → UInt8 → Int → UInt64
  /-- What `byte_dist(rng)` returns. -/
  byte : Nat → UInt8
  /-- The length of the longest `std::vector<double>` that can be had: `max_size()`, or less where
  memory is short. -/
  room : Nat

inductive Thrown
  /-- `clock_gettime(CLOCK_MONOTONIC_RAW) failed` -/
  | clock
  /-- A vector finds no room: `length_error` or `bad_alloc`. -/
  | allocation
  deriving DecidableEq, Repr

/-- How far the sources have been used. -/
structure Recorder where
  sections : Nat
  drawn : Nat

section Traces

variable {K : Type*} [Field K]

/-- What an iteration of the loop of `collect_trace` leaves, if the clock can be read. -/
def sampleOf (sources : Sources) (randomClass leakyFixture : Bool) (st : List K × Recorder) :
    List K × Recorder :=
  let value := if randomClass then sources.byte st.2.drawn else 0xA5
  let extra : Int := if leakyFixture then (value &&& 0x0F).toNat else 0
  let rounds := 80 + extra * 8
  -- The mixing itself ends in `sink`, which nobody reads.
  (st.1 ++ [((sources.elapsed st.2.sections value rounds).toNat : K)],
    { sections := st.2.sections + 1
      drawn := if randomClass then st.2.drawn + 1 else st.2.drawn })

/-- One iteration of the loop of `collect_trace`. -/
def collectSample (sources : Sources) (randomClass leakyFixture : Bool)
    (st : List K × Recorder) : Except Thrown (List K × Recorder) :=
  if sources.reads st.2.sections then
    .ok (sampleOf sources randomClass leakyFixture st)
  else
    .error .clock

/-- The loop of `collect_trace`. -/
def collectLoop (sources : Sources) (randomClass leakyFixture : Bool) (recorder : Recorder) :
    Nat → Except Thrown (List K × Recorder)
  | 0 => .ok ([], recorder)
  | count + 1 => do
      let st ← collectLoop sources randomClass leakyFixture recorder count
      collectSample sources randomClass leakyFixture st

def collectTrace (sources : Sources) (count : Nat) (randomClass leakyFixture : Bool)
    (recorder : Recorder) : Except Thrown (List K × Recorder) :=
  -- `trace.reserve(count)`
  if count ≤ sources.room then
    collectLoop sources randomClass leakyFixture recorder count
  else
    .error .allocation

/-! ## Runs -/

/-- The traces of one run, with the fault of the first run made and recovered from. -/
structure Capture (K : Type*) where
  fixed : List K
  random : List K
  faults : Int
  recovered : Int
  recorder : Recorder

def capture (sources : Sources) (traceSamples run : Nat) (recorder : Recorder) :
    Except Thrown (Capture K) := do
  let fixed ← collectTrace sources traceSamples false true recorder
  let random ← collectTrace sources traceSamples true true fixed.2
  if run = 0 ∧ 8 < fixed.1.length then
    let truncated := fixed.1.take (fixed.1.length - 8)
    let recovery ← collectTrace sources 8 false true random.2
    let restored := truncated ++ recovery.1
    return {
      fixed := restored
      random := random.1
      faults := 1
      recovered := if restored.length = traceSamples then 1 else 0
      recorder := recovery.2 }
  else
    return {
      fixed := fixed.1
      random := random.1
      faults := 0
      recovered := 0
      recorder := random.2 }

/-- The variables of the loop over the runs. -/
structure Session (K : Type*) where
  fixedAll : List K
  randomAll : List K
  runMedians : List K
  simulatedCaptureFaults : Int
  recoveredCaptures : Int
  recorder : Recorder

def Session.start : Session K :=
  { fixedAll := []
    randomAll := []
    runMedians := []
    simulatedCaptureFaults := 0
    recoveredCaptures := 0
    recorder := { sections := 0, drawn := 0 } }

/-- What a run appends to the session, from its two traces. -/
def recordCapture [LinearOrder K] (sources : Sources) (window : Nat) (session : Session K)
    (captured : Capture K) : Except Thrown (Session K) :=
  let session :=
    { session with
      simulatedCaptureFaults := session.simulatedCaptureFaults + captured.faults
      recoveredCaptures := session.recoveredCaptures + captured.recovered
      recorder := captured.recorder }
  let fixedAveraged := averageBlocks captured.fixed window
  let randomAveraged := averageBlocks captured.random window
  let alignedFixed := alignSamples fixedAveraged randomAveraged
  let alignedCount := alignedFixed.length
  if alignedCount = 0 then .ok session
  else
    let alignedRandom := randomAveraged.take alignedCount
    let fixedAll := session.fixedAll ++ alignedFixed
    let randomAll := session.randomAll ++ alignedRandom
    -- `insert` goes beyond what has been reserved where the product of the sizes has wrapped.
    if fixedAll.length ≤ sources.room ∧ randomAll.length ≤ sources.room then
      .ok
        { session with
          fixedAll := fixedAll
          randomAll := randomAll
          -- There are no more medians than samples.
          runMedians := session.runMedians ++ [medianOf alignedFixed] }
    else
      .error .allocation

def recordRun [LinearOrder K] (sources : Sources) (traceSamples window : Nat)
    (session : Session K) (run : Nat) : Except Thrown (Session K) := do
  let captured ← capture sources traceSamples run session.recorder
  recordCapture sources window session captured

/-- The loop over the runs. -/
def collectRuns [LinearOrder K] (sources : Sources) (traceSamples window : Nat) :
    Nat → Except Thrown (Session K)
  | 0 => .ok Session.start
  | run + 1 => do
      let session ← collectRuns sources traceSamples window run
      recordRun sources traceSamples window session run

end Traces

/-! ## The result -/

def controlMatrix : List ControlEvaluation :=
  [{ control := "EDR"
     scenario := "simulated suspicious execution"
     expectedAction := "alert and retain telemetry"
     evidence := "synthetic event only; no real process execution"
     executed := false },
   { control := "DLP"
     scenario := "simulated sensitive-data export"
     expectedAction := "alert or block the transfer"
     evidence := "synthetic event only; no data leaves the process"
     executed := false },
   { control := "Microsegmentation"
     scenario := "simulated unauthorized network egress"
     expectedAction := "deny the flow"
     evidence := "synthetic policy event only; no socket is opened"
     executed := false },
   { control := "Least privilege"
     scenario := "simulated protected-resource access path"
     expectedAction := "deny access"
     evidence := "synthetic authorization event only"
     executed := false },
   { control := "Network monitoring"
     scenario := "simulated command-channel pattern"
     expectedAction := "generate observable network telemetry"
     evidence := "synthetic event only; no command channel exists"
     executed := false },
   { control := "Persistence monitoring"
     scenario := "simulated persistence attempt"
     expectedAction := "alert and retain an audit event"
     evidence := "synthetic event only; no persistence mechanism is created"
     executed := false },
   { control := "Stealth/evasion monitoring"
     scenario := "simulated defense-evasion indicator"
     expectedAction := "raise a reviewable signal"
     evidence := "synthetic event only; no evasion logic is executed"
     executed := false },
   { control := "Data-flow monitoring"
     scenario := "simulated sensitive-data path"
     expectedAction := "track source-to-sink movement"
     evidence := "synthetic event only; data remains local"
     executed := false }]

section Result

variable {abi : Abi} {K : Type*} [Field K] [LinearOrder K]

/-- The members with their default initializers, and those that are set before the guard. -/
def initial (platform : PlatformSignature) (runs traceSamples : Int)
    (averagingWindow : SizeT abi) (reportPath : String) : EvaluationLabResult K :=
  let noMetrics : Report.RobustMetrics K :=
    { inputCount := 0
      keptCount := 0
      rejectedCount := 0
      mean := 0
      median := 0
      stddev := 0 }
  { runs := runs
    traceSamples := traceSamples
    averagingWindow := wrapInt averagingWindow.toNat
    simulatedCaptureFaults := 0
    recoveredCaptures := 0
    recoveryRatePercent := 0
    alignedSamples := 0
    alignmentLossPercent := 0
    fixedMetrics := noMetrics
    randomMetrics := noMetrics
    snrLinear := 0
    snrDb := 0
    classificationErrorPercent := 0
    repeatabilityCvPercent := 0
    tvla :=
      { fixedCount := 0
        randomCount := 0
        fixedMean := 0
        randomMean := 0
        fixedStddev := 0
        randomStddev := 0
        tStatistic := 0
        absT := 0
        threshold := defaultTvlaThreshold
        thresholdExceeded := false }
    repeatabilityOk := false
    leakageDetected := false
    platform := platform
    controls := controlMatrix
    reportWritten := false
    reportPath := reportPath }

/-- What `fixed_all` and `random_all` reserve; the product is one of `size_t` values. -/
def reservedSamples (abi : Abi) (runs traceSamples : Int) : SizeT abi :=
  BitVec.ofNat _ traceSamples.toNat * BitVec.ofNat _ runs.toNat

/-- `requested_pairs`, of the same product. -/
def requestedPairs (runs traceSamples : Int) (averagingWindow : SizeT abi) : SizeT abi :=
  BitVec.ofNat _ (max 0 runs).toNat * BitVec.ofNat _ traceSamples.toNat / averagingWindow

def alignmentLoss (alignedSamples requestedPairs : Nat) : K :=
  if 0 < requestedPairs then hundred * (1 - (alignedSamples : K) / (requestedPairs : K)) else 0

/-- What a run that is not refused hands to its writer. -/
structure Handed (K : Type*) where
  result : EvaluationLabResult K
  tvlaClean : Report.TvlaResult K
  runMedians : List K

/-- The part of `run` between the loop over the runs and the report. -/
def evaluate (sqrt log10 : K → K) (platform : PlatformSignature) (runs traceSamples : Int)
    (averagingWindow : SizeT abi) (reportPath : String) (session : Session K) : Handed K :=
  let fixedAll := session.fixedAll
  let randomAll := session.randomAll
  let snr := snrLinear sqrt fixedAll randomAll
  let error := classificationErrorRate sqrt fixedAll randomAll
  let tvla := welchTvla sqrt fixedAll randomAll defaultTvlaThreshold
  let fixedClean := removeMadOutliers fixedAll defaultOutlierThreshold
  let randomClean := removeMadOutliers randomAll defaultOutlierThreshold
  let tvlaClean := welchTvla sqrt (averageBlocks fixedClean 1) (averageBlocks randomClean 1)
    defaultTvlaThreshold
  let cv := repeatabilityCv sqrt session.runMedians
  { result :=
      { (initial platform runs traceSamples averagingWindow reportPath :
          EvaluationLabResult K) with
        simulatedCaptureFaults := session.simulatedCaptureFaults
        recoveredCaptures := session.recoveredCaptures
        recoveryRatePercent :=
          if session.simulatedCaptureFaults = 0 then hundred
          else percent (session.recoveredCaptures : K) (session.simulatedCaptureFaults : K)
        alignedSamples := fixedAll.length
        alignmentLossPercent :=
          alignmentLoss fixedAll.length
            (requestedPairs runs traceSamples averagingWindow).toNat
        fixedMetrics := robustMetrics sqrt fixedAll defaultOutlierThreshold
        randomMetrics := robustMetrics sqrt randomAll defaultOutlierThreshold
        snrLinear := snr
        snrDb := if 0 < snr then 20 * log10 snr else 0
        classificationErrorPercent := error
        repeatabilityCvPercent := cv
        tvla := tvla
        repeatabilityOk := decide (cv ≤ (10 : Nat)) && decide (error ≤ (5 : Nat))
        leakageDetected := tvla.thresholdExceeded || tvlaClean.thresholdExceeded }
    tvlaClean := tvlaClean
    runMedians := session.runMedians }

/-- `EvaluationLab::run`. -/
def run (sqrt log10 : K → K) (fmt : Format K) (d : Destination) (platform : PlatformSignature)
    (sources : Sources) (runs traceSamples : Int) (averagingWindow : SizeT abi)
    (reportPath : String) : Except Thrown (EvaluationLabResult K) :=
  if runs ≤ 0 ∨ traceSamples ≤ 0 ∨ averagingWindow = 0 ∨ reportPath.isEmpty then
    .ok (initial platform runs traceSamples averagingWindow reportPath)
  -- The second vector reserves the capacity of the first one, so one of them stands for both.
  else if (reservedSamples abi runs traceSamples).toNat ≤ sources.room then
    match collectRuns sources traceSamples.toNat averagingWindow.toNat runs.toNat with
    | .error thrown => .error thrown
    | .ok session =>
        let lab : Handed K :=
          evaluate sqrt log10 platform runs traceSamples averagingWindow reportPath session
        .ok (Report.EvaluationLab.withReport fmt d lab.result lab.tvlaClean lab.runMedians)
  else
    .error .allocation

end Result

end EvaluationLab
end LatencyAnalyzer
