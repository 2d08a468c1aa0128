import LatencyAnalyzer.Bandwidth.Measurer
import LatencyAnalyzer.CommandLine.Benchmarks
import LatencyAnalyzer.CpuInfo.Topology
import LatencyAnalyzer.Latency.Samples
import LatencyAnalyzer.Report.Csv
import LatencyAnalyzer.Timer

/-!
# Analysis — the `try` block of `main`, which runs when no other mode is asked for

A `Machine` is what the analysis obtains from outside, component by component.  What it prints to
the console is left out, since no result depends on it.  The vectors whose length is asked for or
measured may find no room; the short lists and texts of `main` itself always do.
-/

namespace LatencyAnalyzer
namespace CommandLine

open Cxx Report

/-! ## The analysis -/

/-- `CPU_SETSIZE`. -/
def cpuSetSize : Nat := 1024

/-- `PlatformUtils::allowed_cpus()`; the set is `none` when `sched_getaffinity` fails. -/
def allowedCpus (affinity : Option (Nat → Bool)) : List Int :=
  match affinity with
  | none => []
  | some isSet => ((List.range cpuSetSize).filter isSet).map Int.ofNat

structure Machine (abi : Abi) where
  /-- The set that `sched_getaffinity` fills in. -/
  affinity : Option (Nat → Bool)
  host : CpuInfo.Host
  /-- `CpuInfo::cache_line_size()`. -/
  lineSize : SizeT abi
  timer : Timer.World
  /-- Whether `main` can reserve the vector of its own `Timer::measure_overhead_cycles(2000)`, and
  the time stamps of the empty sections. -/
  reserveCycles : Nat → Bool
  stamps : Nat → UInt64 × UInt64
  latency : Latency.System
  library : Latency.Library
  /-- The `k`-th call of `BandwidthMeasurer::measure`. -/
  bandwidth : Nat → Bandwidth.World
  sharedMemory : SharedMemory.World
  /-- The text of `timestamp()`. -/
  timestamp : Text

/-- What the handler at the end of `main` catches. -/
inductive Failure
  /-- `Unable to determine CPUs allowed to this process`. -/
  | noCpus
  | timer (thrown : Timer.Thrown)
  | latency (thrown : Latency.Thrown)
  | sharedMemory (thrown : SharedMemory.Thrown)
  deriving DecidableEq, Repr

section Analysis

variable {abi : Abi}

/-! ### The stages -/

def strideIterations (s : Settings abi) : Int :=
  max 1 (s.iterations.tdiv 2)

def strideWarmup (s : Settings abi) : Int :=
  s.warmup.tdiv 2

/-- The calls on the `LatencyMeasurer`, and the vector that takes their results. -/
def measureLatency (lib : Latency.Library) (s : Settings abi) (o : Latency.LatencyMeasurer abi) :
    Except Latency.Thrown (List (Latency.MeasurementResult abi)) :=
  match Latency.measureHit lib s.iterations s.warmup s.rounds o with
  | (.error thrown, _) => .error thrown
  | (.ok hit, o) =>
      match Latency.measureForcedMiss lib s.iterations s.warmup s.rounds o with
      | (.error thrown, _) => .error thrown
      | (.ok miss, o) =>
          match Latency.measureStore lib s.iterations s.warmup s.rounds o with
          | (.error thrown, _) => .error thrown
          | (.ok store, o) =>
              match Latency.measureStrides lib (strides abi) (strideIterations s) (strideWarmup s)
                s.rounds o with
              | (.error thrown, _) => .error thrown
              | (.ok strideResults, _) => .ok ([hit, miss, store] ++ strideResults)

/-- `bandwidth_results.push_back(...)` under a handler for every exception. -/
def attemptBandwidth (w : Bandwidth.World) (s : Settings abi) (method : Text) (numaNode : Int)
    (results : List (BandwidthResult abi ℚ)) : List (BandwidthResult abi ℚ) :=
  match (Bandwidth.measure w s.bandwidthSize method Config.bandwidthRepeats numaNode).1 with
  | .ok result => results ++ [result]
  | .error _ => results

def measureBandwidth (m : Machine abi) (s : Settings abi) : List (BandwidthResult abi ℚ) :=
  if s.runBandwidth then
    if 0 ≤ s.numaNode then
      attemptBandwidth (m.bandwidth 0) s "numa".toList s.numaNode []
    else
      let results := attemptBandwidth (m.bandwidth 0) s "mmap".toList (-1) []
      let results := attemptBandwidth (m.bandwidth 1) s "malloc".toList (-1) results
      -- Behind the loop over the methods, with a message of its own.
      attemptBandwidth (m.bandwidth 2) s "LargePage".toList (-1) results
  else
    []

/-- `SharedMemoryResult shared_memory;`. -/
def noSharedMemory : SharedMemory.SharedMemoryResult :=
  { stats := Statistics.Summary.zero
    iterations := 0
    producerCpu := -1
    consumerCpu := -1
    success := false
    errorMessage := "" }

/-- `none` means that the fuel of the waiting loops ran out. -/
def measureSharedMemory (m : Machine abi) (s : Settings abi) (fuel : Nat) (primaryCpu : Int) :
    Option (Except SharedMemory.Thrown SharedMemory.SharedMemoryResult) :=
  if s.runSharedMemory then
    if (allowedCpus m.affinity).length < 2 then
      some (.ok { noSharedMemory with
        errorMessage := "Only one CPU is available to this process" })
    else
      let secondaryCpu := CpuInfo.chooseDistinctCpu (CpuInfo.cpuTopologyPair m.host.files)
        primaryCpu (allowedCpus m.affinity)
      (SharedMemory.measureCrossProcess m.sharedMemory fuel s.shmIterations
        Config.defaultShmWarmup primaryCpu secondaryCpu).map fun out =>
          match out.1 with
          | .returned result => .ok result
          | .threw what => .error what
  else
    some (.ok noSharedMemory)

/-- The `try` block of `main` up to the reports: what it leaves in its variables, or the exception
that ends it.  `none` means that it does not come to an end. -/
def analyze (m : Machine abi) (s : Settings abi) (fuel : Nat) :
    Option (Except Failure (Results abi)) :=
  match allowedCpus m.affinity with
  | [] => some (.error .noCpus)
  | primaryCpu :: _ =>
      -- The topology is printed only, but it has to be read.
      match m.host.topology with
      | none => none
      | some _ =>
          match Timer.calibrateTscHz m.timer Config.tscCalibrationRounds
            Config.tscCalibrationMs with
          | .error thrown => some (.error (.timer thrown))
          | .ok tscHz =>
              -- This overhead is printed only; the measurer takes its own.
              match Timer.measureOverheadCycles m.reserveCycles m.stamps 2000 with
              | .error thrown => some (.error (.timer thrown))
              | .ok _ =>
                  match Latency.construct m.latency s.bufferSize m.lineSize s.numaNode with
                  | .error thrown => some (.error (.latency thrown))
                  | .ok o =>
                      match measureLatency m.library s o with
                      | .error thrown => some (.error (.latency thrown))
                      | .ok latencyResults =>
                          (measureSharedMemory m s fuel primaryCpu).map fun outcome =>
                            match outcome with
                            | .error thrown => .error (.sharedMemory thrown)
                            | .ok sharedMemory =>
                                .ok
                                  { timestamp := m.timestamp
                                    csvFile := s.csvFile
                                    quiet := s.quiet
                                    runSharedMemory := s.runSharedMemory
                                    latencyResults := latencyResults
                                    bandwidthResults := measureBandwidth m s
                                    sharedMemory := sharedMemory
                                    tscHz := tscHz }

/-- The end of `main`: the reports, or the handler, which returns 1. -/
def finish (fmt : Format ℚ) (csvAt historyAt : Destination) :
    Except Failure (Results abi) → ReportEnd
  | .error _ =>
      let untouched : Attempt := { returned := false, file := [] }
      { status := 1, announced := false, csv := untouched, history := untouched }
  | .ok r => reportResults fmt csvAt historyAt r

/-- The whole block; `none` as above. -/
def runAnalysis (fmt : Format ℚ) (csvAt historyAt : Destination) (m : Machine abi)
    (s : Settings abi) (fuel : Nat) : Option ReportEnd :=
  (analyze m s fuel).map (finish fmt csvAt historyAt)

/-! ## The latency results -/

/-- The calls of the first stage, in order. -/
def measurerCalls (s : Settings abi) : List (Latency.Call abi) :=
  [.measureHit s.iterations s.warmup s.rounds, .measureForcedMiss s.iterations s.warmup s.rounds,
    .measureStore s.iterations s.warmup s.rounds,
    .measureStrides (strides abi) (strideIterations s) (strideWarmup s) s.rounds]

/-- These are the calls on a measurer that `main` has in this mode. -/
theorem latencyCalls_eq (s : Settings abi) :
    latencyCalls s = (measurerCalls s).map (.latency s.bufferSize s.numaNode) := rfl

theorem measureLatency_eq_runResults (lib : Latency.Library) (s : Settings abi)
    (o : Latency.LatencyMeasurer abi) :
    measureLatency lib s o = Latency.runResults lib o (measurerCalls s) := by
  unfold measureLatency measurerCalls
  simp only [Latency.runResults, Latency.callResults, Latency.runCall]
  generalize Latency.measureHit lib s.iterations s.warmup s.rounds o = hit
  rcases hit with ⟨thrown | hit, o⟩
  · rfl
  dsimp only [Except.map]
  generalize Latency.measureForcedMiss lib s.iterations s.warmup s.rounds o = miss
  rcases miss with ⟨thrown | miss, o⟩
  · rfl
  dsimp only [Except.map]
  generalize Latency.measureStore lib s.iterations s.warmup s.rounds o = store
  rcases store with ⟨thrown | store, o⟩
  · rfl
  dsimp only [Except.map]
  generalize Latency.measureStrides lib (strides abi) (strideIterations s) (strideWarmup s)
    s.rounds o = strideResults
  rcases strideResults with ⟨thrown | strideResults, o⟩
  · rfl
  · dsimp only [Except.map]
    rw [List.append_nil]
    rfl

/-- What the checks of `configure` leave of the numbers for an analysis. -/
structure Settings.Legal (s : Settings abi) : Prop where
  rounds : 0 < s.rounds
  iterations : 0 < s.iterations
  warmup : 0 ≤ s.warmup
  shmIterations : s.runSharedMemory = true → 0 < s.shmIterations

theorem legal_of_configure {argv : List Text} {s : Settings abi}
    (h : configure abi argv = .parsed s) : s.Legal := by
  unfold configure at h
  split at h
  · split at h
    · cases h
    split at h
    · cases h
    · rename_i hvalid
      cases h
      simp only [invalidNumericConfiguration, Bool.or_eq_true, Bool.and_eq_true,
        decide_eq_true_eq, not_or, not_and, not_le, not_lt] at hvalid
      rcases hvalid with ⟨⟨⟨⟨⟨⟨⟨⟨⟨hrounds, hiterations⟩, hwarmup⟩, hshm⟩, _⟩, _⟩, _⟩, _⟩, _⟩, _⟩
      exact ⟨hrounds, hiterations, hwarmup, hshm⟩
  · rename_i outcome hnot
    exact absurd h (hnot s)

/-- The vectors of the benchmarks find room: the samples and their copies, the order of the random
ring, and the results of the strides. -/
def Fits (lib : Latency.Library) (s : Settings abi) : Bool :=
  (lib.room abi s.iterations s.rounds).fits &&
    lib.resizeOrder (Latency.bufferSizeFor s.bufferSize.toNat / Latency.nodeSize) &&
    lib.reserveResults (strides abi).length &&
    (lib.room abi (strideIterations s) s.rounds).fits

def strideLabels : List String :=
  ["Stride 64 B (dependent pointer chase)", "Stride 256 B (dependent pointer chase)",
    "Stride 1024 B (dependent pointer chase)", "Stride 4096 B (dependent pointer chase)",
    "Stride 16384 B (dependent pointer chase)"]

theorem strideLabels_eq :
    (strides abi).map (Latency.strideLabel Latency.nodeSize) = strideLabels := by
  cases abi <;> decide +kernel

/-- The eight results of the first stage, each from its window of the timed sections. -/
def plannedLatency (s : Settings abi) (o : Latency.LatencyMeasurer abi) :
    List (Latency.MeasurementResult abi) :=
  let warmup := s.warmup.toNat
  let samples := s.rounds.toNat * s.iterations.toNat
  let length := warmup + samples
  let strideWarmup := (strideWarmup s).toNat
  let strideSamples := s.rounds.toNat * (strideIterations s).toNat
  let strideLength := strideWarmup + strideSamples
  [o.result "Cache Hit (L1 pointer-chasing latency)" Latency.kLatencyBatch (o.clock + warmup)
      samples,
    o.result "Forced Cache Miss (random pointer chase + CLFLUSH)" Latency.kLatencyBatch
      (o.clock + length + warmup) samples,
    o.result "Store (hot lines; issue throughput per store)" Latency.kStoreBatch
      (o.clock + 2 * length + warmup) samples] ++
    strideLabels.zipIdx.map fun place =>
      o.result place.1 Latency.kLatencyBatch
        (o.clock + 3 * length + place.2 * strideLength + strideWarmup) strideSamples

/-- A plain benchmark that is not refused. -/
theorem outcome_single {lib : Latency.Library} {o : Latency.LatencyMeasurer abi}
    (call : Latency.Call abi) {series : Latency.Series} {label : String}
    (hrefusal : call.refusal lib o.nodeCount = none)
    (hseries : call.series o.cacheLineSize = series) (hlabels : series.labels = [label])
    (hfits : (lib.room abi series.iterations series.rounds).fits = true) (first : Nat) :
    call.outcome lib o first =
        .ok [o.result label series.steps (first + series.warmup.toNat) series.samples] ∧
      call.sections lib o = series.length := by
  unfold Latency.Call.outcome Latency.Call.sections
  rw [hrefusal, hseries]
  dsimp only
  rw [hlabels, Latency.Series.sections_singleton]
  refine ⟨?_, if_pos (Latency.Room.reserved_of_fits hfits)⟩
  unfold Latency.LatencyMeasurer.outcomes
  rw [if_pos hfits]
  rfl

/-- The strides, which are refused if the vector of their results cannot be reserved. -/
theorem outcome_strides {s : Settings abi} (hnumbers : ¬ (strideIterations s ≤ 0 ∨
      strideWarmup s < 0 ∨ s.rounds ≤ 0)) (lib : Latency.Library)
    {o : Latency.LatencyMeasurer abi} (ho : o.Sound) (first : Nat) :
    (Latency.Call.measureStrides (strides abi) (strideIterations s) (strideWarmup s)
        s.rounds).outcome lib o first =
      if lib.reserveResults (strides abi).length &&
          (lib.room abi (strideIterations s) s.rounds).fits then
        .ok (strideLabels.zipIdx.map fun place =>
          o.result place.1 Latency.kLatencyBatch
            (first + place.2 * ((strideWarmup s).toNat +
              s.rounds.toNat * (strideIterations s).toNat) + (strideWarmup s).toNat)
            (s.rounds.toNat * (strideIterations s).toNat))
      else
        .error .allocation := by
  have hlabels : (strides abi).map (Latency.strideLabel o.cacheLineSize) = strideLabels := by
    rw [ho.cacheLineSize, strideLabels_eq]
  have hrefusal : (Latency.Call.measureStrides (strides abi) (strideIterations s) (strideWarmup s)
      s.rounds).refusal lib o.nodeCount =
        if lib.reserveResults (strides abi).length then none else some .allocation :=
    if_neg hnumbers
  unfold Latency.Call.outcome
  rw [hrefusal]
  cases lib.reserveResults (strides abi).length with
  | false => rfl
  | true =>
      dsimp only [Latency.Call.series]
      rw [hlabels]
      cases hfits : (lib.room abi (strideIterations s) s.rounds).fits with
      | false =>
          unfold strideLabels Latency.LatencyMeasurer.outcomes
          rw [hfits]
          rfl
      | true => exact Latency.outcomes_eq_zipIdx o hfits _ strideLabels first

theorem measureLatency_eq {s : Settings abi} (hlegal : s.Legal) (lib : Latency.Library)
    {o : Latency.LatencyMeasurer abi}
    (ho : Latency.Constructed (Latency.bufferSizeFor s.bufferSize.toNat) o) :
    measureLatency lib s o =
      if Fits lib s then .ok (plannedLatency s o) else .error .allocation := by
  have hnumbers : ¬ (s.iterations ≤ 0 ∨ s.warmup < 0 ∨ s.rounds ≤ 0) := by
    rintro (h | h | h)
    · exact absurd hlegal.iterations (not_lt.2 h)
    · exact absurd hlegal.warmup (not_le.2 h)
    · exact absurd hlegal.rounds (not_lt.2 h)
  have hstride : ¬ (strideIterations s ≤ 0 ∨ strideWarmup s < 0 ∨ s.rounds ≤ 0) := by
    have hiterations : 0 < strideIterations s := lt_of_lt_of_le one_pos (le_max_left _ _)
    have hwarmup : 0 ≤ strideWarmup s := Int.tdiv_nonneg hlegal.warmup (by decide)
    rintro (h | h | h)
    · exact absurd hiterations (not_lt.2 h)
    · exact absurd hwarmup (not_le.2 h)
    · exact absurd hlegal.rounds (not_lt.2 h)
  have hmiss : ¬ (s.iterations ≤ 0 ∨ s.warmup < 0 ∨ s.rounds ≤ 0 ∨ o.nodeCount < 64) := by
    have hcount : 64 ≤ o.nodeCount := le_trans (by decide) ho.sound.nodeCount
    omega
  have hrefusal : (Latency.Call.measureForcedMiss s.iterations s.warmup s.rounds : Latency.Call
      abi).refusal lib o.nodeCount =
        if lib.resizeOrder o.nodeCount then none else some .allocation := if_neg hmiss
  rw [measureLatency_eq_runResults, Latency.runResults_eq]
  unfold measurerCalls Fits
  rw [← ho.nodeCount]
  cases hsamples : (lib.room abi s.iterations s.rounds).fits with
  | false =>
      -- The first benchmark finds no room for its samples.
      have houtcome : (Latency.Call.measureHit s.iterations s.warmup s.rounds).outcome lib o
          o.clock = .error .allocation := by
        have hrefusal : (Latency.Call.measureHit s.iterations s.warmup s.rounds : Latency.Call
            abi).refusal lib o.nodeCount = none := if_neg hnumbers
        unfold Latency.Call.outcome Latency.LatencyMeasurer.outcomes
        rw [hrefusal]
        dsimp only [Latency.Call.series, Latency.Series.single]
        rw [hsamples]
        rfl
      unfold Latency.runOutcome
      rw [houtcome]
      rfl
  | true =>
      -- All three plain benchmarks take the same number of samples.
      have hhit := outcome_single (o := o) (.measureHit s.iterations s.warmup s.rounds)
        (if_neg hnumbers) rfl rfl hsamples
      cases hresize : lib.resizeOrder o.nodeCount with
      | false =>
          have houtcome : ∀ first, (Latency.Call.measureForcedMiss s.iterations s.warmup
              s.rounds).outcome lib o first = .error .allocation := by
            intro first
            unfold Latency.Call.outcome
            rw [hrefusal, hresize]
            rfl
          simp only [Latency.runOutcome, (hhit _).1, houtcome]
          rfl
      | true =>
          rw [hresize] at hrefusal
          have hforced := outcome_single (o := o)
            (.measureForcedMiss s.iterations s.warmup s.rounds) hrefusal rfl rfl hsamples
          have hstore := outcome_single (o := o) (.measureStore s.iterations s.warmup s.rounds)
            (if_neg hnumbers) rfl rfl hsamples
          have hstrides := outcome_strides hstride lib ho.sound
          simp only [Latency.runOutcome, (hhit _).1, (hhit 0).2, (hforced _).1, (hforced 0).2,
            (hstore _).1, (hstore 0).2, hstrides, Bool.true_and]
          cases lib.reserveResults (strides abi).length &&
              (lib.room abi (strideIterations s) s.rounds).fits with
          | false => rfl
          | true =>
              -- The windows of the plan are counted in whole benchmarks.
              have htwo : ∀ first length : Nat, first + 2 * length = first + length + length := by
                intro first length
                ring
              have hthree : ∀ first length : Nat,
                  first + 3 * length = first + length + length + length := by
                intro first length
                ring
              unfold plannedLatency
              simp only [htwo, hthree]
              rfl

end Analysis

end CommandLine
end LatencyAnalyzer
