import LatencyAnalyzer.CommandLine.Grammar
import LatencyAnalyzer.Latency.History
import LatencyAnalyzer.Numa.Matrix
import LatencyAnalyzer.SharedMemory.Cleanup
import LatencyAnalyzer.Spectre.Fixture

/-!
# Benchmarks — what `main` calls after a command line

Every mode of `main` is a list of calls with their arguments.  A call that throws ends the list
early, so that the list holds every call that can be made.
-/

namespace LatencyAnalyzer
namespace CommandLine

open Cxx

section Benchmarks

variable {abi : Abi}

/-! ## Calls -/

inductive BenchmarkCall (abi : Abi)
  /-- A member function of a `LatencyMeasurer` made for the requested size and node. -/
  | latency (requestedBufferSize : SizeT abi) (numaNode : Int) (call : Latency.Call abi)
  | bandwidth (sizeBytes : SizeT abi) (method : String) (repeats numaNode : Int)
  | crossProcess (iterations warmup producerCpu consumerCpu : Int)
  | operationalLab (runs : Int) (reportPath : Text)
  | evaluationLab (runs traceSamples : Int) (averagingWindow : SizeT abi) (reportPath : Text)
  | computeBenchmark (seconds : Int)
  | spectre (call : Spectre.Call abi)

/-- What `main` learns about the machine. -/
structure Environment where
  numaAvailable : Bool
  nodes : List Numa.NumaNodeInfo
  initiators : List Numa.Initiator
  allowedCpus : List Int
  /-- `CpuInfo::choose_distinct_cpu`. -/
  secondaryCpu : Int

/-- The calls of `run_numa_matrix`. -/
def matrixCalls (env : Environment) (s : Settings abi) : List (BenchmarkCall abi) :=
  env.initiators.flatMap fun _ =>
    env.nodes.flatMap fun node =>
      -- `iterations / 2` and `warmup / 2` round towards zero.
      [.latency s.bufferSize node.id
          (.measureForcedMiss (max 1 (s.iterations.tdiv 2)) (s.warmup.tdiv 2) (max 1 s.rounds)),
        .bandwidth s.bandwidthSize "numa" Config.bandwidthRepeats node.id]

def strides (abi : Abi) : List (SizeT abi) :=
  [64, 256, 1024, 4096, 16384].map (BitVec.ofNat _)

def latencyCalls (s : Settings abi) : List (BenchmarkCall abi) :=
  [Latency.Call.measureHit s.iterations s.warmup s.rounds,
    .measureForcedMiss s.iterations s.warmup s.rounds,
    .measureStore s.iterations s.warmup s.rounds,
    .measureStrides (strides abi) (max 1 (s.iterations.tdiv 2)) (s.warmup.tdiv 2) s.rounds].map
      (.latency s.bufferSize s.numaNode)

def bandwidthCalls (s : Settings abi) : List (BenchmarkCall abi) :=
  if s.runBandwidth then
    if 0 ≤ s.numaNode then
      [.bandwidth s.bandwidthSize "numa" Config.bandwidthRepeats s.numaNode]
    else
      ["mmap", "malloc", "LargePage"].map fun method =>
        .bandwidth s.bandwidthSize method Config.bandwidthRepeats (-1)
  else
    []

def sharedMemoryCalls (env : Environment) (primaryCpu : Int) (s : Settings abi) :
    List (BenchmarkCall abi) :=
  if s.runSharedMemory && 2 ≤ env.allowedCpus.length then
    [.crossProcess s.shmIterations Config.defaultShmWarmup primaryCpu env.secondaryCpu]
  else
    []

inductive MainResult (abi : Abi)
  /-- An entry of `argv` at or past `argc` was read. -/
  | outOfBounds
  /-- `main` returns before any benchmark, and before any file is written. -/
  | exits (status : Int)
  | runs (calls : List (BenchmarkCall abi))

/-- `main` from the first branch on a mode to its end. -/
def runModes (env : Environment) (s : Settings abi) : MainResult abi :=
  -- The modes in the order of the source; the first one that is selected returns.
  if s.runNumaMatrixMode then
    if env.numaAvailable then .runs (matrixCalls env s) else .exits 0
  else if 0 ≤ s.numaNode && !env.numaAvailable then
    .exits 0
  else if s.runOperationalLab then
    .runs [.operationalLab s.operationalRuns s.operationalReport]
  else if s.runEvaluationLab then
    .runs
      [.evaluationLab s.evaluationRuns s.traceSamples (BitVec.ofNat _ s.traceAverage.toNat)
        s.evaluationReport]
  else if s.runCpuCapability then
    .runs [.computeBenchmark s.computeSeconds]
  else if s.runPhase5Lab then
    .runs
      [.spectre (.defensiveLab s.phase5Runs s.spectreTries "phase5_defensive_report.json")]
  else if s.runSpectreLab then
    .runs [.spectre (.runReliabilityLab s.spectreLabRuns s.spectreTries)]
  else if s.runSpectre then
    .runs [.spectre (.runDemo s.spectreTries)]
  else
    match env.allowedCpus with
    | [] => .exits 1
    | primaryCpu :: _ =>
        .runs (latencyCalls s ++ bandwidthCalls s ++ sharedMemoryCalls env primaryCpu s)

def main (env : Environment) (argv : List Text) : MainResult abi :=
  match configure abi argv with
  | .help => .exits 0
  | .rejected _ => .exits 2
  | .outOfBounds => .outOfBounds
  | .parsed s => runModes env s

/-! ## What the callees check -/

/-- The exception that a call on a measurer ends with. -/
def thrownBy (lib : Latency.Library) (o : Latency.LatencyMeasurer abi) :
    Latency.Call abi → Option Latency.Thrown
  | .measureHit iterations warmup rounds =>
      thrown (Latency.measureHit lib iterations warmup rounds o).1
  | .measureForcedMiss iterations warmup rounds =>
      thrown (Latency.measureForcedMiss lib iterations warmup rounds o).1
  | .measureStore iterations warmup rounds =>
      thrown (Latency.measureStore lib iterations warmup rounds o).1
  | .measureStrides strides iterations warmup rounds =>
      thrown (Latency.measureStrides lib strides iterations warmup rounds o).1
where
  thrown {α : Type} : Except Latency.Thrown α → Option Latency.Thrown
    | .ok _ => none
    | .error what => some what

/-- The callee finds nothing wrong with the numbers it is given.  A measurer may have been used
before; where the callee has only a guard on its numbers, it is the guard that must not hold. -/
def BenchmarkCall.Accepted : BenchmarkCall abi → Prop
  | .latency requested numaNode call =>
      ∀ (sys : Latency.System) (lineSize : SizeT abi) (o : Latency.LatencyMeasurer abi)
        (lib : Latency.Library) (earlier : List (Latency.Call abi)) (what : String),
        Latency.construct sys requested lineSize numaNode = .ok o →
          thrownBy lib (Latency.runCalls lib o earlier) call ≠ some (.invalidArgument what)
  | .bandwidth sizeBytes _ repeats _ => ¬ (sizeBytes = 0 ∨ repeats ≤ 0)
  | .crossProcess iterations warmup producerCpu consumerCpu =>
      ∀ (w : SharedMemory.World) (fuel : Nat) (result : SharedMemory.SharedMemoryResult)
        (log : List (Lib.Entry SharedMemory.Resource)),
        SharedMemory.measureCrossProcess w fuel iterations warmup producerCpu consumerCpu =
            some (.returned result, log) →
          result.errorMessage ≠ "Invalid shared-memory iteration configuration"
  | .operationalLab runs _ => ¬ runs ≤ 0
  | .evaluationLab runs traceSamples averagingWindow _ =>
      ¬ (runs ≤ 0 ∨ traceSamples ≤ 0 ∨ averagingWindow = 0)
  | .computeBenchmark seconds => 0 < seconds
  | .spectre (.defensiveLab runs triesPerByte _) => ¬ (runs ≤ 0 ∨ triesPerByte ≤ 0)
  | .spectre (.runReliabilityLab runs triesPerByte) => ¬ (runs ≤ 0 ∨ triesPerByte ≤ 0)
  | .spectre (.runDemo tries) => ¬ tries ≤ 0
  | .spectre (.readByte _ tries) => ¬ tries ≤ 0
  | .spectre (.readString _ _ tries) => ¬ tries ≤ 0

/-! ## Legal numbers are accepted -/

theorem report_accepts (lib : Latency.Library) (label : String) (iterations rounds : Int)
    (measured : Latency.LatencyMeasurer abi → List ℚ × Latency.LatencyMeasurer abi)
    (o : Latency.LatencyMeasurer abi) (what : String) :
    thrownBy.thrown (Latency.report lib label iterations rounds measured o).1 ≠
      some (.invalidArgument what) := by
  unfold Latency.report
  dsimp only
  split
  · split <;> simp [thrownBy.thrown]
  · simp [thrownBy.thrown]

theorem measureStridesLoop_accepts (lib : Latency.Library) (iterations warmup rounds : Int)
    (strides : List (SizeT abi)) (results : List (Latency.MeasurementResult abi))
    (o : Latency.LatencyMeasurer abi) (what : String) :
    thrownBy.thrown (Latency.measureStridesLoop lib iterations warmup rounds strides results o).1 ≠
      some (.invalidArgument what) := by
  induction strides generalizing results o with
  | nil => simp [Latency.measureStridesLoop, thrownBy.thrown]
  | cons rawStride strides ih =>
      have hone : thrownBy.thrown
          (Latency.measureStride lib rawStride iterations warmup rounds o).1 ≠
            some (.invalidArgument what) := by
        unfold Latency.measureStride
        exact report_accepts lib _ iterations rounds _ _ what
      unfold Latency.measureStridesLoop
      generalize Latency.measureStride lib rawStride iterations warmup rounds o = outcome at hone ⊢
      rcases outcome with ⟨thrown | result, o'⟩
      · simpa [thrownBy.thrown] using hone
      · exact ih _ _

/-- The numbers of a call on a measurer. -/
def LegalNumbers : Latency.Call abi → Prop
  | .measureHit iterations warmup rounds
  | .measureForcedMiss iterations warmup rounds
  | .measureStore iterations warmup rounds
  | .measureStrides _ iterations warmup rounds => 0 < iterations ∧ 0 ≤ warmup ∧ 0 < rounds

theorem thrownBy_accepts (lib : Latency.Library) {o : Latency.LatencyMeasurer abi}
    (hcount : 64 ≤ o.nodeCount) {call : Latency.Call abi} (hcall : LegalNumbers call)
    (what : String) : thrownBy lib o call ≠ some (.invalidArgument what) := by
  cases call with
  | measureHit iterations warmup rounds =>
      rcases hcall with ⟨hiterations, hwarmup, hrounds⟩
      have hguard : ¬ (iterations ≤ 0 ∨ warmup < 0 ∨ rounds ≤ 0) := by omega
      simp only [thrownBy, Latency.measureHit, if_neg hguard]
      exact report_accepts lib _ iterations rounds _ _ what
  | measureForcedMiss iterations warmup rounds =>
      rcases hcall with ⟨hiterations, hwarmup, hrounds⟩
      have hguard : ¬ (iterations ≤ 0 ∨ warmup < 0 ∨ rounds ≤ 0 ∨ o.nodeCount < 64) := by omega
      simp only [thrownBy, Latency.measureForcedMiss, if_neg hguard]
      split
      · exact report_accepts lib _ iterations rounds _ _ what
      · simp [thrownBy.thrown]
  | measureStore iterations warmup rounds =>
      rcases hcall with ⟨hiterations, hwarmup, hrounds⟩
      have hguard : ¬ (iterations ≤ 0 ∨ warmup < 0 ∨ rounds ≤ 0) := by omega
      simp only [thrownBy, Latency.measureStore, if_neg hguard]
      exact report_accepts lib _ iterations rounds _ _ what
  | measureStrides strides iterations warmup rounds =>
      rcases hcall with ⟨hiterations, hwarmup, hrounds⟩
      have hguard : ¬ (iterations ≤ 0 ∨ warmup < 0 ∨ rounds ≤ 0) := by omega
      simp only [thrownBy, Latency.measureStrides, if_neg hguard]
      split
      · exact measureStridesLoop_accepts lib iterations warmup rounds strides [] o what
      · simp [thrownBy.thrown]

theorem latency_accepted (requested : SizeT abi) (numaNode : Int) {call : Latency.Call abi}
    (hcall : LegalNumbers call) : BenchmarkCall.Accepted (.latency requested numaNode call) := by
  intro sys lineSize o lib earlier what hconstruct
  have hconstructed := Latency.constructed_construct hconstruct
  have hperforms := Latency.performs_runCalls lib earlier hconstructed.sound
  have hminimum := Latency.minimum_le_bufferSizeFor requested.toNat
  -- The guard on 64 nodes is on the buffer, which is never as small as that.
  have hcount : 64 ≤ (Latency.runCalls lib o earlier).nodeCount := by
    rw [hperforms.layout.nodeCount, hconstructed.nodeCount]
    unfold Config.minBufferSize at hminimum
    unfold Latency.nodeSize
    omega
  exact thrownBy_accepts lib hcount hcall what

theorem crossProcess_accepted {iterations warmup : Int} (hiterations : 0 < iterations)
    (hwarmup : 0 ≤ warmup) (producerCpu consumerCpu : Int) :
    @BenchmarkCall.Accepted abi (.crossProcess iterations warmup producerCpu consumerCpu) := by
  intro w fuel result log h hinvalid
  have hmessage : result.errorMessage ∈ SharedMemory.earlyMessages ∨
      result.errorMessage ∈ SharedMemory.parentMessages := by
    -- All messages but the one for the numbers are left, at the exits before and after the fork.
    rcases SharedMemory.measureCrossProcess_cases h with
      ⟨_, _, hearly⟩ | ⟨_, pid, started, run, _, _, hrun, hout⟩
    · exact Or.inl ((hearly result rfl).2.2 hiterations hwarmup)
    · rcases SharedMemory.runParent_cases hrun with ⟨_, what, rfl⟩ | ⟨_, steps, _, hin⟩
      · cases hout
      · exact Or.inr (hin result (Prod.mk.inj hout).1.symm)
  rw [hinvalid] at hmessage
  simp [SharedMemory.earlyMessages, SharedMemory.parentMessages] at hmessage

end Benchmarks

end CommandLine
end LatencyAnalyzer
