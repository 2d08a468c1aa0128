import LatencyAnalyzer.Config
import LatencyAnalyzer.Cxx.Text

/-!
# Options — the option loop of `main`

The loop walks over `argv` with one index, and its helpers move the same index.  Every access to
`argv` goes through `argv[i]?`, so that an access at or past `argc` is a result of its own.
-/

namespace LatencyAnalyzer
namespace CommandLine

open Cxx

/-! ## Settings -/

/-- The variables that `main` declares before the loop. -/
structure Settings (abi : Abi) where
  rounds : Int := Config.defaultRounds
  iterations : Int := Config.defaultIterations
  warmup : Int := Config.defaultWarmup
  shmIterations : Int := Config.defaultShmIterations
  spectreTries : Int := 999
  spectreLabRuns : Int := 5
  phase5Runs : Int := 5
  computeSeconds : Int := 1
  evaluationRuns : Int := 3
  traceSamples : Int := 2048
  traceAverage : Int := 4
  operationalRuns : Int := 3
  numaNode : Int := -1
  bufferSize : SizeT abi := 0
  bandwidthSize : SizeT abi := BitVec.ofNat _ Config.defaultBandwidthSize
  runBandwidth : Bool := true
  runSharedMemory : Bool := true
  runSpectre : Bool := false
  runSpectreLab : Bool := false
  runPhase5Lab : Bool := false
  runCpuCapability : Bool := false
  runEvaluationLab : Bool := false
  runOperationalLab : Bool := false
  quiet : Bool := false
  verbose : Bool := false
  runNumaMatrixMode : Bool := false
  csvFile : Text := []
  evaluationReport : Text := "evaluation_lab_report.json".toList
  operationalReport : Text := "operational_lab_report.json".toList

/-! ## The options -/

inductive OptionName
  | help
  | spectre
  | quiet
  | verbose
  | noBandwidth
  | noSharedMemory
  | rounds
  | iterations
  | warmup
  | shmIterations
  | numaNode
  | numaMatrix
  | bufferMib
  | bandwidthMib
  | spectreLab
  | labRuns
  | phase5Lab
  | phase5Runs
  | cpuCapability
  | computeSeconds
  | evaluationLab
  | evaluationRuns
  | traceSamples
  | traceAverage
  | evaluationReport
  | operationalLab
  | operationalRuns
  | operationalReport
  | spectreTries
  | csv
  deriving DecidableEq, Repr

namespace OptionName

/-- In the order of the comparisons. -/
def all : List OptionName :=
  [help, spectre, quiet, verbose, noBandwidth, noSharedMemory, rounds, iterations, warmup,
    shmIterations, numaNode, numaMatrix, bufferMib, bandwidthMib, spectreLab, labRuns, phase5Lab,
    phase5Runs, cpuCapability, computeSeconds, evaluationLab, evaluationRuns, traceSamples,
    traceAverage, evaluationReport, operationalLab, operationalRuns, operationalReport,
    spectreTries, csv]

def literal : OptionName → String
  | help => "--help"
  | spectre => "--spectre"
  | quiet => "--quiet"
  | verbose => "--verbose"
  | noBandwidth => "--no-bandwidth"
  | noSharedMemory => "--no-shared-memory"
  | rounds => "--rounds"
  | iterations => "--iterations"
  | warmup => "--warmup"
  | shmIterations => "--shm-iterations"
  | numaNode => "--numa-node"
  | numaMatrix => "--numa-matrix"
  | bufferMib => "--buffer-mib"
  | bandwidthMib => "--bandwidth-mib"
  | spectreLab => "--spectre-lab"
  | labRuns => "--lab-runs"
  | phase5Lab => "--phase5-lab"
  | phase5Runs => "--phase5-runs"
  | cpuCapability => "--cpu-capability"
  | computeSeconds => "--compute-seconds"
  | evaluationLab => "--evaluation-lab"
  | evaluationRuns => "--evaluation-runs"
  | traceSamples => "--trace-samples"
  | traceAverage => "--trace-average"
  | evaluationReport => "--evaluation-report"
  | operationalLab => "--operational-lab"
  | operationalRuns => "--operational-runs"
  | operationalReport => "--operational-report"
  | spectreTries => "--spectre-tries"
  | csv => "--csv"

/-- The argument that selects the option. -/
def arg (name : OptionName) : Text :=
  name.literal.toList

/-- The chain of comparisons `arg == "--help"`, `arg == "--spectre"`, …. -/
def lookup (arg : Text) : Option OptionName :=
  all.find? fun name => name.arg == arg

end OptionName

/-- What an option does with the arguments after it. -/
inductive OptionKind (abi : Abi)
  | help
  | flag (set : Settings abi → Settings abi)
  /-- `consume_int`, and a check of the value at the option. -/
  | int (set : Int → Settings abi → Settings abi) (accepts : Int → Bool)
  /-- `consume_size_mib`. -/
  | sizeMib (set : SizeT abi → Settings abi → Settings abi)
  | file (set : Text → Settings abi → Settings abi)

def anyInt (_ : Int) : Bool := true

def nonNegative (value : Int) : Bool := !decide (value < 0)

def positive (value : Int) : Bool := !decide (value ≤ 0)

def OptionName.kind {abi : Abi} : OptionName → OptionKind abi
  | .help => .help
  | .spectre => .flag fun s => { s with runSpectre := true }
  | .quiet => .flag fun s => { s with quiet := true }
  | .verbose => .flag fun s => { s with verbose := true }
  | .noBandwidth => .flag fun s => { s with runBandwidth := false }
  | .noSharedMemory => .flag fun s => { s with runSharedMemory := false }
  | .rounds => .int (fun value s => { s with rounds := value }) anyInt
  | .iterations => .int (fun value s => { s with iterations := value }) anyInt
  | .warmup => .int (fun value s => { s with warmup := value }) anyInt
  | .shmIterations => .int (fun value s => { s with shmIterations := value }) anyInt
  | .numaNode => .int (fun value s => { s with numaNode := value }) nonNegative
  | .numaMatrix => .flag fun s => { s with runNumaMatrixMode := true }
  | .bufferMib => .sizeMib fun size s => { s with bufferSize := size }
  | .bandwidthMib => .sizeMib fun size s => { s with bandwidthSize := size }
  | .spectreLab => .flag fun s => { s with runSpectreLab := true }
  | .labRuns => .int (fun value s => { s with spectreLabRuns := value }) positive
  | .phase5Lab => .flag fun s => { s with runPhase5Lab := true }
  | .phase5Runs => .int (fun value s => { s with phase5Runs := value }) positive
  | .cpuCapability => .flag fun s => { s with runCpuCapability := true }
  | .computeSeconds => .int (fun value s => { s with computeSeconds := value }) positive
  | .evaluationLab => .flag fun s => { s with runEvaluationLab := true }
  | .evaluationRuns => .int (fun value s => { s with evaluationRuns := value }) positive
  | .traceSamples => .int (fun value s => { s with traceSamples := value }) positive
  | .traceAverage => .int (fun value s => { s with traceAverage := value }) positive
  | .evaluationReport => .file fun path s => { s with evaluationReport := path }
  | .operationalLab => .flag fun s => { s with runOperationalLab := true }
  | .operationalRuns => .int (fun value s => { s with operationalRuns := value }) positive
  | .operationalReport => .file fun path s => { s with operationalReport := path }
  | .spectreTries => .int (fun value s => { s with spectreTries := value }) positive
  | .csv => .file fun path s => { s with csvFile := path }

/-! ## Reading values -/

def parseInt (text : Text) : Option Int :=
  if text = [] then none
  else
    match Text.fromChars text with
    | .ok value rest => if rest = [] then some value else none
    | .outOfRange _ => none
    | .invalidArgument => none

/-- The result of a helper that moves the index. -/
inductive Consumed (α : Type)
  | outOfBounds
  | failed
  | value (v : α) (index : Nat)

def consumeInt (argv : List Text) (index : Nat) : Consumed Int :=
  -- `argc` is the length of `argv`; the test comes before the index moves.
  if index + 1 ≥ argv.length then .failed
  else
    match argv[index + 1]? with
    | none => .outOfBounds
    | some text =>
        match parseInt text with
        | none => .failed
        | some value => .value value (index + 1)

/-- `static_cast<std::size_t>(value) * 1024 * 1024`. -/
def mibToBytes (abi : Abi) (value : Int) : SizeT abi :=
  BitVec.ofNat _ value.toNat * BitVec.ofNat _ 1024 * BitVec.ofNat _ 1024

def consumeSizeMib (abi : Abi) (argv : List Text) (index : Nat) : Consumed (SizeT abi) :=
  match consumeInt argv index with
  | .outOfBounds => .outOfBounds
  | .failed => .failed
  | .value value index => if value ≤ 0 then .failed else .value (mibToBytes abi value) index

/-! ## The loop -/

inductive Outcome (abi : Abi)
  /-- The help text is printed and `main` returns 0. -/
  | help
  /-- A message is printed to `std::cerr` and `main` returns 2. -/
  | rejected (message : Text)
  /-- An entry of `argv` at or past `argc` was read. -/
  | outOfBounds
  | parsed (settings : Settings abi)

inductive Step (abi : Abi)
  | stop (outcome : Outcome abi)
  | next (index : Nat) (settings : Settings abi)

section Loop

variable {abi : Abi}

def invalidValue (name : OptionName) : Step abi :=
  .stop (.rejected ("Invalid ".toList ++ name.arg ++ " value\n".toList))

def missingFilename (name : OptionName) : Step abi :=
  .stop (.rejected ("Missing ".toList ++ name.arg ++ " filename\n".toList))

/-- The branch of one option; `next` holds the index before `++i`. -/
def optionBranch (argv : List Text) (i : Nat) (name : OptionName) (settings : Settings abi) :
    Step abi :=
  match name.kind with
  | .help => .stop .help
  | .flag set => .next i (set settings)
  | .int set accepts =>
      match consumeInt argv i with
      | .outOfBounds => .stop .outOfBounds
      | .failed => invalidValue name
      | .value value j =>
          -- The variable is assigned before it is checked, but `main` returns if the check fails.
          if accepts value then .next j (set value settings) else invalidValue name
  | .sizeMib set =>
      match consumeSizeMib abi argv i with
      | .outOfBounds => .stop .outOfBounds
      | .failed => invalidValue name
      | .value size j => .next j (set size settings)
  | .file set =>
      if i + 1 ≥ argv.length then missingFilename name
      else
        match argv[i + 1]? with
        | none => .stop .outOfBounds
        | some path => .next (i + 1) (set path settings)

/-- The body of the loop. -/
def optionStep (argv : List Text) (i : Nat) (settings : Settings abi) : Step abi :=
  match argv[i]? with
  | none => .stop .outOfBounds
  | some arg =>
      match OptionName.lookup arg with
      -- The end of the chain of comparisons.
      | none => .stop (.rejected ("Unknown option: ".toList ++ arg ++ "\n".toList))
      | some name => optionBranch argv i name settings

theorem consumeInt_index {argv : List Text} {i j : Nat} {v : Int}
    (h : consumeInt argv i = .value v j) : j = i + 1 := by
  unfold consumeInt at h
  split at h
  · cases h
  · split at h
    · cases h
    · split at h
      · cases h
      · cases h
        rfl

theorem consumeSizeMib_index {argv : List Text} {i j : Nat} {size : SizeT abi}
    (h : consumeSizeMib abi argv i = .value size j) : j = i + 1 := by
  unfold consumeSizeMib at h
  split at h
  · cases h
  · cases h
  · rename_i hconsume
    split at h
    · cases h
    · cases h
      exact consumeInt_index hconsume

/-- The index never moves backwards. -/
theorem optionBranch_index {argv : List Text} {i j : Nat} {name : OptionName}
    {settings settings' : Settings abi}
    (h : optionBranch argv i name settings = .next j settings') : i ≤ j := by
  unfold optionBranch at h
  split at h
  · cases h
  · cases h
    exact Nat.le_refl i
  · split at h
    · cases h
    · cases h
    · rename_i hconsume
      split at h
      · cases h
        rw [consumeInt_index hconsume]
        exact Nat.le_succ i
      · cases h
  · split at h
    · cases h
    · cases h
    · rename_i hconsume
      cases h
      rw [consumeSizeMib_index hconsume]
      exact Nat.le_succ i
  · split at h
    · cases h
    · split at h
      · cases h
      · cases h
        exact Nat.le_succ i

theorem optionStep_next {argv : List Text} {i j : Nat} {settings settings' : Settings abi}
    (h : optionStep argv i settings = .next j settings') :
    ∃ name, optionBranch argv i name settings = .next j settings' := by
  unfold optionStep at h
  split at h
  · cases h
  · split at h
    · cases h
    · exact ⟨_, h⟩

/-- `for (int i = 1; i < argc; ++i)`, from the index `i` on. -/
def optionLoop (argv : List Text) (i : Nat) (settings : Settings abi) : Outcome abi :=
  if i < argv.length then
    match hstep : optionStep argv i settings with
    | .stop outcome => outcome
    -- `++i`, from wherever a helper has moved the index.
    | .next j settings' => optionLoop argv (j + 1) settings'
  else
    .parsed settings
termination_by argv.length - i
decreasing_by
  rcases optionStep_next hstep with ⟨name, hbranch⟩
  have hle := optionBranch_index hbranch
  omega

/-! ## The checks after the loop -/

/-- The condition of the joint check. -/
def invalidNumericConfiguration (s : Settings abi) : Bool :=
  s.rounds ≤ 0 || s.iterations ≤ 0 || s.warmup < 0 ||
    (s.runSharedMemory && s.shmIterations ≤ 0) || s.spectreTries ≤ 0 ||
    (s.runSpectreLab && s.spectreLabRuns ≤ 0) || (s.runPhase5Lab && s.phase5Runs ≤ 0) ||
    (s.runCpuCapability && s.computeSeconds ≤ 0) ||
    (s.runEvaluationLab &&
      (s.evaluationRuns ≤ 0 || s.traceSamples ≤ 0 || s.traceAverage ≤ 0)) ||
    (s.runOperationalLab && s.operationalRuns ≤ 0)

/-- `main` up to the first branch on a mode. -/
def configure (abi : Abi) (argv : List Text) : Outcome abi :=
  match optionLoop argv 1 ({} : Settings abi) with
  | .parsed s =>
      -- The two checks look at the final values, whatever was assigned on the way.
      if 0 ≤ s.numaNode && s.runNumaMatrixMode then
        .rejected "--numa-node and --numa-matrix are mutually exclusive\n".toList
      else if invalidNumericConfiguration s then
        .rejected "Invalid numeric configuration\n".toList
      else
        .parsed s
  | outcome => outcome

end Loop

end CommandLine
end LatencyAnalyzer
