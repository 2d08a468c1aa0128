import Mathlib.Data.Rat.Floor
import Mathlib.Data.Rat.Sqrt
import LatencyAnalyzer.Cxx.Machine
import LatencyAnalyzer.Statistics

/-!
# Fixture — the self-contained Spectre V1 demonstration

The process-wide arrays of `spectre_v1.cpp` are the fields of `Machine`.  What the processor adds
is the stream `timing`: the outcome `end - start` of each timed access, in the order in which the
program takes them.  Every timed section consumes one outcome, so a run is determined by the
memory, the stream and the arguments of the call.

`trace` is a ghost: the architectural accesses of `array1` and the calls that reach it, latest
first.  `clflush`, fences and the delay loop change no architectural state and are not recorded.
-/

namespace LatencyAnalyzer
namespace Spectre

open Cxx

/-! ## Constants -/

def kArchitecturalArraySize : Nat := 16
def kArrayStorage : Nat := 160
def kProbeStride : Nat := 4096
def kProbeValues : Nat := 256
def kCalibrationSamples : Nat := 1000
def kTrainingIterations : Nat := 30
def kTrainingEvery : Nat := 6

instance : NeZero kProbeValues := ⟨by decide⟩

/-- `kSecret` with its terminating zero. -/
def kSecret : List UInt8 :=
  ("The Magic Words are Squeamish Ossifrage.".toList.map fun c => UInt8.ofNat c.toNat) ++ [0]

/-- `sizeof(kSecret) - 1`. -/
def kSecretLength : Nat := kSecret.length - 1

/-! ## The process -/

inductive Event (abi : Abi)
  /-- `victim_function(x)` is called. -/
  | victim (x : SizeT abi)
  /-- `train_and_attack(maliciousX, _)` is called. -/
  | attack (maliciousX : SizeT abi)
  /-- `read_string_impl` computes `maliciousX = start_offset + i`. -/
  | element (startOffset i maliciousX : SizeT abi)
  /-- `array1[x]` is architecturally loaded. -/
  | loadArray1 (x : SizeT abi)
  deriving DecidableEq

structure Machine (abi : Abi) where
  array1 : Nat → UInt8
  array1Size : SizeT abi
  array2 : Nat → UInt8
  temp : UInt8
  timing : Nat → UInt64
  /-- Number of timed sections executed so far. -/
  clock : Nat
  trace : List (Event abi)

/-- The static initializers, on a processor that will produce the outcomes `timing`. -/
def Machine.init (abi : Abi) (timing : Nat → UInt64) : Machine abi :=
  { array1 := fun _ => 0
    array1Size := BitVec.ofNat _ kArchitecturalArraySize
    array2 := fun _ => 0
    temp := 0
    timing := timing
    clock := 0
    trace := [] }

section Process

variable {abi : Abi}

def Machine.emit (m : Machine abi) (e : Event abi) : Machine abi :=
  { m with trace := e :: m.trace }

/-- `temp ^= array2[index]`. -/
def Machine.touch (m : Machine abi) (index : Nat) : Machine abi :=
  { m with temp := m.temp ^^^ m.array2 index }

/-- `start = read_tsc_start(); temp ^= array2[index]; end = read_tsc_end()`. -/
def Machine.timedTouch (m : Machine abi) (index : Nat) : UInt64 × Machine abi :=
  (m.timing m.clock, { m.touch index with clock := m.clock + 1 })

/-! ## Threshold calibration -/

def calibrationSample (st : (List UInt64 × List UInt64) × Machine abi) :
    (List UInt64 × List UInt64) × Machine abi :=
  -- The line is hot after the untimed access, and flushed before the second timed one.
  let hit := (st.2.touch 0).timedTouch 0
  let miss := hit.2.timedTouch 0
  ((st.1.1 ++ [hit.1], st.1.2 ++ [miss.1]), miss.2)

/-- The loop of `calibrate_threshold`. -/
@[irreducible] def calibrationLoop (m : Machine abi) : (List UInt64 × List UInt64) × Machine abi :=
  (List.range kCalibrationSamples).foldl (fun st _ => calibrationSample st) (([], []), m)

/-- The threshold computed from the collected times.  The standard deviation of the two summaries
is not read, so `Rat.sqrt` stands in for it. -/
def thresholdOf (hits misses : List UInt64) : UInt64 :=
  let hit := Statistics.summarizeTicks Rat.sqrt hits
  let miss := Statistics.summarizeTicks Rat.sqrt misses
  let hitP99 := UInt64.ofNat ⌊hit.p99⌋₊
  let missMedian := UInt64.ofNat ⌊miss.median⌋₊
  if missMedian > hitP99 + 10 then
    (hitP99 + missMedian) / 2
  else
    hitP99 + 20

def calibrateThreshold (m : Machine abi) : UInt64 × Machine abi :=
  let samples := calibrationLoop m
  (thresholdOf samples.1.1 samples.1.2, samples.2)

/-! ## Victim and attack -/

def victimFunction (m : Machine abi) (x : SizeT abi) : Machine abi :=
  let m := m.emit (.victim x)
  if x < m.array1Size then
    let m := m.emit (.loadArray1 x)
    let value := (m.array1 x.toNat).toNat
    { m with temp := m.temp &&& m.array2 (value * kProbeStride) }
  else
    m

@[irreducible] def trainAndAttack (m : Machine abi) (maliciousX : SizeT abi) (attempt : Nat) :
    Machine abi :=
  let trainingX : SizeT abi := BitVec.ofNat _ (attempt % kArchitecturalArraySize)
  (List.range kTrainingIterations).foldl
    (fun m j =>
      -- Five training calls, then one with the malicious index.
      let attackSlot := j % kTrainingEvery = kTrainingEvery - 1
      victimFunction m (if attackSlot then maliciousX else trainingX))
    (m.emit (.attack maliciousX))

/-! ## Scores -/

structure CandidateScores where
  score : Fin kProbeValues → Int

def CandidateScores.zero : CandidateScores :=
  { score := fun _ => 0 }

/-- `++scores.score[i]`. -/
def CandidateScores.bump (scores : CandidateScores) (i : Fin kProbeValues) : CandidateScores :=
  { score := Function.update scores.score i (scores.score i + 1) }

def mixed (i : Nat) : Fin kProbeValues :=
  ⟨(i * 167 + 13) % 256, Nat.mod_lt _ (by decide)⟩

/-- The body of the loop of `score_reload`. -/
def probe (threshold : UInt64) (st : CandidateScores × Machine abi) (i : Nat) :
    CandidateScores × Machine abi :=
  let elapsed := st.2.timedTouch ((mixed i).val * kProbeStride)
  (if elapsed.1 ≤ threshold then st.1.bump (mixed i) else st.1, elapsed.2)

@[irreducible] def scoreReload (st : CandidateScores × Machine abi) (threshold : UInt64) :
    CandidateScores × Machine abi :=
  (List.range kProbeValues).foldl (probe threshold) st

structure SpectreResult where
  guessedValue : UInt8
  score : Int
  secondScore : Int
  thresholdCycles : UInt64
  confidence : ℚ
  attempts : Int
  success : Bool
  deriving DecidableEq

/-- `SpectreResult{}`. -/
def SpectreResult.empty : SpectreResult :=
  { guessedValue := 0
    score := 0
    secondScore := 0
    thresholdCycles := 0
    confidence := 0
    attempts := 0
    success := false }

/-- The body of the loop of `analyze_scores` on the cursors `(best, second)`. -/
def analyzeStep (score : Fin kProbeValues → Int) (cursors : Fin kProbeValues × Fin kProbeValues)
    (i : Fin kProbeValues) : Fin kProbeValues × Fin kProbeValues :=
  let (best, second) := cursors
  let value := score i
  if score best < value then
    (i, best)
  else if i ≠ best ∧ score second < value then
    (best, i)
  else
    (best, second)

/-- The loop of `analyze_scores`; both cursors start on candidate 0. -/
def analyzeLoop (score : Fin kProbeValues → Int) : Fin kProbeValues × Fin kProbeValues :=
  (List.finRange kProbeValues).tail.foldl (analyzeStep score) (0, 0)

def analyzeScores (scores : CandidateScores) (threshold : UInt64) (attempts : Int) :
    SpectreResult :=
  let best := (analyzeLoop scores.score).1
  let second := (analyzeLoop scores.score).2
  let bestScore := scores.score best
  let secondScore := scores.score second
  -- The differences and sums are taken in `int`.
  let gap := wrapInt (bestScore - secondScore)
  let confidence : ℚ := if 0 < attempts then max 0 ((gap : ℚ) / (attempts : ℚ)) else 0
  let separated := wrapInt (wrapInt (2 * secondScore) + 5) ≤ bestScore
  let enoughEvidence := max 5 (attempts.tdiv 40) ≤ bestScore
  { guessedValue := UInt8.ofNat best.val
    score := bestScore
    secondScore := secondScore
    thresholdCycles := threshold
    confidence := confidence
    attempts := attempts
    success := decide separated && decide enoughEvidence }

/-! ## Reading one byte -/

/-- The loop of `read_byte_with_threshold`. -/
@[irreducible] def attemptLoop (m : Machine abi) (maliciousX : SizeT abi) (tries : Int)
    (threshold : UInt64) : CandidateScores × Machine abi :=
  (List.range tries.toNat).foldl
    (fun st attempt => scoreReload (st.1, trainAndAttack st.2 maliciousX attempt) threshold)
    (CandidateScores.zero, m)

def readByteWithThreshold (m : Machine abi) (maliciousX : SizeT abi) (tries : Int)
    (threshold : UInt64) : SpectreResult × Machine abi :=
  let loop := attemptLoop m maliciousX tries threshold
  (analyzeScores loop.1 threshold tries, loop.2)

/-- The attempt count of the second measurement. -/
def retryTries (tries : Int) : Int :=
  min (wrapInt (tries * 3)) 5000

def retryIfUncertain (m : Machine abi) (maliciousX : SizeT abi) (tries : Int)
    (threshold : UInt64) : SpectreResult × Machine abi :=
  let first := readByteWithThreshold m maliciousX tries threshold
  if first.1.success then
    first
  else
    let second := readByteWithThreshold first.2 maliciousX (retryTries tries) threshold
    -- Both measurements have been made; the better score wins, the first one on a tie.
    (if first.1.score < second.1.score then second.1 else first.1, second.2)

/-! ## The public interface

The functions below take the routine that recovers one byte as an argument.  The program passes
`retryIfUncertain`; other routines describe an idealized side channel.
-/

abbrev Retry (abi : Abi) : Type :=
  Machine abi → SizeT abi → Int → UInt64 → SpectreResult × Machine abi

def readByte (retry : Retry abi) (m : Machine abi) (maliciousX : SizeT abi) (tries : Int) :
    SpectreResult × Machine abi :=
  if tries ≤ 0 ∨ maliciousX < BitVec.ofNat _ kArchitecturalArraySize ∨
      BitVec.ofNat _ kArrayStorage ≤ maliciousX then
    (SpectreResult.empty, m)
  else
    let threshold := calibrateThreshold m
    retry threshold.2 maliciousX tries threshold.1

/-- `'?'`. -/
def unknownByte : UInt8 := 63

/-- One iteration of the loop of `read_string_impl`. -/
def readElement (retry : Retry abi) (startOffset : SizeT abi) (tries : Int) (threshold : UInt64)
    (st : List UInt8 × Machine abi) (i : Nat) : List UInt8 × Machine abi :=
  let maliciousX := startOffset + BitVec.ofNat _ i
  let m := st.2.emit (.element startOffset (BitVec.ofNat _ i) maliciousX)
  let value := retry m maliciousX tries threshold
  (st.1 ++ [if value.1.success then value.1.guessedValue else unknownByte], value.2)

def readStringImpl (retry : Retry abi) (m : Machine abi) (startOffset length : SizeT abi)
    (tries : Int) : List UInt8 × Machine abi :=
  if tries ≤ 0 ∨ startOffset < BitVec.ofNat _ kArchitecturalArraySize ∨
      BitVec.ofNat _ kArrayStorage < startOffset ∨
      BitVec.ofNat _ kArrayStorage - startOffset < length then
    ([], m)
  else
    -- One threshold for the whole string, and one retry routine call for each element.
    let threshold := calibrateThreshold m
    (List.range length.toNat).foldl (readElement retry startOffset tries threshold.1)
      ([], threshold.2)

def readString (retry : Retry abi) (m : Machine abi) (startOffset length : SizeT abi)
    (tries : Int) : List UInt8 × Machine abi :=
  readStringImpl retry m startOffset length tries

/-- `std::memcpy(array + offset, bytes, bytes.size())`. -/
def memcpy (array : Nat → UInt8) (offset : Nat) (bytes : List UInt8) : Nat → UInt8 :=
  fun i => if offset ≤ i ∧ i < offset + bytes.length then bytes.getD (i - offset) 0 else array i

/-- The part of `run_demo` that fills `array1`. -/
def loadFixture (array1 : Nat → UInt8) : Nat → UInt8 :=
  memcpy
    (fun i => if i < kArchitecturalArraySize then UInt8.ofNat (i + 1) else array1 i)
    kArchitecturalArraySize kSecret

/-- The loop of `run_demo` that touches one byte of every probe page. -/
@[irreducible] def touchProbes (m : Machine abi) : Machine abi :=
  (List.range kProbeValues).foldl (fun m i => m.touch (i * kProbeStride)) m

def runDemo (retry : Retry abi) (m : Machine abi) (tries : Int) : Machine abi :=
  if tries ≤ 0 then
    m
  else
    let m := { m with array1 := loadFixture m.array1 }
    (readString retry (touchProbes m) (BitVec.ofNat _ kArchitecturalArraySize)
      (BitVec.ofNat _ kSecretLength) tries).2

structure SpectreLabResult (abi : Abi) where
  runs : Int
  triesPerByte : Int
  secretLength : Nat
  exactMatches : Int
  correctBytes : SizeT abi
  totalBytes : SizeT abi
  perByteCorrectRuns : List Int
  deriving DecidableEq

/-- `i < recovered.size() && recovered[i] == kSecret[i]`. -/
def byteCorrect (recovered : List UInt8) (i : Nat) : Bool :=
  i < recovered.length && recovered.getD i 0 == kSecret.getD i 0

/-- The bookkeeping of one run of the lab on the recovered string. -/
def SpectreLabResult.record (result : SpectreLabResult abi) (recovered : List UInt8) :
    SpectreLabResult abi :=
  let exact := recovered.length == result.secretLength &&
    recovered == kSecret.take result.secretLength
  let result :=
    if exact then { result with exactMatches := result.exactMatches + 1 } else result
  let result :=
    { result with
      correctBytes :=
        result.correctBytes +
          BitVec.ofNat _ ((List.range result.secretLength).countP (byteCorrect recovered)) }
  -- The vector is sized in the first run only.
  let perByte :=
    if result.perByteCorrectRuns.length = result.secretLength then result.perByteCorrectRuns
    else List.replicate result.secretLength 0
  { result with
    perByteCorrectRuns :=
      perByte.mapIdx fun i count => if byteCorrect recovered i then count + 1 else count }

/-- The result before the first run; `total_bytes` is a product of `size_t` values. -/
def SpectreLabResult.start (abi : Abi) (runs triesPerByte : Int) : SpectreLabResult abi :=
  { runs := runs
    triesPerByte := triesPerByte
    secretLength := kSecretLength
    exactMatches := 0
    correctBytes := 0
    totalBytes := BitVec.ofNat _ kSecretLength * BitVec.ofNat _ (max 0 runs).toNat
    perByteCorrectRuns := [] }

/-- One run of the lab: the secret is read once and the recovered string recorded. -/
def labRun (retry : Retry abi) (triesPerByte : Int) (st : SpectreLabResult abi × Machine abi) :
    SpectreLabResult abi × Machine abi :=
  let recovered := readStringImpl retry st.2 (BitVec.ofNat _ kArchitecturalArraySize)
    (BitVec.ofNat _ st.1.secretLength) triesPerByte
  (st.1.record recovered.1, recovered.2)

def runReliabilityLab (retry : Retry abi) (m : Machine abi) (runs triesPerByte : Int) :
    SpectreLabResult abi × Machine abi :=
  let result := SpectreLabResult.start abi runs triesPerByte
  if runs ≤ 0 ∨ triesPerByte ≤ 0 then
    (result, m)
  else
    (List.range runs.toNat).foldl (fun st _ => labRun retry triesPerByte st) (result, m)

/-! ## Sequences of calls -/

inductive Call (abi : Abi)
  | readByte (maliciousX : SizeT abi) (tries : Int)
  | readString (startOffset length : SizeT abi) (tries : Int)
  | runDemo (tries : Int)
  | runReliabilityLab (runs triesPerByte : Int)
  /-- `DefensiveLab::run`, which enters the fixture through the reliability lab. -/
  | defensiveLab (runs triesPerByte : Int) (reportPath : String)

def runCall (retry : Retry abi) (m : Machine abi) : Call abi → Machine abi
  | .readByte maliciousX tries => (readByte retry m maliciousX tries).2
  | .readString startOffset length tries => (readString retry m startOffset length tries).2
  | .runDemo tries => runDemo retry m tries
  | .runReliabilityLab runs triesPerByte => (runReliabilityLab retry m runs triesPerByte).2
  | .defensiveLab runs triesPerByte reportPath =>
      if runs ≤ 0 ∨ triesPerByte ≤ 0 ∨ reportPath.isEmpty then
        m
      else
        (runReliabilityLab retry m runs triesPerByte).2

def runCalls (retry : Retry abi) (m : Machine abi) (calls : List (Call abi)) : Machine abi :=
  calls.foldl (runCall retry) m

end Process

end Spectre
end LatencyAnalyzer
