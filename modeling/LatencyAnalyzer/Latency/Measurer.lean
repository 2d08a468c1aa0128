import Mathlib.Algebra.Order.Floor.Semifield
import Mathlib.Data.Rat.Floor
import Mathlib.Data.Rat.Sqrt
import Mathlib.Logic.Function.Basic
import LatencyAnalyzer.Config
import LatencyAnalyzer.Cxx.Machine
import LatencyAnalyzer.Statistics
import LatencyAnalyzer.Timer.Overhead

/-!
# Measurer — the latency benchmarks of `latency_measurer.cpp`

All benchmarks of one object walk and overwrite the same buffer.  A node holds the address of
another node, so `next` maps the number of a node to an address; `nodeOf` reads an address back as
a node of the buffer, if it is one.

The outcomes of the timed sections come from the stream `timing`, in the order in which they are
taken.  `accesses` is a ghost that records every access to the buffer.
-/

namespace LatencyAnalyzer
namespace Latency

open Cxx

/-! ## The object -/

def kLatencyBatch : Nat := 128
def kStoreBatch : Nat := 256

/-- `sizeof(Node)`. -/
def nodeSize : Nat := 64

inductive Access
  /-- The `next` member behind a pointer is read; `none` is a pointer outside of the buffer. -/
  | load (node : Option Nat)
  /-- The `next` member of a node is written; `none` is a target outside of the buffer. -/
  | store (node : Nat) (target : Option Nat)
  | flush (node : Nat)
  | fence
  deriving DecidableEq, Repr

structure Layout where
  /-- The address of `buffer_`. -/
  base : Nat
  bufferSize : Nat
  nodeCount : Nat
  cacheLineSize : Nat
  /-- `buffer_[i].next`. -/
  next : Nat → Nat
  randomOrder : List Nat

/-- `&buffer_[i]`. -/
def Layout.address (l : Layout) (i : Nat) : Nat :=
  l.base + nodeSize * i

def Layout.nodeOf (l : Layout) (address : Nat) : Option Nat :=
  if l.base ≤ address ∧ (address - l.base) % nodeSize = 0 ∧
      (address - l.base) / nodeSize < l.nodeCount then
    some ((address - l.base) / nodeSize)
  else
    none

structure LatencyMeasurer (abi : Abi) extends Layout where
  numaNode : Int
  sink : UInt8
  timerOverheadCycles : UInt64
  timing : Nat → UInt64
  /-- Number of timed sections executed so far. -/
  clock : Nat
  accesses : List Access

structure MeasurementResult (abi : Abi) where
  label : String
  stats : Statistics.Summary ℚ
  timerOverheadCycles : SizeT abi

inductive Thrown
  | invalidArgument (what : String)
  | runtimeError (what : String)
  /-- A vector finds no room: `length_error` or `bad_alloc`. -/
  | allocation
  deriving DecidableEq, Repr

/-- The standard library: which vectors find room, and the order that `std::shuffle` leaves behind
when it is driven by a generator with the given seed. -/
structure Library where
  reserveSamples : Nat → Bool
  reserveResults : Nat → Bool
  /-- `random_order_.resize`; a vector that has its length keeps it. -/
  resizeOrder : Nat → Bool
  /-- The copy of the samples that `summarize` sorts. -/
  copySamples : Nat → Bool
  shuffle : UInt64 → List Nat → List Nat
  shuffle_perm : ∀ seed l, (shuffle seed l).Perm l

section Measurer

variable {abi : Abi}

def LatencyMeasurer.emit (o : LatencyMeasurer abi) (a : Access) : LatencyMeasurer abi :=
  { o with accesses := o.accesses ++ [a] }

/-- `buffer_[i].next = value`. -/
def LatencyMeasurer.storeNext (o : LatencyMeasurer abi) (i value : Nat) : LatencyMeasurer abi :=
  { o with
    next := Function.update o.next i value
    accesses := o.accesses ++ [.store i (o.nodeOf value)] }

/-- `pointer->next`.  A pointer outside of the buffer yields nothing meaningful. -/
def LatencyMeasurer.loadNext (o : LatencyMeasurer abi) (pointer : Nat) :
    Nat × LatencyMeasurer abi :=
  match o.nodeOf pointer with
  | some i => (o.next i, o.emit (.load (some i)))
  | none => (0, o.emit (.load none))

/-- The difference of two time stamps around a section. -/
def LatencyMeasurer.elapsed (o : LatencyMeasurer abi) : UInt64 × LatencyMeasurer abi :=
  (o.timing o.clock, { o with clock := o.clock + 1 })

/-! ## Rings -/

def buildSelfLoop (o : LatencyMeasurer abi) : LatencyMeasurer abi :=
  o.storeNext 0 (o.address 0)

/-- The loop of `build_random_ring` that links the nodes in the shuffled order. -/
def linkRandomOrder (o : LatencyMeasurer abi) : LatencyMeasurer abi :=
  (List.range o.nodeCount).foldl
    (fun o' i =>
      let current := o.randomOrder.getD i 0
      let next := o.randomOrder.getD ((i + 1) % o.nodeCount) 0
      o'.storeNext current (o.address next))
    o

/-- `random_order_` filled with the numbers of the nodes and shuffled. -/
def shuffled (lib : Library) (seed : UInt64) (o : LatencyMeasurer abi) : LatencyMeasurer abi :=
  { o with randomOrder := lib.shuffle seed (List.range o.nodeCount) }

def buildRandomRing (lib : Library) (seed : UInt64) (o : LatencyMeasurer abi) :
    LatencyMeasurer abi :=
  linkRandomOrder (shuffled lib seed o)

def strideLines (cacheLineSize strideBytes : Nat) : Nat :=
  max 1 (strideBytes / cacheLineSize)

def buildStrideRing (strideBytes : Nat) (o : LatencyMeasurer abi) : LatencyMeasurer abi :=
  (List.range o.nodeCount).foldl
    (fun o' i =>
      let next := (i + strideLines o.cacheLineSize strideBytes) % o.nodeCount
      o'.storeNext i (o.address next))
    o

/-! ## Construction -/

/-- What the constructor obtains from the system. -/
structure System where
  numaAvailable : Bool
  allocateOnNode : Nat → Int → Option Nat
  mmap : Nat → Option Nat
  /-- Whether the vector of `Timer::measure_overhead_cycles` can be reserved. -/
  reserveCycles : Nat → Bool
  /-- The time stamps of its empty sections. -/
  stamps : Nat → UInt64 × UInt64
  timing : Nat → UInt64

def bufferSizeFor (requested : Nat) : Nat :=
  let minimum := Config.minBufferSize
  let size := if requested = 0 then minimum else max requested minimum
  let size := size / nodeSize * nodeSize
  -- Rounding down to whole lines cannot fall below the minimum; the source checks all the same.
  if size < minimum then minimum else size

/-- The object right after the allocation; fresh pages read as zero. -/
def allocated (abi : Abi) (sys : System) (numaNode : Int) (bufferSize base : Nat) :
    LatencyMeasurer abi :=
  { base := base
    bufferSize := bufferSize
    nodeCount := bufferSize / nodeSize
    cacheLineSize := nodeSize
    next := fun _ => 0
    randomOrder := []
    numaNode := numaNode
    sink := 0
    timerOverheadCycles := 0
    timing := sys.timing
    clock := 0
    accesses := [] }

/-- The loop that links every node to itself. -/
def linkToSelf (o : LatencyMeasurer abi) : LatencyMeasurer abi :=
  (List.range o.nodeCount).foldl (fun o' i => o'.storeNext i (o.address i)) o

/-- The loop `for (i = 0; i < node_count_; i += 512)` at the end of the constructor. -/
def touchPages (o : LatencyMeasurer abi) : LatencyMeasurer abi :=
  -- One node in every 512: the rounds of the loop are those with `512 * k < node_count_`.
  (List.range ((o.nodeCount + 511) / 512)).foldl
    (fun o' k => o'.storeNext (512 * k) (o.address (512 * k))) o

/-- `timer_overhead_cycles_ = cycles`. -/
def LatencyMeasurer.withOverhead (o : LatencyMeasurer abi) (cycles : UInt64) :
    LatencyMeasurer abi :=
  { o with timerOverheadCycles := cycles }

/-- The part of the constructor after the allocation, with the overhead that it measures. -/
def linked (abi : Abi) (sys : System) (numaNode : Int) (bufferSize base : Nat) (cycles : UInt64) :
    LatencyMeasurer abi :=
  let o := linkToSelf (allocated abi sys numaNode bufferSize base)
  touchPages (buildSelfLoop (o.withOverhead cycles))

/-- The same, unless the measurement throws; then the buffer stays mapped. -/
def setUp (abi : Abi) (sys : System) (numaNode : Int) (bufferSize base : Nat) :
    Except Thrown (LatencyMeasurer abi) :=
  match Timer.measureOverheadCycles sys.reserveCycles sys.stamps 2000 with
  | .ok cycles => .ok (linked abi sys numaNode bufferSize base cycles)
  | .error _ => .error .allocation

/-- The constructor.  The argument `cache_line_size` has no effect: 0 is replaced by the
configured line, and every value other than 64 by 64. -/
def construct (sys : System) (requested : SizeT abi) (_cacheLineSize : SizeT abi)
    (numaNode : Int) : Except Thrown (LatencyMeasurer abi) :=
  -- A negative node asks for ordinary memory, any other one for memory of that node.
  let bufferSize := bufferSizeFor requested.toNat
  if 0 ≤ numaNode then
    if sys.numaAvailable then
      match sys.allocateOnNode bufferSize numaNode with
      | some base => setUp abi sys numaNode bufferSize base
      | none =>
          .error (.runtimeError ("NUMA allocation failed for memory node " ++ toString numaNode))
    else
      .error (.runtimeError "NUMA allocation requested but libnuma/NUMA is unavailable")
  else
    match sys.mmap bufferSize with
    | some base => setUp abi sys numaNode bufferSize base
    | none => .error (.runtimeError "mmap failed while allocating latency buffer")

/-! ## Timed sections -/

def subtractOverhead (elapsed overhead : UInt64) : UInt64 :=
  if overhead < elapsed then elapsed - overhead else 0

/-- The loop of `timed_pointer_chase`. -/
@[irreducible] def chase (start steps : Nat) (o : LatencyMeasurer abi) :
    Nat × LatencyMeasurer abi :=
  (List.range steps).foldl (fun st _ => st.2.loadNext st.1) (start, o)

/-- The average over the steps of a timed section, taken when the section ends. -/
def perStep (steps : Nat) (o : LatencyMeasurer abi) : ℚ × LatencyMeasurer abi :=
  let elapsed := o.elapsed
  (((subtractOverhead elapsed.1 o.timerOverheadCycles).toNat : ℚ) / (steps : ℚ), elapsed.2)

def timedPointerChase (start steps : Nat) (o : LatencyMeasurer abi) : ℚ × LatencyMeasurer abi :=
  let current := chase start steps o
  -- `sink_` takes in the last pointer, so that the walk cannot be optimized away.
  perStep steps { current.2 with sink := current.2.sink ^^^ UInt8.ofNat current.1 }

/-- The loop of `timed_store_batch`. -/
def storeBatch (steps : Nat) (o : LatencyMeasurer abi) : LatencyMeasurer abi :=
  (List.range steps).foldl (fun o' i => o'.storeNext (i % 16) (o.address (i % 16))) o

def timedStoreBatch (steps : Nat) (o : LatencyMeasurer abi) : ℚ × LatencyMeasurer abi :=
  perStep steps (storeBatch steps o)

def flushRandomPath (startPosition steps : Nat) (o : LatencyMeasurer abi) :
    LatencyMeasurer abi :=
  -- The position wraps around `random_order_`; the fence comes once, after the last flush.
  ((List.range steps).foldl
    (fun o' i =>
      let position := (startPosition + i) % o.randomOrder.length
      o'.emit (.flush (o.randomOrder.getD position 0)))
    o).emit .fence

/-! ## Benchmarks -/

/-- `samples.push_back(sample())`. -/
def takeSample (sample : LatencyMeasurer abi → ℚ × LatencyMeasurer abi)
    (st : List ℚ × LatencyMeasurer abi) : List ℚ × LatencyMeasurer abi :=
  let value := sample st.2
  (st.1 ++ [value.1], value.2)

/-- The two loops around the measured samples; `sample round i` takes one of them. -/
def measuredRounds (rounds iterations : Nat)
    (sample : Nat → Nat → LatencyMeasurer abi → ℚ × LatencyMeasurer abi)
    (o : LatencyMeasurer abi) : List ℚ × LatencyMeasurer abi :=
  (List.range rounds).foldl
    (fun st round =>
      (List.range iterations).foldl (fun st' i => takeSample (sample round i) st') st)
    ([], o)

/-- `static_cast<std::size_t>(iterations) * static_cast<std::size_t>(rounds)`. -/
def sampleCapacity (abi : Abi) (iterations rounds : Int) : Nat :=
  iterations.toNat * rounds.toNat % 2 ^ abi.sizeBits

/-- The result that a benchmark builds from its samples, unless one of its vectors finds no room. -/
def report (lib : Library) (label : String) (iterations rounds : Int)
    (measured : LatencyMeasurer abi → List ℚ × LatencyMeasurer abi) (o : LatencyMeasurer abi) :
    Except Thrown (MeasurementResult abi) × LatencyMeasurer abi :=
  -- The vector is reserved before the first timed sample; its failure leaves the buffer as it is.
  if lib.reserveSamples (sampleCapacity abi iterations rounds) then
    let samples := measured o
    if lib.copySamples samples.1.length then
      (.ok
        { label := label
          stats := Statistics.summarize Rat.sqrt samples.1
          timerOverheadCycles := BitVec.ofNat _ samples.2.timerOverheadCycles.toNat },
        samples.2)
    else
      (.error .allocation, samples.2)
  else
    (.error .allocation, o)

def measureHit (lib : Library) (iterations warmup rounds : Int) (o : LatencyMeasurer abi) :
    Except Thrown (MeasurementResult abi) × LatencyMeasurer abi :=
  if iterations ≤ 0 ∨ warmup < 0 ∨ rounds ≤ 0 then
    (.error (.invalidArgument "Invalid hit benchmark configuration"), o)
  else
    let o := buildSelfLoop o
    let start := o.address 0
    let o := (List.range warmup.toNat).foldl
      (fun o' _ => (timedPointerChase start kLatencyBatch o').2) o
    report lib "Cache Hit (L1 pointer-chasing latency)" iterations rounds
      (measuredRounds rounds.toNat iterations.toNat fun _ _ =>
        timedPointerChase start kLatencyBatch) o

/-- One flushed and timed walk from a position of the shuffled order. -/
def missSample (startPosition : Nat) (o : LatencyMeasurer abi) : ℚ × LatencyMeasurer abi :=
  let start := o.address (o.randomOrder.getD startPosition 0)
  timedPointerChase start kLatencyBatch (flushRandomPath startPosition kLatencyBatch o)

/-- `(round * iterations + i) % random_order_.size()`; on `i.86` the product can wrap around. -/
def startPosition (abi : Abi) (iterations : Nat) (size round i : Nat) : Nat :=
  (round * iterations + i) % 2 ^ abi.sizeBits % size

def measureForcedMiss (lib : Library) (iterations warmup rounds : Int)
    (o : LatencyMeasurer abi) :
    Except Thrown (MeasurementResult abi) × LatencyMeasurer abi :=
  if iterations ≤ 0 ∨ warmup < 0 ∨ rounds ≤ 0 ∨ o.nodeCount < 64 then
    (.error (.invalidArgument "Invalid forced-miss benchmark configuration"), o)
  else if lib.resizeOrder o.nodeCount then
    -- The seed is a constant, so every call shuffles alike.
    let o := buildRandomRing lib 0xC0FFEE123456789 o
    let o := (List.range warmup.toNat).foldl
      (fun o' i => (missSample (i % o'.randomOrder.length) o').2) o
    report lib "Forced Cache Miss (random pointer chase + CLFLUSH)" iterations rounds
      (measuredRounds rounds.toNat iterations.toNat fun round i o' =>
        missSample (startPosition abi iterations.toNat o'.randomOrder.length round i) o') o
  else
    -- `build_random_ring` resizes before it links anything.
    (.error .allocation, o)

def measureStore (lib : Library) (iterations warmup rounds : Int) (o : LatencyMeasurer abi) :
    Except Thrown (MeasurementResult abi) × LatencyMeasurer abi :=
  if iterations ≤ 0 ∨ warmup < 0 ∨ rounds ≤ 0 then
    (.error (.invalidArgument "Invalid store benchmark configuration"), o)
  else
    let o := (List.range warmup.toNat).foldl (fun o' _ => (timedStoreBatch kStoreBatch o').2) o
    report lib "Store (hot lines; issue throughput per store)" iterations rounds
      (measuredRounds rounds.toNat iterations.toNat fun _ _ => timedStoreBatch kStoreBatch) o

/-- One timed walk from `current`, and the step to the next starting node. -/
def strideSample (current : Nat) (o : LatencyMeasurer abi) : ℚ × Nat × LatencyMeasurer abi :=
  let value := timedPointerChase current kLatencyBatch o
  let next := value.2.loadNext current
  (value.1, next.1, next.2)

def strideWarmup (warmup start : Nat) (o : LatencyMeasurer abi) : Nat × LatencyMeasurer abi :=
  (List.range warmup).foldl (fun st _ => (strideSample st.1 st.2).2) (start, o)

/-- The inner loop of `measure_strides`; the node it walks from moves with every sample. -/
def strideRound (iterations current : Nat) (st : List ℚ × LatencyMeasurer abi) :
    List ℚ × LatencyMeasurer abi :=
  -- The pointer, the samples and the object move on together.
  let last := (List.range iterations).foldl
    (fun st' _ =>
      let value := strideSample st'.1 st'.2.2
      (value.2.1, st'.2.1 ++ [value.1], value.2.2))
    (current, st)
  last.2

def strideRounds (rounds iterations : Nat) (o : LatencyMeasurer abi) :
    List ℚ × LatencyMeasurer abi :=
  (List.range rounds).foldl
    (fun st round => strideRound iterations (st.2.address (round % st.2.nodeCount)) st) ([], o)

/-- `raw_stride` rounded down to whole lines, and to one line at least. -/
def strideOf (cacheLineSize rawStride : Nat) : Nat :=
  max cacheLineSize (rawStride / cacheLineSize * cacheLineSize)

def measureStride (lib : Library) (rawStride : SizeT abi) (iterations warmup rounds : Int)
    (o : LatencyMeasurer abi) : Except Thrown (MeasurementResult abi) × LatencyMeasurer abi :=
  let stride := strideOf o.cacheLineSize rawStride.toNat
  -- The ring is built again for every stride, before its warm-up.
  let o := buildStrideRing stride o
  let o := (strideWarmup warmup.toNat (o.address 0) o).2
  report lib ("Stride " ++ toString stride ++ " B (dependent pointer chase)") iterations rounds
    (strideRounds rounds.toNat iterations.toNat) o

def measureStridesLoop (lib : Library) (iterations warmup rounds : Int) :
    List (SizeT abi) → List (MeasurementResult abi) → LatencyMeasurer abi →
      Except Thrown (List (MeasurementResult abi)) × LatencyMeasurer abi
  | [], results, o => (.ok results, o)
  | rawStride :: strides, results, o =>
      match measureStride lib rawStride iterations warmup rounds o with
      | (.ok result, o) =>
          measureStridesLoop lib iterations warmup rounds strides (results ++ [result]) o
      -- The exception takes the results of the earlier strides with it.
      | (.error thrown, o) => (.error thrown, o)

def measureStrides (lib : Library) (strides : List (SizeT abi)) (iterations warmup rounds : Int)
    (o : LatencyMeasurer abi) :
    Except Thrown (List (MeasurementResult abi)) × LatencyMeasurer abi :=
  if iterations ≤ 0 ∨ warmup < 0 ∨ rounds ≤ 0 then
    (.error (.invalidArgument "Invalid stride benchmark configuration"), o)
  else if lib.reserveResults strides.length then
    measureStridesLoop lib iterations warmup rounds strides [] o
  else
    (.error .allocation, o)

/-! ## Sequences of calls -/

inductive Call (abi : Abi)
  | measureHit (iterations warmup rounds : Int)
  | measureForcedMiss (iterations warmup rounds : Int)
  | measureStore (iterations warmup rounds : Int)
  | measureStrides (strides : List (SizeT abi)) (iterations warmup rounds : Int)

/-- The object after a call, whether the call returns or throws. -/
def runCall (lib : Library) (o : LatencyMeasurer abi) : Call abi → LatencyMeasurer abi
  | .measureHit iterations warmup rounds => (measureHit lib iterations warmup rounds o).2
  | .measureForcedMiss iterations warmup rounds =>
      (measureForcedMiss lib iterations warmup rounds o).2
  | .measureStore iterations warmup rounds => (measureStore lib iterations warmup rounds o).2
  | .measureStrides strides iterations warmup rounds =>
      (measureStrides lib strides iterations warmup rounds o).2

def runCalls (lib : Library) (o : LatencyMeasurer abi) (calls : List (Call abi)) :
    LatencyMeasurer abi :=
  calls.foldl (runCall lib) o

/-- The accesses of one call made on `o`. -/
def callAccesses (lib : Library) (o : LatencyMeasurer abi) (call : Call abi) : List Access :=
  (runCall lib { o with accesses := [] } call).accesses

end Measurer

end Latency
end LatencyAnalyzer
