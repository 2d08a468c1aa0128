import Mathlib.Data.List.Sort
import Mathlib.Data.Rat.Floor
import LatencyAnalyzer.Config
import LatencyAnalyzer.Cxx.Text
import LatencyAnalyzer.Lib.Ledger
import LatencyAnalyzer.Report.Records

/-!
# Measurer — `BandwidthMeasurer::measure` and its two buffers

What a run obtains from outside is a `World`: whether its requests for memory succeed, the capacity
of its vectors and the readings of its clock.  The functions below compute from it what the run
returns or throws, and the ledger of the memory that it obtains and releases.

The contents of the buffers are left out here, since nothing that is returned depends on them.
-/

namespace LatencyAnalyzer
namespace Bandwidth

open Cxx Lib Report

/-! ## Memory -/

/-- A piece of memory, by the routines that obtain and release it and what they are told. -/
inductive Memory (abi : Abi)
  /-- `malloc` and `free`. -/
  | heap (pointer : Nat)
  /-- `numa_alloc_onnode` and `numa_free`. -/
  | numa (pointer : Nat) (size : SizeT abi)
  /-- `mmap` and `munmap`. -/
  | mapping (pointer : Nat) (length : SizeT abi)
  deriving DecidableEq, Repr

inductive Thrown
  | invalidArgument (what : Text)
  | runtimeError (what : Text)
  /-- `reserve` throws `length_error` or `bad_alloc`. -/
  | allocation
  /-- `clock_gettime(CLOCK_MONOTONIC_RAW) failed`. -/
  | clock
  deriving DecidableEq, Repr

structure World where
  numaAvailable : Bool
  /-- The answer to the `k`-th request for memory; `none` is `nullptr` or `MAP_FAILED`. -/
  memory : Nat → Option Nat
  /-- Memory is not handed out again while it is in use. -/
  memory_distinct : ∀ p q, memory 0 = some p → memory 1 = some q → p ≠ q
  /-- Whether the `k`-th vector can be reserved for a number of elements. -/
  reserve : Nat → Nat → Bool
  /-- The `k`-th reading of `monotonic_raw_ns`, which throws when `clock_gettime` fails. -/
  clock : Nat → Option UInt64

section Measurer

variable {abi : Abi}

structure Allocation (abi : Abi) where
  pointer : Option Nat
  size : SizeT abi
  method : Text

def numaPrefix : Text := "numa-node-".toList

/-- `"numa-node-" + std::to_string(numa_node)`. -/
def numaMethod (numaNode : Int) : Text :=
  numaPrefix ++ Text.integer numaNode

/-- The ledger entry of a request for memory. -/
def obtained (memory : Nat → Memory abi) (pointer : Option Nat) : List (Entry (Memory abi)) :=
  match pointer with
  | none => []
  | some p => [.acquire (memory p)]

/-- `NumaSupport::allocate_on_node`. -/
def allocateOnNode (w : World) (k : Nat) (bytes : SizeT abi) (node : Int) : Option Nat :=
  if bytes = 0 ∨ node < 0 ∨ w.numaAvailable = false then none else w.memory k

/-- `NumaSupport::free_on_node`. -/
def freeOnNode (pointer : Nat) (bytes : SizeT abi) : List (Entry (Memory abi)) :=
  if bytes ≠ 0 then [.release (.numa pointer bytes)] else []

/-- `requested` rounded up to whole large pages in `size_t`. -/
def largePageLength (requested : SizeT abi) : SizeT abi :=
  let largePageSize : SizeT abi := BitVec.ofNat _ Config.largePageSize
  (requested + largePageSize - 1) &&& ~~~(largePageSize - 1)

/-- `allocate_buffer`, which makes the `k`-th request for memory if it makes one. -/
def allocateBuffer (w : World) (k : Nat) (requested : SizeT abi) (method : Text)
    (numaNode : Int) : Except Thrown (Allocation abi × List (Entry (Memory abi))) :=
  if 0 ≤ numaNode then
    if w.numaAvailable then
      let pointer := allocateOnNode w k requested numaNode
      .ok ({ pointer := pointer, size := requested, method := numaMethod numaNode },
        obtained (.numa · requested) pointer)
    else
      .ok ({ pointer := none, size := requested, method := method }, [])
  else if method = "malloc".toList then
    let pointer := w.memory k
    .ok ({ pointer := pointer, size := requested, method := method }, obtained .heap pointer)
  else if method = "LargePage".toList then
    let size := largePageLength requested
    let pointer := w.memory k
    .ok ({ pointer := pointer, size := size, method := method },
      obtained (.mapping · size) pointer)
  else if method = "mmap".toList then
    let pointer := w.memory k
    .ok ({ pointer := pointer, size := requested, method := method },
      obtained (.mapping · requested) pointer)
  else
    .error (.invalidArgument ("Unknown bandwidth allocation method: ".toList ++ method))

/-- `release_buffer`, which finds the routine again by the name of the method. -/
def releaseBuffer (allocation : Allocation abi) : List (Entry (Memory abi)) :=
  match allocation.pointer with
  | none => []
  | some p =>
      if numaPrefix.isPrefixOf allocation.method then
        -- The number behind the prefix; an exception of `stoi` is caught and leaves -1.
        let node := (Text.stoi (allocation.method.substrFrom numaPrefix.length)).getD (-1)
        if 0 ≤ node then freeOnNode p allocation.size else []
      else if allocation.method = "malloc".toList then
        [.release (.heap p)]
      else
        [.release (.mapping p allocation.size)]

/-! ## Rates -/

def median {K : Type*} [Zero K] [LinearOrder K] (values : List K) : K :=
  match values with
  | [] => 0
  | _ => (values.insertionSort (· ≤ ·)).getD (values.length / 2) 0

def gibPerSecond (bytes : Nat) (elapsedNs : UInt64) : ℚ :=
  if elapsedNs = 0 then 0
  else
    let gib : ℚ := bytes / (1024 * 1024 * 1024)
    let seconds : ℚ := elapsedNs.toNat * (1 / 10 ^ 9)
    gib / seconds

structure Rates where
  read : List ℚ
  write : List ℚ
  copy : List ℚ

/-- The rate of a section between the readings `k` and `k + 1`; `none` if one of them throws. -/
def timedRate (w : World) (bytes k : Nat) : Option ℚ :=
  match w.clock k, w.clock (k + 1) with
  | some t0, some t1 => some (gibPerSecond bytes (t1 - t0))
  | _, _ => none

/-- The measured rounds, from reading `k` on. -/
def measureRounds (w : World) (bytes : Nat) : Nat → Nat → Rates → Option Rates
  | 0, _, rates => some rates
  | rounds + 1, k, rates =>
      -- A round reads, writes and copies, with two readings around each of the three.
      match timedRate w bytes k, timedRate w bytes (k + 2), timedRate w bytes (k + 4) with
      | some read, some write, some copy =>
          measureRounds w bytes rounds (k + 6)
            { read := rates.read ++ [read]
              write := rates.write ++ [write]
              copy := rates.copy ++ [copy] }
      | _, _, _ => none

/-- The part of `measure` between the allocation and the release of the buffers. -/
def measureRates (w : World) (bytes repeats : Nat) : Except Thrown Rates :=
  if w.reserve 0 repeats && w.reserve 1 repeats && w.reserve 2 repeats then
    match measureRounds w bytes repeats 0 { read := [], write := [], copy := [] } with
    | some rates => .ok rates
    | none => .error .clock
  else
    .error .allocation

/-! ## The measurement -/

def measure (w : World) (sizeBytes : SizeT abi) (method : Text) (repeats numaNode : Int) :
    Except Thrown (BandwidthResult abi ℚ) × List (Entry (Memory abi)) :=
  if sizeBytes = 0 ∨ repeats ≤ 0 then
    (.error (.invalidArgument "Bandwidth size and repeats must be positive".toList), [])
  else
    match allocateBuffer w 0 sizeBytes method numaNode with
    | .error thrown => (.error thrown, [])
    | .ok (src, srcLog) =>
        match allocateBuffer w 1 sizeBytes method numaNode with
        | .error thrown => (.error thrown, srcLog)
        | .ok (dst, dstLog) =>
            let log := srcLog ++ dstLog
            let released := releaseBuffer src ++ releaseBuffer dst
            if src.pointer = none ∨ dst.pointer = none then
              (.error (.runtimeError
                ("Allocation failed for bandwidth method: ".toList ++ method)), log ++ released)
            else
              match measureRates w sizeBytes.toNat repeats.toNat with
              -- No handler stands between the clock and the caller, so nothing is released.
              | .error thrown => (.error thrown, log)
              | .ok rates =>
                  (.ok
                    { allocator := String.ofList
                        (if 0 ≤ numaNode then numaMethod numaNode else method)
                      sizeBytes := sizeBytes
                      readGbS := median rates.read
                      writeGbS := median rates.write
                      copyGbS := median rates.copy },
                    log ++ released)

end Measurer

end Bandwidth
end LatencyAnalyzer
