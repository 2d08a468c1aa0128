import Mathlib.Algebra.Order.Floor.Semifield
import Mathlib.Data.Rat.Floor
import Mathlib.Data.Rat.Sqrt
import LatencyAnalyzer.Config
import LatencyAnalyzer.Lib.Ledger
import LatencyAnalyzer.Statistics

/-!
# Measurer — `measure_cross_process` in the parent process

What the parent obtains from outside is a `World`: the results of its system calls and, for each
call of `wait_for_value`, the values that its loads and clock readings will return.  The functions
below compute from it what the parent returns or throws, and the ledger of what it acquires and
releases.

`wait_for_value` polls without a bound until its deadline, so it runs on fuel; `none` means that
the fuel ran out.
-/

namespace LatencyAnalyzer
namespace SharedMemory

open Lib

/-! ## Waiting -/

/-- What one call of `wait_for_value` reads: the `i`-th loads of the two flags and the `i`-th
reading of the clock, which fails when `clock_gettime` does. -/
structure Watch where
  flag : Nat → UInt32
  stop : Nat → UInt32
  clock : Nat → Option UInt64

inductive WaitOutcome
  /-- `return true`. -/
  | found
  /-- `return false`. -/
  | gaveUp
  /-- `monotonic_raw_ns` throws. -/
  | threw
  deriving DecidableEq, Repr

/-- One poll; `none` means that the loop goes on. -/
def poll (w : Watch) (expected : UInt32) (checkStop : Bool) (i : Nat) : Option WaitOutcome :=
  if w.flag i = expected then
    some .found
  else if checkStop ∧ w.stop i ≠ 0 then
    some .gaveUp
  else
    none

/-- The first loop; `none` means that all its polls failed. -/
def spin (w : Watch) (expected : UInt32) (checkStop : Bool) : Nat → Nat → Option WaitOutcome
  | 0, _ => none
  | remaining + 1, i =>
      match poll w expected checkStop i with
      | some outcome => some outcome
      | none => spin w expected checkStop remaining (i + 1)

/-- The second loop, from its `i`-th round on. -/
def pollUntil (w : Watch) (expected : UInt32) (checkStop : Bool) (deadline : UInt64) :
    Nat → Nat → Option WaitOutcome
  | 0, _ => none
  | fuel + 1, i =>
      -- The clock is read before each round, and its failure leaves by an exception.
      match w.clock (i + 1) with
      | none => some .threw
      | some now =>
          if now < deadline then
            match poll w expected checkStop (Config.shmSpinIterations + i) with
            | some outcome => some outcome
            | none => pollUntil w expected checkStop deadline fuel (i + 1)
          else
            some .gaveUp

def waitForValue (w : Watch) (expected : UInt32) (checkStop : Bool) (fuel : Nat) :
    Option WaitOutcome :=
  match spin w expected checkStop Config.shmSpinIterations 0 with
  | some outcome => some outcome
  | none =>
      -- The deadline counts from the end of the first loop.
      match w.clock 0 with
      | none => some .threw
      | some now =>
          let deadline := now + UInt64.ofNat Config.shmTimeoutMs * 1000000
          pollUntil w expected checkStop deadline fuel 0

/-! ## The parent -/

inductive Resource
  | descriptor
  | view
  | name
  | child
  deriving DecidableEq, Repr

inductive Thrown
  /-- `clock_gettime(CLOCK_MONOTONIC_RAW) failed`. -/
  | clock
  /-- A vector finds no room: `length_error` or `bad_alloc`. -/
  | allocation
  deriving DecidableEq, Repr

structure SharedMemoryResult where
  stats : Statistics.Summary ℚ
  iterations : Int
  producerCpu : Int
  consumerCpu : Int
  success : Bool
  errorMessage : String
  deriving DecidableEq

inductive Exit
  | returned (result : SharedMemoryResult)
  | threw (what : Thrown)

structure World where
  /-- The clock reading of `unique_name`. -/
  nameClock : Option UInt64
  shmOpen : Int
  ftruncate : Int
  /-- `none` is `MAP_FAILED`. -/
  mmap : Option Nat
  /-- The child's process id; `none` when `fork` fails. -/
  fork : Option Int
  /-- The calls of `wait_for_value`, counted over the whole run. -/
  waits : Nat → Watch
  /-- Whether `samples.reserve` succeeds for a number of elements. -/
  reserve : Nat → Bool
  /-- Whether the vectors that `summarize` makes of its samples find room. -/
  summarize : Nat → Bool
  /-- The time stamps around the `i`-th measured round. -/
  ticks : Nat → UInt64 × UInt64
  /-- The `i`-th `waitpid(pid, nullptr, WNOHANG)`. -/
  waitpidPoll : Nat → Int
  kill : Int
  waitpid : Int

/-- The first wait is for the consumer to start and does not look at the stop flag. -/
def World.wait (w : World) (fuel k : Nat) : Option WaitOutcome :=
  waitForValue (w.waits k) 1 (k ≠ 0) fuel

/-- The polling loop of `wait_or_kill`; `none` means that the child is still running. -/
def pollChild (w : World) (pid : Int) : Nat → Nat → Option Bool
  | 0, _ => none
  | remaining + 1, i =>
      let status := w.waitpidPoll i
      if status = pid then some true
      else if status < 0 then some false
      else pollChild w pid remaining (i + 1)

/-- `wait_or_kill(pid, 10 * steps)`: whether the child has been reaped. -/
def waitOrKill (w : World) (pid : Int) (steps : Nat) : Bool :=
  match pollChild w pid steps 0 with
  | some reaped => reaped
  -- The child has outlived the polls: `SIGKILL`, then a `waitpid` that blocks.
  | none => if w.kill ≠ 0 then false else w.waitpid = pid

/-- The tail that every exit after the fork shares. -/
def abandon (w : World) (pid : Int) (steps : Nat) : List (Entry Resource) :=
  (if waitOrKill w pid steps then [.release .child] else []) ++ [.release .view, .release .name]

/-- Warm-up rounds, the first of which makes the `k`-th wait. -/
def warmupLoop (w : World) (fuel : Nat) : Nat → Nat → Option WaitOutcome
  | 0, _ => some .found
  | rounds + 1, k =>
      match w.wait fuel k with
      | some .found => warmupLoop w fuel rounds (k + 1)
      | outcome => outcome

/-- Measured rounds: the samples and the error message with which the loop ends. -/
def measureLoop (w : World) (fuel : Nat) :
    Nat → Nat → List UInt64 → Option (Except Thrown (List UInt64 × String))
  | 0, _, samples => some (.ok (samples, ""))
  | rounds + 1, k, samples =>
      match w.wait fuel k with
      | none => none
      | some .threw => some (.error .clock)
      -- `break`: the samples taken so far are kept.
      | some .gaveUp => some (.ok (samples, "Consumer stopped during measurement"))
      | some .found =>
          let ticks := w.ticks samples.length
          measureLoop w fuel rounds (k + 1) (samples ++ [ticks.2 - ticks.1])

/-- The result after the last release. -/
def summarizeRun (result : SharedMemoryResult) (samples : List UInt64) (errorMessage : String) :
    SharedMemoryResult :=
  let result := { result with errorMessage := errorMessage }
  if samples.isEmpty then
    if result.errorMessage.isEmpty then
      { result with errorMessage := "No successful shared-memory samples" }
    else
      result
  else
    { result with
      stats := Statistics.summarizeTicks Rat.sqrt samples
      iterations := samples.length
      success := true }

/-- The parent after the fork. -/
def runParent (w : World) (fuel : Nat) (pid : Int) (result : SharedMemoryResult)
    (iterations warmup : Int) : Option (Exit × List (Entry Resource)) :=
  match w.wait fuel 0 with
  | none => none
  -- No handler stands between the wait and the caller, so nothing is released.
  | some .threw => some (.threw .clock, [])
  | some .gaveUp =>
      some (.returned { result with errorMessage := "Consumer did not become ready" },
        abandon w pid 50)
  | some .found =>
      match warmupLoop w fuel warmup.toNat 1 with
      | none => none
      | some .threw => some (.threw .clock, [])
      | some .gaveUp =>
          some (.returned { result with errorMessage := "Consumer stopped during warmup" },
            abandon w pid 50)
      | some .found =>
          -- The vector is reserved while the child is waiting for its first request.
          if w.reserve iterations.toNat then
            match measureLoop w fuel iterations.toNat (1 + warmup.toNat) [] with
            | none => none
            | some (.error thrown) => some (.threw thrown, [])
            | some (.ok (samples, errorMessage)) =>
                -- All has been released when the samples are summed up.
                if samples.isEmpty || w.summarize samples.length then
                  some (.returned (summarizeRun result samples errorMessage), abandon w pid 100)
                else
                  some (.threw .allocation, abandon w pid 100)
          else
            some (.threw .allocation, [])

def opened : List (Entry Resource) := [.acquire .name, .acquire .descriptor]

def measureCrossProcess (w : World) (fuel : Nat)
    (iterations warmup producerCpu consumerCpu : Int) : Option (Exit × List (Entry Resource)) :=
  let result : SharedMemoryResult :=
    { stats := Statistics.Summary.zero
      iterations := iterations
      producerCpu := producerCpu
      consumerCpu := consumerCpu
      success := false
      errorMessage := "" }
  let fail (message : String) (log : List (Entry Resource)) :=
    some (Exit.returned { result with errorMessage := message }, log)
  if iterations ≤ 0 ∨ warmup < 0 then
    fail "Invalid shared-memory iteration configuration" []
  else if producerCpu < 0 ∨ consumerCpu < 0 then
    fail "Invalid CPU affinity selection" []
  else if w.nameClock = none then
    some (.threw .clock, [])
  else if w.shmOpen < 0 then
    fail "shm_open failed" []
  else if w.ftruncate ≠ 0 then
    fail "ftruncate failed" (opened ++ [.release .descriptor, .release .name])
  else if w.mmap = none then
    fail "mmap failed" (opened ++ [.release .descriptor, .release .name])
  else
    -- `close(fd)` follows the mapping at once, on success and on failure.
    let mapped := opened ++ [.acquire .view, .release .descriptor]
    match w.fork with
    | none => fail "fork failed" (mapped ++ [.release .view, .release .name])
    | some pid =>
        (runParent w fuel pid result iterations warmup).map fun out =>
          (out.1, mapped ++ .acquire .child :: out.2)

end SharedMemory
end LatencyAnalyzer
