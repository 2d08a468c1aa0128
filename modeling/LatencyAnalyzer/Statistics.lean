import Mathlib.Algebra.Order.Field.Basic
import Mathlib.Algebra.Order.Floor.Ring
import Mathlib.Data.List.Sort

/-!
# Statistics — summaries of sample lists in exact arithmetic

`double` and `long double` are an ordered field `K`, so no operation rounds.  The square root is
an argument: it is `Real.sqrt` over the reals, and `Rat.sqrt` where a summary is evaluated.
-/

namespace LatencyAnalyzer
namespace Statistics

structure Summary (K : Type*) where
  count : Nat
  mean : K
  median : K
  p95 : K
  p99 : K
  stddev : K
  min : K
  max : K
  deriving DecidableEq, Repr

section Summarize

variable {K : Type*} [Field K] [LinearOrder K] [FloorSemiring K]

/-- `Summary{}`: every member has its default initializer. -/
def Summary.zero : Summary K :=
  { count := 0, mean := 0, median := 0, p95 := 0, p99 := 0, stddev := 0, min := 0, max := 0 }

/-- The interpolated quantile of a sorted list. -/
def quantile (sorted : List K) (q : K) : K :=
  match sorted with
  | [] => 0
  | [front] => front
  | _ =>
      let position := q * ((sorted.length - 1 : Nat) : K)
      let lower := ⌊position⌋₊
      let upper := ⌈position⌉₊
      if lower = upper then
        sorted.getD lower 0
      else
        let weight := position - (lower : K)
        sorted.getD lower 0 * (1 - weight) + sorted.getD upper 0 * weight

def summarizeImpl (sqrt : K → K) (samples : List K) : Summary K :=
  match samples with
  | [] => Summary.zero
  | _ =>
      let sorted := samples.insertionSort (· ≤ ·)
      let mean := samples.sum / (samples.length : K)
      let squared := (samples.map fun value => (value - mean) * (value - mean)).sum
      { count := samples.length
        mean := mean
        median := quantile sorted (50 / 100)
        p95 := quantile sorted (95 / 100)
        p99 := quantile sorted (99 / 100)
        stddev :=
          if 2 ≤ samples.length then sqrt (squared / ((samples.length - 1 : Nat) : K)) else 0
        min := sorted.headD 0
        max := sorted.getLastD 0 }

def summarize (sqrt : K → K) (samples : List K) : Summary K :=
  summarizeImpl sqrt samples

/-- The overload on time stamps converts every value first. -/
def summarizeTicks (sqrt : K → K) (samples : List UInt64) : Summary K :=
  summarizeImpl sqrt (samples.map fun value => (value.toNat : K))

end Summarize

end Statistics
end LatencyAnalyzer
