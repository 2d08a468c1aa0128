import LatencyAnalyzer.Lib.OrderStatistics
import LatencyAnalyzer.Timer

/-!
# Overhead — `measure_overhead_cycles` of `timer.cpp`

The overhead of two time stamps is the middle one of the times that empty sections take.  An
interrupt changes the time of the section that it falls into, and not the overhead as long as most
sections escape.
-/

namespace LatencyAnalyzer
namespace Timer

/-- The time of an empty section, by its two time stamps. -/
def emptyTime (stamps : UInt64 × UInt64) : UInt64 :=
  stamps.2 - stamps.1

/-- `std::sort` and `values[values.size() / 2]`. -/
def middleValue (values : List UInt64) : UInt64 :=
  (values.insertionSort (· ≤ ·)).getD (values.length / 2) 0

/-- `measure_overhead_cycles`, with the time stamps of the `i`-th empty section. -/
def measureOverheadCycles (reserve : Nat → Bool) (stamps : Nat → UInt64 × UInt64) (samples : Int) :
    Except Thrown UInt64 :=
  if samples ≤ 0 then .ok 0
  else if reserve samples.toNat then
    .ok (middleValue ((List.range samples.toNat).map fun i => emptyTime (stamps i)))
  else
    .error .allocation

/-- Time stamps are sorted as numbers. -/
theorem toNat_middleValue (values : List UInt64) :
    (middleValue values).toNat =
      Lib.ranked 0 (values.map UInt64.toNat) ((values.map UInt64.toNat).length / 2) := by
  have hsort : (values.insertionSort (· ≤ ·)).map UInt64.toNat =
      (values.map UInt64.toNat).insertionSort (· ≤ ·) :=
    List.map_insertionSort _ _ _ _ fun _ _ _ _ => UInt64.le_iff_toNat_le
  -- The order statistic of the numbers is the number of the order statistic.
  unfold middleValue Lib.ranked
  rw [← hsort, List.length_map]
  exact (List.getD_map _ 0 UInt64.toNat).symm

theorem measureOverheadCycles_eq {reserve : Nat → Bool} (stamps : Nat → UInt64 × UInt64)
    {samples : Int} (hpos : 0 < samples) (hreserve : reserve samples.toNat = true) :
    measureOverheadCycles reserve stamps samples =
      .ok (middleValue ((List.range samples.toNat).map fun i => emptyTime (stamps i))) := by
  unfold measureOverheadCycles
  rw [if_neg (not_le.2 hpos), if_pos hreserve]

theorem measureOverheadCycles_isOk_iff (reserve : Nat → Bool) (stamps : Nat → UInt64 × UInt64)
    {samples : Int} (hpos : 0 < samples) :
    (measureOverheadCycles reserve stamps samples).isOk = true ↔
      reserve samples.toNat = true := by
  unfold measureOverheadCycles
  rw [if_neg (not_le.2 hpos)]
  split <;> simp [Except.isOk, Except.toBool, *]

/-- If more than half of the empty sections take the same time, then that is the overhead, whatever
the others take. -/
theorem overhead_of_majority {reserve : Nat → Bool} {stamps : Nat → UInt64 × UInt64}
    {samples : Int} {cycles : UInt64} (hreserve : reserve samples.toNat = true)
    (hmost : samples.toNat <
      2 * (List.range samples.toNat).countP fun i => emptyTime (stamps i) = cycles) :
    measureOverheadCycles reserve stamps samples = .ok cycles := by
  -- No section is more than half of none.
  have hpos : 0 < samples := by
    by_contra hneg
    rw [Int.toNat_of_nonpos (not_lt.1 hneg)] at hmost
    exact Nat.lt_irrefl _ hmost
  have hcount : (((List.range samples.toNat).map fun i => emptyTime (stamps i)).map
      UInt64.toNat).countP (· = cycles.toNat) =
        (List.range samples.toNat).countP fun i => emptyTime (stamps i) = cycles := by
    rw [List.countP_map, List.countP_map]
    refine List.countP_congr fun i _ => ?_
    simp only [Function.comp_apply, decide_eq_true_eq]
    exact UInt64.toNat_inj
  rw [measureOverheadCycles_eq stamps hpos hreserve]
  refine congrArg Except.ok (UInt64.toNat_inj.1 ?_)
  rw [toNat_middleValue]
  apply Lib.upper_of_majority
  rw [hcount, List.length_map, List.length_map, List.length_range]
  exact hmost

end Timer
end LatencyAnalyzer
