import Mathlib.Algebra.Order.Archimedean.Real.Basic
import Mathlib.Algebra.Order.Floor.Ring
import LatencyAnalyzer.Lib.Quantile
import LatencyAnalyzer.Lib.Sample
import LatencyAnalyzer.Statistics

/-!
# Order — the members of a summary compared with each other

`quantile` works on a sorted list, and what it computes is a quantile of the samples.  All members
of a summary are textbook statistics, so their order and their growth with the samples are those
of ranks and means.
-/

namespace LatencyAnalyzer
namespace Statistics

section Quantile

variable {K : Type*} [Field K] [LinearOrder K] [FloorSemiring K]

/-- `quantile` with checked reads: there is no result when an index is outside of the list. -/
def quantileChecked (sorted : List K) (q : K) : Option K :=
  match sorted with
  | [] => some 0
  | [front] => some front
  | _ =>
      let position := q * ((sorted.length - 1 : Nat) : K)
      let lower := ⌊position⌋₊
      let upper := ⌈position⌉₊
      if lower = upper then
        sorted[lower]?
      else
        let weight := position - (lower : K)
        sorted[lower]?.bind fun low =>
          sorted[upper]?.map fun high => low * (1 - weight) + high * weight

/-! ## The textbook statistics -/

/-- The shortcut for a position on a rank changes nothing. -/
theorem quantile_insertionSort [IsStrictOrderedRing K] (samples : List K) (q : K) :
    quantile (samples.insertionSort (· ≤ ·)) q = Lib.quantile samples q := by
  have hlength : (samples.insertionSort (· ≤ ·)).length = samples.length :=
    List.length_insertionSort _ _
  unfold Lib.quantile Lib.interpolated Lib.ranked
  rw [← hlength]
  generalize samples.insertionSort (· ≤ ·) = sorted
  match sorted with
  | [] => simp [quantile]
  | [front] => simp [quantile]
  | first :: second :: rest =>
      unfold quantile
      dsimp only
      split
      · rename_i heq
        rw [← heq]
        ring
      · rfl

theorem median_summarizeImpl [IsStrictOrderedRing K] (sqrt : K → K) (samples : List K) :
    (summarizeImpl sqrt samples).median = Lib.quantile samples (50 / 100) := by
  rw [← quantile_insertionSort]
  cases samples with
  | nil => rfl
  | cons => rfl

theorem p99_summarizeImpl [IsStrictOrderedRing K] (sqrt : K → K) (samples : List K) :
    (summarizeImpl sqrt samples).p99 = Lib.quantile samples (99 / 100) := by
  rw [← quantile_insertionSort]
  cases samples with
  | nil => rfl
  | cons => rfl

theorem quantileChecked_of_le_one [IsStrictOrderedRing K] {sorted : List K} {q : K}
    (hone : q ≤ 1) : quantileChecked sorted q = some (quantile sorted q) := by
  match sorted with
  | [] => rfl
  | [front] => rfl
  | first :: second :: rest =>
      have hupper := Lib.ceil_position_lt (List.cons_ne_nil first (second :: rest)) hone
      have hlower := (Nat.floor_le_ceil _).trans_lt hupper
      unfold quantileChecked quantile
      dsimp only
      rw [List.getElem?_eq_getElem hlower, List.getElem?_eq_getElem hupper,
        List.getD_eq_getElem _ _ hlower, List.getD_eq_getElem _ _ hupper]
      split
      · rfl
      · rfl

end Quantile

theorem summarize_eq (samples : List ℝ) :
    summarize Real.sqrt samples =
      { count := samples.length
        mean := Lib.mean samples
        median := Lib.quantile samples (50 / 100)
        p95 := Lib.quantile samples (95 / 100)
        p99 := Lib.quantile samples (99 / 100)
        stddev := Lib.stddev samples
        min := Lib.ranked 0 samples 0
        max := Lib.ranked 0 samples (samples.length - 1) } := by
  have hstddev : (if 2 ≤ samples.length then Lib.stddev samples else 0) = Lib.stddev samples := by
    split
    · rfl
    · rename_i hshort
      unfold Lib.stddev
      rw [Lib.variance_of_short (not_le.1 hshort), Real.sqrt_zero]
  have hmin : (samples.insertionSort (· ≤ ·)).headD 0 = Lib.ranked 0 samples 0 :=
    List.headD_eq_getD
  have hmax : (samples.insertionSort (· ≤ ·)).getLastD 0 =
      Lib.ranked 0 samples (samples.length - 1) := by
    unfold Lib.ranked
    rw [List.getLastD_eq_getLast?, List.getLast?_eq_getElem?, List.length_insertionSort,
      List.getD_eq_getElem?_getD]
  rw [← hstddev, ← hmin, ← hmax, ← quantile_insertionSort, ← quantile_insertionSort,
    ← quantile_insertionSort]
  cases samples with
  | nil => simp [summarize, summarizeImpl, Summary.zero, Lib.mean, quantile]
  | cons => rfl

/-! ## Order -/

/-- The summary is computed by reads inside of the sorted list. -/
structure ReadsInside (samples : List ℝ) (s : Summary ℝ) : Prop where
  quantiles : ∀ q : ℝ, 0 ≤ q → q ≤ 1 →
    quantileChecked (samples.insertionSort (· ≤ ·)) q =
      some (quantile (samples.insertionSort (· ≤ ·)) q)
  front : (samples.insertionSort (· ≤ ·)).head? = some s.min
  back : (samples.insertionSort (· ≤ ·)).getLast? = some s.max

/-- The members of the summary are in order. -/
structure Ordered (samples : List ℝ) (s : Summary ℝ) : Prop where
  min_le_median : s.min ≤ s.median
  median_le_p95 : s.median ≤ s.p95
  p95_le_p99 : s.p95 ≤ s.p99
  p99_le_max : s.p99 ≤ s.max
  min_le_mean : s.min ≤ s.mean
  mean_le_max : s.mean ≤ s.max
  stddev_eq_zero : s.stddev = 0 ↔ samples.length = 1 ∨ ∀ v ∈ samples, ∀ w ∈ samples, v = w

/-- No member of the first summary is above that of the second one, the deviations aside. -/
structure Below (s t : Summary ℝ) : Prop where
  min : s.min ≤ t.min
  mean : s.mean ≤ t.mean
  median : s.median ≤ t.median
  p95 : s.p95 ≤ t.p95
  p99 : s.p99 ≤ t.p99
  max : s.max ≤ t.max

theorem readsInside_summarize {samples : List ℝ} (hsamples : samples ≠ []) :
    ReadsInside samples (summarize Real.sqrt samples) := by
  have hpos : 0 < (samples.insertionSort (· ≤ ·)).length := by
    rw [List.length_insertionSort]
    exact List.length_pos_iff.2 hsamples
  have hlast : samples.length - 1 < (samples.insertionSort (· ≤ ·)).length := by
    rw [List.length_insertionSort] at hpos ⊢
    omega
  rw [summarize_eq]
  constructor
  case quantiles =>
    intro q _ hone
    exact quantileChecked_of_le_one hone
  case front =>
    rw [List.head?_eq_getElem?, List.getElem?_eq_getElem hpos]
    exact congrArg some (List.getD_eq_getElem _ _ hpos).symm
  case back =>
    rw [List.getLast?_eq_getElem?, List.length_insertionSort, List.getElem?_eq_getElem hlast]
    exact congrArg some (List.getD_eq_getElem _ _ hlast).symm

theorem ordered_summarize {samples : List ℝ} (hsamples : samples ≠ []) :
    Ordered samples (summarize Real.sqrt samples) := by
  rw [summarize_eq]
  constructor
  case min_le_median =>
    rw [← Lib.quantile_zero]
    exact Lib.quantile_mono hsamples le_rfl (by norm_num) (by norm_num)
  case median_le_p95 => exact Lib.quantile_mono hsamples (by norm_num) (by norm_num) (by norm_num)
  case p95_le_p99 => exact Lib.quantile_mono hsamples (by norm_num) (by norm_num) (by norm_num)
  case p99_le_max =>
    rw [← Lib.quantile_one]
    exact Lib.quantile_mono hsamples (by norm_num) (by norm_num) le_rfl
  case min_le_mean => exact Lib.le_mean hsamples fun v hv => Lib.ranked_zero_le 0 hv
  case mean_le_max => exact Lib.mean_le hsamples fun v hv => Lib.le_ranked_last 0 hv
  case stddev_eq_zero => exact Lib.stddev_eq_zero_iff samples

theorem below_summarize {samples raised : List ℝ} (hsamples : samples ≠ [])
    (h : List.Forall₂ (· ≤ ·) samples raised) :
    Below (summarize Real.sqrt samples) (summarize Real.sqrt raised) := by
  have hpos : 0 < samples.length := List.length_pos_iff.2 hsamples
  rw [summarize_eq, summarize_eq]
  constructor
  case min => exact Lib.ranked_le_of_forall₂ 0 h hpos
  case mean => exact Lib.mean_le_of_forall₂ h
  case median => exact Lib.quantile_le_of_forall₂ h hsamples (by norm_num) (by norm_num)
  case p95 => exact Lib.quantile_le_of_forall₂ h hsamples (by norm_num) (by norm_num)
  case p99 => exact Lib.quantile_le_of_forall₂ h hsamples (by norm_num) (by norm_num)
  case max =>
    show Lib.ranked 0 samples (samples.length - 1) ≤ Lib.ranked 0 raised (raised.length - 1)
    rw [← h.length_eq]
    exact Lib.ranked_le_of_forall₂ 0 h (by omega)

/-- A summary is read from inside of the sorted samples, its members are in order, and raised
samples raise them. -/
theorem summary_order (samples : List ℝ) (hsamples : samples ≠ []) :
    ReadsInside samples (summarize Real.sqrt samples) ∧
      Ordered samples (summarize Real.sqrt samples) ∧
      ∀ raised : List ℝ, List.Forall₂ (· ≤ ·) samples raised →
        Below (summarize Real.sqrt samples) (summarize Real.sqrt raised) := by
  refine ⟨readsInside_summarize hsamples, ordered_summarize hsamples, ?_⟩
  intro raised h
  exact below_summarize hsamples h

theorem summary_order_five :
    Ordered [1, 2, 3, 4, 5] (summarize Real.sqrt [1, 2, 3, 4, 5]) ∧
      Below (summarize Real.sqrt [1, 2, 3, 4, 5]) (summarize Real.sqrt [1, 2, 9, 4, 6]) := by
  have horder := summary_order [1, 2, 3, 4, 5] (List.cons_ne_nil _ _)
  refine ⟨horder.2.1, horder.2.2 _ ?_⟩
  norm_num

end Statistics
end LatencyAnalyzer
