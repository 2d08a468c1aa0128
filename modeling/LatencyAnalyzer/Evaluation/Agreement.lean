import LatencyAnalyzer.Evaluation.Outliers
import LatencyAnalyzer.Statistics.Order

/-!
# Agreement — the two implementations of the statistics

`robust_metrics` of the evaluation lab and `summarize` of the benchmarks are written independently.
A threshold that is not positive turns the outlier filter off; the two then agree, since both
compute the textbook statistics.
-/

namespace LatencyAnalyzer
namespace Evaluation

open Statistics (summarize summarize_eq)

/-- The mean of the two middle entries is the quantile halfway. -/
theorem medianOf_eq_quantile (samples : List ℝ) :
    medianOf samples = Statistics.quantile (samples.insertionSort (· ≤ ·)) (50 / 100) := by
  have hhalf : (50 / 100 : ℝ) = 1 / 2 := by norm_num
  calc
    medianOf samples = Lib.median samples := medianOf_eq samples
    _ = Lib.quantile samples (1 / 2) := (Lib.quantile_half samples).symm
    _ = Statistics.quantile (samples.insertionSort (· ≤ ·)) (50 / 100) := by
        rw [Statistics.quantile_insertionSort, hhalf]

/-- Nothing is rejected, and what both implementations compute is the same. -/
structure Agrees (samples : List ℝ) (m : Report.RobustMetrics ℝ) (s : Statistics.Summary ℝ) :
    Prop where
  kept : m.keptCount = samples.length
  rejected : m.rejectedCount = 0
  count : m.inputCount = s.count
  mean : m.mean = s.mean
  median : m.median = s.median
  stddev : m.stddev = s.stddev

/-- Without a filter the robust metrics are those of the summary, for lists of any length. -/
theorem robust_metrics_agree (samples : List ℝ) {threshold : ℝ} (h : threshold ≤ 0) :
    removeMadOutliers samples threshold = samples ∧
      Agrees samples (robustMetrics Real.sqrt samples threshold) (summarize Real.sqrt samples) ∧
      medianOf samples = Statistics.quantile (samples.insertionSort (· ≤ ·)) (50 / 100) := by
  have hkept : removeMadOutliers samples threshold = samples :=
    removeMadOutliers_of_unfiltered (Or.inr (Or.inl h))
  refine ⟨hkept, ?_, medianOf_eq_quantile samples⟩
  unfold robustMetrics
  rw [hkept, summarize_eq]
  constructor
  case kept => rfl
  case rejected => exact Nat.sub_self _
  case count => rfl
  case mean => exact meanOf_eq samples
  case median =>
    exact (medianOf_eq_quantile samples).trans (Statistics.quantile_insertionSort samples _)
  case stddev => exact stddevOf_eq samples

theorem robust_metrics_agree_four :
    Agrees [10, 12, 14, 100] (robustMetrics Real.sqrt [10, 12, 14, 100] 0)
      (summarize Real.sqrt [10, 12, 14, 100]) :=
  (robust_metrics_agree [10, 12, 14, 100] le_rfl).2.1

end Evaluation
end LatencyAnalyzer
