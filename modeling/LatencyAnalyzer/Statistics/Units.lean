import LatencyAnalyzer.Report.Csv
import LatencyAnalyzer.Statistics.Order

/-!
# Units — summaries of rescaled and of reordered samples

The reporter prints nanoseconds that it converts from a summary of cycles.  This is the summary of
the converted samples, since every member but the count follows a change of unit.
-/

namespace LatencyAnalyzer
namespace Statistics

open Report (cyclesToNs)

/-! ## The order of the samples -/

theorem summarize_perm {samples permuted : List ℝ} (h : permuted.Perm samples) :
    summarize Real.sqrt permuted = summarize Real.sqrt samples := by
  have hstddev : Lib.stddev permuted = Lib.stddev samples := by
    unfold Lib.stddev
    rw [Lib.variance_perm h]
  simp only [summarize_eq, h.length_eq, Lib.mean_perm h, Lib.quantile_perm h, hstddev,
    Lib.ranked_perm 0 h]

/-! ## Their unit -/

/-- `t` is the summary `s` in a unit of `1 / a`, with the origin moved by `b`. -/
structure Rescaled (a b : ℝ) (s t : Summary ℝ) : Prop where
  count : t.count = s.count
  mean : t.mean = a * s.mean + b
  median : t.median = a * s.median + b
  p95 : t.p95 = a * s.p95 + b
  p99 : t.p99 = a * s.p99 + b
  min : t.min = a * s.min + b
  max : t.max = a * s.max + b

theorem rescaled_summarize {a : ℝ} (ha : 0 < a) (b : ℝ) {samples : List ℝ}
    (hsamples : samples ≠ []) :
    Rescaled a b (summarize Real.sqrt samples)
      (summarize Real.sqrt (samples.map fun x => a * x + b)) := by
  have hf := Lib.monotone_affine ha.le b
  have hpos : 0 < samples.length := List.length_pos_iff.2 hsamples
  have hlast : samples.length - 1 < samples.length := by omega
  rw [summarize_eq, summarize_eq]
  constructor
  case count => exact List.length_map _
  case mean => exact Lib.mean_map_affine a b hsamples
  case median => exact Lib.quantile_map_affine ha.le b hsamples (by norm_num)
  case p95 => exact Lib.quantile_map_affine ha.le b hsamples (by norm_num)
  case p99 => exact Lib.quantile_map_affine ha.le b hsamples (by norm_num)
  case min => exact Lib.ranked_map_of_monotone hf 0 hpos
  case max =>
    dsimp only
    rw [List.length_map]
    exact Lib.ranked_map_of_monotone hf 0 hlast

theorem stddev_summarize_map {a : ℝ} (ha : 0 < a) (b : ℝ) (samples : List ℝ) :
    (summarize Real.sqrt (samples.map fun x => a * x + b)).stddev =
      a * (summarize Real.sqrt samples).stddev := by
  simp only [summarize_eq, Lib.stddev_map_affine, abs_of_pos ha]

/-- The conversion is a change of unit. -/
theorem cyclesToNs_eq {tscHz : ℝ} (h : 0 < tscHz) (cycles : ℝ) :
    cyclesToNs cycles tscHz = 1000000000 / tscHz * cycles + 0 := by
  unfold cyclesToNs
  rw [if_neg (not_le.2 h)]
  ring

theorem cyclesToNs_summarize {tscHz : ℝ} (h : 0 < tscHz) (samples : List ℝ) :
    cyclesToNs (summarize Real.sqrt samples).mean tscHz =
        (summarize Real.sqrt (samples.map fun x => cyclesToNs x tscHz)).mean ∧
      cyclesToNs (summarize Real.sqrt samples).median tscHz =
        (summarize Real.sqrt (samples.map fun x => cyclesToNs x tscHz)).median := by
  have hunit : 0 < 1000000000 / tscHz := div_pos (by norm_num) h
  simp only [cyclesToNs_eq h]
  rcases eq_or_ne samples [] with rfl | hsamples
  · -- No sample: every member of the summary is 0.
    simp [summarize, summarizeImpl, Summary.zero]
  · have hrescaled := rescaled_summarize hunit 0 hsamples
    exact ⟨hrescaled.mean.symm, hrescaled.median.symm⟩

/-- Summaries ignore the order of the samples and follow their unit, so converted statistics are
the statistics of converted samples. -/
theorem summary_equivariant (samples : List ℝ) :
    (∀ permuted : List ℝ, permuted.Perm samples →
      summarize Real.sqrt permuted = summarize Real.sqrt samples) ∧
    (∀ a b : ℝ, 0 < a →
      (summarize Real.sqrt (samples.map fun x => a * x + b)).stddev =
          a * (summarize Real.sqrt samples).stddev ∧
        (samples ≠ [] → Rescaled a b (summarize Real.sqrt samples)
          (summarize Real.sqrt (samples.map fun x => a * x + b)))) ∧
    ∀ tscHz : ℝ, 0 < tscHz →
      cyclesToNs (summarize Real.sqrt samples).mean tscHz =
          (summarize Real.sqrt (samples.map fun x => cyclesToNs x tscHz)).mean ∧
        cyclesToNs (summarize Real.sqrt samples).median tscHz =
          (summarize Real.sqrt (samples.map fun x => cyclesToNs x tscHz)).median := by
  refine ⟨?_, ?_, ?_⟩
  · intro permuted h
    exact summarize_perm h
  · intro a b ha
    exact ⟨stddev_summarize_map ha b samples, rescaled_summarize ha b⟩
  · intro tscHz h
    exact cyclesToNs_summarize h samples

/-- Two samples at 2 GHz, in either order. -/
theorem summary_equivariant_pair :
    summarize Real.sqrt [600, 200] = summarize Real.sqrt [200, 600] ∧
      cyclesToNs (summarize Real.sqrt [200, 600]).mean 2000000000 =
        (summarize Real.sqrt ([200, 600].map fun x => cyclesToNs x 2000000000)).mean := by
  have hpair := summary_equivariant [200, 600]
  exact ⟨hpair.1 _ (List.Perm.swap _ _ _), (hpair.2.2 2000000000 (by norm_num)).1⟩

end Statistics
end LatencyAnalyzer
