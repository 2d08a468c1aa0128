import LatencyAnalyzer.Evaluation.Separation

/-!
# Classification — the error rate of the threshold classifier

`classification_error_rate` puts the threshold halfway between the robust means and counts the
samples on the wrong side of it.  The filter keeps something of every class, so the threshold
depends on the samples, and exchanging the classes exchanges the right and the wrong side.
-/

namespace LatencyAnalyzer
namespace Evaluation

open Report (percent percent_eq percent_mem)

section Classifier

variable {fixed random : List ℝ}

/-! ## The other order of the classes -/

theorem midpoint_swap (fixed random : List ℝ) : midpoint random fixed = midpoint fixed random := by
  unfold midpoint
  rw [add_comm]

theorem misclassified_le (t : ℝ) (fixed random : List ℝ) :
    misclassified t fixed random ≤ fixed.length + random.length :=
  Nat.add_le_add List.countP_le_length List.countP_le_length

theorem countP_threshold (t : ℝ) (samples : List ℝ) :
    samples.countP (t < ·) + samples.countP (· ≤ t) = samples.length := by
  rw [List.length_eq_countP_add_countP fun x => decide (t < x)]
  simp

/-- Every sample is on the wrong side for one of the two orders, ties included. -/
theorem misclassified_add_swap (t : ℝ) (fixed random : List ℝ) :
    misclassified t fixed random + misclassified t random fixed =
      fixed.length + random.length := by
  have hfixed := countP_threshold t fixed
  have hrandom := countP_threshold t random
  unfold misclassified
  omega

/-! ## Classes with a gap -/

theorem mem_of_mem_removeMadOutliers {samples : List ℝ} {threshold x : ℝ}
    (h : x ∈ removeMadOutliers samples threshold) : x ∈ samples := by
  rcases exists_radius samples threshold with ⟨radius, hfilter⟩
  rw [hfilter] at h
  exact List.mem_of_mem_filter h

/-- The robust mean stays in an interval that holds the samples, whatever is rejected. -/
theorem robust_mean_mem {samples : List ℝ} {l u : ℝ} (hsamples : samples ≠ [])
    (h : ∀ x ∈ samples, l ≤ x ∧ x ≤ u) :
    l ≤ (robust samples).mean ∧ (robust samples).mean ≤ u := by
  have hkept : removeMadOutliers samples defaultOutlierThreshold ≠ [] := by
    intro hnone
    apply robust_keptCount_ne_zero hsamples
    rw [robust_keptCount, hnone]
    rfl
  rw [robust_mean]
  constructor
  · exact Lib.le_mean hkept fun x hx => (h x (mem_of_mem_removeMadOutliers hx)).1
  · exact Lib.mean_le hkept fun x hx => (h x (mem_of_mem_removeMadOutliers hx)).2

theorem misclassified_eq_zero {t b c : ℝ} (hfixed : ∀ x ∈ fixed, x ≤ b)
    (hrandom : ∀ x ∈ random, c ≤ x) (hbelow : b ≤ t) (habove : t < c) :
    misclassified t fixed random = 0 := by
  have hfirst : fixed.countP (t < ·) = 0 := by
    rw [List.countP_eq_zero]
    intro x hx hlt
    exact absurd ((hfixed x hx).trans hbelow) (not_le.2 (of_decide_eq_true hlt))
  have hsecond : random.countP (· ≤ t) = 0 := by
    rw [List.countP_eq_zero]
    intro x hx hle
    exact absurd (habove.trans_le (hrandom x hx)) (not_lt.2 (of_decide_eq_true hle))
  unfold misclassified
  rw [hfirst, hsecond]

/-- The two error rates of a pair of classes add up to 100, and a pair of classes that are narrower
than the gap between them has none. -/
theorem classifier_error_law (fixed random : List ℝ) (hfixed : fixed ≠ []) (hrandom : random ≠ []) :
    (0 ≤ classificationErrorRate Real.sqrt fixed random ∧
      classificationErrorRate Real.sqrt fixed random ≤ 100) ∧
    classificationErrorRate Real.sqrt fixed random +
      classificationErrorRate Real.sqrt random fixed = 100 ∧
    ∀ a b c d : ℝ, (∀ x ∈ fixed, a ≤ x ∧ x ≤ b) → (∀ x ∈ random, c ≤ x ∧ x ≤ d) → b < c →
      b - a < c - b → d - c < c - b → classificationErrorRate Real.sqrt fixed random = 0 := by
  have hpos : 0 < fixed.length := List.length_pos_iff.2 hfixed
  have htotal : (0 : ℝ) < ((fixed.length + random.length : Nat) : ℝ) := by
    have hsum : 0 < fixed.length + random.length := by omega
    exact_mod_cast hsum
  rw [classificationErrorRate_eq hfixed hrandom, classificationErrorRate_eq hrandom hfixed,
    midpoint_swap fixed random, Nat.add_comm random.length]
  refine ⟨?_, ?_, ?_⟩
  · exact percent_mem (Nat.cast_nonneg _) (by exact_mod_cast misclassified_le _ fixed random) htotal
  · have hsum : (misclassified (midpoint fixed random) fixed random : ℝ) +
        misclassified (midpoint fixed random) random fixed =
          ((fixed.length + random.length : Nat) : ℝ) := by
      exact_mod_cast misclassified_add_swap (midpoint fixed random) fixed random
    rw [percent_eq, percent_eq, ← add_div, ← mul_add, hsum]
    exact mul_div_cancel_right₀ 100 htotal.ne'
  · intro a b c d hfixedMem hrandomMem hgap hfixedWidth hrandomWidth
    rcases robust_mean_mem hfixed hfixedMem with ⟨hlow, hhigh⟩
    rcases robust_mean_mem hrandom hrandomMem with ⟨hlow', hhigh'⟩
    have hbelow : b ≤ midpoint fixed random := by
      unfold midpoint
      linarith
    have habove : midpoint fixed random < c := by
      unfold midpoint
      linarith
    rw [misclassified_eq_zero (fun x hx => (hfixedMem x hx).2) (fun x hx => (hrandomMem x hx).1)
      hbelow habove, percent_eq]
    simp

theorem classifier_error_law_pair :
    classificationErrorRate Real.sqrt [7, 13] [46, 54] = 0 ∧
      classificationErrorRate Real.sqrt [7, 13] [46, 54] +
        classificationErrorRate Real.sqrt [46, 54] [7, 13] = 100 := by
  have hlaw := classifier_error_law [7, 13] [46, 54] (List.cons_ne_nil _ _)
    (List.cons_ne_nil _ _)
  refine ⟨hlaw.2.2 7 13 46 54 ?_ ?_ (by norm_num) (by norm_num) (by norm_num), hlaw.2.1⟩
  · norm_num
  · norm_num

end Classifier

end Evaluation
end LatencyAnalyzer
