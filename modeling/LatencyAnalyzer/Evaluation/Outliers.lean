import Mathlib.Tactic.NormNum
import LatencyAnalyzer.Evaluation.Metrics

/-!
# Outliers — what `remove_mad_outliers` keeps

The filter keeps the samples whose distance from the median is at most a multiple of the median
absolute deviation.  Three results: a majority of the samples bounds what is kept, at least half of
the samples are kept, and the filter commutes with changes of unit and of order.
-/

namespace LatencyAnalyzer
namespace Evaluation

section Filter

variable {K : Type*} [Field K] [LinearOrder K] [IsStrictOrderedRing K]

/-! ## The two ways through the function -/

omit [IsStrictOrderedRing K] in
theorem removeMadOutliers_of_unfiltered {samples : List K} {threshold : K}
    (h : samples.length < 5 ∨ threshold ≤ 0 ∨ mad samples ≤ negligible) :
    removeMadOutliers samples threshold = samples := by
  unfold removeMadOutliers
  split
  · rfl
  · rename_i hguard
    have hmad : mad samples ≤ negligible := by
      rcases h with hfew | hthreshold | hmad
      · exact absurd (Or.inl hfew) hguard
      · exact absurd (Or.inr hthreshold) hguard
      · exact hmad
    rw [if_pos hmad]

omit [IsStrictOrderedRing K] in
theorem removeMadOutliers_of_filtered {samples : List K} {threshold : K}
    (hmany : 5 ≤ samples.length) (hthreshold : 0 < threshold) (hmad : negligible < mad samples) :
    removeMadOutliers samples threshold = samples.filter fun value =>
      |value - medianOf samples| ≤ threshold * (madScale * mad samples) := by
  have hguard : ¬ (samples.length < 5 ∨ threshold ≤ 0) := by
    rintro (hfew | hle)
    · omega
    · exact absurd hthreshold (not_lt.2 hle)
  unfold removeMadOutliers
  rw [if_neg hguard, if_neg (not_le.2 hmad)]

omit [IsStrictOrderedRing K] in
/-- Either all samples are returned or the filter has run. -/
theorem removeMadOutliers_cases (samples : List K) (threshold : K) :
    ((samples.length < 5 ∨ threshold ≤ 0 ∨ mad samples ≤ negligible) ∧
      removeMadOutliers samples threshold = samples) ∨
    ((5 ≤ samples.length ∧ 0 < threshold ∧ negligible < mad samples) ∧
      removeMadOutliers samples threshold = samples.filter fun value =>
        |value - medianOf samples| ≤ threshold * (madScale * mad samples)) := by
  by_cases h : samples.length < 5 ∨ threshold ≤ 0 ∨ mad samples ≤ negligible
  · exact Or.inl ⟨h, removeMadOutliers_of_unfiltered h⟩
  · rw [not_or, not_or, not_lt, not_le, not_le] at h
    exact Or.inr ⟨h, removeMadOutliers_of_filtered h.1 h.2.1 h.2.2⟩

theorem negligible_pos : (0 : K) < negligible := by
  unfold negligible
  positivity

theorem madScale_pos : (0 : K) < madScale := by
  unfold madScale
  positivity

/-! ## Majorities -/

/-- More than half of the samples lie in `[l, u]`. -/
def Majority (samples : List K) (l u : K) : Prop :=
  samples.length < 2 * samples.countP fun x => l ≤ x ∧ x ≤ u

/-- `[l, u]` widened by `1.4826 * threshold * (u - l)` on both sides. -/
def Near (threshold l u x : K) : Prop :=
  l - madScale * threshold * (u - l) ≤ x ∧ x ≤ u + madScale * threshold * (u - l)

theorem Majority.median {samples : List K} {l u : K} (h : Majority samples l u) :
    l ≤ medianOf samples ∧ medianOf samples ≤ u := by
  rw [medianOf_eq]
  exact Lib.median_mem_of_majority h

/-- The deviations of the majority are at most the width of the interval, so the median of all
deviations is. -/
theorem Majority.mad_le {samples : List K} {l u : K} (h : Majority samples l u) :
    mad samples ≤ u - l := by
  rcases h.median with ⟨hl, hu⟩
  unfold mad
  rw [medianOf_eq]
  apply Lib.median_le_of_majority
  unfold deviations
  rw [List.length_map, List.countP_map]
  refine lt_of_lt_of_le h (Nat.mul_le_mul_left 2 (List.countP_mono_left ?_))
  intro x _ hx
  rw [decide_eq_true_eq] at hx
  simp only [Function.comp_apply, decide_eq_true_eq]
  exact abs_le.2 ⟨by linarith [hx.1], by linarith [hx.2]⟩

/-- What passes the filter is near the majority. -/
theorem Majority.near {samples : List K} {threshold l u x : K} (h : Majority samples l u)
    (hthreshold : 0 < threshold)
    (hx : |x - medianOf samples| ≤ threshold * (madScale * mad samples)) :
    Near threshold l u x := by
  rcases h.median with ⟨hl, hu⟩
  have hfactor : 0 ≤ madScale * threshold := (mul_pos madScale_pos hthreshold).le
  have hbound : |x - medianOf samples| ≤ madScale * threshold * (u - l) :=
    calc
      |x - medianOf samples| ≤ threshold * (madScale * mad samples) := hx
      _ = madScale * threshold * mad samples := by ring
      _ ≤ madScale * threshold * (u - l) := mul_le_mul_of_nonneg_left h.mad_le hfactor
  rcases abs_le.1 hbound with ⟨hlow, hhigh⟩
  exact ⟨by linarith, by linarith⟩

/-! ## The kept half -/

theorem half_within_mad (samples : List K) :
    samples.length ≤ 2 * samples.countP fun value => |value - medianOf samples| ≤ mad samples := by
  have hhalf := Lib.half_le_median (deviations samples)
  rw [← medianOf_eq] at hhalf
  unfold deviations at hhalf
  rw [List.length_map, List.countP_map] at hhalf
  exact hhalf

theorem half_le_length_removeMadOutliers (samples : List K) {threshold : K}
    (h : 1 ≤ madScale * threshold) :
    (samples.length + 1) / 2 ≤ (removeMadOutliers samples threshold).length := by
  rcases removeMadOutliers_cases samples threshold with ⟨_, heq⟩ | ⟨⟨_, _, hmad⟩, heq⟩
  · rw [heq]
    omega
  · have hhalf := half_within_mad samples
    have hwide : mad samples ≤ threshold * (madScale * mad samples) :=
      calc
        mad samples = 1 * mad samples := (one_mul _).symm
        _ ≤ madScale * threshold * mad samples :=
            mul_le_mul_of_nonneg_right h (negligible_pos.trans hmad).le
        _ = threshold * (madScale * mad samples) := by ring
    have hmono := List.countP_mono_left (l := samples)
      (p := fun value => decide (|value - medianOf samples| ≤ mad samples))
      (q := fun value =>
        decide (|value - medianOf samples| ≤ threshold * (madScale * mad samples)))
      fun x _ hx => by
        rw [decide_eq_true_eq] at hx ⊢
        exact hx.trans hwide
    rw [heq, ← List.countP_eq_length_filter]
    omega

omit [IsStrictOrderedRing K] in
/-- The kept samples are those in an interval around the median. -/
theorem exists_radius (samples : List K) (threshold : K) :
    ∃ radius, removeMadOutliers samples threshold =
      samples.filter fun value => |value - medianOf samples| ≤ radius := by
  rcases removeMadOutliers_cases samples threshold with ⟨_, heq⟩ | ⟨_, heq⟩
  · -- Without a filter any radius will do that covers all deviations.
    refine ⟨(deviations samples).foldr max 0, heq.trans ?_⟩
    refine (List.filter_eq_self.2 ?_).symm
    intro x hx
    rw [decide_eq_true_eq]
    exact List.le_max_of_le' 0 (List.mem_map_of_mem hx) le_rfl
  · exact ⟨_, heq⟩

theorem sublist_removeMadOutliers (samples : List K) {narrow wide : K} (hpos : 0 < narrow)
    (hle : narrow ≤ wide) :
    (removeMadOutliers samples narrow).Sublist (removeMadOutliers samples wide) := by
  rcases removeMadOutliers_cases samples wide with ⟨_, heq⟩ | ⟨⟨hmany, _, hmad⟩, heq⟩
  · rw [heq]
    rcases exists_radius samples narrow with ⟨radius, hfilter⟩
    rw [hfilter]
    exact List.filter_sublist
  · rw [heq, removeMadOutliers_of_filtered hmany hpos hmad]
    apply List.monotone_filter_right samples
    intro x hx
    rw [decide_eq_true_eq] at hx ⊢
    have hscale : 0 ≤ madScale * mad samples :=
      (mul_pos madScale_pos (negligible_pos.trans hmad)).le
    exact hx.trans (mul_le_mul_of_nonneg_right hle hscale)

/-! ## Units and order -/

theorem medianOf_map_affine (a b : K) {samples : List K} (hsamples : samples ≠ []) :
    medianOf (samples.map fun x => a * x + b) = a * medianOf samples + b := by
  rw [medianOf_eq, medianOf_eq, Lib.median_map_affine a b hsamples]

/-- The distance of two values scales with the unit. -/
theorem abs_affine_sub (a b x m : K) : |a * x + b - (a * m + b)| = |a| * |x - m| := by
  rw [← abs_mul]
  congr 1
  ring

theorem mad_map_affine (a b : K) {samples : List K} (hsamples : samples ≠ []) :
    mad (samples.map fun x => a * x + b) = |a| * mad samples := by
  have hdeviations : deviations (samples.map fun x => a * x + b) =
      (deviations samples).map fun d => |a| * d + 0 := by
    unfold deviations
    rw [List.map_map, List.map_map, medianOf_map_affine a b hsamples]
    apply List.map_congr_left
    intro x _
    simp only [Function.comp_apply, abs_affine_sub, add_zero]
  have hne : deviations samples ≠ [] := by
    unfold deviations
    exact mt List.map_eq_nil_iff.1 hsamples
  unfold mad
  rw [hdeviations, medianOf_map_affine |a| 0 hne, add_zero]

/-- The cutoff on the median absolute deviation is the only part of the filter with a unit; it is
reached for five samples and a positive threshold. -/
theorem removeMadOutliers_map_affine {a : K} (ha : a ≠ 0) (b : K) {samples : List K}
    {threshold : K}
    (hguard : 5 ≤ samples.length → 0 < threshold →
      (mad samples ≤ negligible ↔ mad (samples.map fun x => a * x + b) ≤ negligible)) :
    removeMadOutliers (samples.map fun x => a * x + b) threshold =
      (removeMadOutliers samples threshold).map fun x => a * x + b := by
  rcases removeMadOutliers_cases samples threshold with
    ⟨hunfiltered, heq⟩ | ⟨⟨hmany, hthreshold, hmad⟩, heq⟩
  · rw [heq]
    apply removeMadOutliers_of_unfiltered
    rw [List.length_map]
    rcases hunfiltered with hfew | hle | hmad
    · exact Or.inl hfew
    · exact Or.inr (Or.inl hle)
    · by_cases hmany : 5 ≤ samples.length
      · by_cases hthreshold : 0 < threshold
        · exact Or.inr (Or.inr ((hguard hmany hthreshold).1 hmad))
        · exact Or.inr (Or.inl (not_lt.1 hthreshold))
      · exact Or.inl (not_le.1 hmany)
  · have hne : samples ≠ [] := List.length_pos_iff.1 (by omega)
    have hmad' : negligible < mad (samples.map fun x => a * x + b) :=
      not_le.1 fun hle => not_le.2 hmad ((hguard hmany hthreshold).2 hle)
    rw [heq, removeMadOutliers_of_filtered (by rwa [List.length_map]) hthreshold hmad',
      List.filter_map, medianOf_map_affine a b hne, mad_map_affine a b hne]
    congr 1
    apply List.filter_congr
    intro x _
    -- Both sides of the comparison carry the factor `|a|`.
    have hscaled : threshold * (madScale * (|a| * mad samples)) =
        |a| * (threshold * (madScale * mad samples)) := by ring
    simp only [Function.comp_apply, abs_affine_sub, hscaled]
    exact decide_eq_decide.2 (mul_le_mul_iff_right₀ (abs_pos.2 ha))

theorem medianOf_perm {samples permuted : List K} (h : permuted.Perm samples) :
    medianOf permuted = medianOf samples := by
  rw [medianOf_eq, medianOf_eq, Lib.median_perm h]

theorem mad_perm {samples permuted : List K} (h : permuted.Perm samples) :
    mad permuted = mad samples := by
  unfold mad deviations
  rw [medianOf_perm h]
  exact medianOf_perm (h.map _)

theorem removeMadOutliers_perm {samples permuted : List K} (h : permuted.Perm samples)
    (threshold : K) :
    (removeMadOutliers permuted threshold).Perm (removeMadOutliers samples threshold) := by
  unfold removeMadOutliers
  rw [h.length_eq, mad_perm h, medianOf_perm h]
  split
  · exact h
  · split
    · exact h
    · exact h.filter _

end Filter

/-! ## The filter and the mean over the reals -/

open Report (percent)

section Reals

/-- A majority in `[l, u]` confines the kept samples and their mean. -/
structure Confined (samples : List ℝ) (threshold l u : ℝ) : Prop where
  kept : ∀ x ∈ removeMadOutliers samples threshold, Near threshold l u x
  mean : Near threshold l u (robustMetrics Real.sqrt samples threshold).mean

/-- The filter has something to work with: it runs and some sample is close to the median (else the
mean is that of no sample, which is 0), or it does not run and no sample is far from the majority.
-/
structure Filterable (samples : List ℝ) (threshold l u : ℝ) : Prop where
  spread : negligible < mad samples →
    (∃ x ∈ samples, |x - medianOf samples| ≤ threshold * (madScale * mad samples)) ∨
      Near threshold l u 0
  flat : mad samples ≤ negligible → ∀ x ∈ samples, Near threshold l u x

theorem near_meanOf {samples : List ℝ} {threshold l u : ℝ} (hsamples : samples ≠ [])
    (h : ∀ x ∈ samples, Near threshold l u x) : Near threshold l u (meanOf samples) := by
  rw [meanOf_eq]
  exact ⟨Lib.le_mean hsamples fun x hx => (h x hx).1, Lib.mean_le hsamples fun x hx => (h x hx).2⟩

theorem confined_of_kept {samples : List ℝ} {threshold l u : ℝ}
    (hne : removeMadOutliers samples threshold ≠ [])
    (h : ∀ x ∈ removeMadOutliers samples threshold, Near threshold l u x) :
    Confined samples threshold l u :=
  ⟨h, near_meanOf hne h⟩

/-- A strict majority confines what the filter keeps and the robust mean, except where the filter
does not run on account of a negligible deviation, or rejects every sample. -/
theorem majority_confines_iff {samples : List ℝ} {threshold l u : ℝ} (hmany : 5 ≤ samples.length)
    (hthreshold : 0 < threshold) (hmajority : Majority samples l u) :
    Confined samples threshold l u ↔ Filterable samples threshold l u := by
  have hne : samples ≠ [] := List.length_pos_iff.1 (by omega)
  rcases le_or_gt (mad samples) negligible with hflat | hspread
  · have heq : removeMadOutliers samples threshold = samples :=
      removeMadOutliers_of_unfiltered (Or.inr (Or.inr hflat))
    constructor
    · intro h
      refine ⟨fun hspread => absurd hflat (not_le.2 hspread), fun _ x hx => h.kept x ?_⟩
      rwa [heq]
    · intro h
      have hnear := h.flat hflat
      rw [← heq] at hne hnear
      exact confined_of_kept hne hnear
  · have heq := removeMadOutliers_of_filtered hmany hthreshold hspread
    have hkept : ∀ x ∈ removeMadOutliers samples threshold, Near threshold l u x := by
      intro x hx
      rw [heq, List.mem_filter, decide_eq_true_eq] at hx
      exact hmajority.near hthreshold hx.2
    constructor
    · intro h
      refine ⟨fun _ => ?_, fun hflat => absurd hspread (not_lt.2 hflat)⟩
      by_cases hany : ∃ x ∈ samples,
          |x - medianOf samples| ≤ threshold * (madScale * mad samples)
      · exact Or.inl hany
      · -- Nothing is kept, and the mean of nothing is 0.
        have hnone : removeMadOutliers samples threshold = [] := by
          rw [heq, List.filter_eq_nil_iff]
          intro x hx hclose
          exact hany ⟨x, hx, of_decide_eq_true hclose⟩
        have hmean := h.mean
        simp only [robustMetrics, hnone, meanOf] at hmean
        exact Or.inr hmean
    · intro h
      by_cases hempty : removeMadOutliers samples threshold = []
      · refine ⟨hkept, ?_⟩
        rcases h.spread hspread with ⟨x, hx, hclose⟩ | hzero
        · have hmem : x ∈ removeMadOutliers samples threshold := by
            rw [heq]
            exact List.mem_filter.2 ⟨hx, decide_eq_true hclose⟩
          rw [hempty] at hmem
          cases hmem
        · simp only [robustMetrics, hempty, meanOf]
          exact hzero
      · exact confined_of_kept hempty hkept

/-! Four samples in `[10, 16]` and one excursion. -/

theorem median_four : medianOf ([10, 12, 14, 16, 100] : List ℝ) = 14 := by
  norm_num [medianOf, List.insertionSort, List.orderedInsert]

theorem mad_four : mad ([10, 12, 14, 16, 100] : List ℝ) = 2 := by
  unfold mad deviations
  rw [median_four]
  norm_num [medianOf, List.insertionSort, List.orderedInsert, abs_of_neg, abs_of_pos]

theorem majority_confines_four : Confined [10, 12, 14, 16, 100] defaultOutlierThreshold 10 16 := by
  have hmajority : Majority ([10, 12, 14, 16, 100] : List ℝ) 10 16 := by
    norm_num [Majority, List.countP_cons]
  refine (majority_confines_iff (by simp) (by norm_num [defaultOutlierThreshold]) hmajority).2
    ⟨fun _ => Or.inl ⟨14, by simp, ?_⟩, fun hflat => ?_⟩
  · rw [median_four, mad_four]
    norm_num [defaultOutlierThreshold, madScale]
  · rw [mad_four] at hflat
    norm_num [negligible] at hflat

/-- Four equal samples and one excursion, which is kept. -/
theorem excursion_kept :
    Majority ([10, 10, 10, 10, 1000] : List ℝ) 10 10 ∧
      ¬ Confined [10, 10, 10, 10, 1000] defaultOutlierThreshold 10 10 := by
  have hmedian : medianOf ([10, 10, 10, 10, 1000] : List ℝ) = 10 := by
    norm_num [medianOf, List.insertionSort, List.orderedInsert]
  have hmad : mad ([10, 10, 10, 10, 1000] : List ℝ) = 0 := by
    unfold mad deviations
    rw [hmedian]
    norm_num [medianOf, List.insertionSort, List.orderedInsert]
  refine ⟨by norm_num [Majority, List.countP_cons], ?_⟩
  intro hconfined
  have hflat : mad ([10, 10, 10, 10, 1000] : List ℝ) ≤ negligible := by
    rw [hmad]
    exact negligible_pos.le
  have hkept := hconfined.kept 1000
  rw [removeMadOutliers_of_unfiltered (Or.inr (Or.inr hflat))] at hkept
  have hnear := (hkept (by simp)).2
  norm_num at hnear

/-! ## Half of the samples -/

theorem one_le_default : 1 ≤ madScale * (defaultOutlierThreshold : ℝ) := by
  norm_num [madScale, defaultOutlierThreshold]

theorem length_of_keptCount_lt {samples : List ℝ} {n : Nat} (hn : n ≤ 2)
    (h : (robustMetrics Real.sqrt samples defaultOutlierThreshold).keptCount < n) :
    samples.length < n := by
  rcases removeMadOutliers_cases samples defaultOutlierThreshold with
    ⟨_, heq⟩ | ⟨⟨hmany, _, _⟩, _⟩
  · simpa only [robustMetrics, heq] using h
  · have hhalf := half_le_length_removeMadOutliers samples one_le_default
    simp only [robustMetrics] at h
    omega

/-! ## What the callers compute -/

/-- The metrics that `snr_linear` and `classification_error_rate` work with. -/
noncomputable def robust (samples : List ℝ) : Report.RobustMetrics ℝ :=
  robustMetrics Real.sqrt samples defaultOutlierThreshold

theorem robust_keptCount (samples : List ℝ) :
    (robust samples).keptCount = (removeMadOutliers samples defaultOutlierThreshold).length :=
  rfl

/-- `threshold` in `classification_error_rate`. -/
noncomputable def midpoint (fixed random : List ℝ) : ℝ :=
  ((robust fixed).mean + (robust random).mean) / (2 : Nat)

/-- `errors` in `classification_error_rate`, for the threshold `t`. -/
noncomputable def misclassified (t : ℝ) (fixed random : List ℝ) : Nat :=
  fixed.countP (t < ·) + random.countP (· ≤ t)

theorem robust_keptCount_ne_zero {samples : List ℝ} (h : samples ≠ []) :
    (robust samples).keptCount ≠ 0 := by
  intro hzero
  have hshort : samples.length < 1 :=
    length_of_keptCount_lt (by omega) (Nat.lt_one_iff.2 hzero)
  exact h (List.length_eq_zero_iff.1 (Nat.lt_one_iff.1 hshort))

theorem classificationErrorRate_eq {fixed random : List ℝ} (hfixed : fixed ≠ [])
    (hrandom : random ≠ []) :
    classificationErrorRate Real.sqrt fixed random =
      percent (misclassified (midpoint fixed random) fixed random : ℝ)
        ((fixed.length + random.length : Nat) : ℝ) := by
  have hkept : ¬ ((robust fixed).keptCount = 0 ∨ (robust random).keptCount = 0) := by
    rintro (hzero | hzero)
    · exact robust_keptCount_ne_zero hfixed hzero
    · exact robust_keptCount_ne_zero hrandom hzero
  have hpos : 0 < fixed.length := List.length_pos_iff.2 hfixed
  have htotal : fixed.length + random.length ≠ 0 := by omega
  unfold robust at hkept
  unfold classificationErrorRate
  dsimp only
  rw [if_neg hkept, if_neg htotal]
  rfl

/-- Without the guard on what was kept, for two samples of each class. -/
theorem snrLinear_of_two {first second : List ℝ} (hfirst : 2 ≤ first.length)
    (hsecond : 2 ≤ second.length) :
    snrLinear Real.sqrt first second =
      if pooledNoise Real.sqrt (robust first) (robust second) ≤ negligible then 0
      else |(robust first).mean - (robust second).mean| /
        pooledNoise Real.sqrt (robust first) (robust second) := by
  have hkept : ¬ ((robust first).keptCount < 2 ∨ (robust second).keptCount < 2) := by
    rintro (hfew | hfew)
    · exact absurd (length_of_keptCount_lt le_rfl hfew) (not_lt.2 hfirst)
    · exact absurd (length_of_keptCount_lt le_rfl hfew) (not_lt.2 hsecond)
  unfold robust at hkept
  unfold snrLinear
  dsimp only
  rw [if_neg hkept]
  rfl

/-- The filter keeps at least half of the samples, those in an interval around the median, and more
for a larger threshold.  So the guards of its callers fire for lists that were short already, and
longer lists get the rate and the ratio.  The arithmetic is that of the reals. -/
theorem rejection_keeps_half :
    (∀ (samples : List ℝ) (threshold : ℝ), 1 ≤ madScale * threshold →
      (samples.length + 1) / 2 ≤ (removeMadOutliers samples threshold).length ∧
        ∃ radius, removeMadOutliers samples threshold =
          samples.filter fun value => |value - medianOf samples| ≤ radius) ∧
    (∀ (samples : List ℝ) (narrow wide : ℝ), 0 < narrow → narrow ≤ wide →
      (removeMadOutliers samples narrow).Sublist (removeMadOutliers samples wide)) ∧
    (∀ fixedSamples randomSamples : List ℝ,
      let fixed := robustMetrics Real.sqrt fixedSamples defaultOutlierThreshold
      let random := robustMetrics Real.sqrt randomSamples defaultOutlierThreshold
      fixed.keptCount = 0 ∨ random.keptCount = 0 → fixedSamples = [] ∨ randomSamples = []) ∧
    (∀ fixedSamples randomSamples : List ℝ, fixedSamples ≠ [] → randomSamples ≠ [] →
      classificationErrorRate Real.sqrt fixedSamples randomSamples =
        percent (misclassified (midpoint fixedSamples randomSamples) fixedSamples randomSamples : ℝ)
          ((fixedSamples.length + randomSamples.length : Nat) : ℝ)) ∧
    (∀ first second : List ℝ,
      let a := robustMetrics Real.sqrt first defaultOutlierThreshold
      let b := robustMetrics Real.sqrt second defaultOutlierThreshold
      a.keptCount < 2 ∨ b.keptCount < 2 → first.length < 2 ∨ second.length < 2) ∧
    ∀ first second : List ℝ, 2 ≤ first.length → 2 ≤ second.length →
      snrLinear Real.sqrt first second =
        if pooledNoise Real.sqrt (robust first) (robust second) ≤ negligible then 0
        else |(robust first).mean - (robust second).mean| /
          pooledNoise Real.sqrt (robust first) (robust second) := by
  refine ⟨?_, ?_, ?_, fun _ _ => classificationErrorRate_eq, ?_, fun _ _ => snrLinear_of_two⟩
  · intro samples threshold h
    exact ⟨half_le_length_removeMadOutliers samples h, exists_radius samples threshold⟩
  · intro samples narrow wide hpos hle
    exact sublist_removeMadOutliers samples hpos hle
  · intro fixedSamples randomSamples fixed random h
    have hempty : ∀ {samples : List ℝ}, (robust samples).keptCount = 0 → samples = [] :=
      fun hzero => not_not.1 fun hne => robust_keptCount_ne_zero hne hzero
    exact h.imp hempty hempty
  · intro first second a b h
    exact h.imp (length_of_keptCount_lt le_rfl) (length_of_keptCount_lt le_rfl)

theorem rejection_keeps_four :
    4 ≤ (removeMadOutliers ([10, 11, 12, 13, 14, 15, 16, 100] : List ℝ)
      defaultOutlierThreshold).length :=
  (rejection_keeps_half.1 [10, 11, 12, 13, 14, 15, 16, 100] _ one_le_default).1

example :
    (removeMadOutliers ([10, 11, 12, 13, 14, 15, 16, 100] : List ℚ)
      defaultOutlierThreshold).length = 7 := by
  decide +kernel

/-! ## Units and order -/

/-- Rejection commutes with a change of unit and offset that leaves the median absolute deviation
on its side of the cutoff, and with permutations. -/
theorem rejection_equivariant (samples : List ℝ) (threshold : ℝ) :
    (∀ a b : ℝ, a ≠ 0 → (mad samples ≤ negligible ↔ |a| * mad samples ≤ negligible) →
      removeMadOutliers (samples.map fun x => a * x + b) threshold =
        (removeMadOutliers samples threshold).map fun x => a * x + b) ∧
    ∀ permuted : List ℝ, permuted.Perm samples →
      (removeMadOutliers permuted threshold).Perm (removeMadOutliers samples threshold) := by
  refine ⟨?_, fun permuted hperm => removeMadOutliers_perm hperm threshold⟩
  intro a b ha hguard
  apply removeMadOutliers_map_affine ha b
  intro hmany _
  rwa [mad_map_affine a b (List.length_pos_iff.1 (by omega))]

/-- Half the unit, counted downwards from 200. -/
theorem rejection_equivariant_four :
    removeMadOutliers (([10, 12, 14, 16, 100] : List ℝ).map fun x => -2 * x + 200)
        defaultOutlierThreshold =
      (removeMadOutliers [10, 12, 14, 16, 100] defaultOutlierThreshold).map
        fun x => -2 * x + 200 := by
  refine (rejection_equivariant _ _).1 (-2) 200 (by norm_num) ?_
  rw [mad_four]
  norm_num [negligible]

end Reals

end Evaluation
end LatencyAnalyzer
