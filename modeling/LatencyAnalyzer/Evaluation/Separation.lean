import Mathlib.Data.Sign.Basic
import LatencyAnalyzer.Evaluation.Outliers

/-!
# Separation — when two classes of samples are told apart

`welch_tvla` and `snr_linear` divide a distance of means by a noise.  Both return early when the
noise is negligible, and so they miss the classes that differ most clearly.  Apart from that the
two metrics are what their names say, and neither depends on the order of the classes or on units.
-/

namespace LatencyAnalyzer
namespace Evaluation

section WelchTvla

/-! ## Welch's criterion -/

/-- The standard error of the difference of the means. -/
noncomputable def standardError (fixed random : List ℝ) : ℝ :=
  Real.sqrt (Lib.stddev fixed ^ 2 / fixed.length + Lib.stddev random ^ 2 / random.length)

/-- The means differ, by `threshold` standard errors at least. -/
structure Separated (fixed random : List ℝ) (threshold : ℝ) : Prop where
  means : Lib.mean fixed ≠ Lib.mean random
  distance : threshold * standardError fixed random ≤ |Lib.mean fixed - Lib.mean random|

theorem welchDenominator_eq (fixed random : List ℝ) :
    welchDenominator Real.sqrt fixed random = standardError fixed random := by
  unfold welchDenominator standardError
  simp only [stddevOf_eq, pow_two]

theorem standardError_nonneg (fixed random : List ℝ) : 0 ≤ standardError fixed random :=
  Real.sqrt_nonneg _

/-! ## What `welch_tvla` computes -/

/-- The statistic is computed: there are two samples of each class, and their noise is not
negligible. -/
def Measured (fixed random : List ℝ) : Prop :=
  2 ≤ fixed.length ∧ 2 ≤ random.length ∧ negligible < standardError fixed random

theorem welchTvla_of_measured {fixed random : List ℝ} (h : Measured fixed random)
    (threshold : ℝ) :
    (welchTvla Real.sqrt fixed random threshold).tStatistic =
        (Lib.mean fixed - Lib.mean random) / standardError fixed random ∧
      (welchTvla Real.sqrt fixed random threshold).absT =
        |Lib.mean fixed - Lib.mean random| / standardError fixed random ∧
      ((welchTvla Real.sqrt fixed random threshold).thresholdExceeded = true ↔
        threshold ≤ |Lib.mean fixed - Lib.mean random| / standardError fixed random) := by
  rcases h with ⟨hfixed, hrandom, hnoise⟩
  have habs : |(Lib.mean fixed - Lib.mean random) / standardError fixed random| =
      |Lib.mean fixed - Lib.mean random| / standardError fixed random := by
    rw [abs_div, abs_of_nonneg (standardError_nonneg fixed random)]
  unfold welchTvla
  dsimp only
  rw [if_neg (by omega), welchDenominator_eq, if_neg (not_le.2 hnoise)]
  rw [meanOf_eq, meanOf_eq, habs]
  exact ⟨rfl, rfl, decide_eq_true_iff⟩

theorem welchTvla_of_not_measured {fixed random : List ℝ} (h : ¬ Measured fixed random)
    (threshold : ℝ) :
    (welchTvla Real.sqrt fixed random threshold).tStatistic = 0 ∧
      (welchTvla Real.sqrt fixed random threshold).absT = 0 ∧
      (welchTvla Real.sqrt fixed random threshold).thresholdExceeded = false := by
  unfold welchTvla
  dsimp only
  split
  · exact ⟨rfl, rfl, rfl⟩
  · rename_i hsizes
    have hnoise : welchDenominator Real.sqrt fixed random ≤ negligible := by
      rw [welchDenominator_eq]
      by_contra hlt
      exact h ⟨by omega, by omega, not_le.1 hlt⟩
    rw [if_pos hnoise]
    exact ⟨rfl, rfl, rfl⟩

/-! ## The verdict -/

/-- With a noise to divide by, the test is the criterion in its cross-multiplied form. -/
theorem exceeded_iff_separated {fixed random : List ℝ} (h : Measured fixed random)
    {threshold : ℝ} (hthreshold : 0 < threshold) :
    (welchTvla Real.sqrt fixed random threshold).thresholdExceeded = true ↔
      Separated fixed random threshold := by
  have hpos : 0 < standardError fixed random := negligible_pos.trans h.2.2
  rw [(welchTvla_of_measured h threshold).2.2, le_div_iff₀ hpos]
  constructor
  · intro hdistance
    refine ⟨?_, hdistance⟩
    -- Equal means would be at the distance 0, below the positive bound.
    intro heq
    rw [heq, sub_self, abs_zero] at hdistance
    exact absurd (mul_pos hthreshold hpos) (not_lt.2 hdistance)
  · exact Separated.distance

theorem standardError_of_noiseless {fixed random : List ℝ} (hfixed : Lib.stddev fixed = 0)
    (hrandom : Lib.stddev random = 0) : standardError fixed random = 0 := by
  unfold standardError
  rw [hfixed, hrandom]
  simp

theorem standardError_mono {fixed random quietFixed quietRandom : List ℝ}
    (hfixedLength : quietFixed.length = fixed.length)
    (hrandomLength : quietRandom.length = random.length)
    (hfixed : Lib.stddev quietFixed ≤ Lib.stddev fixed)
    (hrandom : Lib.stddev quietRandom ≤ Lib.stddev random) :
    standardError quietFixed quietRandom ≤ standardError fixed random := by
  have hfixedNonneg := Lib.stddev_nonneg quietFixed
  have hrandomNonneg := Lib.stddev_nonneg quietRandom
  unfold standardError
  rw [hfixedLength, hrandomLength]
  gcongr

/-- Exactly when the flag of `welch_tvla` is Welch's criterion.  Noiseless classes are never
flagged, and less noise keeps a detection as long as it is not negligible. -/
theorem welch_criterion_iff {fixed random : List ℝ} {threshold : ℝ} (hfixed : 2 ≤ fixed.length)
    (hrandom : 2 ≤ random.length) (hthreshold : 0 < threshold) :
    (((welchTvla Real.sqrt fixed random threshold).thresholdExceeded = true ↔
        Separated fixed random threshold) ↔
      (negligible < standardError fixed random ∨ ¬ Separated fixed random threshold)) ∧
    (Lib.stddev fixed = 0 → Lib.stddev random = 0 →
      (welchTvla Real.sqrt fixed random threshold).thresholdExceeded = false) ∧
    ∀ quietFixed quietRandom : List ℝ,
      quietFixed.length = fixed.length → quietRandom.length = random.length →
      Lib.mean quietFixed = Lib.mean fixed → Lib.mean quietRandom = Lib.mean random →
      Lib.stddev quietFixed ≤ Lib.stddev fixed → Lib.stddev quietRandom ≤ Lib.stddev random →
      (welchTvla Real.sqrt fixed random threshold).thresholdExceeded = true →
      ((welchTvla Real.sqrt quietFixed quietRandom threshold).thresholdExceeded = true ↔
        negligible < standardError quietFixed quietRandom) := by
  have hquiet : ∀ {first second : List ℝ}, ¬ negligible < standardError first second →
      (welchTvla Real.sqrt first second threshold).thresholdExceeded = false :=
    fun hnoise => (welchTvla_of_not_measured (fun h => hnoise h.2.2) threshold).2.2
  refine ⟨?_, ?_, ?_⟩
  · by_cases hnoise : negligible < standardError fixed random
    · have hiff := exceeded_iff_separated ⟨hfixed, hrandom, hnoise⟩ hthreshold
      exact ⟨fun _ => Or.inl hnoise, fun _ => hiff⟩
    · rw [hquiet hnoise]
      simp [hnoise]
  · intro hfixedNone hrandomNone
    apply hquiet
    rw [standardError_of_noiseless hfixedNone hrandomNone]
    exact not_lt.2 negligible_pos.le
  · intro quietFixed quietRandom hfixedLength hrandomLength hfixedMean hrandomMean hfixedLe
      hrandomLe hexceeded
    constructor
    · intro hquietExceeded
      by_contra hnoise
      rw [hquiet hnoise] at hquietExceeded
      cases hquietExceeded
    · intro hnoise
      have hle := standardError_mono hfixedLength hrandomLength hfixedLe hrandomLe
      rw [exceeded_iff_separated ⟨hfixed, hrandom, hnoise.trans_le hle⟩ hthreshold] at hexceeded
      rw [exceeded_iff_separated ⟨by omega, by omega, hnoise⟩ hthreshold]
      refine ⟨by rw [hfixedMean, hrandomMean]; exact hexceeded.means, ?_⟩
      rw [hfixedMean, hrandomMean]
      exact (mul_le_mul_of_nonneg_left hle hthreshold.le).trans hexceeded.distance

/-! A pair of small classes, 40 apart with a noise of 5. -/

theorem standardError_pair : standardError [7, 13] [46, 54] = 5 := by
  have hfixed : Lib.stddev [7, 13] ^ 2 = 18 := by
    rw [pow_two, Lib.stddev_mul_self]
    norm_num [Lib.variance, Lib.mean]
  have hrandom : Lib.stddev [46, 54] ^ 2 = 32 := by
    rw [pow_two, Lib.stddev_mul_self]
    norm_num [Lib.variance, Lib.mean]
  unfold standardError
  rw [hfixed, hrandom, show ((18 : ℝ) / ([7, 13] : List ℝ).length +
    32 / ([46, 54] : List ℝ).length) = 5 * 5 by norm_num]
  exact Real.sqrt_mul_self (by norm_num)

theorem welch_criterion_pair :
    (welchTvla Real.sqrt [7, 13] [46, 54] defaultTvlaThreshold).thresholdExceeded = true := by
  have hnoise : negligible < standardError [7, 13] [46, 54] := by
    rw [standardError_pair]
    norm_num [negligible]
  have hcriterion :
      ((welchTvla Real.sqrt [7, 13] [46, 54] defaultTvlaThreshold).thresholdExceeded = true ↔
        Separated [7, 13] [46, 54] defaultTvlaThreshold) :=
    (welch_criterion_iff (by simp) (by simp) (by norm_num [defaultTvlaThreshold])).1.2
      (Or.inl hnoise)
  refine hcriterion.2 ⟨by norm_num [Lib.mean], ?_⟩
  rw [standardError_pair]
  norm_num [Lib.mean, defaultTvlaThreshold, abs_of_neg]

/-- A hundred samples of 10 against a hundred samples of 20 are not flagged. -/
theorem constant_classes_missed :
    Separated (List.replicate 100 10) (List.replicate 100 20) defaultTvlaThreshold ∧
      (welchTvla Real.sqrt (List.replicate 100 10) (List.replicate 100 20)
        defaultTvlaThreshold).thresholdExceeded = false := by
  have herror : standardError (List.replicate 100 10) (List.replicate 100 20) = 0 :=
    standardError_of_noiseless (Lib.stddev_replicate 100 10) (Lib.stddev_replicate 100 20)
  refine ⟨⟨?_, ?_⟩, (welchTvla_of_not_measured (fun h => ?_) _).2.2⟩
  · rw [Lib.mean_replicate (by norm_num), Lib.mean_replicate (by norm_num)]
    norm_num
  · rw [herror, mul_zero]
    exact abs_nonneg _
  · have hnoise := h.2.2
    rw [herror] at hnoise
    exact absurd hnoise (not_lt.2 negligible_pos.le)

end WelchTvla

section SnrLinear

/-! ## Signal and noise -/

theorem robust_mean (samples : List ℝ) :
    (robust samples).mean = Lib.mean (removeMadOutliers samples defaultOutlierThreshold) :=
  meanOf_eq _

theorem robust_stddev (samples : List ℝ) :
    (robust samples).stddev = Lib.stddev (removeMadOutliers samples defaultOutlierThreshold) :=
  stddevOf_eq _

/-- The ratio is computed: two samples of each class are kept, and their noise is not negligible. -/
def Audible (first second : List ℝ) : Prop :=
  2 ≤ (robust first).keptCount ∧ 2 ≤ (robust second).keptCount ∧
    negligible < pooledNoise Real.sqrt (robust first) (robust second)

theorem snrLinear_of_audible {first second : List ℝ} (h : Audible first second) :
    snrLinear Real.sqrt first second =
      |(robust first).mean - (robust second).mean| /
        pooledNoise Real.sqrt (robust first) (robust second) := by
  rcases h with ⟨hfirst, hsecond, hnoise⟩
  unfold robust at hfirst hsecond hnoise
  unfold snrLinear
  dsimp only
  rw [if_neg (by omega), if_neg (not_le.2 hnoise)]
  rfl

theorem snrLinear_of_not_audible {first second : List ℝ} (h : ¬ Audible first second) :
    snrLinear Real.sqrt first second = 0 := by
  unfold snrLinear
  dsimp only
  split
  · rfl
  · rename_i hkept
    refine if_pos (not_lt.1 fun hnoise => h ⟨?_, ?_, hnoise⟩)
    · exact not_lt.1 fun hfew => hkept (Or.inl hfew)
    · exact not_lt.1 fun hfew => hkept (Or.inr hfew)

/-- Exactly when a positive ratio is a difference of the robust means. -/
theorem snr_positive_iff {first second : List ℝ} (hfirst : 2 ≤ (robust first).keptCount)
    (hsecond : 2 ≤ (robust second).keptCount) :
    (0 < snrLinear Real.sqrt first second ↔ (robust first).mean ≠ (robust second).mean) ↔
      (negligible < pooledNoise Real.sqrt (robust first) (robust second) ∨
        (robust first).mean = (robust second).mean) := by
  by_cases hnoise : negligible < pooledNoise Real.sqrt (robust first) (robust second)
  · have hpos := negligible_pos.trans hnoise
    have hiff : 0 < snrLinear Real.sqrt first second ↔
        (robust first).mean ≠ (robust second).mean := by
      rw [snrLinear_of_audible ⟨hfirst, hsecond, hnoise⟩, div_pos_iff_of_pos_right hpos, abs_pos,
        sub_ne_zero]
    exact ⟨fun _ => Or.inl hnoise, fun _ => hiff⟩
  · rw [snrLinear_of_not_audible fun h => hnoise h.2.2]
    simp [hnoise]

theorem removeMadOutliers_of_few {samples : List ℝ} (h : samples.length < 5) (threshold : ℝ) :
    removeMadOutliers samples threshold = samples :=
  removeMadOutliers_of_unfiltered (Or.inl h)

theorem pooledNoise_pair : pooledNoise Real.sqrt (robust [7, 13]) (robust [46, 54]) = 5 := by
  unfold pooledNoise
  rw [robust_stddev, robust_stddev, removeMadOutliers_of_few (by simp),
    removeMadOutliers_of_few (by simp), Lib.stddev_mul_self, Lib.stddev_mul_self,
    show (Lib.variance [7, 13] + Lib.variance [46, 54]) / 2 = (5 * 5 : ℝ) by
      norm_num [Lib.variance, Lib.mean]]
  exact Real.sqrt_mul_self (by norm_num)

theorem snr_positive_pair : 0 < snrLinear Real.sqrt [7, 13] [46, 54] := by
  refine ((snr_positive_iff ?_ ?_).2 (Or.inl ?_)).2 ?_
  · rw [robust_keptCount, removeMadOutliers_of_few (by simp)]
    rfl
  · rw [robust_keptCount, removeMadOutliers_of_few (by simp)]
    rfl
  · rw [pooledNoise_pair]
    norm_num [negligible]
  · rw [robust_mean, robust_mean, removeMadOutliers_of_few (by simp),
      removeMadOutliers_of_few (by simp)]
    norm_num [Lib.mean]

/-- The filter does not run on equal samples. -/
theorem removeMadOutliers_replicate (n : Nat) (c threshold : ℝ) :
    removeMadOutliers (List.replicate n c) threshold = List.replicate n c := by
  rcases Nat.eq_zero_or_pos n with rfl | hpos
  · exact removeMadOutliers_of_unfiltered (Or.inl (by simp))
  · have hmajority : Majority (List.replicate n c) c c := by
      unfold Majority
      rw [List.length_replicate, List.countP_replicate]
      simp only [le_refl, and_self, decide_true, if_true]
      omega
    have hmad := hmajority.mad_le
    rw [sub_self] at hmad
    exact removeMadOutliers_of_unfiltered (Or.inr (Or.inr (hmad.trans negligible_pos.le)))

/-- A hundred samples of 10 against a hundred samples of 20 have the ratio 0. -/
theorem constant_classes_silent :
    2 ≤ (robust (List.replicate 100 10)).keptCount ∧
      2 ≤ (robust (List.replicate 100 20)).keptCount ∧
      (robust (List.replicate 100 10)).mean ≠ (robust (List.replicate 100 20)).mean ∧
      ¬ 0 < snrLinear Real.sqrt (List.replicate 100 10) (List.replicate 100 20) := by
  have hnoise : pooledNoise Real.sqrt (robust (List.replicate 100 10))
      (robust (List.replicate 100 20)) = 0 := by
    unfold pooledNoise
    rw [robust_stddev, robust_stddev, removeMadOutliers_replicate, removeMadOutliers_replicate,
      Lib.stddev_replicate, Lib.stddev_replicate]
    simp
  refine ⟨?_, ?_, ?_, ?_⟩
  · rw [robust_keptCount, removeMadOutliers_replicate, List.length_replicate]
    norm_num
  · rw [robust_keptCount, removeMadOutliers_replicate, List.length_replicate]
    norm_num
  · rw [robust_mean, robust_mean, removeMadOutliers_replicate, removeMadOutliers_replicate,
      Lib.mean_replicate (by norm_num), Lib.mean_replicate (by norm_num)]
    norm_num
  · rw [snrLinear_of_not_audible fun h => ?_]
    · exact lt_irrefl 0
    · have hlt := h.2.2
      rw [hnoise] at hlt
      exact absurd hlt (not_lt.2 negligible_pos.le)

end SnrLinear

section Invariance

/-! ## The order of the classes -/

theorem standardError_swap (fixed random : List ℝ) :
    standardError random fixed = standardError fixed random := by
  unfold standardError
  rw [add_comm]

theorem pooledNoise_swap (a b : Report.RobustMetrics ℝ) :
    pooledNoise Real.sqrt b a = pooledNoise Real.sqrt a b := by
  unfold pooledNoise
  rw [add_comm]

theorem measured_swap {fixed random : List ℝ} : Measured random fixed ↔ Measured fixed random := by
  unfold Measured
  rw [standardError_swap, and_left_comm]

theorem audible_swap {first second : List ℝ} : Audible second first ↔ Audible first second := by
  unfold Audible
  rw [pooledNoise_swap, and_left_comm]

theorem welchTvla_swap (fixed random : List ℝ) (threshold : ℝ) :
    (welchTvla Real.sqrt random fixed threshold).tStatistic =
        -(welchTvla Real.sqrt fixed random threshold).tStatistic ∧
      (welchTvla Real.sqrt random fixed threshold).absT =
        (welchTvla Real.sqrt fixed random threshold).absT ∧
      (welchTvla Real.sqrt random fixed threshold).thresholdExceeded =
        (welchTvla Real.sqrt fixed random threshold).thresholdExceeded := by
  by_cases h : Measured fixed random
  · rcases welchTvla_of_measured h threshold with ⟨ht, habs, hexceeded⟩
    rcases welchTvla_of_measured (measured_swap.2 h) threshold with ⟨ht', habs', hexceeded'⟩
    rw [standardError_swap] at ht' habs' hexceeded'
    rw [abs_sub_comm] at habs' hexceeded'
    refine ⟨?_, habs'.trans habs.symm, Bool.eq_iff_iff.2 (hexceeded'.trans hexceeded.symm)⟩
    calc
      (welchTvla Real.sqrt random fixed threshold).tStatistic
          = (Lib.mean random - Lib.mean fixed) / standardError fixed random := ht'
      _ = -((Lib.mean fixed - Lib.mean random) / standardError fixed random) := by
          rw [← neg_div, neg_sub]
      _ = -(welchTvla Real.sqrt fixed random threshold).tStatistic := by rw [ht]
  · rcases welchTvla_of_not_measured h threshold with ⟨ht, habs, hexceeded⟩
    rcases welchTvla_of_not_measured (mt measured_swap.1 h) threshold with
      ⟨ht', habs', hexceeded'⟩
    exact ⟨by rw [ht, ht', neg_zero], habs'.trans habs.symm, hexceeded'.trans hexceeded.symm⟩

theorem snrLinear_swap (first second : List ℝ) :
    snrLinear Real.sqrt second first = snrLinear Real.sqrt first second := by
  by_cases h : Audible first second
  · calc
      snrLinear Real.sqrt second first
          = |(robust second).mean - (robust first).mean| /
              pooledNoise Real.sqrt (robust second) (robust first) :=
            snrLinear_of_audible (audible_swap.2 h)
      _ = |(robust first).mean - (robust second).mean| /
            pooledNoise Real.sqrt (robust first) (robust second) := by
          rw [abs_sub_comm, pooledNoise_swap]
      _ = snrLinear Real.sqrt first second := (snrLinear_of_audible h).symm
  · rw [snrLinear_of_not_audible h, snrLinear_of_not_audible (mt audible_swap.1 h)]

/-! ## The unit of the samples -/

/-- The samples in another unit, with another zero. -/
def rescale (a b : ℝ) (samples : List ℝ) : List ℝ :=
  samples.map fun x => a * x + b

theorem length_rescale (a b : ℝ) (samples : List ℝ) :
    (rescale a b samples).length = samples.length :=
  List.length_map _

theorem mean_sub_rescale (a b : ℝ) {first second : List ℝ} (hfirst : first ≠ [])
    (hsecond : second ≠ []) :
    Lib.mean (rescale a b first) - Lib.mean (rescale a b second) =
      a * (Lib.mean first - Lib.mean second) := by
  unfold rescale
  rw [Lib.mean_map_affine a b hfirst, Lib.mean_map_affine a b hsecond]
  ring

theorem stddev_rescale (a b : ℝ) (samples : List ℝ) :
    Lib.stddev (rescale a b samples) = |a| * Lib.stddev samples :=
  Lib.stddev_map_affine a b samples

theorem standardError_rescale (a b : ℝ) (fixed random : List ℝ) :
    standardError (rescale a b fixed) (rescale a b random) = |a| * standardError fixed random := by
  have hscaled : (|a| * Lib.stddev fixed) ^ 2 / fixed.length +
      (|a| * Lib.stddev random) ^ 2 / random.length =
        a * a * (Lib.stddev fixed ^ 2 / fixed.length + Lib.stddev random ^ 2 / random.length) := by
    rw [mul_pow, mul_pow, sq_abs]
    ring
  calc
    standardError (rescale a b fixed) (rescale a b random)
        = Real.sqrt ((|a| * Lib.stddev fixed) ^ 2 / fixed.length +
            (|a| * Lib.stddev random) ^ 2 / random.length) := by
          simp only [standardError, stddev_rescale, length_rescale]
    _ = Real.sqrt (a * a *
          (Lib.stddev fixed ^ 2 / fixed.length + Lib.stddev random ^ 2 / random.length)) := by
          rw [hscaled]
    _ = |a| * standardError fixed random := Lib.sqrt_scaled a _

/-- A quotient of two quantities that scale with the unit keeps its size and takes the sign of the
scale. -/
theorem scaled_div {a : ℝ} (ha : a ≠ 0) (d s : ℝ) :
    a * d / (|a| * s) = (SignType.sign a : ℝ) * (d / s) := by
  have hne : |a| ≠ 0 := abs_ne_zero.2 ha
  calc
    a * d / (|a| * s) = (SignType.sign a : ℝ) * |a| * d / (|a| * s) := by rw [sign_mul_abs]
    _ = |a| * ((SignType.sign a : ℝ) * d) / (|a| * s) := by ring_nf
    _ = (SignType.sign a : ℝ) * d / s := mul_div_mul_left _ _ hne
    _ = (SignType.sign a : ℝ) * (d / s) := mul_div_assoc _ _ _

theorem scaled_abs_div {a : ℝ} (ha : a ≠ 0) (d s : ℝ) : |a * d| / (|a| * s) = |d| / s := by
  rw [abs_mul, mul_div_mul_left _ _ (abs_ne_zero.2 ha)]

/-- The denominator of the statistic stays on its side of the cutoff. -/
def WelchGuardKept (a b : ℝ) (fixed random : List ℝ) : Prop :=
  welchDenominator Real.sqrt fixed random ≤ negligible ↔
    welchDenominator Real.sqrt (rescale a b fixed) (rescale a b random) ≤ negligible

/-- The median absolute deviation stays on its side of the cutoff. -/
def MadGuardKept (a b : ℝ) (samples : List ℝ) : Prop :=
  mad samples ≤ negligible ↔ mad (rescale a b samples) ≤ negligible

/-- The noise stays on its side of the cutoff. -/
def NoiseGuardKept (a b : ℝ) (first second : List ℝ) : Prop :=
  pooledNoise Real.sqrt (robust first) (robust second) ≤ negligible ↔
    pooledNoise Real.sqrt (robust (rescale a b first)) (robust (rescale a b second)) ≤ negligible

theorem welchTvla_rescale {a : ℝ} (ha : a ≠ 0) (b : ℝ) {fixed random : List ℝ} (threshold : ℝ)
    (hguard : 2 ≤ fixed.length → 2 ≤ random.length → WelchGuardKept a b fixed random) :
    (welchTvla Real.sqrt (rescale a b fixed) (rescale a b random) threshold).tStatistic =
        (SignType.sign a : ℝ) * (welchTvla Real.sqrt fixed random threshold).tStatistic ∧
      (welchTvla Real.sqrt (rescale a b fixed) (rescale a b random) threshold).absT =
        (welchTvla Real.sqrt fixed random threshold).absT ∧
      (welchTvla Real.sqrt (rescale a b fixed) (rescale a b random) threshold).thresholdExceeded =
        (welchTvla Real.sqrt fixed random threshold).thresholdExceeded := by
  have hmeasured :
      Measured (rescale a b fixed) (rescale a b random) ↔ Measured fixed random := by
    unfold Measured
    rw [length_rescale, length_rescale]
    refine and_congr_right fun hfixed => and_congr_right fun hrandom => ?_
    have hkept := hguard hfixed hrandom
    unfold WelchGuardKept at hkept
    rw [welchDenominator_eq, welchDenominator_eq] at hkept
    rw [← not_le, ← not_le, hkept]
  by_cases h : Measured fixed random
  · rcases welchTvla_of_measured h threshold with ⟨ht, habs, hexceeded⟩
    rcases welchTvla_of_measured (hmeasured.2 h) threshold with ⟨ht', habs', hexceeded'⟩
    have hfixed : fixed ≠ [] := List.length_pos_iff.1 (by have := h.1; omega)
    have hrandom : random ≠ [] := List.length_pos_iff.1 (by have := h.2.1; omega)
    rw [mean_sub_rescale a b hfixed hrandom, standardError_rescale] at ht' habs' hexceeded'
    rw [scaled_abs_div ha] at habs' hexceeded'
    refine ⟨?_, habs'.trans habs.symm, Bool.eq_iff_iff.2 (hexceeded'.trans hexceeded.symm)⟩
    calc
      (welchTvla Real.sqrt (rescale a b fixed) (rescale a b random) threshold).tStatistic
          = a * (Lib.mean fixed - Lib.mean random) / (|a| * standardError fixed random) := ht'
      _ = (SignType.sign a : ℝ) *
            ((Lib.mean fixed - Lib.mean random) / standardError fixed random) :=
          scaled_div ha _ _
      _ = (SignType.sign a : ℝ) * (welchTvla Real.sqrt fixed random threshold).tStatistic := by
          rw [ht]
  · rcases welchTvla_of_not_measured h threshold with ⟨ht, habs, hexceeded⟩
    rcases welchTvla_of_not_measured (mt hmeasured.1 h) threshold with ⟨ht', habs', hexceeded'⟩
    exact ⟨by rw [ht, ht', mul_zero], habs'.trans habs.symm, hexceeded'.trans hexceeded.symm⟩

/-! What the filter keeps is rescaled too, and with it the robust metrics. -/

section Robust

variable {a : ℝ} (ha : a ≠ 0) (b : ℝ) {samples : List ℝ}
  (hguard : 5 ≤ samples.length → MadGuardKept a b samples)

include ha hguard

theorem removeMadOutliers_rescale :
    removeMadOutliers (rescale a b samples) defaultOutlierThreshold =
      rescale a b (removeMadOutliers samples defaultOutlierThreshold) :=
  removeMadOutliers_map_affine ha b fun hmany _ => hguard hmany

theorem robust_keptCount_rescale :
    (robust (rescale a b samples)).keptCount = (robust samples).keptCount := by
  rw [robust_keptCount, robust_keptCount, removeMadOutliers_rescale ha b hguard, length_rescale]

theorem robust_stddev_rescale :
    (robust (rescale a b samples)).stddev = |a| * (robust samples).stddev := by
  rw [robust_stddev, robust_stddev, removeMadOutliers_rescale ha b hguard, stddev_rescale]

theorem robust_mean_rescale (hkept : 2 ≤ (robust samples).keptCount) :
    (robust (rescale a b samples)).mean = a * (robust samples).mean + b := by
  rw [robust_keptCount] at hkept
  rw [robust_mean, robust_mean, removeMadOutliers_rescale ha b hguard]
  exact Lib.mean_map_affine a b (List.length_pos_iff.1 (by omega))

end Robust

theorem pooledNoise_rescale {a : ℝ} (ha : a ≠ 0) (b : ℝ) {first second : List ℝ}
    (hfirst : 5 ≤ first.length → MadGuardKept a b first)
    (hsecond : 5 ≤ second.length → MadGuardKept a b second) :
    pooledNoise Real.sqrt (robust (rescale a b first)) (robust (rescale a b second)) =
      |a| * pooledNoise Real.sqrt (robust first) (robust second) := by
  have hscaled : ∀ s t : ℝ, (|a| * s * (|a| * s) + |a| * t * (|a| * t)) / 2 =
      a * a * ((s * s + t * t) / 2) := by
    intro s t
    rw [← abs_mul_abs_self a]
    ring
  calc
    pooledNoise Real.sqrt (robust (rescale a b first)) (robust (rescale a b second))
        = Real.sqrt (a * a * (((robust first).stddev * (robust first).stddev +
            (robust second).stddev * (robust second).stddev) / 2)) := by
          unfold pooledNoise
          rw [robust_stddev_rescale ha b hfirst, robust_stddev_rescale ha b hsecond, hscaled]
    _ = |a| * pooledNoise Real.sqrt (robust first) (robust second) := Lib.sqrt_scaled a _

theorem snrLinear_rescale {a : ℝ} (ha : a ≠ 0) (b : ℝ) {first second : List ℝ}
    (hfirst : 5 ≤ first.length → MadGuardKept a b first)
    (hsecond : 5 ≤ second.length → MadGuardKept a b second)
    (hnoise : 2 ≤ (robust first).keptCount → 2 ≤ (robust second).keptCount →
      NoiseGuardKept a b first second) :
    snrLinear Real.sqrt (rescale a b first) (rescale a b second) =
      snrLinear Real.sqrt first second := by
  have haudible : Audible (rescale a b first) (rescale a b second) ↔ Audible first second := by
    unfold Audible
    rw [robust_keptCount_rescale ha b hfirst, robust_keptCount_rescale ha b hsecond]
    refine and_congr_right fun hkept => and_congr_right fun hkept' => ?_
    have hiff := hnoise hkept hkept'
    unfold NoiseGuardKept at hiff
    rw [← not_le, ← not_le, hiff]
  by_cases h : Audible first second
  · have hmeans : (robust (rescale a b first)).mean - (robust (rescale a b second)).mean =
        a * ((robust first).mean - (robust second).mean) := by
      rw [robust_mean_rescale ha b hfirst h.1, robust_mean_rescale ha b hsecond h.2.1]
      ring
    calc
      snrLinear Real.sqrt (rescale a b first) (rescale a b second)
          = |(robust (rescale a b first)).mean - (robust (rescale a b second)).mean| /
              pooledNoise Real.sqrt (robust (rescale a b first)) (robust (rescale a b second)) :=
            snrLinear_of_audible (haudible.2 h)
      _ = |a * ((robust first).mean - (robust second).mean)| /
            (|a| * pooledNoise Real.sqrt (robust first) (robust second)) := by
          rw [hmeans, pooledNoise_rescale ha b hfirst hsecond]
      _ = |(robust first).mean - (robust second).mean| /
            pooledNoise Real.sqrt (robust first) (robust second) := scaled_abs_div ha _ _
      _ = snrLinear Real.sqrt first second := (snrLinear_of_audible h).symm
  · rw [snrLinear_of_not_audible h, snrLinear_of_not_audible (mt haudible.1 h)]

/-- Neither metric depends on which class is called the fixed one, nor on the unit of the samples
as long as each cutoff that is met decides the same way. -/
theorem separation_metrics_invariant (first second : List ℝ) (threshold : ℝ) :
    ((welchTvla Real.sqrt second first threshold).tStatistic =
        -(welchTvla Real.sqrt first second threshold).tStatistic ∧
      (welchTvla Real.sqrt second first threshold).absT =
        (welchTvla Real.sqrt first second threshold).absT ∧
      (welchTvla Real.sqrt second first threshold).thresholdExceeded =
        (welchTvla Real.sqrt first second threshold).thresholdExceeded ∧
      snrLinear Real.sqrt second first = snrLinear Real.sqrt first second) ∧
    ∀ a b : ℝ, a ≠ 0 →
      ((2 ≤ first.length → 2 ≤ second.length → WelchGuardKept a b first second) →
        (welchTvla Real.sqrt (rescale a b first) (rescale a b second) threshold).tStatistic =
            (SignType.sign a : ℝ) * (welchTvla Real.sqrt first second threshold).tStatistic ∧
          (welchTvla Real.sqrt (rescale a b first) (rescale a b second) threshold).absT =
            (welchTvla Real.sqrt first second threshold).absT ∧
          (welchTvla Real.sqrt (rescale a b first) (rescale a b second)
            threshold).thresholdExceeded =
              (welchTvla Real.sqrt first second threshold).thresholdExceeded) ∧
      ((5 ≤ first.length → MadGuardKept a b first) →
        (5 ≤ second.length → MadGuardKept a b second) →
        (2 ≤ (robust first).keptCount → 2 ≤ (robust second).keptCount →
          NoiseGuardKept a b first second) →
        snrLinear Real.sqrt (rescale a b first) (rescale a b second) =
          snrLinear Real.sqrt first second) := by
  constructor
  · rcases welchTvla_swap first second threshold with ⟨ht, habs, hexceeded⟩
    exact ⟨ht, habs, hexceeded, snrLinear_swap first second⟩
  · intro a b ha
    exact ⟨welchTvla_rescale ha b threshold, snrLinear_rescale ha b⟩

/-- Both metrics of the pair in a unit half as large, counted downwards. -/
theorem separation_metrics_invariant_pair :
    (welchTvla Real.sqrt (rescale (-2) 100 [7, 13]) (rescale (-2) 100 [46, 54])
        defaultTvlaThreshold).tStatistic =
        -(welchTvla Real.sqrt [7, 13] [46, 54] defaultTvlaThreshold).tStatistic ∧
      snrLinear Real.sqrt (rescale (-2) 100 [7, 13]) (rescale (-2) 100 [46, 54]) =
        snrLinear Real.sqrt [7, 13] [46, 54] := by
  have hscale : (-2 : ℝ) ≠ 0 := by norm_num
  have hinvariant := (separation_metrics_invariant [7, 13] [46, 54] defaultTvlaThreshold).2 (-2)
    100 hscale
  constructor
  · have hwelch : WelchGuardKept (-2) 100 [7, 13] [46, 54] := by
      unfold WelchGuardKept
      rw [welchDenominator_eq, welchDenominator_eq, standardError_rescale, standardError_pair]
      norm_num [negligible]
    rw [(hinvariant.1 fun _ _ => hwelch).1, sign_neg (by norm_num)]
    simp
  · have hfew : ∀ {samples : List ℝ}, samples.length < 5 →
        5 ≤ samples.length → MadGuardKept (-2) 100 samples :=
      fun hlt hle => absurd hlt (not_lt.2 hle)
    refine hinvariant.2 (hfew (by simp)) (hfew (by simp)) fun _ _ => ?_
    unfold NoiseGuardKept
    rw [pooledNoise_rescale hscale 100 (hfew (by simp)) (hfew (by simp)), pooledNoise_pair]
    norm_num [negligible]

end Invariance

end Evaluation
end LatencyAnalyzer
