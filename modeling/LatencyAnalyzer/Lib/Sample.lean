import Mathlib.Algebra.BigOperators.Group.List.Lemmas
import Mathlib.Algebra.Order.BigOperators.Group.List
import Mathlib.Algebra.Order.Field.Basic
import Mathlib.Analysis.Real.Sqrt
import Mathlib.Tactic.FieldSimp
import Mathlib.Tactic.Linarith
import Mathlib.Tactic.Positivity
import Mathlib.Tactic.Ring

/-!
# Sample — mean, variance and standard deviation of a list of numbers

The sums are those of the textbook: the mean is the sum over the count, the sample variance the sum
of the squared deviations over the count less one.  Lists too short for a quotient have the value 0,
by division by zero.
-/

namespace LatencyAnalyzer
namespace Lib

section Moments

variable {K : Type*} [Field K]

def mean (x : List K) : K :=
  x.sum / (x.length : K)

def variance (x : List K) : K :=
  (x.map fun v => (v - mean x) * (v - mean x)).sum / ((x.length - 1 : Nat) : K)

theorem sum_map_affine (a b : K) (x : List K) :
    (x.map fun v => a * v + b).sum = a * x.sum + (x.length : K) * b := by
  induction x with
  | nil => simp
  | cons v x ih =>
      simp only [List.map_cons, List.sum_cons, List.length_cons, ih]
      push_cast
      ring

theorem mean_perm {x y : List K} (h : x.Perm y) : mean x = mean y := by
  unfold mean
  rw [h.sum_eq, h.length_eq]

theorem variance_perm {x y : List K} (h : x.Perm y) : variance x = variance y := by
  unfold variance
  rw [mean_perm h, (h.map _).sum_eq, h.length_eq]

/-- One entry is its own mean, and none leaves nothing to sum. -/
theorem variance_of_short {x : List K} (h : x.length < 2) : variance x = 0 := by
  match x with
  | [] => simp [variance]
  | [v] => simp [variance]
  | _ :: _ :: _ => simp at h

theorem mean_map_affine [CharZero K] (a b : K) {x : List K} (hx : x ≠ []) :
    mean (x.map fun v => a * v + b) = a * mean x + b := by
  have hlength : (x.length : K) ≠ 0 := by simpa using hx
  unfold mean
  rw [sum_map_affine, List.length_map]
  field_simp

theorem variance_map_affine [CharZero K] (a b : K) (x : List K) :
    variance (x.map fun v => a * v + b) = a * a * variance x := by
  rcases eq_or_ne x [] with rfl | hx
  · simp [variance]
  have hdeviation : ∀ v, (a * v + b - mean (x.map fun v => a * v + b)) *
      (a * v + b - mean (x.map fun v => a * v + b)) =
        a * a * ((v - mean x) * (v - mean x)) := by
    intro v
    rw [mean_map_affine a b hx]
    ring
  unfold variance
  rw [List.map_map, List.length_map]
  simp only [Function.comp_def, hdeviation, List.sum_map_mul_left]
  ring

/-! Constant lists. -/

theorem mean_replicate [CharZero K] {n : Nat} (hn : n ≠ 0) (c : K) :
    mean (List.replicate n c) = c := by
  have hn' : (n : K) ≠ 0 := by exact_mod_cast hn
  unfold mean
  rw [List.sum_replicate, List.length_replicate, nsmul_eq_mul]
  field_simp

theorem variance_replicate [CharZero K] (n : Nat) (c : K) :
    variance (List.replicate n c) = 0 := by
  rcases eq_or_ne n 0 with rfl | hn
  · simp [variance]
  · unfold variance
    rw [mean_replicate hn, List.map_replicate, sub_self, mul_zero, List.sum_replicate,
      smul_zero, zero_div]

section Ordered

variable [LinearOrder K] [IsStrictOrderedRing K]

theorem variance_nonneg (x : List K) : 0 ≤ variance x := by
  refine div_nonneg (List.sum_nonneg ?_) (Nat.cast_nonneg _)
  intro s hs
  rcases List.mem_map.1 hs with ⟨v, _, rfl⟩
  exact mul_self_nonneg _

/-- Only a list of equal entries does not vary. -/
theorem variance_eq_zero_iff (x : List K) :
    variance x = 0 ↔ x.length = 1 ∨ ∀ v ∈ x, ∀ w ∈ x, v = w := by
  constructor
  · intro hzero
    by_cases hlong : 2 ≤ x.length
    · have hcount : ((x.length - 1 : Nat) : K) ≠ 0 := by
        have hne : x.length - 1 ≠ 0 := by omega
        exact_mod_cast hne
      have hsum : (x.map fun v => (v - mean x) * (v - mean x)).sum = 0 :=
        (div_eq_zero_iff.1 hzero).resolve_right hcount
      -- A sum of squares vanishes only with each of them.
      have hsquares : ∀ s ∈ x.map fun v => (v - mean x) * (v - mean x), 0 ≤ s := by
        intro s hs
        rcases List.mem_map.1 hs with ⟨v, _, rfl⟩
        exact mul_self_nonneg _
      have hmean : ∀ v ∈ x, v = mean x := by
        intro v hv
        have hsquare := List.all_zero_of_le_zero_le_of_sum_eq_zero hsquares hsum
          (List.mem_map.2 ⟨v, hv, rfl⟩)
        exact sub_eq_zero.1 (mul_self_eq_zero.1 hsquare)
      exact Or.inr fun v hv w hw => (hmean v hv).trans (hmean w hw).symm
    · rcases Nat.lt_or_ge 0 x.length with hpos | hnone
      · exact Or.inl (by omega)
      · rw [List.length_eq_zero_iff.1 (Nat.le_zero.1 hnone)]
        exact Or.inr fun v hv => absurd hv List.not_mem_nil
  · rintro (hone | hequal)
    · exact variance_of_short (by omega)
    · cases x with
      | nil => exact variance_of_short (by simp)
      | cons v rest =>
          have hreplicate : v :: rest = List.replicate (rest.length + 1) v :=
            List.eq_replicate_iff.2 ⟨rfl, fun w hw => hequal w hw v List.mem_cons_self⟩
          rw [hreplicate]
          exact variance_replicate _ v

theorem mean_le_of_forall₂ {x y : List K} (h : List.Forall₂ (· ≤ ·) x y) : mean x ≤ mean y := by
  unfold mean
  rw [h.length_eq]
  exact div_le_div_of_nonneg_right h.sum_le_sum (Nat.cast_nonneg _)

theorem le_mean {x : List K} {l : K} (hx : x ≠ []) (h : ∀ v ∈ x, l ≤ v) : l ≤ mean x := by
  have hpos : (0 : K) < x.length := by exact_mod_cast List.length_pos_iff.2 hx
  unfold mean
  rw [le_div_iff₀ hpos, mul_comm, ← nsmul_eq_mul]
  exact List.card_nsmul_le_sum x l h

theorem mean_le {x : List K} {u : K} (hx : x ≠ []) (h : ∀ v ∈ x, v ≤ u) : mean x ≤ u := by
  have hpos : (0 : K) < x.length := by exact_mod_cast List.length_pos_iff.2 hx
  unfold mean
  rw [div_le_iff₀ hpos, mul_comm, ← nsmul_eq_mul]
  exact List.sum_le_card_nsmul x u h

end Ordered

end Moments

section Deviation

/-- The sample standard deviation. -/
noncomputable def stddev (x : List ℝ) : ℝ :=
  Real.sqrt (variance x)

theorem stddev_nonneg (x : List ℝ) : 0 ≤ stddev x :=
  Real.sqrt_nonneg _

theorem stddev_mul_self (x : List ℝ) : stddev x * stddev x = variance x :=
  Real.mul_self_sqrt (variance_nonneg x)

theorem stddev_eq_zero_iff (x : List ℝ) :
    stddev x = 0 ↔ x.length = 1 ∨ ∀ v ∈ x, ∀ w ∈ x, v = w := by
  rw [← variance_eq_zero_iff]
  exact Real.sqrt_eq_zero (variance_nonneg x)

theorem stddev_replicate (n : Nat) (c : ℝ) : stddev (List.replicate n c) = 0 := by
  unfold stddev
  rw [variance_replicate, Real.sqrt_zero]

/-- The root of a squared quantity scales with its unit. -/
theorem sqrt_scaled (a s : ℝ) : Real.sqrt (a * a * s) = |a| * Real.sqrt s := by
  rw [Real.sqrt_mul (mul_self_nonneg a), Real.sqrt_mul_self_eq_abs]

theorem stddev_map_affine (a b : ℝ) (x : List ℝ) :
    stddev (x.map fun v => a * v + b) = |a| * stddev x := by
  calc
    stddev (x.map fun v => a * v + b) = Real.sqrt (a * a * variance x) :=
      congrArg Real.sqrt (variance_map_affine a b x)
    _ = |a| * stddev x := sqrt_scaled a (variance x)

end Deviation

end Lib
end LatencyAnalyzer
