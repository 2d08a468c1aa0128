import Mathlib.Algebra.Order.Floor.Semiring
import Mathlib.Algebra.Ring.Parity
import Mathlib.Data.List.Forall2
import Mathlib.Tactic.Positivity
import LatencyAnalyzer.Lib.OrderStatistics

/-!
# Quantile — positions between the ranks of a list

A position between two ranks has the value on the straight line between them.  The quantile `q` is
the value at `q * (n - 1)`.  It grows with `q` and with the entries of the list, and it lies between
the first and the last rank.
-/

namespace LatencyAnalyzer
namespace Lib

section Ranks

variable {α : Type*} [LinearOrder α]

theorem ranked_mem (d : α) {values : List α} {k : Nat} (hk : k < values.length) :
    ranked d values k ∈ values := by
  have hk' : k < (values.insertionSort (· ≤ ·)).length := by rwa [List.length_insertionSort]
  unfold ranked
  rw [List.getD_eq_getElem _ _ hk']
  exact (List.perm_insertionSort _ values).mem_iff.1 (List.getElem_mem hk')

theorem ranked_zero_le (d : α) {values : List α} {v : α} (hv : v ∈ values) :
    ranked d values 0 ≤ v := by
  have hpos : 0 < values.length := List.length_pos_of_mem hv
  rw [ranked_le_iff d hpos]
  exact List.countP_pos_iff.2 ⟨v, hv, decide_eq_true le_rfl⟩

theorem le_ranked_last (d : α) {values : List α} {v : α} (hv : v ∈ values) :
    v ≤ ranked d values (values.length - 1) := by
  have hpos : 0 < values.length := List.length_pos_of_mem hv
  have hlast : values.length - 1 < values.length := by omega
  rw [le_ranked_iff d hlast]
  -- The value itself is not below itself.
  have hne : values.countP (· < v) ≠ values.length := by
    intro hall
    have hself := List.countP_eq_length.1 hall v hv
    exact lt_irrefl v (of_decide_eq_true hself)
  have hle : values.countP (· < v) ≤ values.length := List.countP_le_length
  omega

/-- The first and the last rank are the extreme entries. -/
theorem isLeast_ranked_zero (d : α) {values : List α} (hvalues : values ≠ []) :
    IsLeast {v | v ∈ values} (ranked d values 0) :=
  ⟨ranked_mem d (List.length_pos_iff.2 hvalues), fun _ hv => ranked_zero_le d hv⟩

theorem isGreatest_ranked_last (d : α) {values : List α} (hvalues : values ≠ []) :
    IsGreatest {v | v ∈ values} (ranked d values (values.length - 1)) := by
  have hpos : 0 < values.length := List.length_pos_iff.2 hvalues
  exact ⟨ranked_mem d (by omega), fun _ hv => le_ranked_last d hv⟩

theorem countP_le_of_forall₂ {lower upper : List α} (h : List.Forall₂ (· ≤ ·) lower upper) (v : α) :
    upper.countP (· ≤ v) ≤ lower.countP (· ≤ v) := by
  induction h with
  | nil => exact le_rfl
  | @cons a b as bs hle _ ih =>
      rw [List.countP_cons, List.countP_cons]
      by_cases hb : b ≤ v
      · have ha : a ≤ v := hle.trans hb
        simp only [ha, hb, decide_true, if_true]
        omega
      · simp only [hb, decide_false, Bool.false_eq_true, if_false]
        omega

/-- Raising entries raises every rank. -/
theorem ranked_le_of_forall₂ (d : α) {lower upper : List α}
    (h : List.Forall₂ (· ≤ ·) lower upper) {k : Nat} (hk : k < lower.length) :
    ranked d lower k ≤ ranked d upper k := by
  have hk' : k < upper.length := by rwa [← h.length_eq]
  rw [ranked_le_iff d hk]
  exact ((ranked_le_iff d hk' _).1 le_rfl).trans_le (countP_le_of_forall₂ h _)

end Ranks

/-- A value between two others is a weighted mean of them. -/
theorem weighted_mem {K : Type*} [Field K] [LinearOrder K] [IsStrictOrderedRing K] {lo hi w : K}
    (hle : lo ≤ hi) (hnonneg : 0 ≤ w) (hone : w ≤ 1) :
    lo ≤ lo * (1 - w) + hi * w ∧ lo * (1 - w) + hi * w ≤ hi := by
  have hgap : 0 ≤ hi - lo := sub_nonneg.2 hle
  have hlow : lo * (1 - w) + hi * w = lo + (hi - lo) * w := by ring
  have hhigh : lo * (1 - w) + hi * w = hi - (hi - lo) * (1 - w) := by ring
  constructor
  · rw [hlow]
    exact le_add_of_nonneg_right (mul_nonneg hgap hnonneg)
  · rw [hhigh]
    exact sub_le_self _ (mul_nonneg hgap (sub_nonneg.2 hone))

section Interpolation

variable {K : Type*} [Field K] [LinearOrder K] [FloorSemiring K]

/-- The value at position `p`. -/
def interpolated (values : List K) (p : K) : K :=
  ranked 0 values ⌊p⌋₊ * (1 - (p - (⌊p⌋₊ : K))) + ranked 0 values ⌈p⌉₊ * (p - (⌊p⌋₊ : K))

def quantile (values : List K) (q : K) : K :=
  interpolated values (q * ((values.length - 1 : Nat) : K))

theorem quantile_perm {values values' : List K} (h : values.Perm values') (q : K) :
    quantile values q = quantile values' q := by
  simp only [quantile, interpolated, h.length_eq, ranked_perm 0 h]

variable [IsStrictOrderedRing K]

/-! ## One cell -/

/-- The weight of a position in its cell. -/
theorem weight_mem {p : K} (hp : 0 ≤ p) : 0 ≤ p - (⌊p⌋₊ : K) ∧ p - (⌊p⌋₊ : K) ≤ 1 := by
  have hfloor := Nat.floor_le hp
  have hnext := Nat.lt_floor_add_one p
  constructor <;> linarith

/-- A position that is not beyond the last rank has its value between the two ranks next to it. -/
theorem interpolated_mem {values : List K} {p : K} (hp : 0 ≤ p) (hlast : ⌈p⌉₊ < values.length) :
    ranked 0 values ⌊p⌋₊ ≤ interpolated values p ∧
      interpolated values p ≤ ranked 0 values ⌈p⌉₊ := by
  have hweight := weight_mem hp
  exact weighted_mem (ranked_mono 0 (Nat.floor_le_ceil p) hlast) hweight.1 hweight.2

theorem interpolated_mono {values : List K} {p p' : K} (hp : 0 ≤ p) (hle : p ≤ p')
    (hlast : ⌈p'⌉₊ < values.length) : interpolated values p ≤ interpolated values p' := by
  have hp' : 0 ≤ p' := hp.trans hle
  have hlast' : ⌈p⌉₊ < values.length := (Nat.ceil_mono hle).trans_lt hlast
  by_cases hcell : ⌈p⌉₊ ≤ ⌊p'⌋₊
  · -- The cells are apart, with the rank `⌈p⌉₊` between the values.
    have hfloor : ⌊p'⌋₊ < values.length := (Nat.floor_le_ceil p').trans_lt hlast
    calc
      interpolated values p ≤ ranked 0 values ⌈p⌉₊ := (interpolated_mem hp hlast').2
      _ ≤ ranked 0 values ⌊p'⌋₊ := ranked_mono 0 hcell hfloor
      _ ≤ interpolated values p' := (interpolated_mem hp' hlast).1
  · -- Both positions are in one cell, where the value grows with the weight.
    have hfloorLe : ⌊p⌋₊ ≤ ⌊p'⌋₊ := Nat.floor_mono hle
    have hceilLe : ⌈p⌉₊ ≤ ⌈p'⌉₊ := Nat.ceil_mono hle
    have hbelow : ⌈p⌉₊ ≤ ⌊p⌋₊ + 1 := Nat.ceil_le_floor_add_one p
    have hbelow' : ⌈p'⌉₊ ≤ ⌊p'⌋₊ + 1 := Nat.ceil_le_floor_add_one p'
    have hfloor : ⌊p'⌋₊ = ⌊p⌋₊ := by omega
    have hceil : ⌈p'⌉₊ = ⌈p⌉₊ := by omega
    have hgap : 0 ≤ ranked 0 values ⌈p⌉₊ - ranked 0 values ⌊p⌋₊ :=
      sub_nonneg.2 (ranked_mono 0 (Nat.floor_le_ceil p) hlast')
    have hslope := mul_le_mul_of_nonneg_left hle hgap
    unfold interpolated
    rw [hfloor, hceil]
    linarith

/-! ## Raised entries and affine images -/

theorem interpolated_le_of_forall₂ {lower upper : List K} (h : List.Forall₂ (· ≤ ·) lower upper)
    {p : K} (hp : 0 ≤ p) (hlast : ⌈p⌉₊ < lower.length) :
    interpolated lower p ≤ interpolated upper p := by
  rcases weight_mem hp with ⟨hnonneg, hone⟩
  have hfloor : ⌊p⌋₊ < lower.length := (Nat.floor_le_ceil p).trans_lt hlast
  have hlow := ranked_le_of_forall₂ 0 h hfloor
  have hhigh := ranked_le_of_forall₂ 0 h hlast
  unfold interpolated
  exact add_le_add (mul_le_mul_of_nonneg_right hlow (sub_nonneg.2 hone))
    (mul_le_mul_of_nonneg_right hhigh hnonneg)

theorem interpolated_map_affine {a : K} (ha : 0 ≤ a) (b : K) {values : List K} {p : K}
    (hlast : ⌈p⌉₊ < values.length) :
    interpolated (values.map fun x => a * x + b) p = a * interpolated values p + b := by
  have hf := monotone_affine ha b
  have hfloor : ⌊p⌋₊ < values.length := (Nat.floor_le_ceil p).trans_lt hlast
  unfold interpolated
  rw [ranked_map_of_monotone hf 0 hfloor, ranked_map_of_monotone hf 0 hlast]
  ring

/-! ## Quantiles -/

section Quantiles

variable {values : List K} {q : K}

/-- The ranks that a quantile reads are those of entries. -/
theorem ceil_position_lt (hvalues : values ≠ []) (hone : q ≤ 1) :
    ⌈q * ((values.length - 1 : Nat) : K)⌉₊ < values.length := by
  have hpos : 0 < values.length := List.length_pos_iff.2 hvalues
  have hle : ⌈q * ((values.length - 1 : Nat) : K)⌉₊ ≤ values.length - 1 := by
    rw [Nat.ceil_le]
    exact mul_le_of_le_one_left (Nat.cast_nonneg _) hone
  omega

theorem quantile_mono (hvalues : values ≠ []) {q' : K} (hq : 0 ≤ q) (hle : q ≤ q')
    (hone : q' ≤ 1) : quantile values q ≤ quantile values q' :=
  interpolated_mono (mul_nonneg hq (Nat.cast_nonneg _))
    (mul_le_mul_of_nonneg_right hle (Nat.cast_nonneg _)) (ceil_position_lt hvalues hone)

theorem quantile_zero (values : List K) : quantile values 0 = ranked 0 values 0 := by
  simp [quantile, interpolated]

theorem quantile_one (values : List K) :
    quantile values 1 = ranked 0 values (values.length - 1) := by
  simp [quantile, interpolated]

theorem quantile_le_of_forall₂ {upper : List K} (h : List.Forall₂ (· ≤ ·) values upper)
    (hvalues : values ≠ []) (hq : 0 ≤ q) (hone : q ≤ 1) :
    quantile values q ≤ quantile upper q := by
  unfold quantile
  rw [← h.length_eq]
  exact interpolated_le_of_forall₂ h (mul_nonneg hq (Nat.cast_nonneg _))
    (ceil_position_lt hvalues hone)

theorem quantile_map_affine {a : K} (ha : 0 ≤ a) (b : K) (hvalues : values ≠ []) (hone : q ≤ 1) :
    quantile (values.map fun x => a * x + b) q = a * quantile values q + b := by
  unfold quantile
  rw [List.length_map]
  exact interpolated_map_affine ha b (ceil_position_lt hvalues hone)

/-- The median is the quantile halfway. -/
theorem quantile_half (values : List K) : quantile values (1 / 2) = median values := by
  unfold quantile interpolated median
  generalize hlast : values.length - 1 = last
  rcases Nat.even_or_odd' last with ⟨k, rfl | rfl⟩
  · -- An odd length: the position is that of the middle entry.
    have hposition : 1 / 2 * ((2 * k : Nat) : K) = (k : K) := by
      push_cast
      ring
    have hlower : 2 * k / 2 = k := by omega
    have hupper : values.length / 2 = k := by omega
    rw [hposition, Nat.floor_natCast, Nat.ceil_natCast, hlower, hupper]
    push_cast
    ring
  · -- An even length: the position is in the middle of a cell.
    have hposition : 1 / 2 * ((2 * k + 1 : Nat) : K) = (k : K) + 1 / 2 := by
      push_cast
      ring
    have hfloor : ⌊(k : K) + 1 / 2⌋₊ = k := by
      rw [Nat.floor_eq_iff (by positivity)]
      constructor <;> linarith
    have hceil : ⌈(k : K) + 1 / 2⌉₊ = k + 1 := by
      rw [Nat.ceil_eq_iff (Nat.succ_ne_zero k)]
      push_cast
      constructor <;> linarith
    have hlower : (2 * k + 1) / 2 = k := by omega
    have hupper : values.length / 2 = k + 1 := by omega
    rw [hposition, hfloor, hceil, hlower, hupper]
    push_cast
    ring

/-! ## Counting -/

/-- The entries up to the rank below a position are not above its value. -/
theorem floor_lt_countP_quantile (hvalues : values ≠ []) (hq : 0 ≤ q) (hone : q ≤ 1) :
    ⌊q * ((values.length - 1 : Nat) : K)⌋₊ < values.countP (· ≤ quantile values q) := by
  have hp : 0 ≤ q * ((values.length - 1 : Nat) : K) := mul_nonneg hq (Nat.cast_nonneg _)
  have hlast := ceil_position_lt hvalues hone
  have hfloor := (Nat.floor_le_ceil (q * ((values.length - 1 : Nat) : K))).trans_lt hlast
  rw [← ranked_le_iff 0 hfloor]
  exact (interpolated_mem hp hlast).1

/-- The entries from the rank above a position on are not below its value. -/
theorem length_le_ceil_add_countP_quantile (hvalues : values ≠ []) (hq : 0 ≤ q) (hone : q ≤ 1) :
    values.length ≤
      ⌈q * ((values.length - 1 : Nat) : K)⌉₊ + values.countP (quantile values q ≤ ·) := by
  have hp : 0 ≤ q * ((values.length - 1 : Nat) : K) := mul_nonneg hq (Nat.cast_nonneg _)
  have hlast := ceil_position_lt hvalues hone
  have hbelow := (le_ranked_iff 0 hlast _).1 (interpolated_mem hp hlast).2
  have hsplit := length_eq_countP_le_add_countP_lt values (quantile values q)
  unfold quantile at hsplit ⊢
  omega

/-- A quantile does not leave the range of the entries. -/
theorem quantile_lt {bound : K} (hvalues : values ≠ []) (hq : 0 ≤ q) (hone : q ≤ 1)
    (hbound : ∀ v ∈ values, v < bound) : quantile values q < bound := by
  have hp : 0 ≤ q * ((values.length - 1 : Nat) : K) := mul_nonneg hq (Nat.cast_nonneg _)
  have hlast := ceil_position_lt hvalues hone
  exact (interpolated_mem hp hlast).2.trans_lt (hbound _ (ranked_mem 0 hlast))

end Quantiles

end Interpolation

/-! ## Natural numbers in a field -/

section NatCast

variable {K : Type*} [Field K] [LinearOrder K] [FloorSemiring K]

/-- A natural number is not above `v` if it is not above its integer part. -/
theorem countP_natCast_le {v : K} (hv : 0 ≤ v) (counts : List Nat) :
    (counts.map (Nat.cast : Nat → K)).countP (· ≤ v) = counts.countP (· ≤ ⌊v⌋₊) := by
  rw [List.countP_map]
  refine List.countP_congr fun count _ => ?_
  simp [Nat.le_floor_iff hv]

theorem countP_le_natCast [IsStrictOrderedRing K] (v : K) (counts : List Nat) :
    (counts.map (Nat.cast : Nat → K)).countP (v ≤ ·) ≤ counts.countP (⌊v⌋₊ ≤ ·) := by
  rw [List.countP_map]
  refine List.countP_mono_left fun count _ hcount => ?_
  have hle : v ≤ (count : K) := by simpa using hcount
  simpa using Nat.floor_le_of_le hle

end NatCast

end Lib
end LatencyAnalyzer
