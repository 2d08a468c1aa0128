import Mathlib.Algebra.Order.Field.Basic
import Mathlib.Data.List.GetD
import Mathlib.Data.List.Sort
import Mathlib.Tactic.FieldSimp
import Mathlib.Tactic.Linarith
import Mathlib.Tactic.Ring

/-!
# OrderStatistics — ranks and the median of a list

The entry of rank `k` is the one at position `k` once the list is sorted.  A rank is compared with a
bound by counting: the entries that satisfy a downward closed condition are the first ones of the
sorted list.  The median is the mean of the two middle ranks, which coincide for odd lengths.
-/

namespace LatencyAnalyzer
namespace Lib

section Ranks

variable {α : Type*} [LinearOrder α]

/-- The entry of rank `k`, or `d` if there are not that many entries. -/
def ranked (d : α) (values : List α) (k : Nat) : α :=
  (values.insertionSort (· ≤ ·)).getD k d

/-! ## Sorted lists -/

theorem sort_eq_of_perm {values values' : List α} (h : values.Perm values') :
    values.insertionSort (· ≤ ·) = values'.insertionSort (· ≤ ·) := by
  refine List.Perm.eq_of_pairwise' (List.pairwise_insertionSort _ _)
    (List.pairwise_insertionSort _ _) ?_
  exact ((List.perm_insertionSort _ _).trans h).trans (List.perm_insertionSort _ _).symm

theorem sort_map_of_monotone {f : α → α} (hf : Monotone f) (values : List α) :
    (values.map f).insertionSort (· ≤ ·) = (values.insertionSort (· ≤ ·)).map f := by
  refine List.Perm.eq_of_pairwise' (List.pairwise_insertionSort _ _) ?_ ?_
  · exact (List.pairwise_insertionSort (· ≤ ·) values).map f fun _ _ hab => hf hab
  · exact (List.perm_insertionSort _ _).trans ((List.perm_insertionSort _ values).map f).symm

theorem sort_map_of_antitone {f : α → α} (hf : Antitone f) (values : List α) :
    (values.map f).insertionSort (· ≤ ·) = ((values.insertionSort (· ≤ ·)).map f).reverse := by
  refine List.Perm.eq_of_pairwise' (List.pairwise_insertionSort _ _) ?_ ?_
  · rw [List.pairwise_reverse]
    exact (List.pairwise_insertionSort (· ≤ ·) values).map f fun _ _ hab => hf hab
  · exact (List.perm_insertionSort _ _).trans
      (((List.perm_insertionSort _ values).map f).symm.trans (List.reverse_perm _).symm)

/-- In a sorted list the entries that satisfy a downward closed condition come first. -/
theorem getD_downward_iff {p : α → Bool} (hp : ∀ a b, a ≤ b → p b = true → p a = true)
    {sorted : List α} (hsorted : sorted.Pairwise (· ≤ ·)) (d : α) {k : Nat}
    (hk : k < sorted.length) : p (sorted.getD k d) = true ↔ k < sorted.countP p := by
  induction sorted generalizing k with
  | nil => exact absurd hk (Nat.not_lt_zero k)
  | cons front rest ih =>
      rcases List.pairwise_cons.1 hsorted with ⟨hfront, hrest⟩
      by_cases hpf : p front = true
      · rw [List.countP_cons_of_pos hpf]
        cases k with
        | zero => simp [hpf]
        | succ k =>
            have hk' : k < rest.length := by simpa using hk
            rw [List.getD_cons_succ, ih hrest hk']
            omega
      · -- Nothing behind the first entry satisfies the condition either.
        have hnone : ∀ a ∈ front :: rest, ¬ p a = true := by
          intro a ha hpa
          rcases List.mem_cons.1 ha with rfl | hmem
          · exact hpf hpa
          · exact hpf (hp front a (hfront a hmem) hpa)
        rw [List.countP_eq_zero.2 hnone]
        have hmem : (front :: rest).getD k d ∈ front :: rest := by
          rw [List.getD_eq_getElem _ _ hk]
          exact List.getElem_mem hk
        exact ⟨fun h => absurd h (hnone _ hmem), fun h => absurd h (Nat.not_lt_zero k)⟩

/-! ## Ranks -/

theorem ranked_perm (d : α) {values values' : List α} (h : values.Perm values') (k : Nat) :
    ranked d values k = ranked d values' k := by
  unfold ranked
  rw [sort_eq_of_perm h]

theorem ranked_le_iff (d : α) {values : List α} {k : Nat} (hk : k < values.length) (v : α) :
    ranked d values k ≤ v ↔ k < values.countP (· ≤ v) := by
  have hiff := getD_downward_iff (p := fun a => decide (a ≤ v))
    (fun a b hab hb => by simpa using hab.trans (by simpa using hb))
    (List.pairwise_insertionSort (· ≤ ·) values) d (by rwa [List.length_insertionSort])
  rw [(List.perm_insertionSort _ values).countP_eq] at hiff
  simpa [ranked] using hiff

theorem le_ranked_iff (d : α) {values : List α} {k : Nat} (hk : k < values.length) (v : α) :
    v ≤ ranked d values k ↔ values.countP (· < v) ≤ k := by
  have hiff := getD_downward_iff (p := fun a => decide (a < v))
    (fun a b hab hb => by simpa using hab.trans_lt (by simpa using hb))
    (List.pairwise_insertionSort (· ≤ ·) values) d (by rwa [List.length_insertionSort])
  rw [(List.perm_insertionSort _ values).countP_eq] at hiff
  have hlt : ranked d values k < v ↔ k < values.countP (· < v) := by simpa [ranked] using hiff
  rw [← not_lt, hlt, not_lt]

theorem length_eq_countP_le_add_countP_lt (values : List α) (v : α) :
    values.length = values.countP (v ≤ ·) + values.countP (· < v) := by
  rw [List.length_eq_countP_add_countP (fun x => decide (v ≤ x))]
  simp

theorem ranked_mono (d : α) {values : List α} {k l : Nat} (hkl : k ≤ l) (hl : l < values.length) :
    ranked d values k ≤ ranked d values l := by
  rw [ranked_le_iff d (hkl.trans_lt hl)]
  exact hkl.trans_lt ((ranked_le_iff d hl _).1 le_rfl)

theorem ranked_map_of_monotone {f : α → α} (hf : Monotone f) (d : α) {values : List α} {k : Nat}
    (hk : k < values.length) : ranked d (values.map f) k = f (ranked d values k) := by
  have hk' : k < (values.insertionSort (· ≤ ·)).length := by rwa [List.length_insertionSort]
  unfold ranked
  rw [sort_map_of_monotone hf, List.getD_eq_getElem _ _ (by simpa using hk),
    List.getD_eq_getElem _ _ hk', List.getElem_map]

theorem ranked_map_of_antitone {f : α → α} (hf : Antitone f) (d : α) {values : List α} {k : Nat}
    (hk : k < values.length) :
    ranked d (values.map f) k = f (ranked d values (values.length - 1 - k)) := by
  have hlength : (values.insertionSort (· ≤ ·)).length = values.length :=
    List.length_insertionSort _ _
  have hk' : values.length - 1 - k < (values.insertionSort (· ≤ ·)).length := by omega
  unfold ranked
  rw [sort_map_of_antitone hf, List.getD_eq_getElem _ _ (by simpa using hk),
    List.getD_eq_getElem _ _ hk', List.getElem_reverse, List.getElem_map]
  simp only [List.length_map, hlength]

/-- The upper one of the middle entries is what more than half of the entries are. -/
theorem upper_of_majority (d : α) {values : List α} {v : α}
    (h : values.length < 2 * values.countP (· = v)) :
    ranked d values (values.length / 2) = v := by
  have hcount : values.countP (· = v) ≤ values.length := List.countP_le_length
  have hk : values.length / 2 < values.length := by omega
  apply le_antisymm
  · rw [ranked_le_iff d hk]
    have hmono : values.countP (· = v) ≤ values.countP (· ≤ v) :=
      List.countP_mono_left fun x _ hx => decide_eq_true (of_decide_eq_true hx).le
    omega
  · rw [le_ranked_iff d hk]
    have hmono : values.countP (· = v) ≤ values.countP (v ≤ ·) :=
      List.countP_mono_left fun x _ hx => decide_eq_true (of_decide_eq_true hx).ge
    -- The entries below `v` are a part of the others.
    have hsplit := length_eq_countP_le_add_countP_lt values v
    omega

end Ranks

/-! ## The median -/

section Median

variable {K : Type*} [Field K] [LinearOrder K] [IsStrictOrderedRing K]

omit [IsStrictOrderedRing K] in
/-- The mean of the two middle ranks; 0 for the empty list. -/
def median (values : List K) : K :=
  (ranked 0 values ((values.length - 1) / 2) + ranked 0 values (values.length / 2)) / (2 : Nat)

omit [IsStrictOrderedRing K] in
theorem median_perm {values values' : List K} (h : values.Perm values') :
    median values = median values' := by
  unfold median
  rw [h.length_eq, ranked_perm 0 h, ranked_perm 0 h]

theorem monotone_affine {a : K} (ha : 0 ≤ a) (b : K) : Monotone fun x : K => a * x + b := by
  intro x y hxy
  simpa using mul_le_mul_of_nonneg_left hxy ha

/-- The median of an affine image.  A negative factor turns the order of the ranks around, which
exchanges the two middle ones. -/
theorem median_map_affine (a b : K) {values : List K} (hvalues : values ≠ []) :
    median (values.map fun x => a * x + b) = a * median values + b := by
  have hpos : 0 < values.length := List.length_pos_iff.2 hvalues
  have hlower : (values.length - 1) / 2 < values.length := by omega
  have hupper : values.length / 2 < values.length := by omega
  unfold median
  rw [List.length_map]
  rcases le_total 0 a with ha | ha
  · have hf := monotone_affine ha b
    rw [ranked_map_of_monotone hf 0 hlower, ranked_map_of_monotone hf 0 hupper]
    ring
  · have hf : Antitone fun x : K => a * x + b :=
      fun x y hxy => by simpa using mul_le_mul_of_nonpos_left hxy ha
    have hswap : values.length - 1 - (values.length - 1) / 2 = values.length / 2 := by omega
    have hswap' : values.length - 1 - values.length / 2 = (values.length - 1) / 2 := by omega
    rw [ranked_map_of_antitone hf 0 hlower, ranked_map_of_antitone hf 0 hupper, hswap, hswap']
    ring

theorem median_le_of_majority {values : List K} {u : K}
    (h : values.length < 2 * values.countP (· ≤ u)) : median values ≤ u := by
  have hle : values.countP (· ≤ u) ≤ values.length := List.countP_le_length
  have hlower := (ranked_le_iff 0 (by omega : (values.length - 1) / 2 < values.length) u).2
    (by omega)
  have hupper := (ranked_le_iff 0 (by omega : values.length / 2 < values.length) u).2 (by omega)
  unfold median
  linarith

theorem le_median_of_majority {values : List K} {l : K}
    (h : values.length < 2 * values.countP (l ≤ ·)) : l ≤ median values := by
  have hle : values.countP (l ≤ ·) ≤ values.length := List.countP_le_length
  -- The minority is what lies below `l`.
  have hsplit := length_eq_countP_le_add_countP_lt values l
  have hlower := (le_ranked_iff 0 (by omega : (values.length - 1) / 2 < values.length) l).2
    (by omega)
  have hupper := (le_ranked_iff 0 (by omega : values.length / 2 < values.length) l).2 (by omega)
  unfold median
  linarith

/-- The breakdown point: an interval that holds a strict majority of the values holds the median. -/
theorem median_mem_of_majority {values : List K} {l u : K}
    (h : values.length < 2 * values.countP (fun x => l ≤ x ∧ x ≤ u)) :
    l ≤ median values ∧ median values ≤ u := by
  constructor
  · refine le_median_of_majority (h.trans_le (Nat.mul_le_mul_left 2 ?_))
    exact List.countP_mono_left fun x _ hx => by simp_all
  · refine median_le_of_majority (h.trans_le (Nat.mul_le_mul_left 2 ?_))
    exact List.countP_mono_left fun x _ hx => by simp_all

/-- At least half of the values are not above the median. -/
theorem half_le_median (values : List K) :
    values.length ≤ 2 * values.countP (· ≤ median values) := by
  rcases Nat.eq_zero_or_pos values.length with hzero | hpos
  · omega
  have hupper : values.length / 2 < values.length := by omega
  have hmono := ranked_mono 0 (by omega : (values.length - 1) / 2 ≤ values.length / 2) hupper
  have hlower : ranked 0 values ((values.length - 1) / 2) ≤ median values := by
    unfold median
    linarith
  rw [ranked_le_iff 0 (by omega)] at hlower
  omega

/-- The upper one of the two middle ranks is the median only if the lower one equals it. -/
theorem upper_eq_median_iff (values : List K) :
    ranked 0 values (values.length / 2) = median values ↔
      values.length % 2 = 1 ∨
        ranked 0 values (values.length / 2 - 1) = ranked 0 values (values.length / 2) := by
  have hhalf : ranked 0 values (values.length / 2) = median values ↔
      ranked 0 values ((values.length - 1) / 2) = ranked 0 values (values.length / 2) := by
    unfold median
    constructor
    · intro h
      push_cast at h
      linarith
    · intro h
      rw [h]
      push_cast
      ring
  rw [hhalf]
  by_cases hodd : values.length % 2 = 1
  · have hsame : (values.length - 1) / 2 = values.length / 2 := by omega
    rw [hsame]
    exact iff_of_true rfl (Or.inl hodd)
  · have hlower : (values.length - 1) / 2 = values.length / 2 - 1 := by omega
    rw [hlower]
    exact ⟨Or.inr, fun h => h.resolve_left hodd⟩

end Median

end Lib
end LatencyAnalyzer
