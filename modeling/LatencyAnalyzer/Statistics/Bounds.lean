import LatencyAnalyzer.Statistics.Order

/-!
# Bounds — summaries of samples that lie in an interval

A summary never leaves the interval of its samples, and equal samples are summed up by their
value.  The median asks for less: it lies where more than half of the samples lie.
-/

namespace LatencyAnalyzer
namespace Statistics

section Bounds

variable {K : Type*} [Field K] [LinearOrder K] [FloorSemiring K]

/-- All members but the deviation lie in an interval. -/
structure Within (lo hi : K) (s : Summary K) : Prop where
  min : lo ≤ s.min ∧ s.min ≤ hi
  max : lo ≤ s.max ∧ s.max ≤ hi
  mean : lo ≤ s.mean ∧ s.mean ≤ hi
  median : lo ≤ s.median ∧ s.median ≤ hi
  p95 : lo ≤ s.p95 ∧ s.p95 ≤ hi
  p99 : lo ≤ s.p99 ∧ s.p99 ≤ hi

/-- The summary of `count` samples that all have one value. -/
def Summary.constant (count : Nat) (value : K) : Summary K :=
  { count := count
    mean := value
    median := value
    p95 := value
    p99 := value
    stddev := 0
    min := value
    max := value }

variable [IsStrictOrderedRing K]

theorem quantile_within {samples : List K} {lo hi q : K} (hne : samples ≠ [])
    (h : ∀ v ∈ samples, lo ≤ v ∧ v ≤ hi) (hq : 0 ≤ q) (hone : q ≤ 1) :
    lo ≤ quantile (samples.insertionSort (· ≤ ·)) q ∧
      quantile (samples.insertionSort (· ≤ ·)) q ≤ hi := by
  have hpos : 0 < samples.length := List.length_pos_iff.2 hne
  have hfirst := (h _ (Lib.ranked_mem 0 hpos)).1
  have hlast := (h _ (Lib.ranked_mem 0 (Nat.sub_lt hpos Nat.one_pos))).2
  rw [quantile_insertionSort]
  constructor
  · calc
      lo ≤ Lib.ranked 0 samples 0 := hfirst
      _ = Lib.quantile samples 0 := (Lib.quantile_zero samples).symm
      _ ≤ Lib.quantile samples q := Lib.quantile_mono hne le_rfl hq hone
  · calc
      Lib.quantile samples q ≤ Lib.quantile samples 1 := Lib.quantile_mono hne hq hone le_rfl
      _ = Lib.ranked 0 samples (samples.length - 1) := Lib.quantile_one samples
      _ ≤ hi := hlast

theorem within_summarize (sqrt : K → K) {samples : List K} {lo hi : K} (hne : samples ≠ [])
    (h : ∀ v ∈ samples, lo ≤ v ∧ v ≤ hi) : Within lo hi (summarize sqrt samples) := by
  have hpos : 0 < samples.length := List.length_pos_iff.2 hne
  have hlength : (samples.insertionSort (· ≤ ·)).length = samples.length :=
    List.length_insertionSort _ _
  have hsorted : samples.insertionSort (· ≤ ·) ≠ [] :=
    List.length_pos_iff.1 (hlength.symm ▸ hpos)
  have hmem : ∀ v ∈ samples.insertionSort (· ≤ ·), lo ≤ v ∧ v ≤ hi :=
    fun v hv => h v ((List.mem_insertionSort _).1 hv)
  have hquantile : ∀ {q : K}, 0 ≤ q → q ≤ 1 → _ := fun hq hone => quantile_within hne h hq hone
  have hsummary : summarize sqrt samples = summarizeImpl sqrt samples := rfl
  rw [hsummary]
  cases samples with
  | nil => exact absurd rfl hne
  | cons first samples =>
      have hmin : (summarizeImpl sqrt (first :: samples)).min =
          ((first :: samples).insertionSort (· ≤ ·)).head hsorted := by
        show ((first :: samples).insertionSort (· ≤ ·)).headD 0 = _
        rw [List.headD_eq_head?_getD, List.head?_eq_some_head hsorted]
        rfl
      have hmax : (summarizeImpl sqrt (first :: samples)).max =
          ((first :: samples).insertionSort (· ≤ ·)).getLast hsorted := by
        show ((first :: samples).insertionSort (· ≤ ·)).getLastD 0 = _
        rw [List.getLastD_eq_getLast?, List.getLast?_eq_some_getLast hsorted]
        rfl
      refine ⟨?_, ?_, ⟨?_, ?_⟩, hquantile ?_ ?_, hquantile ?_ ?_, hquantile ?_ ?_⟩
      · rw [hmin]
        exact hmem _ (List.head_mem hsorted)
      · rw [hmax]
        exact hmem _ (List.getLast_mem hsorted)
      · exact Lib.le_mean hne fun v hv => (h v hv).1
      · exact Lib.mean_le hne fun v hv => (h v hv).2
      all_goals norm_num

theorem summarize_replicate {sqrt : K → K} (hsqrt : sqrt 0 = 0) {n : Nat} (hn : 0 < n) (v : K) :
    summarize sqrt (List.replicate n v) = Summary.constant n v := by
  have hwithin : Within v v (summarize sqrt (List.replicate n v)) := by
    refine within_summarize sqrt ?_ fun w hw => ?_
    · exact List.length_pos_iff.1 (List.length_replicate.symm ▸ hn)
    · rw [List.eq_of_mem_replicate hw]
      exact ⟨le_refl v, le_refl v⟩
  obtain ⟨n, rfl⟩ := Nat.exists_eq_succ_of_ne_zero (Nat.ne_of_gt hn)
  have hcount : (summarize sqrt (List.replicate (n + 1) v)).count = n + 1 :=
    List.length_replicate
  have hmean : (List.replicate (n + 1) v).sum / ((List.replicate (n + 1) v).length : K) = v :=
    le_antisymm hwithin.mean.2 hwithin.mean.1
  -- Equal samples do not deviate from their mean.
  have hstddev : (summarize sqrt (List.replicate (n + 1) v)).stddev = 0 := by
    show (if 2 ≤ (List.replicate (n + 1) v).length then _ else 0) = (0 : K)
    rw [hmean]
    split
    · simp [hsqrt]
    · rfl
  obtain ⟨hmin, hmax, hmean, hmedian, hp95, hp99⟩ := hwithin
  generalize summarize sqrt (List.replicate (n + 1) v) = s at *
  obtain ⟨count, mean, median, p95, p99, stddev, min, max⟩ := s
  dsimp only at *
  unfold Summary.constant
  rw [hcount, hstddev, le_antisymm hmean.2 hmean.1, le_antisymm hmedian.2 hmedian.1,
    le_antisymm hp95.2 hp95.1, le_antisymm hp99.2 hp99.1, le_antisymm hmin.2 hmin.1,
    le_antisymm hmax.2 hmax.1]

theorem median_summarize (sqrt : K → K) (samples : List K) :
    (summarize sqrt samples).median = Lib.median samples := by
  have hhalf : (50 / 100 : K) = 1 / 2 := by norm_num
  unfold summarize
  rw [median_summarizeImpl, hhalf, Lib.quantile_half]

/-- The median lies where more than half of the samples lie. -/
theorem median_of_majority (sqrt : K → K) {samples : List K} {hi : K}
    (h : samples.length < 2 * samples.countP (· ≤ hi)) : (summarize sqrt samples).median ≤ hi := by
  rw [median_summarize]
  exact Lib.median_le_of_majority h

theorem median_mem_of_majority (sqrt : K → K) {samples : List K} {lo hi : K}
    (h : samples.length < 2 * samples.countP (fun v => lo ≤ v ∧ v ≤ hi)) :
    lo ≤ (summarize sqrt samples).median ∧ (summarize sqrt samples).median ≤ hi := by
  rw [median_summarize]
  exact Lib.median_mem_of_majority h

end Bounds

end Statistics
end LatencyAnalyzer
