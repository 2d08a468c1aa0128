import LatencyAnalyzer.Evaluation.Metrics
import LatencyAnalyzer.Lib.Chunks
import LatencyAnalyzer.Lib.Quantile

/-!
# Blocks — what `average_blocks` computes

The function averages the full blocks of a trace and drops the samples behind them.  Its output is
the list of the means of these blocks, so averaging twice is averaging over longer blocks.
-/

namespace LatencyAnalyzer
namespace Evaluation

section Code

variable {K : Type*} [Field K]

/-- `blockMean` with checked reads: there is no result when an index is outside of the list. -/
def blockMeanChecked (samples : List K) (window i : Nat) : Option K :=
  ((List.range window).mapM fun j => samples[i * window + j]?).map fun values =>
    values.sum / (window : K)

/-- `averageBlocks` with checked reads. -/
def averageBlocksChecked (samples : List K) (window : Nat) : Option (List K) :=
  if samples.isEmpty ∨ window = 0 then some []
  else
    let count := samples.length / window
    (List.range count).mapM (blockMeanChecked samples window)

end Code

section Means

variable {K : Type*} [Field K] {samples : List K} {window : Nat}

theorem averageBlocks_eq (hwindow : 0 < window) :
    averageBlocks samples window =
      (List.range (samples.length / window)).map (blockMean samples window) := by
  unfold averageBlocks
  cases samples with
  | nil => simp
  | cons => rw [if_neg (by simp; omega)]

/-! ## Reads within bounds -/

theorem mapM_eq_some {α β : Type*} {f : α → Option β} {g : α → β} {xs : List α}
    (h : ∀ x ∈ xs, f x = some (g x)) : xs.mapM f = some (xs.map g) := by
  induction xs with
  | nil => rfl
  | cons x xs ih =>
      have hrest := ih fun y hy => h y (List.mem_cons_of_mem _ hy)
      rw [List.mapM_cons, h x List.mem_cons_self, hrest]
      rfl

theorem getElem?_of_block {i j : Nat} (hi : i < samples.length / window) (hj : j < window) :
    samples[i * window + j]? = some (samples.getD (i * window + j) 0) := by
  have hend := Lib.chunk_end_le hi
  have hlt : i * window + j < samples.length := by omega
  rw [List.getElem?_eq_getElem hlt, List.getD_eq_getElem _ _ hlt]

theorem blockMeanChecked_eq {i : Nat} (hi : i < samples.length / window) :
    blockMeanChecked samples window i = some (blockMean samples window i) := by
  have hreads : ((List.range window).mapM fun j => samples[i * window + j]?) =
      some ((List.range window).map fun j => samples.getD (i * window + j) 0) :=
    mapM_eq_some fun j hj => getElem?_of_block hi (List.mem_range.1 hj)
  unfold blockMeanChecked
  rw [hreads]
  rfl

theorem averageBlocksChecked_eq (samples : List K) (window : Nat) :
    averageBlocksChecked samples window = some (averageBlocks samples window) := by
  unfold averageBlocksChecked averageBlocks
  split
  · rfl
  · exact mapM_eq_some fun i hi => blockMeanChecked_eq (List.mem_range.1 hi)

/-! ## Blocks are chunks -/

theorem blockMean_eq {i : Nat} (hi : i < samples.length / window) :
    blockMean samples window i = Lib.mean (Lib.chunk window samples i) := by
  have hlength := Lib.chunk_length hi
  have hend := Lib.chunk_end_le hi
  have hblock : ((List.range window).map fun j => samples.getD (i * window + j) 0) =
      Lib.chunk window samples i := by
    refine List.ext_getElem ?_ ?_
    · rw [hlength]
      simp
    · intro j hj _
      have hj' : j < window := by simpa using hj
      have hlt : i * window + j < samples.length := by omega
      rw [List.getElem_map, List.getElem_range, List.getD_eq_getElem _ _ hlt]
      simp [Lib.chunk]
  unfold blockMean Lib.mean
  rw [hblock, hlength]

theorem averageBlocks_eq_map_mean (hwindow : 0 < window) :
    averageBlocks samples window = (Lib.chunks window samples).map Lib.mean := by
  rw [averageBlocks_eq hwindow]
  unfold Lib.chunks
  rw [List.map_map]
  exact List.map_congr_left fun i hi => blockMean_eq (List.mem_range.1 hi)

/-- Averages of averages. -/
theorem averageBlocks_averageBlocks [CharZero K] {a b : Nat} (ha : 0 < a) (hb : 0 < b) :
    averageBlocks (averageBlocks samples a) b = averageBlocks samples (a * b) := by
  rw [averageBlocks_eq_map_mean hb, averageBlocks_eq_map_mean ha,
    averageBlocks_eq_map_mean (Nat.mul_pos ha hb), Lib.chunks_map, List.map_map]
  unfold Lib.chunks
  rw [List.length_map, List.length_range, Nat.div_div_eq_div_mul, List.map_map, List.map_map]
  apply List.map_congr_left
  intro i hi
  have hi' : i < samples.length / a / b := by
    rw [Nat.div_div_eq_div_mul]
    exact List.mem_range.1 hi
  have hblocks : ∀ block ∈ Lib.chunk b (Lib.chunks a samples) i, block.length = a :=
    fun block hmem => Lib.length_of_mem_chunks (List.mem_of_mem_drop (List.mem_of_mem_take hmem))
  calc
    Lib.mean ((Lib.chunk b (Lib.chunks a samples) i).map Lib.mean)
        = Lib.mean (Lib.chunk b (Lib.chunks a samples) i).flatten :=
      Lib.mean_map_mean ha.ne' hblocks
    _ = Lib.mean (Lib.chunk (a * b) samples i) := by rw [Lib.flatten_chunk_chunks hi']

end Means

section Averages

variable {K : Type*} [Field K] [LinearOrder K] [IsStrictOrderedRing K]

/-- `averages` are those of the full blocks of `samples`, and all reads were inside of the list. -/
structure Averaged (samples : List K) (window : Nat) (averages : List K) : Prop where
  reads : averageBlocksChecked samples window = some averages
  length : averages.length = samples.length / window
  within : ∀ i (h : i < averages.length), ∃ low high,
    IsLeast {v | v ∈ Lib.chunk window samples i} low ∧
      IsGreatest {v | v ∈ Lib.chunk window samples i} high ∧
      low ≤ averages[i] ∧ averages[i] ≤ high
  sum : (window : K) * averages.sum = (samples.take (window * (samples.length / window))).sum

theorem averaged_averageBlocks (samples : List K) {window : Nat} (hwindow : 0 < window) :
    Averaged samples window (averageBlocks samples window) := by
  have hlength : (averageBlocks samples window).length = samples.length / window := by
    rw [averageBlocks_eq hwindow, List.length_map, List.length_range]
  constructor
  case reads => exact averageBlocksChecked_eq samples window
  case length => exact hlength
  case within =>
    intro i hi
    have hi' : i < samples.length / window := by rwa [hlength] at hi
    have hblock : Lib.chunk window samples i ≠ [] := by
      apply List.length_pos_iff.1
      rw [Lib.chunk_length hi']
      exact hwindow
    have hmean : (averageBlocks samples window)[i] = Lib.mean (Lib.chunk window samples i) := by
      simp only [averageBlocks_eq_map_mean hwindow, Lib.chunks, List.getElem_map,
        List.getElem_range]
    have hleast := Lib.isLeast_ranked_zero 0 hblock
    have hgreatest := Lib.isGreatest_ranked_last 0 hblock
    refine ⟨_, _, hleast, hgreatest, ?_, ?_⟩
    · rw [hmean]
      exact Lib.le_mean hblock fun v hv => hleast.2 hv
    · rw [hmean]
      exact Lib.mean_le hblock fun v hv => hgreatest.2 hv
  case sum =>
    rw [averageBlocks_eq_map_mean hwindow,
      Lib.sum_map_mean hwindow.ne' fun _ hblock => Lib.length_of_mem_chunks hblock,
      Lib.flatten_chunks, Nat.mul_comm]

/-- Block averages compose, and each window averages the full blocks of its input. -/
theorem block_averages_compose (samples : List K) {a b : Nat} (ha : 1 ≤ a) (hb : 1 ≤ b) :
    averageBlocks (averageBlocks samples a) b = averageBlocks samples (a * b) ∧
      Averaged samples a (averageBlocks samples a) :=
  ⟨averageBlocks_averageBlocks ha hb, averaged_averageBlocks samples ha⟩

theorem block_averages_compose_seven :
    averageBlocks (averageBlocks ([1, 3, 5, 7, 9, 11, 13] : List ℚ) 3) 2 =
      averageBlocks [1, 3, 5, 7, 9, 11, 13] 6 :=
  (block_averages_compose [1, 3, 5, 7, 9, 11, 13] (by decide) (by decide)).1

end Averages

end Evaluation
end LatencyAnalyzer
