import LatencyAnalyzer.Lib.Sample

/-!
# Chunks — a list cut into pieces of equal length

The pieces that are full are kept, and what is left behind them is dropped.  Cutting the list of
pieces again is cutting the list into longer pieces, and a mean of means is the mean of all entries.
-/

namespace LatencyAnalyzer
namespace Lib

section Pieces

variable {α β : Type*}

/-- The `i`-th piece of `w` entries. -/
def chunk (w : Nat) (x : List α) (i : Nat) : List α :=
  (x.drop (i * w)).take w

/-- The full pieces. -/
def chunks (w : Nat) (x : List α) : List (List α) :=
  (List.range (x.length / w)).map (chunk w x)

theorem chunks_length (w : Nat) (x : List α) : (chunks w x).length = x.length / w := by
  simp [chunks]

/-- A full piece ends inside of the list. -/
theorem chunk_end_le {w i n : Nat} (h : i < n / w) : i * w + w ≤ n := by
  calc
    i * w + w = (i + 1) * w := (Nat.succ_mul i w).symm
    _ ≤ n / w * w := Nat.mul_le_mul_right w h
    _ ≤ n := Nat.div_mul_le_self n w

theorem chunk_length {w : Nat} {x : List α} {i : Nat} (h : i < x.length / w) :
    (chunk w x i).length = w := by
  have hend := chunk_end_le h
  simp only [chunk, List.length_take, List.length_drop]
  omega

theorem length_of_mem_chunks {w : Nat} {x piece : List α} (h : piece ∈ chunks w x) :
    piece.length = w := by
  rcases List.mem_map.1 h with ⟨i, hi, rfl⟩
  exact chunk_length (List.mem_range.1 hi)

theorem chunk_map (f : α → β) (w : Nat) (x : List α) (i : Nat) :
    chunk w (x.map f) i = (chunk w x i).map f := by
  unfold chunk
  rw [List.map_take, List.map_drop]

theorem chunks_map (f : α → β) (w : Nat) (x : List α) :
    chunks w (x.map f) = (chunks w x).map (List.map f) := by
  unfold chunks
  rw [List.length_map, List.map_map]
  exact List.map_congr_left fun i _ => chunk_map f w x i

/-- Neighbouring pieces are one long piece. -/
theorem flatten_pieces (w : Nat) (x : List α) (start n : Nat) :
    ((List.range n).map fun j => (x.drop (start + j * w)).take w).flatten =
      (x.drop start).take (n * w) := by
  induction n with
  | zero => simp
  | succ n ih =>
      rw [List.range_succ, List.map_append, List.flatten_append, ih, Nat.succ_mul, List.take_add,
        List.drop_drop]
      simp

theorem flatten_chunks (w : Nat) (x : List α) :
    (chunks w x).flatten = x.take (x.length / w * w) := by
  have hpieces := flatten_pieces w x 0 (x.length / w)
  simp only [Nat.zero_add, List.drop_zero] at hpieces
  exact hpieces

/-- A piece of the list of pieces, written out, is a long piece of the list. -/
theorem flatten_chunk_chunks {v w : Nat} {x : List α} {i : Nat} (h : i < x.length / w / v) :
    (chunk v (chunks w x) i).flatten = chunk (w * v) x i := by
  have hend := chunk_end_le h
  have hpieces : chunk v (chunks w x) i =
      (List.range v).map fun j => (x.drop (i * (w * v) + j * w)).take w := by
    refine List.ext_getElem ?_ ?_
    · rw [chunk_length (by rwa [chunks_length])]
      simp
    · intro j _ hj
      have hstart : (i * v + j) * w = i * (w * v) + j * w := by ring
      simp [chunk, chunks, hstart]
  rw [hpieces, flatten_pieces, Nat.mul_comm v w]
  rfl

end Pieces

section Means

variable {K : Type*} [Field K] [CharZero K]

theorem sum_map_mean {w : Nat} (hw : w ≠ 0) {pieces : List (List K)}
    (h : ∀ piece ∈ pieces, piece.length = w) :
    (w : K) * (pieces.map mean).sum = pieces.flatten.sum := by
  have hw' : (w : K) ≠ 0 := by exact_mod_cast hw
  induction pieces with
  | nil => simp
  | cons piece pieces ih =>
      rw [List.map_cons, List.sum_cons, List.flatten_cons, List.sum_append, mul_add,
        ih fun p hp => h p (List.mem_cons_of_mem _ hp)]
      congr 1
      unfold mean
      rw [h piece List.mem_cons_self]
      exact mul_div_cancel₀ _ hw'

/-- The mean of the means of pieces of equal length. -/
theorem mean_map_mean {w : Nat} (hw : w ≠ 0) {pieces : List (List K)}
    (h : ∀ piece ∈ pieces, piece.length = w) : mean (pieces.map mean) = mean pieces.flatten := by
  have hw' : (w : K) ≠ 0 := by exact_mod_cast hw
  have hlength : pieces.flatten.length = w * pieces.length := by
    rw [List.length_flatten, List.map_congr_left h, List.map_const', List.sum_replicate,
      smul_eq_mul, Nat.mul_comm]
  have hsum := sum_map_mean hw h
  unfold mean at hsum ⊢
  rw [← hsum, hlength, List.length_map, Nat.cast_mul, mul_div_mul_left _ _ hw']

end Means

end Lib
end LatencyAnalyzer
