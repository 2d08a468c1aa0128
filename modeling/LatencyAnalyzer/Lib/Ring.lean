import Mathlib.Data.List.GetD
import Mathlib.Data.List.Iterate
import Mathlib.Data.List.Nodup
import Mathlib.Data.Nat.ModEq

/-!
# Ring — successor maps that walk around a list, and loops that append to a trace

`Follows succ order` says that `succ` leads from each entry of `order` to the next one, and from
the last back to the first.  When the entries are distinct, every walk runs through all of them
before it returns.
-/

namespace LatencyAnalyzer
namespace Lib

/-! ## Walking around a list -/

section Ring

variable {α : Type*} {succ : α → α} {order : List α} {d : α}

def Follows (succ : α → α) (order : List α) (d : α) : Prop :=
  ∀ i < order.length, succ (order.getD i d) = order.getD ((i + 1) % order.length) d

/-- The `steps` entries from position `start` on, around the end of the list. -/
def window (order : List α) (d : α) (start steps : Nat) : List α :=
  (List.range steps).map fun i => order.getD ((start + i) % order.length) d

theorem window_length (start steps : Nat) : (window order d start steps).length = steps := by
  rw [window, List.length_map, List.length_range]

theorem getD_inj (hnodup : order.Nodup) {i j : Nat} (hi : i < order.length)
    (hj : j < order.length) (heq : order.getD i d = order.getD j d) : i = j := by
  rw [List.getD_eq_getElem _ _ hi, List.getD_eq_getElem _ _ hj] at heq
  exact hnodup.getElem_inj_iff.1 heq

theorem exists_getD_of_mem {x : α} (hx : x ∈ order) :
    ∃ i, i < order.length ∧ order.getD i d = x := by
  rcases List.mem_iff_getElem.1 hx with ⟨i, hi, heq⟩
  exact ⟨i, hi, (List.getD_eq_getElem _ _ hi).trans heq⟩

namespace Follows

theorem iterate (h : Follows succ order d) {i : Nat} (hi : i < order.length) (k : Nat) :
    succ^[k] (order.getD i d) = order.getD ((i + k) % order.length) d := by
  induction k with
  | zero => rw [Function.iterate_zero_apply, Nat.add_zero, Nat.mod_eq_of_lt hi]
  | succ k ih =>
      have hlt : (i + k) % order.length < order.length := Nat.mod_lt _ (by omega)
      calc
        succ^[k + 1] (order.getD i d) = succ (succ^[k] (order.getD i d)) :=
          Function.iterate_succ_apply' _ _ _
        _ = succ (order.getD ((i + k) % order.length) d) := by rw [ih]
        _ = order.getD (((i + k) % order.length + 1) % order.length) d := h _ hlt
        _ = order.getD ((i + (k + 1)) % order.length) d := by rw [Nat.mod_add_mod, Nat.add_assoc]

/-- A walk of `steps` steps meets the window at its starting position, in order. -/
theorem iterate_eq_window (h : Follows succ order d) {i : Nat} (hi : i < order.length)
    (steps : Nat) : List.iterate succ (order.getD i d) steps = window order d i steps := by
  rw [← List.range_map_iterate]
  exact List.map_congr_left fun k _ => h.iterate hi k

theorem iterate_eq_self_iff (h : Follows succ order d) (hnodup : order.Nodup) {x : α}
    (hx : x ∈ order) (k : Nat) : succ^[k] x = x ↔ order.length ∣ k := by
  rcases exists_getD_of_mem (d := d) hx with ⟨i, hi, rfl⟩
  have hpos : 0 < order.length := by omega
  rw [h.iterate hi]
  constructor
  · intro heq
    have hmod : (i + k) % order.length = i := getD_inj hnodup (Nat.mod_lt _ hpos) hi heq
    -- Distinct entries make equal nodes equal positions, so the walk went around.
    have hcongr : i + k ≡ i + 0 [MOD order.length] := by
      rw [Nat.ModEq, Nat.add_zero, hmod, Nat.mod_eq_of_lt hi]
    exact (Nat.modEq_zero_iff_dvd).1 (Nat.ModEq.add_left_cancel' i hcongr)
  · rintro ⟨c, rfl⟩
    rw [Nat.add_mul_mod_self_left, Nat.mod_eq_of_lt hi]

/-- Any entry is reached from any other within one turn. -/
theorem exists_iterate_eq (h : Follows succ order d) {x y : α} (hx : x ∈ order)
    (hy : y ∈ order) : ∃ k, k < order.length ∧ succ^[k] x = y := by
  rcases exists_getD_of_mem (d := d) hx with ⟨i, hi, rfl⟩
  rcases exists_getD_of_mem (d := d) hy with ⟨j, hj, rfl⟩
  have hpos : 0 < order.length := by omega
  -- From position `i` up to the end of the list, and on to position `j`.
  refine ⟨(j + order.length - i) % order.length, Nat.mod_lt _ hpos, ?_⟩
  have hsum : i + (j + order.length - i) = j + order.length := by omega
  calc
    succ^[(j + order.length - i) % order.length] (order.getD i d)
        = order.getD ((i + (j + order.length - i) % order.length) % order.length) d :=
          h.iterate hi _
    _ = order.getD ((j + order.length) % order.length) d := by rw [Nat.add_mod_mod, hsum]
    _ = order.getD j d := by rw [Nat.add_mod_right, Nat.mod_eq_of_lt hj]

end Follows

theorem window_nodup (hnodup : order.Nodup) (start : Nat) {steps : Nat}
    (hsteps : steps ≤ order.length) : (window order d start steps).Nodup := by
  refine List.Nodup.map_on ?_ List.nodup_range
  intro i hi j hj heq
  have hi' : i < order.length := (List.mem_range.1 hi).trans_le hsteps
  have hj' : j < order.length := (List.mem_range.1 hj).trans_le hsteps
  have hmod := getD_inj hnodup (Nat.mod_lt _ (by omega)) (Nat.mod_lt _ (by omega)) heq
  have hcongr : i ≡ j [MOD order.length] := Nat.ModEq.add_left_cancel' start hmod
  rwa [Nat.ModEq, Nat.mod_eq_of_lt hi', Nat.mod_eq_of_lt hj'] at hcongr

theorem window_subset {start steps : Nat} (hpos : 0 < order.length) :
    ∀ x ∈ window order d start steps, x ∈ order := by
  intro x hx
  rcases List.mem_map.1 hx with ⟨i, _, rfl⟩
  rw [List.getD_eq_getElem _ _ (Nat.mod_lt _ hpos)]
  exact List.getElem_mem _

end Ring

/-! ## Loops that append to a trace -/

/-- A counting loop whose body keeps an invariant and appends one block to a trace. -/
theorem foldl_range_trace {β γ : Type*} (trace : β → List γ) (block : Nat → List γ)
    (Inv : Nat → β → Prop) (step : β → Nat → β) (n : Nat)
    (hstep : ∀ i b, i < n → Inv i b →
      Inv (i + 1) (step b i) ∧ trace (step b i) = trace b ++ block i)
    (b : β) (hb : Inv 0 b) :
    Inv n ((List.range n).foldl step b) ∧
      trace ((List.range n).foldl step b) = trace b ++ (List.range n).flatMap block := by
  induction n with
  | zero => exact ⟨hb, by simp⟩
  | succ n ih =>
      rcases ih fun i b hi => hstep i b (Nat.lt_succ_of_lt hi) with ⟨hinv, htrace⟩
      rcases hstep n _ n.lt_succ_self hinv with ⟨hinv', htrace'⟩
      rw [List.range_succ, List.foldl_append]
      refine ⟨hinv', ?_⟩
      rw [List.flatMap_append, ← List.append_assoc, ← htrace]
      simpa using htrace'

end Lib
end LatencyAnalyzer
