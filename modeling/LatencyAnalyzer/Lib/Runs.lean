import Mathlib.Data.List.Basic

/-!
# Runs — a list of numbers as maximal runs of successors

`runs` groups neighbours that follow each other; `span` writes one run out again.  Nothing is lost:
the runs of a list, written out in order, are the list.
-/

namespace LatencyAnalyzer
namespace Lib

/-- The maximal runs of a list, each as its first and last number. -/
def runs : List Nat → List (Nat × Nat)
  | [] => []
  | x :: rest =>
      match runs rest with
      | [] => [(x, x)]
      | (first, last) :: others =>
          if x + 1 = first then (x, last) :: others else (x, x) :: (first, last) :: others

/-- The numbers of a run. -/
def span (run : Nat × Nat) : List Nat :=
  List.range' run.1 (run.2 + 1 - run.1)

@[simp] theorem span_self (x : Nat) : span (x, x) = [x] := by
  simp [span]

theorem span_extend {first last : Nat} (h : first + 1 ≤ last) :
    span (first, last) = first :: span (first + 1, last) := by
  have hlength : last + 1 - first = last + 1 - (first + 1) + 1 := by omega
  simp only [span, hlength, List.range'_succ]

theorem mem_span {run : Nat × Nat} {x : Nat} : x ∈ span run ↔ run.1 ≤ x ∧ x ≤ run.2 := by
  simp only [span, List.mem_range'_1]
  omega

theorem runs_ordered (l : List Nat) : ∀ run ∈ runs l, run.1 ≤ run.2 := by
  induction l with
  | nil => simp [runs]
  | cons x rest ih =>
      unfold runs
      split
      · simp
      · rename_i first last others heq
        have hhead : first ≤ last := ih (first, last) (by simp [heq])
        have hothers : ∀ run ∈ others, run.1 ≤ run.2 := fun run hrun => ih run (by simp [heq, hrun])
        split
        · rename_i hnext
          intro run hrun
          rcases List.mem_cons.1 hrun with rfl | hrun
          · exact Nat.le_trans (by omega) hhead
          · exact hothers run hrun
        · intro run hrun
          rcases List.mem_cons.1 hrun with rfl | hrun
          · exact Nat.le_refl x
          · rcases List.mem_cons.1 hrun with rfl | hrun
            · exact hhead
            · exact hothers run hrun

/-- The runs written out one after the other are the list they were made from. -/
theorem flatMap_span_runs (l : List Nat) : (runs l).flatMap span = l := by
  induction l with
  | nil => rfl
  | cons x rest ih =>
      have hordered := runs_ordered rest
      unfold runs
      -- A run in front of the list either takes `x` in or leaves it alone.
      split
      · rename_i heq
        simpa [heq] using ih
      · rename_i first last others heq
        have hhead : first ≤ last := hordered (first, last) (by simp [heq])
        rw [heq, List.flatMap_cons] at ih
        split
        · rename_i hnext
          subst hnext
          rw [List.flatMap_cons, span_extend hhead, List.cons_append, ih]
        · rw [List.flatMap_cons, List.flatMap_cons, ih, span_self]
          rfl

/-- Both ends of a run are in the list. -/
theorem ends_mem_of_mem_runs {l : List Nat} {run : Nat × Nat} (h : run ∈ runs l) :
    run.1 ∈ l ∧ run.2 ∈ l := by
  have hordered := runs_ordered l run h
  have hspan : ∀ x ∈ span run, x ∈ l := by
    intro x hx
    rw [← flatMap_span_runs l]
    exact List.mem_flatMap.2 ⟨run, h, hx⟩
  exact ⟨hspan _ (mem_span.2 ⟨Nat.le_refl _, hordered⟩),
    hspan _ (mem_span.2 ⟨hordered, Nat.le_refl _⟩)⟩

end Lib
end LatencyAnalyzer
