import Mathlib.Data.List.Nodup
import Mathlib.Tactic.Common

/-!
# Speculation — a cache and a branch predictor

As much of a processor as shows in the times of loads.  The cache has room for everything.  One
conditional branch guards a load, with a two-bit counter as its predictor: while the line of the
bound is outstanding the guarded load runs ahead of the branch if the branch is predicted taken,
and it leaves its line in the cache also when the branch turns out not to be taken.
-/

namespace LatencyAnalyzer
namespace Lib

section Speculation

variable {L : Type*} [DecidableEq L]

structure Core (L : Type*) where
  cached : L → Bool
  /-- From 2 on the branch is predicted taken. -/
  counter : Fin 4

inductive Access (L : Type*)
  | flush (l : L)
  | load (l : L)
  /-- A load between two time stamps. -/
  | timed (l : L)
  /-- A load of `target` behind a branch on what the line `bound` holds. -/
  | guarded (bound : L) (taken : Bool) (target : L)

namespace Core

/-- The guarded load runs before the branch is resolved. -/
def runsAhead (speculates : Bool) (σ : Core L) (bound : L) : Bool :=
  speculates && !σ.cached bound && decide (2 ≤ σ.counter)

/-- The two-bit counter saturates at both ends. -/
def train (counter : Fin 4) (taken : Bool) : Fin 4 :=
  if taken then (if counter = 3 then 3 else counter + 1)
  else (if counter = 0 then 0 else counter - 1)

def step (speculates : Bool) (σ : Core L) : Access L → Core L
  | .flush l => { σ with cached := Function.update σ.cached l false }
  | .load l | .timed l => { σ with cached := Function.update σ.cached l true }
  | .guarded bound taken target =>
      { cached := fun l =>
          σ.cached l || decide (l = bound) ||
            ((taken || σ.runsAhead speculates bound) && decide (l = target))
        counter := train σ.counter taken }

def run (speculates : Bool) (σ : Core L) (accesses : List (Access L)) : Core L :=
  accesses.foldl (step speculates) σ

/-- Whether the timed loads find their lines in the cache, in the order of the loads. -/
def outcomes (speculates : Bool) : Core L → List (Access L) → List Bool
  | _, [] => []
  | σ, .timed l :: rest => σ.cached l :: outcomes speculates (σ.step speculates (.timed l)) rest
  | σ, access :: rest => outcomes speculates (σ.step speculates access) rest

variable {speculates : Bool} {σ : Core L}

theorem run_append (accesses accesses' : List (Access L)) :
    σ.run speculates (accesses ++ accesses') =
      (σ.run speculates accesses).run speculates accesses' :=
  List.foldl_append

theorem outcomes_append (accesses accesses' : List (Access L)) :
    σ.outcomes speculates (accesses ++ accesses') =
      σ.outcomes speculates accesses ++
        (σ.run speculates accesses).outcomes speculates accesses' := by
  induction accesses generalizing σ with
  | nil => rfl
  | cons access accesses ih =>
      cases access with
      | timed l => exact congrArg (σ.cached l :: ·) ih
      | flush l => exact ih
      | load l => exact ih
      | guarded bound taken target => exact ih

/-! ## Flushing and probing lines -/

theorem outcomes_flush (lines : List L) : σ.outcomes speculates (lines.map .flush) = [] := by
  induction lines generalizing σ with
  | nil => rfl
  | cons l lines ih => exact ih

theorem cached_flush (lines : List L) {l : L} (hl : l ∈ lines) :
    (σ.run speculates (lines.map .flush)).cached l = false := by
  -- A flushed line stays out, however often it is flushed again.
  have hkeeps : ∀ (lines : List L) (σ : Core L), σ.cached l = false →
      (σ.run speculates (lines.map .flush)).cached l = false := by
    intro lines
    induction lines with
    | nil => exact fun _ h => h
    | cons l' lines ih =>
        intro σ h
        refine ih _ ?_
        show Function.update σ.cached l' false l = false
        rw [Function.update_apply]
        split
        · rfl
        · exact h
  induction lines generalizing σ with
  | nil => cases hl
  | cons l' lines ih =>
      rcases List.mem_cons.1 hl with rfl | hl
      · refine hkeeps lines _ ?_
        exact Function.update_self _ _ _
      · exact ih hl

/-- Probing different lines, one each, shows the cache as it was before the first probe. -/
theorem outcomes_timed {lines : List L} (hnodup : lines.Nodup) :
    σ.outcomes speculates (lines.map .timed) = lines.map σ.cached := by
  induction lines generalizing σ with
  | nil => rfl
  | cons l lines ih =>
      rcases List.nodup_cons.1 hnodup with ⟨hl, hnodup⟩
      show σ.cached l :: outcomes speculates (σ.step speculates (.timed l)) (lines.map .timed) = _
      rw [ih hnodup, List.map_cons]
      refine congrArg (σ.cached l :: ·) (List.map_congr_left fun l' hl' => ?_)
      have hne : l' ≠ l := by
        rintro rfl
        exact hl hl'
      exact Function.update_of_ne hne _ _

/-! ## Visits -/

/-- The bound is flushed, and then the guarded load is tried. -/
def visit (bound : L) (taken : Bool) (target : L) : List (Access L) :=
  [.flush bound, .guarded bound taken target]

section Visits

variable (bound : L) (taken : Nat → Bool) (target : Nat → L)

def visits (n : Nat) : List (Access L) :=
  (List.range n).flatMap fun j => visit bound (taken j) (target j)

omit [DecidableEq L] in
theorem visits_succ (n : Nat) :
    visits bound taken target (n + 1) =
      visits bound taken target n ++ visit bound (taken n) (target n) := by
  unfold visits
  rw [List.range_succ, List.flatMap_append, List.flatMap_singleton]

theorem outcomes_visits (n : Nat) :
    σ.outcomes speculates (visits bound taken target n) = [] := by
  induction n with
  | zero => rfl
  | succ n ih =>
      rw [visits_succ, outcomes_append, ih]
      rfl

theorem counter_visits_succ (n : Nat) :
    (σ.run speculates (visits bound taken target (n + 1))).counter =
      train (σ.run speculates (visits bound taken target n)).counter (taken n) := by
  rw [visits_succ, run_append]
  rfl

/-- Two taken branches in a row are enough for the next prediction. -/
theorem two_le_counter {n : Nat} (h : taken n = true) (h' : taken (n + 1) = true) :
    2 ≤ (σ.run speculates (visits bound taken target (n + 2))).counter := by
  have htwice : ∀ counter : Fin 4, 2 ≤ train (train counter true) true := by decide
  rw [counter_visits_succ, counter_visits_succ, h, h']
  exact htwice _

/-- A visit leaves its target in the cache if the branch is taken or predicted taken. -/
theorem cached_visit {taken : Bool} {target l : L} (hl : l ≠ bound) :
    (σ.run speculates (visit bound taken target)).cached l = true ↔
      σ.cached l = true ∨
        (l = target ∧ (taken = true ∨ (speculates = true ∧ 2 ≤ σ.counter))) := by
  have hflushed : (σ.step speculates (.flush bound)).runsAhead speculates bound =
      (speculates && decide (2 ≤ σ.counter)) := by
    show (speculates && !Function.update σ.cached bound false bound && decide (2 ≤ σ.counter)) = _
    rw [Function.update_self, Bool.not_false, Bool.and_true]
  show (Function.update σ.cached bound false l || decide (l = bound) ||
    ((taken || (σ.step speculates (.flush bound)).runsAhead speculates bound) &&
      decide (l = target))) = true ↔ _
  rw [hflushed, Function.update_of_ne hl, decide_eq_false hl, Bool.or_false]
  simp only [Bool.or_eq_true, Bool.and_eq_true, decide_eq_true_eq]
  tauto

theorem cached_visits (n : Nat) {l : L} (hl : l ≠ bound) :
    (σ.run speculates (visits bound taken target n)).cached l = true ↔
      σ.cached l = true ∨ ∃ j < n, l = target j ∧ (taken j = true ∨
        (speculates = true ∧ 2 ≤ (σ.run speculates (visits bound taken target j)).counter)) := by
  induction n with
  | zero =>
      show σ.cached l = true ↔ _
      constructor
      · exact Or.inl
      · rintro (h | ⟨j, hj, _⟩)
        · exact h
        · exact absurd hj (Nat.not_lt_zero j)
  | succ n ih =>
      rw [visits_succ, run_append, cached_visit bound hl, ih]
      constructor
      · rintro ((h | ⟨j, hj, h⟩) | h)
        · exact Or.inl h
        · exact Or.inr ⟨j, Nat.lt_succ_of_lt hj, h⟩
        · exact Or.inr ⟨n, Nat.lt_succ_self n, h⟩
      · rintro (h | ⟨j, hj, h⟩)
        · exact Or.inl (Or.inl h)
        · rcases Nat.lt_succ_iff_lt_or_eq.1 hj with hlt | rfl
          · exact Or.inl (Or.inr ⟨j, hlt, h⟩)
          · exact Or.inr h

end Visits

end Core

end Speculation

end Lib
end LatencyAnalyzer
