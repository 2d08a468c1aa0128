import Mathlib.Order.Nat
import Mathlib.Tactic.Common

/-!
# Fairness — runs that reach a goal because every helpful action comes up again

A schedule is an endless sequence of actions.  A measure that no action raises, together with an
action that lowers it and stays the one to wait for until then, leads every fair schedule to the
goal.
-/

namespace LatencyAnalyzer
namespace Lib

section Fairness

variable {S A : Type*}

/-- The action comes up again after every moment. -/
def FairTo (schedule : Nat → A) (a : A) : Prop :=
  ∀ n, ∃ m, n ≤ m ∧ schedule m = a

/-- The states of a run. -/
def trajectory (step : S → A → S) (s : S) (schedule : Nat → A) : Nat → S
  | 0 => s
  | n + 1 => step (trajectory step s schedule n) (schedule n)

theorem foldl_map_range (step : S → A → S) (s : S) (schedule : Nat → A) (n : Nat) :
    ((List.range n).map schedule).foldl step s = trajectory step s schedule n := by
  induction n with
  | zero => rfl
  | succ n ih =>
      rw [List.range_succ, List.map_append, List.foldl_append, ih]
      rfl

theorem trajectory_invariant {step : S → A → S} {Inv : S → Prop} {Allowed : A → Prop}
    (hstep : ∀ s a, Inv s → Allowed a → Inv (step s a)) {s : S} (hs : Inv s) {schedule : Nat → A}
    (hallowed : ∀ n, Allowed (schedule n)) (n : Nat) : Inv (trajectory step s schedule n) := by
  induction n with
  | zero => exact hs
  | succ n ih => exact hstep _ _ ih (hallowed n)

/-- The obligations of a measure. -/
structure Descends (step : S → A → S) (Inv : S → Prop) (Allowed : A → Prop) (Goal : S → Prop)
    (measure : S → Nat) (helpful : S → A) : Prop where
  keeps : ∀ s a, Inv s → Allowed a → Inv (step s a)
  le : ∀ s a, Inv s → Allowed a → measure (step s a) ≤ measure s
  helps : ∀ s, Inv s → ¬ Goal s → measure (step s (helpful s)) < measure s
  /-- The helpful action stays the same as long as the measure does. -/
  stays : ∀ s a, Inv s → Allowed a → measure (step s a) = measure s → helpful (step s a) = helpful s

namespace Descends

variable {step : S → A → S} {Inv Goal : S → Prop} {Allowed : A → Prop} {measure : S → Nat}
  {helpful : S → A} {s : S} {schedule : Nat → A}

/-- Until the helpful action comes up, the measure falls or the action stays helpful. -/
theorem waits (h : Descends step Inv Allowed Goal measure helpful) (hs : Inv s)
    (hallowed : ∀ n, Allowed (schedule n)) (n d : Nat) :
    measure (trajectory step s schedule (n + d)) < measure (trajectory step s schedule n) ∨
      (measure (trajectory step s schedule (n + d)) = measure (trajectory step s schedule n) ∧
        helpful (trajectory step s schedule (n + d)) =
          helpful (trajectory step s schedule n)) := by
  have hinv := trajectory_invariant h.keeps hs hallowed
  induction d with
  | zero => exact Or.inr ⟨rfl, rfl⟩
  | succ d ih =>
      have hle := h.le _ _ (hinv (n + d)) (hallowed (n + d))
      have hnext : trajectory step s schedule (n + (d + 1)) =
          step (trajectory step s schedule (n + d)) (schedule (n + d)) := rfl
      rw [hnext]
      -- A measure that has fallen stays below; one that has not may fall now.
      rcases ih with hlt | ⟨heq, hsame⟩
      · exact Or.inl (hle.trans_lt hlt)
      · rcases hle.lt_or_eq with hlt | heq'
        · exact Or.inl (hlt.trans_eq heq)
        · exact Or.inr ⟨heq'.trans heq,
            (h.stays _ _ (hinv (n + d)) (hallowed (n + d)) heq').trans hsame⟩

theorem falls (h : Descends step Inv Allowed Goal measure helpful) (hs : Inv s)
    (hallowed : ∀ n, Allowed (schedule n))
    (hfair : ∀ s, Inv s → ¬ Goal s → FairTo schedule (helpful s)) (n : Nat)
    (hgoal : ¬ Goal (trajectory step s schedule n)) :
    ∃ m, Goal (trajectory step s schedule m) ∨
      measure (trajectory step s schedule m) < measure (trajectory step s schedule n) := by
  have hinv := trajectory_invariant h.keeps hs hallowed
  rcases hfair _ (hinv n) hgoal n with ⟨m, hnm, hm⟩
  rcases Nat.exists_eq_add_of_le hnm with ⟨d, rfl⟩
  by_cases hreached : Goal (trajectory step s schedule (n + d))
  · exact ⟨n + d, Or.inl hreached⟩
  rcases h.waits hs hallowed n d with hlt | ⟨heq, hsame⟩
  · exact ⟨n + d, Or.inr hlt⟩
  · -- The helpful action is taken where it is still helpful.
    have hhelps := h.helps _ (hinv (n + d)) hreached
    rw [hsame, ← hm, heq] at hhelps
    exact ⟨n + d + 1, Or.inr hhelps⟩

/-- Every run that is fair to the helpful actions reaches the goal. -/
theorem reaches (h : Descends step Inv Allowed Goal measure helpful) (hs : Inv s)
    (hallowed : ∀ n, Allowed (schedule n))
    (hfair : ∀ s, Inv s → ¬ Goal s → FairTo schedule (helpful s)) :
    ∃ n, Goal (trajectory step s schedule n) := by
  -- By induction on the measure: it falls again until the goal is reached.
  have hfrom : ∀ v n, measure (trajectory step s schedule n) = v →
      ∃ m, Goal (trajectory step s schedule m) := by
    intro v
    induction v using Nat.strongRecOn with
    | _ v ih =>
        intro n hv
        by_cases hgoal : Goal (trajectory step s schedule n)
        · exact ⟨n, hgoal⟩
        rcases h.falls hs hallowed hfair n hgoal with ⟨m, hm | hlt⟩
        · exact ⟨m, hm⟩
        · exact ih _ (hv ▸ hlt) m rfl
  exact hfrom _ 0 rfl

end Descends

end Fairness

end Lib
end LatencyAnalyzer
