import Mathlib.Data.List.FinRange
import LatencyAnalyzer.Lib.RunnerUp
import LatencyAnalyzer.Spectre.Fixture

/-!
# Scores — which candidate `analyze_scores` selects

`analyze_scores` is the scan of `RunnerUp` over the 256 candidates.  A candidate that beats
candidate 0 puts the second cursor on a true runner-up.  When candidate 0 is the strict maximum
both cursors stay on it, and its own score is reported as the runner-up's.
-/

namespace LatencyAnalyzer
namespace Spectre

open Cxx RunnerUp

/-! ## What a selection is -/

/-- `b` is the least index that attains the maximum score. -/
def LeastArgmax (score : Fin kProbeValues → Int) (b : Fin kProbeValues) : Prop :=
  (∀ j, score j ≤ score b) ∧ ∀ j, j < b → score j < score b

/-- `v` is the maximum score over the indices other than `b`. -/
def MaxWithout (score : Fin kProbeValues → Int) (b : Fin kProbeValues) (v : Int) : Prop :=
  (∃ j, j ≠ b ∧ score j = v) ∧ ∀ j, j ≠ b → score j ≤ v

/-- The result names the best candidate, its score and the runner-up's score, and it is a success
exactly when the best score is far enough above the runner-up and above the noise floor. -/
def Selects (score : Fin kProbeValues → Int) (attempts : Int) (result : SpectreResult) : Prop :=
  ∃ b v, LeastArgmax score b ∧ MaxWithout score b v ∧
    result.guessedValue = UInt8.ofNat b.val ∧
    result.score = score b ∧
    result.secondScore = v ∧
    (result.success = true ↔ 2 * v + 5 ≤ score b ∧ max 5 (attempts / 40) ≤ score b)

/-- The scores of `analyze_scores`' array are non-negative values of type `int`. -/
def Counts (scores : CandidateScores) : Prop :=
  ∀ i, 0 ≤ scores.score i ∧ scores.score i ≤ intMax

/-- Some other candidate scores at least as high as candidate 0. -/
def ZeroHasRival (score : Fin kProbeValues → Int) : Prop :=
  ∃ j, j ≠ 0 ∧ score 0 ≤ score j

/-- No two candidates have scores `s` for which `2 * s + 5` leaves the range of `int`. -/
def DoublingFits (score : Fin kProbeValues → Int) : Prop :=
  ∀ i j, i ≠ j → 2 * score i + 5 ≤ intMax ∨ 2 * score j + 5 ≤ intMax

/-! ## The cursors -/

/-- The candidates after the first, in the order of the loop. -/
abbrev laterCandidates : List (Fin kProbeValues) :=
  (List.finRange kProbeValues).tail

theorem finRange_succ_eq_cons (n : Nat) :
    List.finRange (n + 1) = 0 :: (List.finRange (n + 1)).tail := by
  rw [List.finRange_succ, List.tail_cons]

theorem finRange_eq_cons : List.finRange kProbeValues = 0 :: laterCandidates :=
  finRange_succ_eq_cons 255

theorem mem_laterCandidates {j : Fin kProbeValues} : j ∈ laterCandidates ↔ j ≠ 0 := by
  have hnodup : (0 :: laterCandidates).Nodup := by
    rw [← finRange_eq_cons]
    exact List.nodup_finRange _
  have hmem : j ∈ 0 :: laterCandidates := by
    rw [← finRange_eq_cons]
    exact List.mem_finRange j
  constructor
  · rintro hj rfl
    exact (List.nodup_cons.1 hnodup).1 hj
  · intro hj
    rcases List.mem_cons.1 hmem with h | h
    · exact (hj h).elim
    · exact h

theorem candidates_ascending : (0 :: laterCandidates).Pairwise (· < ·) := by
  rw [← finRange_eq_cons]
  exact List.pairwise_lt_finRange _

theorem mem_candidates (j : Fin kProbeValues) : j ∈ 0 :: laterCandidates := by
  rw [← finRange_eq_cons]
  exact List.mem_finRange j

theorem analyzeLoop_eq_scan (score : Fin kProbeValues → Int) :
    analyzeLoop score = scan score 0 laterCandidates := by
  rfl

theorem leastArgmax_analyzeLoop (score : Fin kProbeValues → Int) :
    LeastArgmax score (analyzeLoop score).1 := by
  have h := (meaning_scan score 0 laterCandidates candidates_ascending).best
  rw [analyzeLoop_eq_scan]
  exact ⟨fun j => h.max j (mem_candidates j), fun j => h.first j (mem_candidates j)⟩

theorem leastArgmax_unique {score : Fin kProbeValues → Int} {b c : Fin kProbeValues}
    (hb : LeastArgmax score b) (hc : LeastArgmax score c) : b = c := by
  rcases lt_trichotomy b c with h | h | h
  · exact (not_lt.2 (hb.1 c) (hc.2 b h)).elim
  · exact h
  · exact (not_lt.2 (hc.1 b) (hb.2 c h)).elim

/-- With a rival of candidate 0 the second cursor is on a runner-up, also when the two tie. -/
theorem maxWithout_analyzeLoop {score : Fin kProbeValues → Int} (h : ZeroHasRival score) :
    MaxWithout score (analyzeLoop score).1 (score (analyzeLoop score).2) := by
  rw [analyzeLoop_eq_scan]
  rcases h with ⟨r, hr, hle⟩
  by_cases hbeat : ∃ j ∈ laterCandidates, score 0 < score j
  · rcases hbeat with ⟨j, hj, hlt⟩
    have hrun := scan_runner candidates_ascending hj hlt
    exact ⟨⟨_, hrun.ne, rfl⟩, fun i hi => hrun.max i (mem_candidates i) hi⟩
  · -- Candidate 0 is a maximum and the rival ties with it.
    have hmax : ∀ j ∈ laterCandidates, score j ≤ score 0 := by
      intro j hj
      by_contra hgt
      exact hbeat ⟨j, hj, not_le.1 hgt⟩
    rw [scan_front candidates_ascending hmax]
    refine ⟨⟨r, hr, le_antisymm (hmax r (mem_laterCandidates.2 hr)) hle⟩, ?_⟩
    intro j hj
    exact hmax j (mem_laterCandidates.2 hj)

/-- Without one, candidate 0 is selected and its own score is taken for the runner-up's. -/
theorem analyzeLoop_of_no_rival {score : Fin kProbeValues → Int} (h : ¬ ZeroHasRival score) :
    analyzeLoop score = (0, 0) := by
  rw [analyzeLoop_eq_scan]
  apply scan_front candidates_ascending
  intro j hj
  by_contra hgt
  exact h ⟨j, mem_laterCandidates.1 hj, (not_le.1 hgt).le⟩

theorem not_maxWithout_of_no_rival {score : Fin kProbeValues → Int} (h : ¬ ZeroHasRival score) :
    ¬ MaxWithout score 0 (score 0) := by
  rintro ⟨⟨j, hj, heq⟩, _⟩
  exact h ⟨j, hj, heq.ge⟩

/-! ## The fields of the result -/

section Fields

variable (scores : CandidateScores) (threshold : UInt64) (attempts : Int)

theorem analyzeScores_secondScore :
    (analyzeScores scores threshold attempts).secondScore =
      scores.score (analyzeLoop scores.score).2 := rfl

theorem analyzeScores_success :
    (analyzeScores scores threshold attempts).success = true ↔
      wrapInt (wrapInt (2 * scores.score (analyzeLoop scores.score).2) + 5) ≤
          scores.score (analyzeLoop scores.score).1 ∧
        max 5 (attempts.tdiv 40) ≤ scores.score (analyzeLoop scores.score).1 := by
  unfold analyzeScores
  simp only [Bool.and_eq_true, decide_eq_true_eq]

end Fields

theorem max_five_tdiv (attempts : Int) : max 5 (attempts.tdiv 40) = max 5 (attempts / 40) := by
  by_cases h : 0 ≤ attempts
  · rw [Int.tdiv_eq_ediv_of_nonneg h]
  -- Rounding towards zero and downwards differ for negative numbers only, far below 5.
  · have h₁ : attempts.tdiv 40 ≤ 5 := by
      have hle := Int.tdiv_le_tdiv (by norm_num : (0 : Int) < 40) (not_le.1 h).le
      rw [Int.zero_tdiv] at hle
      omega
    have h₂ : attempts / 40 ≤ 5 := by omega
    rw [max_eq_left h₁, max_eq_left h₂]

/-- `2 * v + 5` in the arithmetic of `int`, for a non-negative score `v`. -/
theorem wrapInt_double_add_five {v : Int} (hlo : 0 ≤ v) (hhi : v ≤ intMax) :
    wrapInt (wrapInt (2 * v) + 5) =
      if 2 * v + 5 ≤ intMax then 2 * v + 5 else 2 * v + 5 - 2 ^ 32 := by
  have hmin := intMin_eq
  have hmax := intMax_eq
  have hadd : wrapInt (wrapInt (2 * v) + 5) = wrapInt (2 * v + 5) := Int.bmod_add_bmod
  rw [hadd]
  by_cases h : 2 * v + 5 ≤ intMax
  · rw [if_pos h]
    exact wrapInt_of_inInt ⟨by omega, h⟩
  · -- One step past the range comes out below 0, so the result is in the range again.
    rw [if_neg h]
    have hshift : wrapInt (2 * v + 5 - 2 ^ 32) = wrapInt (2 * v + 5) :=
      Int.sub_mul_bmod_self_left _ _ 1
    rw [← hshift]
    exact wrapInt_of_inInt ⟨by omega, by omega⟩

/-! ## Exactly when the selection is right -/

theorem success_of_doubling_overflow {best v attempts : Int} (hv : 0 ≤ v) (hle : v ≤ best)
    (hvmax : v ≤ intMax) (ha : InInt attempts) (hover : ¬ 2 * v + 5 ≤ intMax) :
    wrapInt (wrapInt (2 * v) + 5) ≤ best ∧ max 5 (attempts / 40) ≤ best := by
  rw [wrapInt_double_add_five hv hvmax, if_neg hover]
  rcases ha with ⟨_, hatop⟩
  rw [intMax_eq] at hvmax hover hatop
  constructor
  · norm_num
    omega
  · omega

/-- For a candidate with a rival, doubling the runner-up's score fits exactly when no two
candidates have scores too large to double. -/
theorem runner_fits_iff {score : Fin kProbeValues → Int} {b : Fin kProbeValues} {v : Int}
    (hb : LeastArgmax score b) (hv : MaxWithout score b v) :
    DoublingFits score ↔ 2 * v + 5 ≤ intMax := by
  rcases hv with ⟨⟨r, hr, rfl⟩, hmax⟩
  constructor
  · intro h
    -- The runner-up and the best one are two candidates, and the runner-up scores no more.
    rcases h r b hr with hle | hle
    · exact hle
    · have := hb.1 r
      omega
  · intro h i j hij
    by_cases hi : i = b
    · subst hi
      have := hmax j (Ne.symm hij)
      exact Or.inr (by omega)
    · have := hmax i hi
      exact Or.inl (by omega)

/-- `analyze_scores` selects the best candidate and its runner-up if and only if candidate 0 is
not the only maximum and doubling the runner-up's score stays in `int`. -/
theorem analyzeScores_selects_iff (scores : CandidateScores) (hscores : Counts scores)
    (threshold : UInt64) (attempts : Int) (hattempts : InInt attempts) :
    Selects scores.score attempts (analyzeScores scores threshold attempts) ↔
      ZeroHasRival scores.score ∧ DoublingFits scores.score := by
  have hbest := leastArgmax_analyzeLoop scores.score
  constructor
  · rintro ⟨b, v, hb, hv, -, -, hsecond, hsuccess⟩
    have hbc : b = (analyzeLoop scores.score).1 := leastArgmax_unique hb hbest
    -- A selection pins the cursors down; on candidate 0 alone they cannot be right.
    have hrival : ZeroHasRival scores.score := by
      by_contra hno
      rw [analyzeScores_secondScore, analyzeLoop_of_no_rival hno] at hsecond
      rw [analyzeLoop_of_no_rival hno] at hbc
      rw [hbc, ← hsecond] at hv
      exact not_maxWithout_of_no_rival hno hv
    refine ⟨hrival, (runner_fits_iff hb hv).2 ?_⟩
    -- Past the range the doubled score is negative, so the code reports a success.
    by_contra hover
    rw [analyzeScores_secondScore] at hsecond
    have hcounts := hscores (analyzeLoop scores.score).2
    rw [hsecond] at hcounts
    have hle : v ≤ scores.score b := by
      rw [← hsecond]
      exact hb.1 _
    have hov := success_of_doubling_overflow hcounts.1 hle hcounts.2 hattempts hover
    rw [analyzeScores_success, hsecond, ← hbc, max_five_tdiv] at hsuccess
    have hseparated := (hsuccess.1 hov).1
    have := (hscores b).2
    omega
  · rintro ⟨hrival, hfits⟩
    have hrun := maxWithout_analyzeLoop hrival
    have hfit := (runner_fits_iff hbest hrun).1 hfits
    have hcounts := hscores (analyzeLoop scores.score).2
    refine ⟨_, _, hbest, hrun, rfl, rfl, rfl, ?_⟩
    rw [analyzeScores_success, wrapInt_double_add_five hcounts.1 hcounts.2, if_pos hfit,
      max_five_tdiv]

/-- A line that stays hot in every attempt of a read, as for a byte 0 leaked without noise. -/
def onlyZeroHot : CandidateScores :=
  { score := fun i => if i = 0 then 999 else 0 }

theorem onlyZeroHot_counts : Counts onlyZeroHot := by
  intro i
  unfold onlyZeroHot intMax
  dsimp only
  split <;> norm_num

theorem onlyZeroHot_no_rival : ¬ ZeroHasRival onlyZeroHot.score := by
  rintro ⟨j, hj, hle⟩
  simp [onlyZeroHot, hj] at hle

/-- The clear winner 0 is reported with itself as runner-up, and so as a failure. -/
theorem analyzeScores_misses_zero :
    Counts onlyZeroHot ∧ ¬ Selects onlyZeroHot.score 999 (analyzeScores onlyZeroHot 100 999) := by
  refine ⟨onlyZeroHot_counts, ?_⟩
  rintro ⟨b, v, hb, hv, -, -, hsecond, -⟩
  have hbc := leastArgmax_unique hb (leastArgmax_analyzeLoop onlyZeroHot.score)
  rw [analyzeScores_secondScore, analyzeLoop_of_no_rival onlyZeroHot_no_rival] at hsecond
  rw [analyzeLoop_of_no_rival onlyZeroHot_no_rival] at hbc
  rw [hbc, ← hsecond] at hv
  exact not_maxWithout_of_no_rival onlyZeroHot_no_rival hv

/-- A leaked byte 65 with some noise at candidate 0. -/
def letterHot : CandidateScores :=
  { score := fun i => if i = 65 then 999 else if i = 0 then 12 else 0 }

theorem analyzeScores_selects_letter :
    Selects letterHot.score 999 (analyzeScores letterHot 100 999) := by
  refine (analyzeScores_selects_iff letterHot ?_ 100 999 (by decide)).2
    ⟨⟨65, by decide, by decide⟩, ?_⟩
  · intro i
    unfold letterHot intMax
    dsimp only
    split <;> [norm_num; (split <;> norm_num)]
  · intro i j _
    left
    unfold letterHot intMax
    dsimp only
    split <;> [norm_num; (split <;> norm_num)]

end Spectre
end LatencyAnalyzer
