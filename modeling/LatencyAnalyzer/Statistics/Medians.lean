import Mathlib.Data.Rat.Sqrt
import LatencyAnalyzer.Bandwidth.Measurer
import LatencyAnalyzer.Statistics.Bounds
import LatencyAnalyzer.Timer

/-!
# Medians — the three routines that pick the middle of a list

Summaries interpolate between the two middle values of a list of even length.  The bandwidth rates
and the TSC rate take the upper one of the two, so they agree with a summary on lists of odd length
and on those whose middle values are equal.
-/

namespace LatencyAnalyzer
namespace Statistics

/-- There is one middle value, or the two of them are equal. -/
def OneMiddle (values : List ℚ) : Prop :=
  values.length % 2 = 1 ∨
    Lib.ranked 0 values (values.length / 2 - 1) = Lib.ranked 0 values (values.length / 2)

theorem bandwidthMedian_eq {values : List ℚ} (hvalues : values ≠ []) :
    Bandwidth.median values = Lib.ranked 0 values (values.length / 2) := by
  cases values with
  | nil => exact absurd rfl hvalues
  | cons => rfl

/-- The three medians of a list are equal if and only if the list has one middle value, and so is
the rate of a calibration whose kept estimates are the list. -/
theorem medians_agree_iff (sqrt : ℚ → ℚ) {values : List ℚ} (hvalues : values ≠ []) :
    ((Bandwidth.median values = (summarize sqrt values).median ∧
        Timer.middleEstimate values = (summarize sqrt values).median) ↔ OneMiddle values) ∧
    ∀ (w : Timer.World) (rounds intervalMs : Int) (rate : ℚ),
      Timer.calibrateTscHz w rounds intervalMs = .ok rate → w.kept rounds.toNat = values →
        rate = Bandwidth.median values ∧
          (rate = (summarize sqrt values).median ↔ OneMiddle values) := by
  have hupper : Bandwidth.median values = (summarize sqrt values).median ↔ OneMiddle values := by
    rw [bandwidthMedian_eq hvalues, median_summarize]
    exact Lib.upper_eq_median_iff values
  have hmiddle : Timer.middleEstimate values = Bandwidth.median values :=
    (bandwidthMedian_eq hvalues).symm
  constructor
  · rw [hmiddle, and_self]
    exact hupper
  · rintro w rounds intervalMs rate hrate rfl
    rw [(Timer.calibrateTscHz_inversion hrate).2, hmiddle]
    exact ⟨rfl, hupper⟩

/-- Rounds on CPU 0, but the process moves from CPU 0 to CPU 1 during the second one. -/
def movedWorld : Timer.World :=
  { reserve := fun _ => true
    round := fun i =>
      { nsStart := some 0
        tscStart := 0
        auxStart := 0
        tscEnd := if i = 0 then 1000000000 else 3000000000
        auxEnd := if i = 1 then 1 else 0
        nsEnd := some 1000000000 } }

/-- Three of the four rounds are kept. -/
theorem medians_agree_after_move :
    Timer.calibrateTscHz movedWorld 4 50 = .ok 3000000000 ∧
      3000000000 = Bandwidth.median (movedWorld.kept 4) ∧
      3000000000 = (summarize Rat.sqrt (movedWorld.kept 4)).median := by
  have hrate : Timer.calibrateTscHz movedWorld 4 50 = .ok 3000000000 := by decide +kernel
  have hkept : movedWorld.kept 4 = [1000000000, 3000000000, 3000000000] := by decide +kernel
  have hvalues : movedWorld.kept 4 ≠ [] := by
    rw [hkept]
    exact List.cons_ne_nil _ _
  have hagree := (medians_agree_iff Rat.sqrt hvalues).2 movedWorld 4 50 3000000000 hrate rfl
  refine ⟨hrate, hagree.1, hagree.2.2 (Or.inl ?_)⟩
  rw [hkept]
  rfl

/-- Two of the three rounds are kept, and 3 GHz is taken for the median of 1 GHz and 3 GHz. -/
theorem medians_differ_after_move :
    movedWorld.kept 3 = [1000000000, 3000000000] ∧
      Timer.calibrateTscHz movedWorld 3 50 = .ok 3000000000 ∧
      Bandwidth.median (movedWorld.kept 3) = 3000000000 ∧
      (summarize Rat.sqrt (movedWorld.kept 3)).median = 2000000000 ∧
      Bandwidth.median (movedWorld.kept 3) ≠ (summarize Rat.sqrt (movedWorld.kept 3)).median := by
  decide +kernel

end Statistics
end LatencyAnalyzer
