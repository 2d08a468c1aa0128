import LatencyAnalyzer.Spectre.Retry

/-!
# Accounting — the scores of a result against its attempts

An attempt probes every candidate once, so no candidate collects more hits than there are attempts.
The bounds on the members of a result follow, for the attempt count of the measurement that the
result was taken from.
-/

namespace LatencyAnalyzer
namespace Spectre

open Cxx

section Accounting

variable {abi : Abi}

/-- The members of a result are in the range that its own attempts allow. -/
structure Accounted (result : SpectreResult) : Prop where
  secondScore_nonneg : 0 ≤ result.secondScore
  secondScore_le : result.secondScore ≤ result.score
  score_le : result.score ≤ result.attempts
  confidence_nonneg : 0 ≤ result.confidence
  confidence_le : result.confidence ≤ 1

/-- `result` comes from a measurement that starts in `m` and makes `result.attempts` attempts. -/
def MeasuredFrom (m : Machine abi) (maliciousX : SizeT abi) (threshold : UInt64)
    (result : SpectreResult) : Prop :=
  (readByteWithThreshold m maliciousX result.attempts threshold).1 = result

/-- The loop makes its attempts one after the other, each of them a round of `train_and_attack` and
one of `score_reload`, and a score counts the attempts that hit the candidate in its own probe. -/
structure AttemptByAttempt (start : Machine abi) (maliciousX : SizeT abi) (threshold : UInt64) :
    Prop where
  none : attemptLoop start maliciousX 0 threshold = (CandidateScores.zero, start)
  next : ∀ attempts : Nat,
    attemptLoop start maliciousX (attempts + 1 : Nat) threshold =
      scoreReload
        ((attemptLoop start maliciousX attempts threshold).1,
          trainAndAttack (attemptLoop start maliciousX attempts threshold).2 maliciousX attempts)
        threshold
  collected : ∀ attempts : Nat,
    Collected start threshold attempts (attemptLoop start maliciousX attempts threshold)

/-- The scores in a result are two of those that its measurement has accumulated. -/
def ScoredBy (m : Machine abi) (maliciousX : SizeT abi) (tries : Int) (threshold : UInt64)
    (result : SpectreResult) : Prop :=
  ∃ best second,
    result.score = (attemptLoop m maliciousX tries threshold).1.score best ∧
    result.secondScore = (attemptLoop m maliciousX tries threshold).1.score second ∧
    result.attempts = tries

/-! ## Scores -/

theorem existsUnique_mixed (c : Fin kProbeValues) : ∃! i, i < kProbeValues ∧ mixed i = c := by
  refine ⟨slot c, ⟨slot_lt c, mixed_slot c⟩, ?_⟩
  rintro i ⟨hi, rfl⟩
  exact (slot_mixed hi).symm

theorem score_scoreReload (st : CandidateScores × Machine abi) (threshold : UInt64) {i : Nat}
    (hi : i < kProbeValues) :
    (scoreReload st threshold).1.score (mixed i) =
      st.1.score (mixed i) + if st.2.timing (st.2.clock + i) ≤ threshold then 1 else 0 := by
  rw [(probed_scoreReload st threshold).score, slot_mixed hi]
  simp only [hi, true_and]

theorem attainable_attemptLoop (m : Machine abi) (maliciousX : SizeT abi) (tries : Int)
    (threshold : UInt64) :
    Attainable (attemptLoop m maliciousX tries threshold).1 tries.toNat := by
  have hcollected := collected_attemptLoop m maliciousX tries threshold
  intro c
  have hle : hits m.timing threshold m.clock tries.toNat c ≤ tries.toNat := Nat.count_le _
  rw [hcollected.score c]
  exact ⟨Int.natCast_nonneg _, Int.ofNat_le.2 hle⟩

theorem attemptByAttempt_attemptLoop (start : Machine abi) (maliciousX : SizeT abi)
    (threshold : UInt64) : AttemptByAttempt start maliciousX threshold where
  none := by
    unfold attemptLoop
    rfl
  next := by
    intro attempts
    unfold attemptLoop
    rw [Int.toNat_natCast, Int.toNat_natCast, List.range_succ, List.foldl_append]
    rfl
  collected := fun attempts => collected_attemptLoop start maliciousX attempts threshold

/-! ## Results -/

theorem scoredBy_readByteWithThreshold (m : Machine abi) (maliciousX : SizeT abi) (tries : Int)
    (threshold : UInt64) :
    ScoredBy m maliciousX tries threshold
      (readByteWithThreshold m maliciousX tries threshold).1 :=
  ⟨_, _, rfl, rfl, rfl⟩

theorem accounted_analyzeScores {scores : CandidateScores} {attempts : Int}
    (hpos : 1 ≤ attempts) (hmax : attempts ≤ intMax)
    (hscores : Attainable scores attempts.toNat) (threshold : UInt64) :
    Accounted (analyzeScores scores threshold attempts) := by
  have hbest := hscores (analyzeLoop scores.score).1
  have hsecond := hscores (analyzeLoop scores.score).2
  have hle :
      scores.score (analyzeLoop scores.score).2 ≤ scores.score (analyzeLoop scores.score).1 :=
    (leastArgmax_analyzeLoop scores.score).1 _
  have hattempts : (attempts.toNat : Int) = attempts := Int.toNat_of_nonneg (by omega)
  rw [hattempts] at hbest hsecond
  -- The gap is a difference of two scores in the range of `int`, so it does not wrap around.
  have hgap : wrapInt (scores.score (analyzeLoop scores.score).1 -
      scores.score (analyzeLoop scores.score).2) =
        scores.score (analyzeLoop scores.score).1 - scores.score (analyzeLoop scores.score).2 :=
    wrapInt_of_inInt (inInt_of_nonneg_le (by omega) (by omega))
  have hconfidence : (analyzeScores scores threshold attempts).confidence =
      max 0 (((scores.score (analyzeLoop scores.score).1 -
        scores.score (analyzeLoop scores.score).2 : Int) : ℚ) / (attempts : ℚ)) := by
    unfold analyzeScores
    dsimp only
    rw [hgap, if_pos (by omega)]
  constructor
  case secondScore_nonneg => exact hsecond.1
  case secondScore_le => exact hle
  case score_le => exact hbest.2
  case confidence_nonneg =>
    rw [hconfidence]
    exact le_max_left _ _
  case confidence_le =>
    have hden : (0 : ℚ) < attempts := by exact_mod_cast hpos
    rw [hconfidence]
    refine max_le zero_le_one ((div_le_one hden).2 ?_)
    exact_mod_cast (by omega : scores.score (analyzeLoop scores.score).1 -
      scores.score (analyzeLoop scores.score).2 ≤ attempts)

theorem accounted_readByteWithThreshold (m : Machine abi) (maliciousX : SizeT abi) {tries : Int}
    (hpos : 1 ≤ tries) (hmax : tries ≤ intMax) (threshold : UInt64) :
    Accounted (readByteWithThreshold m maliciousX tries threshold).1 :=
  accounted_analyzeScores hpos hmax (attainable_attemptLoop m maliciousX tries threshold) threshold

/-- The attempt count of a retry is positive and does not wrap around. -/
theorem retryTries_mem {tries : Int} (hpos : 1 ≤ tries) (hthird : tries ≤ intMax / 3) :
    1 ≤ retryTries tries ∧ retryTries tries ≤ intMax := by
  rw [intMax_eq] at hthird ⊢
  have htriple : wrapInt (tries * 3) = tries * 3 := by
    refine wrapInt_of_inInt (inInt_of_nonneg_le (by omega) ?_)
    rw [intMax_eq]
    omega
  unfold retryTries
  rw [htriple]
  omega

theorem retryIfUncertain_eq_or (m : Machine abi) (maliciousX : SizeT abi) (tries : Int)
    (threshold : UInt64) :
    (retryIfUncertain m maliciousX tries threshold).1 =
        (readByteWithThreshold m maliciousX tries threshold).1 ∨
      (retryIfUncertain m maliciousX tries threshold).1 =
        (readByteWithThreshold (readByteWithThreshold m maliciousX tries threshold).2 maliciousX
          (retryTries tries) threshold).1 := by
  unfold retryIfUncertain
  dsimp only
  split
  · exact Or.inl rfl
  · split
    · exact Or.inr rfl
    · exact Or.inl rfl

/-- A measurement is made attempt by attempt, each of which probes every candidate once; its scores
are bounded by the attempts, and so are the members of every result by the attempts that it was
measured with. -/
theorem scores_accounted (m : Machine abi) (maliciousX : SizeT abi) {tries : Int}
    (hpos : 1 ≤ tries) (hthird : tries ≤ intMax / 3) (threshold : UInt64) :
    (∀ c, ∃! i, i < kProbeValues ∧ mixed i = c) ∧
    (∀ (st : CandidateScores × Machine abi), ∀ i < kProbeValues,
      (scoreReload st threshold).1.score (mixed i) =
        st.1.score (mixed i) + if st.2.timing (st.2.clock + i) ≤ threshold then 1 else 0) ∧
    (∀ (start : Machine abi) (attempts : Nat) (c : Fin kProbeValues),
      0 ≤ (attemptLoop start maliciousX attempts threshold).1.score c ∧
        (attemptLoop start maliciousX attempts threshold).1.score c ≤ attempts) ∧
    (∀ start : Machine abi, AttemptByAttempt start maliciousX threshold) ∧
    (∀ (start : Machine abi) (attempts : Int), ScoredBy start maliciousX attempts threshold
      (readByteWithThreshold start maliciousX attempts threshold).1) ∧
    (Accounted (readByteWithThreshold m maliciousX tries threshold).1 ∧
      MeasuredFrom m maliciousX threshold
        (readByteWithThreshold m maliciousX tries threshold).1) ∧
    Accounted (retryIfUncertain m maliciousX tries threshold).1 ∧
      (MeasuredFrom m maliciousX threshold (retryIfUncertain m maliciousX tries threshold).1 ∨
        MeasuredFrom (readByteWithThreshold m maliciousX tries threshold).2 maliciousX threshold
          (retryIfUncertain m maliciousX tries threshold).1) := by
  have hmax : tries ≤ intMax := by
    rw [intMax_eq] at hthird ⊢
    omega
  have hfirst := accounted_readByteWithThreshold m maliciousX hpos hmax threshold
  refine ⟨existsUnique_mixed, fun st i hi => score_scoreReload st threshold hi, ?_,
    fun start => attemptByAttempt_attemptLoop start maliciousX threshold,
    fun start attempts => scoredBy_readByteWithThreshold start maliciousX attempts threshold,
    ⟨hfirst, rfl⟩, ?_⟩
  · intro start attempts c
    exact attainable_attemptLoop start maliciousX attempts threshold c
  · -- The result is that of one of the two measurements, with its own attempt count.
    rcases retryIfUncertain_eq_or m maliciousX tries threshold with heq | heq
    · rw [heq]
      exact ⟨hfirst, Or.inl rfl⟩
    · have hretry := retryTries_mem hpos hthird
      rw [heq]
      exact ⟨accounted_readByteWithThreshold _ maliciousX hretry.1 hretry.2 threshold, Or.inr rfl⟩

/-- The default number of attempts on a processor whose accesses all take 80 cycles. -/
theorem scores_accounted_default :
    Accounted (retryIfUncertain (Machine.init .x8664 fun _ => 80) 16 999 100).1 :=
  (scores_accounted (Machine.init .x8664 fun _ => 80) 16 (by decide) (by decide) 100).2.2.2.2.2.2.1

end Accounting

end Spectre
end LatencyAnalyzer
