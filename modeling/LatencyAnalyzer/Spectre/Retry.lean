import LatencyAnalyzer.Spectre.Probes
import LatencyAnalyzer.Spectre.Scores

/-!
# Retry — when the second measurement of a byte is kept

`retry_if_uncertain` measures again after a failure and keeps the measurement with the higher score.
Success is a matter of the distance to the runner-up, so the two criteria can disagree: a clear
second measurement is dropped for a noisy first one.  Any scores can come up in the two
measurements, by the right outcomes of the timed accesses.
-/

namespace LatencyAnalyzer
namespace Spectre

open Cxx

section Retry

variable {abi : Abi}

/-! ## The two measurements -/

/-- The scores of the first measurement. -/
def firstScores (m : Machine abi) (maliciousX : SizeT abi) (tries : Int) (threshold : UInt64) :
    CandidateScores :=
  (attemptLoop m maliciousX tries threshold).1

/-- The scores of the measurement that follows it, with the attempt count of a retry. -/
def retryScores (m : Machine abi) (maliciousX : SizeT abi) (tries : Int) (threshold : UInt64) :
    CandidateScores :=
  (attemptLoop (attemptLoop m maliciousX tries threshold).2 maliciousX (retryTries tries)
    threshold).1

/-- A result is a success whenever one of the two measurements is, and it is that measurement. -/
def KeepsSuccess (first second result : SpectreResult) : Prop :=
  first.success = true ∨ second.success = true →
    result.success = true ∧ (result = first ∨ result = second)

/-- The scores are those of a success. -/
def Decisive (scores : CandidateScores) (threshold : UInt64) (attempts : Int) : Prop :=
  (analyzeScores scores threshold attempts).success = true

/-- Some candidate of `high` scores above all candidates of `low`. -/
def Tops (high low : CandidateScores) : Prop :=
  ∃ c, ∀ d, low.score d < high.score c

/-! ## The choice -/

theorem tops_iff (high low : CandidateScores) (threshold : UInt64) (attempts attempts' : Int) :
    Tops high low ↔
      (analyzeScores low threshold attempts).score <
        (analyzeScores high threshold attempts').score := by
  have hlow := (leastArgmax_analyzeLoop low.score).1
  have hhigh := (leastArgmax_analyzeLoop high.score).1
  constructor
  · rintro ⟨c, hc⟩
    exact (hc _).trans_le (hhigh c)
  · intro hlt
    exact ⟨_, fun d => (hlow d).trans_lt hlt⟩

/-- The result in terms of the two score arrays. -/
theorem retryIfUncertain_result (m : Machine abi) (maliciousX : SizeT abi) (tries : Int)
    (threshold : UInt64) :
    let first := analyzeScores (firstScores m maliciousX tries threshold) threshold tries
    let second := analyzeScores (retryScores m maliciousX tries threshold) threshold
      (retryTries tries)
    (retryIfUncertain m maliciousX tries threshold).1 =
      if first.success then first
      else if first.score < second.score then second
      else first := by
  unfold retryIfUncertain readByteWithThreshold firstScores retryScores
  dsimp only
  split
  · rfl
  · rfl

theorem keepsSuccess_iff (m : Machine abi) (maliciousX : SizeT abi) (tries : Int)
    (threshold : UInt64) :
    KeepsSuccess
        (analyzeScores (firstScores m maliciousX tries threshold) threshold tries)
        (analyzeScores (retryScores m maliciousX tries threshold) threshold (retryTries tries))
        (retryIfUncertain m maliciousX tries threshold).1 ↔
      Decisive (firstScores m maliciousX tries threshold) threshold tries ∨
        ¬ Decisive (retryScores m maliciousX tries threshold) threshold (retryTries tries) ∨
        Tops (retryScores m maliciousX tries threshold)
          (firstScores m maliciousX tries threshold) := by
  rw [retryIfUncertain_result,
    tops_iff (retryScores m maliciousX tries threshold) (firstScores m maliciousX tries threshold)
      threshold tries (retryTries tries)]
  unfold KeepsSuccess Decisive
  generalize analyzeScores (firstScores m maliciousX tries threshold) threshold tries = first
  generalize analyzeScores (retryScores m maliciousX tries threshold) threshold
    (retryTries tries) = second
  by_cases hfirst : first.success = true
  · rw [if_pos hfirst]
    simp [hfirst]
  · rw [if_neg hfirst]
    by_cases hscore : first.score < second.score
    · rw [if_pos hscore]
      simp [hfirst, hscore]
    · rw [if_neg hscore]
      simp [hfirst, hscore]

/-! ## Outcomes for given scores -/

/-- The scores that `n` attempts can accumulate. -/
def Attainable (scores : CandidateScores) (n : Nat) : Prop :=
  ∀ c, 0 ≤ scores.score c ∧ scores.score c ≤ n

/-- Outcomes from the time stamp `start` on.  Candidate `c` is hit in the first `first.score c` of
`n` attempts, and in the first `second.score c` of the attempts after these. -/
def script (start n : Nat) (threshold : UInt64) (first second : CandidateScores) (time : Nat) :
    UInt64 :=
  let attempt := (time - start) / kProbeValues
  let c := mixed ((time - start) % kProbeValues)
  let hit :=
    if attempt < n then (attempt : Int) < first.score c
    else ((attempt - n : Nat) : Int) < second.score c
  if hit then 0 else threshold + 1

theorem outcome_le_iff {threshold : UInt64} (hthreshold : threshold < threshold + 1) {hit : Prop}
    [Decidable hit] : (if hit then 0 else threshold + 1) ≤ threshold ↔ hit := by
  by_cases hhit : hit
  · rw [if_pos hhit]
    exact iff_of_true (UInt64.le_iff_toNat_le.2 (Nat.zero_le _)) hhit
  · rw [if_neg hhit]
    exact iff_of_false (UInt64.not_le.2 hthreshold) hhit

theorem script_at (start n : Nat) {threshold : UInt64} (hthreshold : threshold < threshold + 1)
    (first second : CandidateScores) (attempt : Nat) (c : Fin kProbeValues) :
    script start n threshold first second (start + kProbeValues * attempt + slot c) ≤ threshold ↔
      if attempt < n then (attempt : Int) < first.score c
      else ((attempt - n : Nat) : Int) < second.score c := by
  have hslot := slot_lt c
  have hdiv : (kProbeValues * attempt + slot c) / kProbeValues = attempt := by
    rw [Nat.mul_add_div (by decide), Nat.div_eq_of_lt hslot, add_zero]
  have hmod : (kProbeValues * attempt + slot c) % kProbeValues = slot c := by
    rw [Nat.mul_add_mod, Nat.mod_eq_of_lt hslot]
  unfold script
  rw [Nat.add_assoc, Nat.add_sub_cancel_left, hdiv, hmod, mixed_slot]
  exact outcome_le_iff hthreshold

theorem count_below (n : Nat) {s : Int} (hnonneg : 0 ≤ s) (hle : s ≤ n) :
    ((Nat.count (fun attempt => (attempt : Int) < s) n : Nat) : Int) = s := by
  have hcount : ∀ k : Nat, Nat.count (fun attempt => (attempt : Int) < s) k = min k s.toNat := by
    intro k
    induction k with
    | zero => simp
    | succ k ih =>
        rw [Nat.count_succ, ih]
        split <;> omega
  rw [hcount n]
  omega

theorem collected_eq {m : Machine abi} {threshold : UInt64} {n : Nat}
    {st : CandidateScores × Machine abi} (h : Collected m threshold n st)
    {scores : CandidateScores} (hscores : Attainable scores n)
    (hhit : ∀ attempt < n, ∀ c,
      m.timing (m.clock + kProbeValues * attempt + slot c) ≤ threshold ↔
        (attempt : Int) < scores.score c) : st.1 = scores := by
  have hscore : st.1.score = scores.score := by
    funext c
    have hcount : hits m.timing threshold m.clock n c =
        Nat.count (fun attempt => (attempt : Int) < scores.score c) n := by
      unfold hits
      rw [Nat.count_eq_card_filter_range, Nat.count_eq_card_filter_range]
      congr 1
      apply Finset.filter_congr
      intro attempt hmem
      exact hhit attempt (Finset.mem_range.1 hmem) c
    rw [h.score c, hcount, count_below n (hscores c).1 (hscores c).2]
  cases hst : st.1 with
  | mk score =>
      cases scores with
      | mk score' =>
          rw [hst] at hscore
          exact congrArg CandidateScores.mk hscore

/-- Any pair of attainable score arrays comes up. -/
theorem script_scores (m : Machine abi) (maliciousX : SizeT abi) {tries : Int}
    {threshold : UInt64} (hthreshold : threshold < threshold + 1)
    {first second : CandidateScores} (hfirst : Attainable first tries.toNat)
    (hsecond : Attainable second (retryTries tries).toNat) :
    let m' := { m with timing := script m.clock tries.toNat threshold first second }
    firstScores m' maliciousX tries threshold = first ∧
      retryScores m' maliciousX tries threshold = second := by
  intro m'
  have hcollected := collected_attemptLoop m' maliciousX tries threshold
  constructor
  · apply collected_eq hcollected hfirst
    intro attempt hlt c
    refine (script_at m.clock tries.toNat hthreshold first second attempt c).trans ?_
    rw [if_pos hlt]
  · refine collected_eq (collected_attemptLoop _ maliciousX (retryTries tries) threshold)
      hsecond ?_
    intro attempt _ c
    -- The second measurement starts where the first one has stopped.
    have htime : m'.clock + kProbeValues * tries.toNat + kProbeValues * attempt + slot c =
        m.clock + kProbeValues * (tries.toNat + attempt) + slot c := by
      rw [Nat.mul_add, Nat.add_assoc m.clock]
    rw [hcollected.timing, hcollected.clock, htime]
    refine (script_at m.clock tries.toNat hthreshold first second _ c).trans ?_
    rw [if_neg (by omega), Nat.add_sub_cancel_left]

/-! ## Exactly when a success is kept -/

/-- A retry keeps a success if and only if the first measurement is one, or the second is none, or
the second has the higher score.  The scores in question are arbitrary. -/
theorem retry_keeps_success_iff (maliciousX : SizeT abi) (tries : Int) (threshold : UInt64) :
    (∀ m : Machine abi,
      KeepsSuccess
          (analyzeScores (firstScores m maliciousX tries threshold) threshold tries)
          (analyzeScores (retryScores m maliciousX tries threshold) threshold (retryTries tries))
          (retryIfUncertain m maliciousX tries threshold).1 ↔
        Decisive (firstScores m maliciousX tries threshold) threshold tries ∨
          ¬ Decisive (retryScores m maliciousX tries threshold) threshold (retryTries tries) ∨
          Tops (retryScores m maliciousX tries threshold)
            (firstScores m maliciousX tries threshold)) ∧
    (threshold < threshold + 1 →
      ∀ first second : CandidateScores, Attainable first tries.toNat →
        Attainable second (retryTries tries).toNat →
        ∀ m : Machine abi, ∃ timing,
          firstScores { m with timing := timing } maliciousX tries threshold = first ∧
            retryScores { m with timing := timing } maliciousX tries threshold = second) := by
  constructor
  · intro m
    exact keepsSuccess_iff m maliciousX tries threshold
  · intro hthreshold first second hfirst hsecond m
    exact ⟨_, script_scores m maliciousX hthreshold hfirst hsecond⟩

/-- Two candidates stay hot in the first measurement. -/
def noisyScores : CandidateScores :=
  { score := fun i => if i = 84 then 600 else if i = 83 then 400 else 0 }

/-- One of them does in the second, half of the time. -/
def clearScores : CandidateScores :=
  { score := fun i => if i = 84 then 500 else 0 }

theorem attainable_noisyScores : Attainable noisyScores (999 : Int).toNat := by
  intro c
  simp only [noisyScores]
  split <;> [decide; (split <;> decide)]

theorem attainable_clearScores : Attainable clearScores (retryTries 999).toNat := by
  intro c
  simp only [clearScores]
  split <;> decide

/-- There is a machine on which the two measurements come out like this. -/
theorem retry_keeps_success_scores :
    ∃ timing,
      let m := Machine.init .x8664 timing
      firstScores m 16 999 100 = noisyScores ∧ retryScores m 16 999 100 = clearScores :=
  (retry_keeps_success_iff 16 999 100).2 (by decide) noisyScores clearScores
    attainable_noisyScores attainable_clearScores (Machine.init .x8664 fun _ => 0)

/-- The second measurement is a success, and its score of 500 in 2997 attempts is dropped for the
600 in 999 attempts of a failure. -/
theorem retry_discards_success :
    let m := Machine.init .x8664 (script 0 999 100 noisyScores clearScores)
    ¬ KeepsSuccess (analyzeScores (firstScores m 16 999 100) 100 999)
      (analyzeScores (retryScores m 16 999 100) 100 (retryTries 999))
      (retryIfUncertain m 16 999 100).1 := by
  intro m hkeeps
  have hthreshold : (100 : UInt64) < 100 + 1 := by decide
  have hscores : firstScores m 16 999 100 = noisyScores ∧ retryScores m 16 999 100 = clearScores :=
    script_scores (Machine.init .x8664 fun _ => 0) 16 hthreshold attainable_noisyScores
      attainable_clearScores
  have hsecond : (analyzeScores clearScores 100 (retryTries 999)).success = true := by
    decide +kernel
  unfold KeepsSuccess at hkeeps
  rw [retryIfUncertain_result, hscores.1, hscores.2] at hkeeps
  have hlost := (hkeeps (Or.inr hsecond)).1
  revert hlost
  decide +kernel

end Retry

end Spectre
end LatencyAnalyzer
