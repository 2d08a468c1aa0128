import Mathlib.Data.Nat.Count
import LatencyAnalyzer.Spectre.Confinement

/-!
# Probes — what the scores of one measurement count

`score_reload` visits the candidates in the order of `mixed`, each once, and takes one time stamp
pair a candidate.  So the score of a candidate is the number of attempts in which its own time
stamps were close, and a measurement reads 256 outcomes an attempt, none of them twice.
-/

namespace LatencyAnalyzer
namespace Spectre

open Cxx

section Probes

variable {abi : Abi}

/-! ## The probing order -/

/-- The position of candidate `c` in the probing order; 23 is the inverse of 167. -/
def slot (c : Fin kProbeValues) : Nat :=
  (c.val + 243) * 23 % kProbeValues

theorem slot_lt (c : Fin kProbeValues) : slot c < kProbeValues :=
  Nat.mod_lt _ (by decide)

theorem mixed_slot (c : Fin kProbeValues) : mixed (slot c) = c := by
  have hc : c.val < 256 := c.isLt
  apply Fin.ext
  simp only [mixed, slot, kProbeValues]
  omega

theorem slot_mixed {i : Nat} (hi : i < kProbeValues) : slot (mixed i) = i := by
  simp only [mixed, slot, kProbeValues] at hi ⊢
  omega

theorem mixed_eq_iff {i : Nat} (hi : i < kProbeValues) (c : Fin kProbeValues) :
    mixed i = c ↔ slot c = i := by
  constructor
  · rintro rfl
    exact slot_mixed hi
  · rintro rfl
    exact mixed_slot c

/-! ## One attempt -/

/-- The state after the first `n` probes of an attempt that began in `st`. -/
structure Probed (threshold : UInt64) (st : CandidateScores × Machine abi) (n : Nat)
    (st' : CandidateScores × Machine abi) : Prop where
  timing : st'.2.timing = st.2.timing
  clock : st'.2.clock = st.2.clock + n
  score : ∀ c, st'.1.score c = st.1.score c +
    if slot c < n ∧ st.2.timing (st.2.clock + slot c) ≤ threshold then 1 else 0

theorem Probed.step {threshold : UInt64} {st st' : CandidateScores × Machine abi} {n : Nat}
    (h : Probed threshold st n st') (hn : n < kProbeValues) :
    Probed threshold st (n + 1) (probe threshold st' n) where
  timing := h.timing
  clock := by
    show st'.2.clock + 1 = _
    rw [h.clock, Nat.add_assoc]
  score := by
    intro c
    have helapsed : st'.2.timing st'.2.clock = st.2.timing (st.2.clock + n) := by
      rw [h.timing, h.clock]
    have hprobe : (probe threshold st' n).1 =
        if st.2.timing (st.2.clock + n) ≤ threshold then st'.1.bump (mixed n) else st'.1 := by
      rw [← helapsed]
      rfl
    rw [hprobe]
    by_cases hslot : slot c = n
    · -- This probe is the one of candidate `c`.
      have hmixed : mixed n = c := (mixed_eq_iff hn c).2 hslot
      have hbefore := h.score c
      rw [if_neg (by omega), add_zero] at hbefore
      rw [hmixed, hslot]
      by_cases hhit : st.2.timing (st.2.clock + n) ≤ threshold
      · rw [if_pos hhit, if_pos ⟨Nat.lt_succ_self n, hhit⟩, ← hbefore]
        exact Function.update_self c _ _
      · rw [if_neg hhit, if_neg (fun hboth => hhit hboth.2), hbefore, add_zero]
    · have hmixed : c ≠ mixed n := fun heq => hslot ((mixed_eq_iff hn c).1 heq.symm)
      have hkept : (if st.2.timing (st.2.clock + n) ≤ threshold then st'.1.bump (mixed n)
          else st'.1).score c = st'.1.score c := by
        split
        · exact Function.update_of_ne hmixed _ _
        · rfl
      have hlt : slot c < n + 1 ↔ slot c < n := by omega
      rw [hkept, h.score c]
      simp only [hlt]

/-- An attempt probes every candidate once. -/
theorem probed_scoreReload (st : CandidateScores × Machine abi) (threshold : UInt64) :
    Probed threshold st kProbeValues (scoreReload st threshold) := by
  have hprefix : ∀ n ≤ kProbeValues,
      Probed threshold st n ((List.range n).foldl (probe threshold) st) := by
    intro n hn
    induction n with
    | zero => exact ⟨rfl, rfl, fun c => by simp⟩
    | succ n ih =>
        rw [List.range_succ, List.foldl_append]
        exact (ih (by omega)).step hn
  unfold scoreReload
  exact hprefix kProbeValues le_rfl

theorem sameTiming_trainAndAttack (m : Machine abi) (maliciousX : SizeT abi) (attempt : Nat) :
    SameTiming (trainAndAttack m maliciousX attempt) m := by
  unfold trainAndAttack
  dsimp only
  refine List.foldlRecOn (motive := fun m' => SameTiming m' m) _ _ ⟨rfl, rfl⟩ ?_
  intro m' hm' j _
  have hkeep := sameTiming_victimFunction m' (if j % kTrainingEvery = kTrainingEvery - 1
    then maliciousX else BitVec.ofNat _ (attempt % kArchitecturalArraySize))
  exact ⟨hkeep.timing.trans hm'.timing, hkeep.clock.trans hm'.clock⟩

/-! ## A measurement -/

/-- The number of the first `n` attempts from the outcome `start` on that hit candidate `c`. -/
def hits (timing : Nat → UInt64) (threshold : UInt64) (start n : Nat) (c : Fin kProbeValues) :
    Nat :=
  Nat.count (fun attempt => timing (start + kProbeValues * attempt + slot c) ≤ threshold) n

/-- The state after `n` attempts of a measurement that began in `m`. -/
structure Collected (m : Machine abi) (threshold : UInt64) (n : Nat)
    (st : CandidateScores × Machine abi) : Prop where
  timing : st.2.timing = m.timing
  clock : st.2.clock = m.clock + kProbeValues * n
  score : ∀ c, st.1.score c = (hits m.timing threshold m.clock n c : Nat)

theorem Collected.step {m : Machine abi} {threshold : UInt64} {n : Nat}
    {st : CandidateScores × Machine abi} (h : Collected m threshold n st) (maliciousX : SizeT abi) :
    Collected m threshold (n + 1)
      (scoreReload (st.1, trainAndAttack st.2 maliciousX n) threshold) := by
  have hattack := sameTiming_trainAndAttack st.2 maliciousX n
  have hprobed := probed_scoreReload (st.1, trainAndAttack st.2 maliciousX n) threshold
  refine ⟨hprobed.timing.trans (hattack.timing.trans h.timing), ?_, ?_⟩
  · rw [hprobed.clock, hattack.clock, h.clock, Nat.mul_succ, Nat.add_assoc]
  · intro c
    rw [hprobed.score c, hattack.timing, hattack.clock, h.timing, h.clock, h.score c]
    unfold hits
    rw [Nat.count_succ]
    simp only [slot_lt, true_and]
    push_cast
    rfl

theorem collected_attemptLoop (m : Machine abi) (maliciousX : SizeT abi) (tries : Int)
    (threshold : UInt64) :
    Collected m threshold tries.toNat (attemptLoop m maliciousX tries threshold) := by
  unfold attemptLoop
  generalize tries.toNat = n
  induction n with
  | zero => exact ⟨rfl, rfl, fun c => rfl⟩
  | succ n ih =>
      rw [List.range_succ, List.foldl_append]
      exact ih.step maliciousX

end Probes

end Spectre
end LatencyAnalyzer
