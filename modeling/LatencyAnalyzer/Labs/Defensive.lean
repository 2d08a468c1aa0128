import Mathlib.Algebra.Order.Field.Basic
import LatencyAnalyzer.Report.Honesty
import LatencyAnalyzer.Spectre.Reliability

/-!
# Defensive — the rates of `defensive_lab.cpp`

The defensive lab runs the reliability lab and publishes two rates, of bytes and of whole strings.
A string is recovered only with all of its bytes, so the second rate is no higher than the first:
this and the consistency of the counters hold as long as the total of the bytes fits in `size_t`.
-/

namespace LatencyAnalyzer
namespace DefensiveLab

open Cxx
open Report (DefensiveLabResult Destination Format LabEvent percent percent_eq percent_mem)
open Spectre

/-! ## The code -/

def makeEvents : List LabEvent :=
  [⟨"spectre_reliability_fixture", "observe", "allowed_local_fixture", true, true⟩,
    ⟨"simulated_local_collection", "simulate", "no_secret_export", true, true⟩,
    ⟨"simulated_export", "simulate", "metrics_only_local_file", true, true⟩,
    ⟨"network_egress", "simulate", "blocked_not_performed", false, false⟩,
    ⟨"persistence", "simulate", "blocked_not_performed", false, false⟩]

section Code

variable {abi : Abi} {K : Type*} [Field K]

/-- Also `byte_accuracy` in `main`. -/
def byteAccuracyPercent (spectre : SpectreLabResult abi) : K :=
  if spectre.totalBytes = 0 then 0
  else percent (spectre.correctBytes.toNat : K) (spectre.totalBytes.toNat : K)

/-- Also `exact_rate` in `main`. -/
def exactRecoveryRatePercent (spectre : SpectreLabResult abi) : K :=
  if spectre.runs = 0 then 0 else percent (spectre.exactMatches : K) (spectre.runs : K)

/-- One iteration of the loop over the events. -/
def countAlert (result : DefensiveLabResult K) (event : LabEvent) : DefensiveLabResult K :=
  if event.alert then
    let result := { result with simulatedAlerts := result.simulatedAlerts + 1 }
    if event.confirmed then
      { result with simulatedConfirmedAlerts := result.simulatedConfirmedAlerts + 1 }
    else
      { result with simulatedFalsePositives := result.simulatedFalsePositives + 1 }
  else
    result

def initial (runs triesPerByte : Int) (reportPath : String) : DefensiveLabResult K :=
  { runs := runs
    triesPerByte := triesPerByte
    byteAccuracyPercent := 0
    exactRecoveryRatePercent := 0
    simulatedAlerts := 0
    simulatedConfirmedAlerts := 0
    simulatedFalsePositives := 0
    reportWritten := false
    reportPath := reportPath }

/-- `DefensiveLab::run`. -/
def run (retry : Retry abi) (m : Machine abi) (fmt : Format K) (d : Destination)
    (runs triesPerByte : Int) (reportPath : String) : DefensiveLabResult K × Machine abi :=
  let result := initial runs triesPerByte reportPath
  if runs ≤ 0 ∨ triesPerByte ≤ 0 ∨ reportPath.isEmpty then (result, m)
  else
    let spectre := runReliabilityLab retry m runs triesPerByte
    let result :=
      makeEvents.foldl countAlert
        { result with
          byteAccuracyPercent := byteAccuracyPercent spectre.1
          exactRecoveryRatePercent := exactRecoveryRatePercent spectre.1 }
    (Report.DefensiveLab.withReport fmt d result makeEvents, spectre.2)

/-- The process is left as by the call that enters the fixture through the lab. -/
theorem run_machine (retry : Retry abi) (m : Machine abi) (fmt : Format K) (d : Destination)
    (runs triesPerByte : Int) (reportPath : String) :
    (run retry m fmt d runs triesPerByte reportPath).2 =
      runCall retry m (.defensiveLab runs triesPerByte reportPath) := by
  unfold run runCall
  dsimp only
  split <;> rfl

end Code

/-! ## The rates -/

section Rates

variable {abi : Abi} {K : Type*} [Field K] [LinearOrder K]

/-- A consistent result with its rates in order. -/
structure Sound (K : Type*) [Field K] [LinearOrder K] (runs : Int) (strings : List (List UInt8))
    (lab : SpectreLabResult abi) : Prop extends Consistent runs strings lab where
  exact_nonneg : 0 ≤ (exactRecoveryRatePercent lab : K)
  exact_le_byte : (exactRecoveryRatePercent lab : K) ≤ byteAccuracyPercent lab
  byte_le : (byteAccuracyPercent lab : K) ≤ 100

/-- A bound on all entries of a list bounds their sum. -/
theorem mul_length_le_sum {counts : List Int} {n : Int} (h : ∀ count ∈ counts, n ≤ count) :
    n * counts.length ≤ counts.sum := by
  have hsum := List.card_nsmul_le_sum counts n h
  rwa [nsmul_eq_mul, mul_comm] at hsum

theorem sound_of_consistent [IsStrictOrderedRing K] {runs : Int} {strings : List (List UInt8)}
    {lab : SpectreLabResult abi} (hruns : 0 < runs) (hlabRuns : lab.runs = runs)
    (hsecret : lab.secretLength = kSecretLength) (h : Consistent runs strings lab) :
    Sound K runs strings lab := by
  have hsecretPos : (0 : Int) < kSecretLength := by decide
  have htotal : (lab.totalBytes.toNat : Int) = runs * kSecretLength := by
    rw [h.total, hsecret]
  have htotalPos : (0 : Int) < lab.totalBytes.toNat := by
    rw [htotal]
    exact mul_pos hruns hsecretPos
  have hexactNonneg : 0 ≤ lab.exactMatches := by
    rw [h.exact]
    exact Int.natCast_nonneg _
  -- Every exact run contributes to each of the columns.
  have hentries : lab.exactMatches * kSecretLength ≤ lab.correctBytes.toNat := by
    have hsum := mul_length_le_sum fun count hmem => (h.perByte count hmem).1
    rwa [h.perByteLength, hsecret, h.perByteSum] at hsum
  have hbyte : (byteAccuracyPercent lab : K) =
      percent (lab.correctBytes.toNat : K) (lab.totalBytes.toNat : K) := by
    unfold byteAccuracyPercent
    refine if_neg fun hzero => ?_
    rw [hzero] at htotalPos
    exact absurd htotalPos (by simp)
  have hexact : (exactRecoveryRatePercent lab : K) =
      percent (lab.exactMatches : K) (runs : K) := by
    unfold exactRecoveryRatePercent
    rw [hlabRuns]
    exact if_neg hruns.ne'
  have hruns' : (0 : K) < runs := by exact_mod_cast hruns
  have htotal' : (0 : K) < lab.totalBytes.toNat := by exact_mod_cast htotalPos
  have hcorrect' : (lab.correctBytes.toNat : K) ≤ lab.totalBytes.toNat := by
    exact_mod_cast h.correct_le
  have hcross : lab.exactMatches * lab.totalBytes.toNat ≤ lab.correctBytes.toNat * runs :=
    calc
      lab.exactMatches * lab.totalBytes.toNat
          = lab.exactMatches * kSecretLength * runs := by rw [htotal]; ring
      _ ≤ lab.correctBytes.toNat * runs := mul_le_mul_of_nonneg_right hentries hruns.le
  have hle : (exactRecoveryRatePercent lab : K) ≤ byteAccuracyPercent lab := by
    rw [hexact, hbyte, percent_eq, percent_eq, div_le_div_iff₀ hruns' htotal', mul_assoc, mul_assoc]
    refine mul_le_mul_of_nonneg_left ?_ (by norm_num)
    exact_mod_cast hcross
  have hexactNonneg' : (0 : K) ≤ exactRecoveryRatePercent lab := by
    rw [hexact, percent_eq]
    have hcast : (0 : K) ≤ lab.exactMatches := by exact_mod_cast hexactNonneg
    exact div_nonneg (mul_nonneg (by norm_num) hcast) hruns'.le
  refine ⟨h, hexactNonneg', hle, ?_⟩
  rw [hbyte]
  exact (percent_mem (Nat.cast_nonneg _) hcorrect' htotal').2

/-- The counters of the reliability lab and the rates of the defensive lab are sound, for all
strings that the runs can recover, if and only if the total of the bytes fits in `size_t`.  The
counters of the lab itself are those of the strings that `read_string_impl` returns run by run, and
the defensive lab publishes the rates of its counters. -/
theorem reliability_counters_iff [IsStrictOrderedRing K] {runs : Int} (hruns : 0 < runs)
    (triesPerByte : Int) :
    (∀ strings : List (List UInt8), strings.length = runs.toNat →
      (∀ recovered ∈ strings, recovered.length ≤ kSecretLength) →
      (Sound K runs strings (labReport abi runs triesPerByte strings) ↔
        kSecretLength * runs.toNat < 2 ^ abi.sizeBits)) ∧
    ∀ (retry : Retry abi) (m : Machine abi) (fmt : Format K) (d : Destination)
      (reportPath : String), 0 < triesPerByte → reportPath ≠ "" →
      let strings := (recoveredStrings retry m triesPerByte runs.toNat).1
      let lab := (runReliabilityLab retry m runs triesPerByte).1
      strings.length = runs.toNat ∧
        (∀ recovered ∈ strings, recovered.length ≤ kSecretLength) ∧
        lab = labReport abi runs triesPerByte strings ∧
        (Sound K runs strings lab ↔ kSecretLength * runs.toNat < 2 ^ abi.sizeBits) ∧
        (run retry m fmt d runs triesPerByte reportPath).1.byteAccuracyPercent =
          byteAccuracyPercent lab ∧
        (run retry m fmt d runs triesPerByte reportPath).1.exactRecoveryRatePercent =
          exactRecoveryRatePercent lab := by
  have hsoundIff : ∀ strings : List (List UInt8), strings.length = runs.toNat →
      (∀ recovered ∈ strings, recovered.length ≤ kSecretLength) →
      (Sound K runs strings (labReport abi runs triesPerByte strings) ↔
        kSecretLength * runs.toNat < 2 ^ abi.sizeBits) := by
    intro strings hcount hshort
    have hcounted : Counted runs strings (labReport abi runs triesPerByte strings) :=
      counted_labReport runs triesPerByte strings
    constructor
    · intro hsound
      exact hcounted.fits hsound.toConsistent
    · intro hfits
      exact sound_of_consistent hruns hcounted.runs_eq hcounted.secretLength
        (hcounted.consistent hruns hcount hshort hfits)
  refine ⟨hsoundIff, ?_⟩
  intro retry m fmt d reportPath htries hpath strings lab
  have hlab : lab = labReport abi runs triesPerByte strings :=
    congrArg Prod.fst (runReliabilityLab_eq retry m hruns htries)
  obtain ⟨hcount, hshort⟩ := recoveredStrings_mem retry m triesPerByte runs.toNat
  have hguard : ¬ (runs ≤ 0 ∨ triesPerByte ≤ 0 ∨ reportPath.isEmpty = true) := by
    rw [String.isEmpty_iff]
    rintro (hle | hle | hempty)
    · omega
    · omega
    · exact hpath hempty
  refine ⟨hcount, hshort, hlab, ?_, ?_⟩
  · rw [hlab]
    exact hsoundIff strings hcount hshort
  · unfold run
    rw [if_neg hguard]
    exact ⟨rfl, rfl⟩

/-- One full match and one empty string. -/
theorem reliability_counters_two :
    Sound ℚ 2 [reference, []] (labReport .x8664 2 999 [reference, []]) :=
  ((reliability_counters_iff (by decide) 999).1 [reference, []] rfl (by decide)).2 (by decide)

/-- On `i.86`, the total of this many runs wraps to 24 bytes. -/
theorem reliability_counters_wrap :
    (∀ recovered ∈ List.replicate 107374183 ([] : List UInt8),
      recovered.length ≤ kSecretLength) ∧
    ¬ Sound ℚ 107374183 (List.replicate 107374183 [])
      (labReport .i386 107374183 999 (List.replicate 107374183 [])) := by
  constructor
  · intro recovered hmem
    rw [(List.mem_replicate.1 hmem).2]
    exact Nat.zero_le _
  · intro hsound
    have hcounted : Counted 107374183 (List.replicate 107374183 [])
        (labReport .i386 107374183 999 (List.replicate 107374183 [])) :=
      counted_labReport 107374183 999 (List.replicate 107374183 [])
    have hfits := hcounted.fits hsound.toConsistent
    revert hfits
    decide

end Rates

end DefensiveLab
end LatencyAnalyzer
