import LatencyAnalyzer.Spectre.Confinement
import LatencyAnalyzer.Spectre.Counters

/-!
# Reliability — the lab under a perfect side channel

The lab compares what the attack recovers with `kSecret`, while the attack reads `array1`.  Only
`run_demo` copies the one into the other.  This module follows that copy through every sequence of
calls: with a side channel that never errs, the lab reports a full match exactly when a
demonstration ran before it.
-/

namespace LatencyAnalyzer
namespace Spectre

open Cxx

section Reliability

variable {abi : Abi}

/-! ## Perfect channels -/

/-- A routine in place of `retry_if_uncertain` that succeeds on every byte.  It leaves the process
as the program's routine does. -/
structure PerfectChannel (retry : Retry abi) : Prop where
  success : ∀ m maliciousX tries threshold, (retry m maliciousX tries threshold).1.success = true
  guessedValue : ∀ m maliciousX tries threshold,
    (retry m maliciousX tries threshold).1.guessedValue = m.array1 maliciousX.toNat
  process : ∀ m maliciousX tries threshold,
    (retry m maliciousX tries threshold).2 = (retryIfUncertain m maliciousX tries threshold).2

def idealRetry : Retry abi := fun m maliciousX tries threshold =>
  ({ SpectreResult.empty with guessedValue := m.array1 maliciousX.toNat, success := true },
    (retryIfUncertain m maliciousX tries threshold).2)

theorem idealRetry_perfect : PerfectChannel (idealRetry : Retry abi) :=
  ⟨fun _ _ _ _ => rfl, fun _ _ _ _ => rfl, fun _ _ _ _ => rfl⟩

/-! ## The bytes under attack -/

/-- `array1[16 .. 16 + sizeof(kSecret) - 1)`. -/
def Machine.attacked (m : Machine abi) : List UInt8 :=
  (List.range kSecretLength).map fun i => m.array1 (kArchitecturalArraySize + i)

theorem attacked_congr {m m' : Machine abi} (h : m.array1 = m'.array1) :
    m.attacked = m'.attacked := by
  unfold Machine.attacked
  rw [h]

/-! ## Nothing in an attack writes `array1` -/

theorem keeps_array1 (array1 : Nat → UInt8) :
    Keeps (fun _ : SizeT abi => True) fun m : Machine abi => m.array1 = array1 where
  touch := fun hm _ => hm
  timedTouch := fun hm _ => hm
  attack := fun hm _ _ => hm
  victim := by
    intro m hm x _
    unfold victimFunction
    dsimp only
    split <;> exact hm

theorem array1_calibrateThreshold (m : Machine abi) :
    (calibrateThreshold m).2.array1 = m.array1 :=
  (keeps_array1 m.array1).calibrateThreshold rfl

namespace PerfectChannel

variable {retry : Retry abi} (h : PerfectChannel retry)
include h

theorem array1 (m : Machine abi) (maliciousX : SizeT abi) (tries : Int) (threshold : UInt64) :
    (retry m maliciousX tries threshold).2.array1 = m.array1 := by
  rw [h.process]
  exact (keeps_array1 m.array1).retryIfUncertain rfl trivial tries threshold

/-! ## The recovered string -/

/-- One element appends the byte stored at its index, whether or not the index is in bounds. -/
theorem readElement_eq (startOffset : SizeT abi) (tries : Int) (threshold : UInt64)
    (st : List UInt8 × Machine abi) (i : Nat) :
    (readElement retry startOffset tries threshold st i).1 =
        st.1 ++ [st.2.array1 (startOffset + BitVec.ofNat _ i).toNat] ∧
      (readElement retry startOffset tries threshold st i).2.array1 = st.2.array1 := by
  unfold readElement
  dsimp only
  refine ⟨?_, h.array1 _ _ _ _⟩
  rw [h.success, if_pos rfl, h.guessedValue]
  rfl

theorem readElements_eq (startOffset : SizeT abi) (tries : Int) (threshold : UInt64)
    (m : Machine abi) (n : Nat) :
    ((List.range n).foldl (readElement retry startOffset tries threshold) ([], m)).1 =
        (List.range n).map (fun i => m.array1 (startOffset + BitVec.ofNat _ i).toNat) ∧
      ((List.range n).foldl (readElement retry startOffset tries threshold) ([], m)).2.array1 =
        m.array1 := by
  induction n with
  | zero => exact ⟨rfl, rfl⟩
  | succ n ih =>
      rcases ih with ⟨hresult, harray⟩
      rw [List.range_succ, List.foldl_append]
      rcases h.readElement_eq startOffset tries threshold
        ((List.range n).foldl (readElement retry startOffset tries threshold) ([], m)) n
        with ⟨hnext, hkeep⟩
      refine ⟨?_, hkeep.trans harray⟩
      rw [List.map_append, ← hresult, ← harray]
      exact hnext

theorem readStringImpl_array1 (m : Machine abi) (startOffset length : SizeT abi) (tries : Int) :
    (readStringImpl retry m startOffset length tries).2.array1 = m.array1 := by
  unfold readStringImpl
  split
  · rfl
  · exact (h.readElements_eq startOffset tries _ _ _).2.trans (array1_calibrateThreshold m)

theorem readStringImpl_secret (m : Machine abi) {tries : Int} (htries : 0 < tries) :
    (readStringImpl retry m (BitVec.ofNat _ kArchitecturalArraySize)
      (BitVec.ofNat _ kSecretLength) tries).1 = m.attacked := by
  have hlength : (BitVec.ofNat abi.sizeBits kSecretLength).toNat = kSecretLength :=
    toNat_ofNat_small (by decide)
  have hargs : StringArgs (BitVec.ofNat abi.sizeBits kArchitecturalArraySize)
      (BitVec.ofNat _ kSecretLength) tries := by
    refine ⟨htries, ?_, ?_⟩
    · rw [arraySize_toNat]
    · rw [arraySize_toNat, hlength]
      decide
  unfold readStringImpl
  rw [if_neg (fun hguard => (stringGuard_iff _ _ _).1 hguard hargs)]
  dsimp only
  rw [(h.readElements_eq _ tries _ _ _).1, hlength, array1_calibrateThreshold]
  apply List.map_congr_left
  intro i hi
  have hi' : i < (BitVec.ofNat abi.sizeBits kSecretLength).toNat := by
    rw [hlength]
    exact List.mem_range.1 hi
  rw [(element_toNat hargs hi').2, arraySize_toNat]

end PerfectChannel

/-! ## The bookkeeping of equal runs -/

/-- `per_byte_correct_runs` after `k` runs that recovered the same string. -/
def countsAfter (recovered : List UInt8) (k : Nat) : List Int :=
  (List.range kSecretLength).map fun i => if byteCorrect recovered i then (k : Int) else 0

/-- The result after `k` runs that recovered the same string. -/
structure Tally (recovered : List UInt8) (runs : Int) (k : Nat) (result : SpectreLabResult abi) :
    Prop where
  secretLength : result.secretLength = kSecretLength
  totalBytes : result.totalBytes = BitVec.ofNat _ kSecretLength * BitVec.ofNat _ runs.toNat
  exactMatches : result.exactMatches = if recovered = reference then (k : Int) else 0
  correctBytes : result.correctBytes =
    BitVec.ofNat _ ((List.range kSecretLength).countP (byteCorrect recovered) * k)
  perByteFirst : k = 0 → result.perByteCorrectRuns = []
  perByte : 0 < k → result.perByteCorrectRuns = countsAfter recovered k

theorem columnCounts_replicate (recovered : List UInt8) (k : Nat) :
    columnCounts (List.replicate k recovered) = countsAfter recovered k := by
  unfold columnCounts countsAfter correctRuns
  apply List.map_congr_left
  intro i _
  rw [List.countP_replicate]
  split <;> rfl

/-- Equal runs make a table of equal rows. -/
theorem tally_of_counted {recovered : List UInt8} {runs : Int} (hruns : 0 < runs) {k : Nat}
    {result : SpectreLabResult abi} (h : Counted runs (List.replicate k recovered) result) :
    Tally recovered runs k result where
  secretLength := h.secretLength
  totalBytes := by
    rw [h.totalBytes, max_eq_right hruns.le]
  exactMatches := by
    rw [h.exactMatches, List.countP_replicate]
    by_cases heq : recovered = reference <;> simp [heq]
  correctBytes := by
    rw [h.correctBytes]
    unfold correctOf
    rw [List.map_replicate, List.sum_replicate_nat, Nat.mul_comm]
    rfl
  perByteFirst := by
    rintro rfl
    exact h.perByteFirst rfl
  perByte := by
    intro hk
    have hne : List.replicate k recovered ≠ [] := by
      rw [Ne, List.replicate_eq_nil_iff]
      omega
    rw [h.perByte hne, columnCounts_replicate]

/-! ## Soundness of the lab -/

/-- The report of `runs` runs that all recovered the reference. -/
structure LabSound (runs : Int) (result : SpectreLabResult abi) : Prop where
  exactMatches : result.exactMatches = runs
  correctBytes : result.correctBytes = result.totalBytes
  perByte : ∀ i < kSecretLength, result.perByteCorrectRuns[i]? = some runs

theorem PerfectChannel.counted_labRun {retry : Retry abi} (h : PerfectChannel retry)
    {m : Machine abi} {runs triesPerByte : Int} (htries : 0 < triesPerByte) {k : Nat}
    {st : SpectreLabResult abi × Machine abi}
    (hcounted : Counted runs (List.replicate k m.attacked) st.1)
    (harray : st.2.array1 = m.array1) :
    Counted runs (List.replicate (k + 1) m.attacked) (labRun retry triesPerByte st).1 ∧
      (labRun retry triesPerByte st).2.array1 = m.array1 := by
  refine ⟨?_, (h.readStringImpl_array1 _ _ _ _).trans harray⟩
  unfold labRun
  dsimp only
  rw [hcounted.secretLength, h.readStringImpl_secret _ htries, attacked_congr harray,
    List.replicate_succ']
  exact hcounted.record m.attacked

theorem PerfectChannel.tally_lab {retry : Retry abi} (h : PerfectChannel retry) (m : Machine abi)
    {runs triesPerByte : Int} (hruns : 0 < runs) (htries : 0 < triesPerByte) :
    Tally m.attacked runs runs.toNat (runReliabilityLab retry m runs triesPerByte).1 := by
  -- All runs recover the same string, since none of them writes `array1`.
  have hloop : ∀ k : Nat,
      let st := (List.range k).foldl (fun st _ => labRun retry triesPerByte st)
        (SpectreLabResult.start abi runs triesPerByte, m)
      Counted runs (List.replicate k m.attacked) st.1 ∧ st.2.array1 = m.array1 := by
    intro k
    induction k with
    | zero => exact ⟨counted_start runs triesPerByte, rfl⟩
    | succ k ih =>
        rw [List.range_succ, List.foldl_append]
        exact h.counted_labRun htries ih.1 ih.2
  unfold runReliabilityLab
  dsimp only
  rw [if_neg (by omega)]
  exact tally_of_counted hruns (hloop runs.toNat).1

/-- Equal runs make a full match exactly when each of them recovered the reference. -/
theorem Tally.labSound_iff {recovered : List UInt8} {runs : Int} {result : SpectreLabResult abi}
    (htally : Tally recovered runs runs.toNat result) (hruns : 0 < runs) :
    LabSound runs result ↔ recovered = reference := by
  have hcast : ((runs.toNat : Nat) : Int) = runs := Int.toNat_of_nonneg hruns.le
  constructor
  · intro hsound
    -- Already the number of exact matches gives a wrong reference away.
    have hexact := hsound.exactMatches
    rw [htally.exactMatches] at hexact
    by_contra hne
    rw [if_neg hne] at hexact
    omega
  · intro heq
    have hcorrect : ∀ i ∈ List.range kSecretLength, byteCorrect recovered i = true := by
      rw [heq]
      decide
    refine ⟨?_, ?_, ?_⟩
    · rw [htally.exactMatches, if_pos heq, hcast]
    · have hcount : (List.range kSecretLength).countP (byteCorrect recovered) = kSecretLength := by
        rw [List.countP_eq_length.2 hcorrect, List.length_range]
      rw [htally.correctBytes, htally.totalBytes, hcount, BitVec.ofNat_mul]
    · intro i hi
      rw [htally.perByte (by omega)]
      simp only [countsAfter, List.getElem?_map, List.getElem?_range hi, Option.map_some]
      rw [if_pos (hcorrect i (List.mem_range.2 hi)), hcast]

/-- The lab tells the truth about the side channel exactly when `array1` holds the secret. -/
theorem PerfectChannel.labSound_iff_attacked {retry : Retry abi} (h : PerfectChannel retry)
    (m : Machine abi) {runs triesPerByte : Int} (hruns : 0 < runs) (htries : 0 < triesPerByte) :
    LabSound runs (runReliabilityLab retry m runs triesPerByte).1 ↔ m.attacked = reference :=
  (h.tally_lab m hruns htries).labSound_iff hruns

/-! ## Which histories load the secret -/

/-- The only public call that writes `array1`. -/
def Call.loads : Call abi → Prop
  | .runDemo tries => 0 < tries
  | _ => False

theorem attacked_loadFixture (m : Machine abi) (hload : ∃ array1, m.array1 = loadFixture array1) :
    m.attacked = reference := by
  rcases hload with ⟨array1, harray⟩
  -- The copy of the secret lies behind the sixteen bytes of the architectural array.
  have hbytes : ∀ i ∈ List.range kSecretLength,
      loadFixture array1 (kArchitecturalArraySize + i) = kSecret.getD i 0 := by
    intro i hi
    have hi' : i < kSecretLength := List.mem_range.1 hi
    have hlength : kSecret.length = kSecretLength + 1 := by decide
    unfold loadFixture memcpy
    rw [if_pos ⟨Nat.le_add_right _ _, by omega⟩, Nat.add_sub_cancel_left]
  unfold Machine.attacked
  rw [harray, List.map_congr_left hbytes]
  decide

namespace PerfectChannel

variable {retry : Retry abi} (h : PerfectChannel retry)
include h

theorem readByte_array1 (m : Machine abi) (maliciousX : SizeT abi) (tries : Int) :
    (readByte retry m maliciousX tries).2.array1 = m.array1 := by
  unfold readByte
  split
  · rfl
  · exact (h.array1 _ _ _ _).trans (array1_calibrateThreshold m)

theorem runReliabilityLab_array1 (m : Machine abi) (runs triesPerByte : Int) :
    (runReliabilityLab retry m runs triesPerByte).2.array1 = m.array1 := by
  unfold runReliabilityLab
  dsimp only
  split
  · rfl
  · refine List.foldlRecOn
      (motive := fun st : SpectreLabResult abi × Machine abi => st.2.array1 = m.array1) _ _ rfl ?_
    intro st hst _ _
    exact (h.readStringImpl_array1 _ _ _ _).trans hst

theorem runDemo_array1 (m : Machine abi) (tries : Int) :
    (runDemo retry m tries).array1 = if tries ≤ 0 then m.array1 else loadFixture m.array1 := by
  unfold runDemo
  split
  · rfl
  · exact (h.readStringImpl_array1 _ _ _ _).trans ((keeps_array1 _).touchProbes rfl)

/-- A call that does not load the secret leaves `array1` alone. -/
theorem runCall_array1 (m : Machine abi) {call : Call abi} (hcall : ¬ call.loads) :
    (runCall retry m call).array1 = m.array1 := by
  cases call with
  | readByte maliciousX tries => exact h.readByte_array1 m maliciousX tries
  | readString startOffset length tries => exact h.readStringImpl_array1 m startOffset length tries
  | runDemo tries => exact (h.runDemo_array1 m tries).trans (if_pos (not_lt.1 hcall))
  | runReliabilityLab runs triesPerByte => exact h.runReliabilityLab_array1 m runs triesPerByte
  | defensiveLab runs triesPerByte reportPath =>
      unfold runCall
      dsimp only
      split
      · rfl
      · exact h.runReliabilityLab_array1 m runs triesPerByte

theorem runCall_attacked (m : Machine abi) {call : Call abi} (hcall : call.loads) :
    (runCall retry m call).attacked = reference := by
  cases call with
  | runDemo tries =>
      have harray := (h.runDemo_array1 m tries).trans (if_neg (not_le.2 hcall))
      exact attacked_loadFixture _ ⟨m.array1, harray⟩
  | _ => exact hcall.elim

theorem runCalls_attacked_of_loads (m : Machine abi) {calls : List (Call abi)}
    (hcalls : m.attacked = reference ∨ ∃ call ∈ calls, call.loads) :
    (runCalls retry m calls).attacked = reference := by
  induction calls generalizing m with
  | nil =>
      rcases hcalls with hloaded | ⟨call, hmem, _⟩
      · exact hloaded
      · cases hmem
  | cons call calls ih =>
      refine ih (runCall retry m call) ?_
      -- A demonstration loads the secret; any other call keeps what an earlier one has loaded.
      by_cases hcall : call.loads
      · exact Or.inl (h.runCall_attacked m hcall)
      · rcases hcalls with hloaded | ⟨call', hmem, hcall'⟩
        · exact Or.inl ((attacked_congr (h.runCall_array1 m hcall)).trans hloaded)
        · rcases List.mem_cons.1 hmem with rfl | hmem
          · exact absurd hcall' hcall
          · exact Or.inr ⟨call', hmem, hcall'⟩

theorem runCalls_array1 (m : Machine abi) {calls : List (Call abi)}
    (hcalls : ∀ call ∈ calls, ¬ call.loads) : (runCalls retry m calls).array1 = m.array1 := by
  unfold runCalls
  refine List.foldlRecOn (motive := fun m' : Machine abi => m'.array1 = m.array1) _ _ rfl ?_
  intro m' hm' call hmem
  exact (h.runCall_array1 m' (hcalls call hmem)).trans hm'

end PerfectChannel

theorem attacked_init (timing : Nat → UInt64) :
    (Machine.init abi timing).attacked ≠ reference := by
  show (List.range kSecretLength).map (fun _ => (0 : UInt8)) ≠ reference
  decide

/-- For every history of calls on a perfect channel, the lab entered after it reports a full match
if and only if the history contains a demonstration. -/
theorem lab_sound_iff_demo_before {retry : Retry abi} (h : PerfectChannel retry)
    (timing : Nat → UInt64) (calls : List (Call abi)) {runs triesPerByte : Int} (hruns : 0 < runs)
    (htries : 0 < triesPerByte) :
    LabSound runs
        (runReliabilityLab retry (runCalls retry (Machine.init abi timing) calls) runs
          triesPerByte).1 ↔
      ∃ tries, 0 < tries ∧ Call.runDemo tries ∈ calls := by
  rw [h.labSound_iff_attacked _ hruns htries]
  constructor
  · intro hloaded
    by_contra hnone
    have hcalls : ∀ call ∈ calls, ¬ call.loads := by
      intro call hmem hcall
      cases call with
      | runDemo tries => exact hnone ⟨tries, hcall, hmem⟩
      | _ => exact hcall.elim
    rw [attacked_congr (h.runCalls_array1 _ hcalls)] at hloaded
    exact attacked_init timing hloaded
  · rintro ⟨tries, hpos, hmem⟩
    exact h.runCalls_attacked_of_loads _ (Or.inr ⟨.runDemo tries, hmem, hpos⟩)

theorem lab_sound_after_demo :
    LabSound 5
      (runReliabilityLab idealRetry
        (runCalls idealRetry (Machine.init .x8664 fun _ => 40) [.runDemo 999]) 5 999).1 :=
  (lab_sound_iff_demo_before idealRetry_perfect (fun _ => 40) [.runDemo 999] (by decide)
    (by decide)).2 ⟨999, by decide, List.mem_singleton.2 rfl⟩

/-- In a process that runs the lab only, the bytes under attack are zeros. -/
theorem lab_unsound_initially :
    PerfectChannel (idealRetry : Retry .x8664) ∧
      ¬ LabSound 1 (runReliabilityLab idealRetry (Machine.init .x8664 fun _ => 40) 1 999).1 := by
  refine ⟨idealRetry_perfect, ?_⟩
  rw [idealRetry_perfect.labSound_iff_attacked _ (by decide) (by decide)]
  exact attacked_init _

end Reliability

end Spectre
end LatencyAnalyzer
