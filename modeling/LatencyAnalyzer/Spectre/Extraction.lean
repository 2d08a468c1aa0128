import LatencyAnalyzer.Spectre.Recovery

/-!
# Extraction — the demonstration and the lab on a core

A string is read by one calibration and one retried measurement for each of its bytes; the lab
reads the same string again and again.  On a core that speculates both recover the secret from
three tries on, and on one that does not both fail for every byte.
-/

namespace LatencyAnalyzer
namespace Spectre

open Cxx Lib

section Extraction

variable {abi : Abi}

/-! ## Reading strings -/

/-- A call that leaves the fixture as it is and takes as many times as it has outcomes. -/
structure Advances (m m' : Machine abi) (outcomes : List Bool) : Prop where
  fixture : SameFixture m m'
  clock : m'.clock = m.clock + outcomes.length

theorem Advances.trans {m m' m'' : Machine abi} {outcomes outcomes' : List Bool}
    (h : Advances m m' outcomes) (h' : Advances m' m'' outcomes') :
    Advances m m'' (outcomes ++ outcomes') where
  fixture :=
    ⟨h'.fixture.array1.trans h.fixture.array1,
      h'.fixture.array1Size.trans h.fixture.array1Size,
      h'.fixture.timing.trans h.fixture.timing⟩
  clock := by
    rw [h'.clock, h.clock, List.length_append, Nat.add_assoc]

theorem Advances.shows {latencies : Latencies} {m m' : Machine abi} {outcomes outcomes' : List Bool}
    (h : Advances m m' outcomes)
    (hshows : Shows latencies m.timing (m.clock + outcomes.length) outcomes') :
    Shows latencies m'.timing m'.clock outcomes' := by
  rw [h.clock, h.fixture.timing]
  exact hshows

theorem advances_retryIfUncertain {m : Machine abi} {maliciousX : SizeT abi} (hm : Attackable m)
    (hx : kArchitecturalArraySize ≤ maliciousX.toNat) (tries : Int) (threshold : UInt64)
    (speculates : Bool) (σ : Core Line) :
    Advances m (retryIfUncertain m maliciousX tries threshold).2
      (σ.outcomes speculates (retryAccesses m maliciousX tries threshold)) := by
  have hfixture : SameFixture m (firstReading m maliciousX tries threshold).2 :=
    (keeps_sameFixture m).readByteWithThreshold ⟨rfl, rfl, rfl⟩ trivial tries threshold
  have hclock : (firstReading m maliciousX tries threshold).2.clock =
      m.clock + kProbeValues * tries.toNat :=
    (collected_attemptLoop m maliciousX tries threshold).clock
  refine ⟨(keeps_sameFixture m).retryIfUncertain ⟨rfl, rfl, rfl⟩ trivial tries threshold, ?_⟩
  unfold retryAccesses retryIfUncertain
  dsimp only
  rw [Core.outcomes_append, List.length_append, length_outcomes_measurement hm.bound hx]
  split
  · exact hclock
  · have hsecond : (secondReading m maliciousX tries threshold).2.clock =
        (firstReading m maliciousX tries threshold).2.clock +
          kProbeValues * (retryTries tries).toNat :=
      (collected_attemptLoop _ maliciousX (retryTries tries) threshold).clock
    rw [length_outcomes_measurement (hfixture.attackable hm).bound hx, ← Nat.add_assoc, ← hclock]
    exact hsecond

/-- The loop of `read_string_impl` over the elements that are left. -/
def elementsAccesses (startOffset : SizeT abi) (tries : Int) (threshold : UInt64) :
    Machine abi → List Nat → List (Access Line)
  | _, [] => []
  | m, i :: rest =>
      let maliciousX := startOffset + BitVec.ofNat _ i
      retryAccesses (m.emit (.element startOffset (BitVec.ofNat _ i) maliciousX)) maliciousX tries
          threshold ++
        elementsAccesses startOffset tries threshold
          (readElement retryIfUncertain startOffset tries threshold ([], m) i).2 rest

/-- `read_string_impl`, for arguments that pass its guard. -/
def readStringAccesses (m : Machine abi) (startOffset length : SizeT abi) (tries : Int) :
    List (Access Line) :=
  calibrateAccesses ++
    elementsAccesses startOffset tries (calibrateThreshold m).1 (calibrateThreshold m).2
      (List.range length.toNat)

/-- What stands in the recovered string for a byte. -/
def recovered (speculates : Bool) (tries : Int) (byte : UInt8) : UInt8 :=
  if Legible speculates tries byte then byte else unknownByte

section Strings

variable {latencies : Latencies} {speculates : Bool} {tries : Int} {threshold : UInt64}
  {startOffset : SizeT abi} (hpos : 0 < tries) (hmax : tries ≤ intMax)
include hpos hmax

theorem readElements_on_core (hthreshold : latencies.Tells threshold) {indices : List Nat}
    (hindices : ∀ i ∈ indices,
      kArchitecturalArraySize ≤ (startOffset + BitVec.ofNat _ i : SizeT abi).toNat)
    {m : Machine abi} (hm : Attackable m) {σ : Core Line}
    (hshows : Shows latencies m.timing m.clock
      (σ.outcomes speculates (elementsAccesses startOffset tries threshold m indices)))
    (bytes : List UInt8) :
    (indices.foldl (readElement retryIfUncertain startOffset tries threshold) (bytes, m)).1 =
        bytes ++ indices.map (fun i =>
          recovered speculates tries (m.array1 (startOffset + BitVec.ofNat _ i).toNat)) ∧
      Advances m
        (indices.foldl (readElement retryIfUncertain startOffset tries threshold) (bytes, m)).2
        (σ.outcomes speculates (elementsAccesses startOffset tries threshold m indices)) := by
  induction indices generalizing m σ bytes with
  | nil => exact ⟨(List.append_nil bytes).symm, ⟨rfl, rfl, rfl⟩, rfl⟩
  | cons i rest ih =>
      have hx := hindices i List.mem_cons_self
      unfold elementsAccesses at hshows ⊢
      dsimp only at hshows ⊢
      rw [Core.outcomes_append] at hshows ⊢
      rw [shows_append] at hshows
      have hemit : Attackable (m.emit (.element startOffset (BitVec.ofNat _ i)
          (startOffset + BitVec.ofNat _ i))) := ⟨hm.bound, hm.distinct⟩
      have hread := retryIfUncertain_on_core hemit hx hthreshold hpos hmax hshows.1
      have hadvances := advances_retryIfUncertain hemit hx tries threshold speculates σ
      have hnext : Advances m
          (readElement retryIfUncertain startOffset tries threshold ([], m) i).2
          (σ.outcomes speculates (retryAccesses (m.emit (.element startOffset
            (BitVec.ofNat _ i) (startOffset + BitVec.ofNat _ i))) (startOffset + BitVec.ofNat _ i)
              tries threshold)) :=
        ⟨⟨hadvances.fixture.array1, hadvances.fixture.array1Size, hadvances.fixture.timing⟩,
          hadvances.clock⟩
      have htail := ih (fun j hj => hindices j (List.mem_cons_of_mem i hj))
        (hnext.fixture.attackable hm) (hnext.shows hshows.2)
        (bytes ++ [recovered speculates tries (m.array1 (startOffset + BitVec.ofNat _ i).toNat)])
      rw [hnext.fixture.array1] at htail
      -- The element appends one byte, and the rest of the loop starts from there.
      have hstep : readElement retryIfUncertain startOffset tries threshold (bytes, m) i =
          (bytes ++ [recovered speculates tries (m.array1 (startOffset + BitVec.ofNat _ i).toNat)],
            (readElement retryIfUncertain startOffset tries threshold ([], m) i).2) := by
        refine Prod.ext ?_ rfl
        refine congrArg (bytes ++ [·]) ?_
        unfold recovered
        by_cases hlegible : Legible speculates tries
            (m.array1 (startOffset + BitVec.ofNat _ i).toNat)
        · have hsuccess := hread.1.2 hlegible
          rw [if_pos hlegible]
          exact (if_pos hsuccess).trans (hread.2 hsuccess)
        · rw [if_neg hlegible]
          exact if_neg fun hsuccess => hlegible (hread.1.1 hsuccess)
      rw [List.foldl_cons, hstep]
      refine ⟨?_, hnext.trans htail.2⟩
      rw [htail.1, List.map_cons, List.append_assoc]
      rfl

end Strings

theorem advances_calibrateThreshold (m : Machine abi) (speculates : Bool) (σ : Core Line) :
    Advances m (calibrateThreshold m).2 (σ.outcomes speculates calibrateAccesses) := by
  refine ⟨(keeps_sameFixture m).calibrateThreshold ⟨rfl, rfl, rfl⟩, ?_⟩
  have hclock : (calibrateThreshold m).2.clock = m.clock + 2 * kCalibrationSamples :=
    (sampled_calibrationLoop m).clock
  rw [outcomes_calibrateAccesses, length_blocks (w := 2) fun _ => rfl]
  exact hclock

section Reading

variable {latencies : Latencies} (hapart : latencies.Apart) {speculates : Bool} {m : Machine abi}
  (hm : Attackable m) {σ : Core Line}
include hapart hm

theorem readString_advances {startOffset length : SizeT abi} {tries : Int}
    (hargs : StringArgs startOffset length tries) (hmax : tries ≤ intMax)
    (hshows : Shows latencies m.timing m.clock
      (σ.outcomes speculates (readStringAccesses m startOffset length tries))) :
    (readStringImpl retryIfUncertain m startOffset length tries).1 =
        (List.range length.toNat).map (fun i =>
          recovered speculates tries (m.array1 (startOffset.toNat + i))) ∧
      Advances m (readStringImpl retryIfUncertain m startOffset length tries).2
        (σ.outcomes speculates (readStringAccesses m startOffset length tries)) := by
  unfold readStringAccesses at hshows ⊢
  rw [Core.outcomes_append] at hshows ⊢
  rw [shows_append] at hshows
  have hthreshold := tells_calibrateThreshold hapart hshows.1
  have hcalibrated := advances_calibrateThreshold m speculates σ
  have hindex : ∀ i ∈ List.range length.toNat,
      (startOffset + BitVec.ofNat _ i : SizeT abi).toNat = startOffset.toNat + i :=
    fun i hi => (element_toNat hargs (List.mem_range.1 hi)).2
  have hindices : ∀ i ∈ List.range length.toNat,
      kArchitecturalArraySize ≤ (startOffset + BitVec.ofNat _ i : SizeT abi).toNat := by
    intro i hi
    rw [hindex i hi]
    exact hargs.2.1.trans (Nat.le_add_right _ _)
  have hloop := readElements_on_core hargs.1 hmax hthreshold hindices
    (hcalibrated.fixture.attackable hm) (hcalibrated.shows hshows.2) []
  unfold readStringImpl
  rw [if_neg (fun hguard => (stringGuard_iff _ _ _).1 hguard hargs)]
  dsimp only
  refine ⟨?_, hcalibrated.trans hloop.2⟩
  rw [hloop.1, List.nil_append, hcalibrated.fixture.array1]
  refine List.map_congr_left fun i hi => ?_
  rw [hindex i hi]

/-- Over training bytes that are pairwise distinct, a string behind the bound is recovered byte by
byte if the core speculates and the attack is tried at least three times; every byte it does not
recover is a question mark. -/
theorem read_string_on_core {startOffset length : SizeT abi} {tries : Int}
    (hargs : StringArgs startOffset length tries) (hmax : tries ≤ intMax)
    (hshows : Shows latencies m.timing m.clock
      (σ.outcomes speculates (readStringAccesses m startOffset length tries))) :
    (readString retryIfUncertain m startOffset length tries).1 =
      (List.range length.toNat).map fun i =>
        recovered speculates tries (m.array1 (startOffset.toNat + i)) :=
  (readString_advances hapart hm hargs hmax hshows).1

end Reading

/-! ## The lab -/

/-- The runs of the reliability lab that are left. -/
def labAccesses (triesPerByte : Int) : Machine abi → Nat → List (Access Line)
  | _, 0 => []
  | m, runs + 1 =>
      readStringAccesses m (BitVec.ofNat _ kArchitecturalArraySize) (BitVec.ofNat _ kSecretLength)
          triesPerByte ++
        labAccesses triesPerByte
          (readStringImpl retryIfUncertain m (BitVec.ofNat _ kArchitecturalArraySize)
            (BitVec.ofNat _ kSecretLength) triesPerByte).2 runs

/-- The secret as the attack recovers it. -/
def recoveredSecret (speculates : Bool) (tries : Int) : List UInt8 :=
  if speculates = true ∧ 3 ≤ tries then reference else List.replicate kSecretLength unknownByte

theorem recovered_reference (speculates : Bool) (tries : Int) :
    reference.map (recovered speculates tries) = recoveredSecret speculates tries := by
  have hall : reference.all (· != 0) = true := by decide
  have hnonzero : ∀ byte ∈ reference, byte ≠ 0 := fun byte hbyte =>
    bne_iff_ne.1 (List.all_eq_true.1 hall byte hbyte)
  have hlegible : ∀ byte ∈ reference,
      (Legible speculates tries byte ↔ speculates = true ∧ 3 ≤ tries) := by
    intro byte hbyte
    unfold Legible
    exact ⟨fun h => ⟨h.1, h.2.1⟩, fun h => ⟨h.1, h.2, Or.inl (hnonzero byte hbyte)⟩⟩
  unfold recoveredSecret
  split
  · rename_i h
    refine (List.map_congr_left fun byte hbyte => ?_).trans (List.map_id reference)
    exact if_pos ((hlegible byte hbyte).2 h)
  · rename_i h
    have hunknown : ∀ byte ∈ reference, recovered speculates tries byte = unknownByte :=
      fun byte hbyte => if_neg fun hl => h ((hlegible byte hbyte).1 hl)
    rw [List.map_congr_left hunknown, List.map_const', reference_length]

theorem attackable_loadFixture {m : Machine abi}
    (hbound : m.array1Size = BitVec.ofNat _ kArchitecturalArraySize)
    (hload : ∃ array1, m.array1 = loadFixture array1) : Attackable m := by
  rcases hload with ⟨array1, harray⟩
  have htraining : ∀ i < kArchitecturalArraySize, m.array1 i = UInt8.ofNat (i + 1) := by
    intro i hi
    rw [harray]
    unfold loadFixture memcpy
    rw [if_neg (fun hboth => absurd hboth.1 (Nat.not_le.2 hi))]
    exact if_pos hi
  refine ⟨hbound, fun i hi j hj heq => ?_⟩
  rw [htraining i hi, htraining j hj, ← UInt8.toNat_inj] at heq
  unfold kArchitecturalArraySize at hi hj
  rw [UInt8.toNat_ofNat_of_lt' (by norm_num [UInt8.size]; omega),
    UInt8.toNat_ofNat_of_lt' (by norm_num [UInt8.size]; omega)] at heq
  omega

theorem secretArgs {tries : Int} (hpos : 0 < tries) :
    StringArgs (BitVec.ofNat abi.sizeBits kArchitecturalArraySize) (BitVec.ofNat _ kSecretLength)
      tries := by
  have hlength : (BitVec.ofNat abi.sizeBits kSecretLength).toNat = kSecretLength :=
    toNat_ofNat_small (by decide)
  refine ⟨hpos, ?_, ?_⟩
  · rw [arraySize_toNat]
  · rw [arraySize_toNat, hlength]
    decide

section Lab

variable {latencies : Latencies} (hapart : latencies.Apart) {speculates : Bool} {tries : Int}
  (hpos : 0 < tries) (hmax : tries ≤ intMax)
include hapart hpos hmax

theorem readSecret_on_core {m : Machine abi} {σ : Core Line} (hm : Attackable m)
    (hload : ∃ array1, m.array1 = loadFixture array1)
    (hshows : Shows latencies m.timing m.clock (σ.outcomes speculates (readStringAccesses m
      (BitVec.ofNat _ kArchitecturalArraySize) (BitVec.ofNat _ kSecretLength) tries))) :
    (readStringImpl retryIfUncertain m (BitVec.ofNat _ kArchitecturalArraySize)
        (BitVec.ofNat _ kSecretLength) tries).1 = recoveredSecret speculates tries ∧
      Advances m (readStringImpl retryIfUncertain m (BitVec.ofNat _ kArchitecturalArraySize)
        (BitVec.ofNat _ kSecretLength) tries).2 (σ.outcomes speculates (readStringAccesses m
          (BitVec.ofNat _ kArchitecturalArraySize) (BitVec.ofNat _ kSecretLength) tries)) := by
  have hlength : (BitVec.ofNat abi.sizeBits kSecretLength).toNat = kSecretLength :=
    toNat_ofNat_small (by decide)
  rcases readString_advances hapart hm (secretArgs hpos) hmax hshows with ⟨hread, hadvances⟩
  refine ⟨?_, hadvances⟩
  rw [hread, hlength, arraySize_toNat, ← recovered_reference, ← attacked_loadFixture m hload]
  unfold Machine.attacked
  rw [List.map_map]
  rfl

/-- The runs of the lab from a state in which `done` runs are counted. -/
theorem counted_labRuns {runs : Int} {k done : Nat} {m : Machine abi} {σ : Core Line}
    (hm : Attackable m) (hload : ∃ array1, m.array1 = loadFixture array1)
    {result : SpectreLabResult abi}
    (hcounted : Counted runs (List.replicate done (recoveredSecret speculates tries)) result)
    (hshows : Shows latencies m.timing m.clock (σ.outcomes speculates (labAccesses tries m k))) :
    Counted runs (List.replicate (done + k) (recoveredSecret speculates tries))
      ((List.range k).foldl (fun st _ => labRun retryIfUncertain tries st) (result, m)).1 := by
  induction k generalizing done m σ result with
  | zero => exact hcounted
  | succ k ih =>
      unfold labAccesses at hshows
      rw [Core.outcomes_append, shows_append] at hshows
      have hread := readSecret_on_core hapart hpos hmax hm hload hshows.1
      have hsecret := hcounted.secretLength
      have hrun : labRun retryIfUncertain tries (result, m) =
          (result.record (recoveredSecret speculates tries),
            (readStringImpl retryIfUncertain m (BitVec.ofNat _ kArchitecturalArraySize)
              (BitVec.ofNat _ kSecretLength) tries).2) := by
        unfold labRun
        dsimp only
        rw [hsecret, hread.1]
      have hnext := hcounted.record (recoveredSecret speculates tries)
      rw [← List.replicate_succ'] at hnext
      rw [List.range_succ_eq_map, List.foldl_cons, List.foldl_map, hrun]
      have hrest := ih (hread.2.fixture.attackable hm) (hread.2.fixture.array1 ▸ hload) hnext
        (hread.2.shows hshows.2)
      have hcount : done + (k + 1) = done + 1 + k := by omega
      rw [hcount]
      exact hrest

/-- After a demonstration has loaded the secret the lab measures the core: every run matches if it
speculates and the attack is tried at least three times, and otherwise no byte of any run does,
neither in the total, which `size_t` may wrap, nor in the count of any position. -/
theorem lab_on_core {m : Machine abi} {σ : Core Line} {runs : Int} (hruns : 0 < runs)
    (hbound : m.array1Size = BitVec.ofNat _ kArchitecturalArraySize)
    (hload : ∃ array1, m.array1 = loadFixture array1)
    (hshows : Shows latencies m.timing m.clock
      (σ.outcomes speculates (labAccesses tries m runs.toNat))) :
    (speculates = true ∧ 3 ≤ tries →
      LabSound runs (runReliabilityLab retryIfUncertain m runs tries).1) ∧
    (¬ (speculates = true ∧ 3 ≤ tries) →
      (runReliabilityLab retryIfUncertain m runs tries).1.exactMatches = 0 ∧
      (runReliabilityLab retryIfUncertain m runs tries).1.correctBytes = 0 ∧
      (runReliabilityLab retryIfUncertain m runs tries).1.perByteCorrectRuns =
        List.replicate kSecretLength 0) := by
  have hstart : Counted runs (List.replicate 0 (recoveredSecret speculates tries))
      (SpectreLabResult.start abi runs tries) := counted_start runs tries
  have hcounted := counted_labRuns hapart hpos hmax (attackable_loadFixture hbound hload) hload
    hstart hshows
  rw [Nat.zero_add] at hcounted
  have htally := tally_of_counted hruns hcounted
  have hlab : runReliabilityLab retryIfUncertain m runs tries =
      (List.range runs.toNat).foldl (fun st _ => labRun retryIfUncertain tries st)
        (SpectreLabResult.start abi runs tries, m) := by
    unfold runReliabilityLab
    dsimp only
    rw [if_neg (by omega)]
  rw [hlab]
  constructor
  · intro h
    refine (htally.labSound_iff hruns).2 ?_
    unfold recoveredSecret
    rw [if_pos h]
  · intro h
    have hunknown : recoveredSecret speculates tries =
        List.replicate kSecretLength unknownByte := if_neg h
    have hwrong : List.replicate kSecretLength unknownByte ≠ reference := by decide
    have hnone : (List.range kSecretLength).countP
        (byteCorrect (List.replicate kSecretLength unknownByte)) = 0 := by decide
    have hcounts : countsAfter (List.replicate kSecretLength unknownByte) runs.toNat =
        List.replicate kSecretLength 0 := by
      have hbytes : ∀ i ∈ List.range kSecretLength,
          byteCorrect (List.replicate kSecretLength unknownByte) i = false := by decide
      have hzero : ∀ i ∈ List.range kSecretLength,
          (if byteCorrect (List.replicate kSecretLength unknownByte) i then (runs.toNat : Int)
            else 0) = 0 := by
        intro i hi
        rw [hbytes i hi]
        rfl
      unfold countsAfter
      rw [List.map_congr_left hzero, List.map_const', List.length_range]
    refine ⟨?_, ?_, ?_⟩
    · rw [htally.exactMatches, hunknown, if_neg hwrong]
    · rw [htally.correctBytes, hunknown, hnone, Nat.zero_mul]
      rfl
    · rw [htally.perByte (by omega), hunknown, hcounts]

end Lab

/-! ## Every core has times to show

The accesses of a call depend on the times it has seen so far, since a second measurement is made
only after a failure.  On a core they are known beforehand, so times that follow the core exist. -/

instance (tries : Int) (byte : UInt8) : Decidable (Decisive₁ tries byte) := by
  unfold Decisive₁
  infer_instance

/-- The accesses for one byte on a core. -/
def elementPlan (speculates : Bool) (m : Machine abi) (maliciousX : SizeT abi) (tries : Int) :
    List (Access Line) :=
  measurementAccesses m maliciousX tries.toNat ++
    if speculates = true ∧ Decisive₁ tries (m.array1 maliciousX.toNat) then []
    else measurementAccesses m maliciousX (retryTries tries).toNat

def secretPlan (speculates : Bool) (m : Machine abi) (tries : Int) : List (Access Line) :=
  calibrateAccesses ++ (List.range kSecretLength).flatMap fun i =>
    elementPlan speculates m (BitVec.ofNat _ kArchitecturalArraySize + BitVec.ofNat _ i) tries

theorem SameFixture.measurementAccesses_eq {m m' : Machine abi} (h : SameFixture m m')
    (maliciousX : SizeT abi) (n : Nat) :
    measurementAccesses m' maliciousX n = measurementAccesses m maliciousX n := by
  unfold measurementAccesses attemptAccesses attackAccesses
  rw [h.array1, h.array1Size]

theorem SameFixture.elementPlan_eq {m m' : Machine abi} (h : SameFixture m m') (speculates : Bool)
    (maliciousX : SizeT abi) (tries : Int) :
    elementPlan speculates m' maliciousX tries = elementPlan speculates m maliciousX tries := by
  unfold elementPlan
  rw [h.measurementAccesses_eq, h.measurementAccesses_eq, h.array1]

theorem SameFixture.secretPlan_eq {m m' : Machine abi} (h : SameFixture m m') (speculates : Bool)
    (tries : Int) : secretPlan speculates m' tries = secretPlan speculates m tries := by
  unfold secretPlan
  simp only [h.elementPlan_eq]

section Plans

variable {latencies : Latencies} {speculates : Bool} {tries : Int} {threshold : UInt64}
  (hmax : tries ≤ intMax)
include hmax

theorem retryAccesses_eq_plan {m : Machine abi} {maliciousX : SizeT abi} (hm : Attackable m)
    (hx : kArchitecturalArraySize ≤ maliciousX.toNat) (hthreshold : latencies.Tells threshold)
    {σ : Core Line}
    (hshows : Shows latencies m.timing m.clock
      (σ.outcomes speculates (elementPlan speculates m maliciousX tries))) :
    retryAccesses m maliciousX tries threshold = elementPlan speculates m maliciousX tries := by
  unfold elementPlan at hshows
  rw [Core.outcomes_append, shows_append] at hshows
  have hfirst := measures_readByte hm hx hthreshold hshows.1
  have hdecided : (firstReading m maliciousX tries threshold).1.success = true ↔
      speculates = true ∧ Decisive₁ tries (m.array1 maliciousX.toNat) :=
    success_iff_decisive hmax hm.distinct hfirst threshold
  have hkept : SameFixture m (firstReading m maliciousX tries threshold).2 :=
    (keeps_sameFixture m).readByteWithThreshold ⟨rfl, rfl, rfl⟩ trivial tries threshold
  unfold retryAccesses elementPlan
  dsimp only
  rw [hkept.measurementAccesses_eq]
  simp only [hdecided]

theorem elementsAccesses_eq_plan {startOffset : SizeT abi} (hthreshold : latencies.Tells threshold)
    {indices : List Nat}
    (hindices : ∀ i ∈ indices,
      kArchitecturalArraySize ≤ (startOffset + BitVec.ofNat _ i : SizeT abi).toNat)
    {m : Machine abi} (hm : Attackable m) {σ : Core Line}
    (hshows : Shows latencies m.timing m.clock
      (σ.outcomes speculates (indices.flatMap fun i =>
        elementPlan speculates m (startOffset + BitVec.ofNat _ i) tries))) :
    elementsAccesses startOffset tries threshold m indices = indices.flatMap fun i =>
      elementPlan speculates m (startOffset + BitVec.ofNat _ i) tries := by
  induction indices generalizing m σ with
  | nil => rfl
  | cons i rest ih =>
      have hx := hindices i List.mem_cons_self
      have hemit : Attackable (m.emit (.element startOffset (BitVec.ofNat _ i)
          (startOffset + BitVec.ofNat _ i))) := ⟨hm.bound, hm.distinct⟩
      rw [List.flatMap_cons] at hshows ⊢
      rw [Core.outcomes_append, shows_append] at hshows
      have hfirst := retryAccesses_eq_plan hmax hemit hx hthreshold hshows.1
      have hadvances := advances_retryIfUncertain hemit hx tries threshold speculates σ
      rw [hfirst] at hadvances
      have hnext : Advances m
          (readElement retryIfUncertain startOffset tries threshold ([], m) i).2
          (σ.outcomes speculates (elementPlan speculates m (startOffset + BitVec.ofNat _ i)
            tries)) :=
        ⟨⟨hadvances.fixture.array1, hadvances.fixture.array1Size, hadvances.fixture.timing⟩,
          hadvances.clock⟩
      have hrest := hnext.shows hshows.2
      -- The plan looks at the fixture only, and reading an element leaves it as it is.
      simp only [← hnext.fixture.elementPlan_eq] at hrest ⊢
      have htail := ih (fun j hj => hindices j (List.mem_cons_of_mem i hj))
        (hnext.fixture.attackable hm) hrest
      rw [← htail, hnext.fixture.elementPlan_eq]
      exact congrArg (· ++ _) hfirst

/-- The plan of a string is carried out. -/
theorem readStringAccesses_eq_plan (hapart : latencies.Apart) (hpos : 0 < tries)
    {m : Machine abi} (hm : Attackable m) {σ : Core Line}
    (hshows : Shows latencies m.timing m.clock
      (σ.outcomes speculates (secretPlan speculates m tries))) :
    readStringAccesses m (BitVec.ofNat _ kArchitecturalArraySize) (BitVec.ofNat _ kSecretLength)
      tries = secretPlan speculates m tries := by
  have hlength : (BitVec.ofNat abi.sizeBits kSecretLength).toNat = kSecretLength :=
    toNat_ofNat_small (by decide)
  unfold secretPlan at hshows
  rw [Core.outcomes_append, shows_append] at hshows
  have hthreshold := tells_calibrateThreshold hapart hshows.1
  have hcalibrated := advances_calibrateThreshold m speculates σ
  have hindices : ∀ i ∈ List.range kSecretLength, kArchitecturalArraySize ≤
      (BitVec.ofNat _ kArchitecturalArraySize + BitVec.ofNat _ i : SizeT abi).toNat := by
    intro i hi
    have hargs : StringArgs (BitVec.ofNat abi.sizeBits kArchitecturalArraySize)
        (BitVec.ofNat _ kSecretLength) tries := secretArgs hpos
    rw [(element_toNat hargs (hlength.symm ▸ List.mem_range.1 hi)).2, arraySize_toNat]
    exact Nat.le_add_right _ _
  have hrest := hcalibrated.shows hshows.2
  unfold readStringAccesses secretPlan
  rw [hlength]
  simp only [← hcalibrated.fixture.elementPlan_eq] at hrest ⊢
  rw [elementsAccesses_eq_plan hmax hthreshold hindices (hcalibrated.fixture.attackable hm) hrest]

theorem labAccesses_eq_plan (hapart : latencies.Apart) (hpos : 0 < tries) {k : Nat}
    {m : Machine abi} (hm : Attackable m) (hload : ∃ array1, m.array1 = loadFixture array1)
    {σ : Core Line}
    (hshows : Shows latencies m.timing m.clock
      (σ.outcomes speculates (List.replicate k (secretPlan speculates m tries)).flatten)) :
    labAccesses tries m k = (List.replicate k (secretPlan speculates m tries)).flatten := by
  induction k generalizing m σ with
  | zero => rfl
  | succ k ih =>
      rw [List.replicate_succ, List.flatten_cons] at hshows ⊢
      rw [Core.outcomes_append, shows_append] at hshows
      have hplan := readStringAccesses_eq_plan hmax hapart hpos hm hshows.1
      have hadvances := (readSecret_on_core hapart hpos hmax hm hload
        (by rw [hplan]; exact hshows.1)).2
      rw [hplan] at hadvances
      have hrest := hadvances.shows hshows.2
      rw [← hadvances.fixture.secretPlan_eq] at hrest
      unfold labAccesses
      rw [hplan, ih (hadvances.fixture.attackable hm) (hadvances.fixture.array1 ▸ hload) hrest,
        hadvances.fixture.secretPlan_eq]

end Plans

/-- For every fixture and every core there are times of the lab that follow the core. -/
theorem exists_labTiming {latencies : Latencies} (hapart : latencies.Apart) (speculates : Bool)
    (tries : Int) (hpos : 0 < tries) (hmax : tries ≤ intMax) (k : Nat) {m : Machine abi}
    (hm : Attackable m) (hload : ∃ array1, m.array1 = loadFixture array1) (σ : Core Line) :
    ∃ timing : Nat → UInt64, Shows latencies timing m.clock
      (σ.outcomes speculates (labAccesses tries { m with timing := timing } k)) := by
  let plan := (List.replicate k (secretPlan speculates m tries)).flatten
  let timing : Nat → UInt64 := fun time =>
    latencies.time (((σ.outcomes speculates plan)[time - m.clock]?).getD false)
  have hshows : Shows latencies timing m.clock (σ.outcomes speculates plan) := by
    intro i isCached hi
    show latencies.time (((σ.outcomes speculates plan)[m.clock + i - m.clock]?).getD false) = _
    rw [Nat.add_sub_cancel_left, hi]
    rfl
  refine ⟨timing, ?_⟩
  have hplan : labAccesses tries { m with timing := timing } k = plan :=
    labAccesses_eq_plan (m := { m with timing := timing }) hmax hapart hpos
      ⟨hm.bound, hm.distinct⟩ hload hshows
  rw [hplan]
  exact hshows

/-! ## A core that speculates -/

/-- Hits take 40 cycles and misses 200. -/
def steadyLatencies : Latencies :=
  { hit := 40, miss := 200 }

theorem apart_steadyLatencies : steadyLatencies.Apart :=
  ⟨by decide, by decide⟩

/-- The process after `run_demo` has filled `array1`. -/
def loadedMachine (timing : Nat → UInt64) : Machine .x8664 :=
  { Machine.init .x8664 timing with array1 := loadFixture fun _ => 0 }

def coldCore : Core Line :=
  { cached := fun _ => false, counter := ⟨0, Nat.succ_pos 3⟩ }

theorem attackable_loadedMachine (timing : Nat → UInt64) : Attackable (loadedMachine timing) :=
  attackable_loadFixture rfl ⟨_, rfl⟩

theorem recovered_loadedMachine (timing : Nat → UInt64) :
    ((List.range kSecretLength).map fun i => recovered true 3
      ((loadedMachine timing).array1 (kArchitecturalArraySize + i))) = reference := by
  show ((List.range kSecretLength).map fun i => recovered true 3
    (loadFixture (fun _ => 0) (kArchitecturalArraySize + i))) = reference
  decide

theorem read_string_on_core_three :
    ∃ timing, (readString retryIfUncertain (loadedMachine timing)
      (BitVec.ofNat _ kArchitecturalArraySize) (BitVec.ofNat _ kSecretLength) 3).1 =
        reference := by
  rcases exists_labTiming apart_steadyLatencies true 3 (by decide) (by decide) 1
    (attackable_loadedMachine fun _ => 0) ⟨_, rfl⟩ coldCore with ⟨timing, hshows⟩
  have hpos : (0 : Int) < 3 := by decide
  have hmax : (3 : Int) ≤ intMax := by decide
  refine ⟨timing, ?_⟩
  have hread := read_string_on_core apart_steadyLatencies (attackable_loadedMachine timing)
    (secretArgs hpos) hmax (by
      unfold labAccesses at hshows
      rw [Core.outcomes_append, shows_append] at hshows
      exact hshows.1)
  have hlength : (BitVec.ofNat (Abi.sizeBits .x8664) kSecretLength).toNat = kSecretLength :=
    toNat_ofNat_small (by decide)
  rw [hread, hlength, arraySize_toNat]
  exact recovered_loadedMachine timing

theorem lab_on_core_three :
    ∃ timing, LabSound 2 (runReliabilityLab retryIfUncertain (loadedMachine timing) 2 3).1 := by
  have hpos : (0 : Int) < 3 := by decide
  have hmax : (3 : Int) ≤ intMax := by decide
  have hruns : (0 : Int) < 2 := by decide
  rcases exists_labTiming apart_steadyLatencies true 3 hpos hmax (2 : Int).toNat
    (attackable_loadedMachine fun _ => 0) ⟨_, rfl⟩ coldCore with ⟨timing, hshows⟩
  have hlab := lab_on_core apart_steadyLatencies hpos hmax hruns
    (attackable_loadedMachine timing).bound ⟨fun _ => 0, rfl⟩ hshows
  exact ⟨timing, hlab.1 ⟨rfl, by decide⟩⟩

end Extraction

end Spectre
end LatencyAnalyzer
