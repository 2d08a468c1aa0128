import LatencyAnalyzer.Spectre.Calibration
import LatencyAnalyzer.Spectre.Channel
import LatencyAnalyzer.Spectre.Reliability
import LatencyAnalyzer.Spectre.Scores

/-!
# Recovery — which bytes the attack reads on which core

The attack against a core that answers every timed load with one of two latencies.  If it
speculates, every byte behind the bound is recovered from three tries on, except for the byte 0,
which `analyze_scores` takes for its own runner-up.  If it does not, nothing is recovered, however
often the attack is tried.
-/

namespace LatencyAnalyzer
namespace Spectre

open Cxx Lib

section Recovery

variable {abi : Abi}

/-! ## The threshold on a core -/

def calibrateAccesses : List (Access Line) :=
  (List.range kCalibrationSamples).flatMap fun _ => calibrationAccesses

theorem outcomes_calibrateAccesses (speculates : Bool) (σ : Core Line) :
    σ.outcomes speculates calibrateAccesses =
      (List.range kCalibrationSamples).flatMap fun _ => [true, false] := by
  have hround : ∀ σ : Core Line, σ.outcomes speculates calibrationAccesses = [true, false] := by
    intro σ
    unfold calibrationAccesses
    simp [Core.outcomes, Core.step]
  unfold calibrateAccesses
  generalize kCalibrationSamples = n
  induction n with
  | zero => rfl
  | succ n ih =>
      rw [List.range_succ, List.flatMap_append, List.flatMap_append, Core.outcomes_append, ih,
        List.flatMap_singleton, List.flatMap_singleton, hround]

/-- A latency of hits and one of misses that are far enough apart, and exact in a `double`. -/
structure Latencies.Apart (latencies : Latencies) : Prop where
  gap : latencies.hit.toNat + 10 < latencies.miss.toNat
  small : latencies.miss.toNat < 2 ^ 53

section Threshold

variable {latencies : Latencies} {m : Machine abi}

theorem quantile_of_constant {times : List UInt64} {time : UInt64} {q : ℚ} (hne : times ≠ [])
    (htimes : ∀ t ∈ times, t = time) (hq : 0 ≤ q) (hone : q ≤ 1) :
    ⌊Lib.quantile (ticks times) q⌋₊ = time.toNat := by
  have hupper : ⌊Lib.quantile (ticks times) q⌋₊ < time.toNat + 1 :=
    floor_quantile_lt hne hq hone fun t ht => by
      rw [htimes t ht]
      exact Nat.lt_succ_self _
  have hcount := floor_lt_countP_le hne hq hone
  have hpos : 0 < times.countP (·.toNat ≤ ⌊Lib.quantile (ticks times) q⌋₊) :=
    lt_of_le_of_lt (Nat.zero_le _) hcount
  rcases List.countP_pos_iff.1 hpos with ⟨t, ht, hle⟩
  have hlower : t.toNat ≤ ⌊Lib.quantile (ticks times) q⌋₊ := of_decide_eq_true hle
  rw [htimes t ht] at hlower
  omega

theorem thresholdOf_constant {hits misses : List UInt64} (hhits : hits ≠ [])
    (hmisses : misses ≠ []) (hhit : ∀ t ∈ hits, t = latencies.hit)
    (hmiss : ∀ t ∈ misses, t = latencies.miss) (hapart : latencies.Apart) :
    latencies.Tells (thresholdOf hits misses) := by
  have hgap := hapart.gap
  have hsmall := hapart.small
  have hp99 : hitP99 hits = latencies.hit.toNat :=
    (hitP99_eq hits).trans (quantile_of_constant hhits hhit (by norm_num) (by norm_num))
  have hmedian : missMedian misses = latencies.miss.toNat :=
    (missMedian_eq misses).trans (quantile_of_constant hmisses hmiss (by norm_num) (by norm_num))
  have hvalue : (thresholdOf hits misses).toNat =
      if hitP99 hits + 10 < missMedian misses then (hitP99 hits + missMedian misses) / 2
      else hitP99 hits + 20 := toNat_thresholdOf (by omega) (by omega)
  rw [hp99, hmedian, if_pos hgap] at hvalue
  constructor
  · rw [UInt64.le_iff_toNat_le, hvalue]
    omega
  · rw [UInt64.lt_iff_toNat_lt, hvalue]
    omega

theorem tells_calibrateThreshold (hapart : latencies.Apart) {speculates : Bool} {σ : Core Line}
    (hshows : Shows latencies m.timing m.clock (σ.outcomes speculates calibrateAccesses)) :
    latencies.Tells (calibrateThreshold m).1 := by
  have hsamples : (calibrationLoop m).1 =
      (hitTimings m kCalibrationSamples, missTimings m kCalibrationSamples) :=
    (sampled_calibrationLoop m).samples
  have hthreshold : (calibrateThreshold m).1 =
      thresholdOf (calibrationLoop m).1.1 (calibrationLoop m).1.2 := rfl
  rw [outcomes_calibrateAccesses] at hshows
  have hhit : ∀ t ∈ hitTimings m kCalibrationSamples, t = latencies.hit := by
    intro t ht
    rcases List.mem_map.1 ht with ⟨k, hk, rfl⟩
    exact hshows.block (w := 2) (fun _ => rfl) (List.mem_range.1 hk) 0 true rfl
  have hmiss : ∀ t ∈ missTimings m kCalibrationSamples, t = latencies.miss := by
    intro t ht
    rcases List.mem_map.1 ht with ⟨k, hk, rfl⟩
    exact hshows.block (w := 2) (fun _ => rfl) (List.mem_range.1 hk) 1 false rfl
  have hlength := hitTimings_length m kCalibrationSamples
  have hlength' := missTimings_length m kCalibrationSamples
  rw [hthreshold, hsamples]
  dsimp only
  generalize hitTimings m kCalibrationSamples = hits at hhit hlength ⊢
  generalize missTimings m kCalibrationSamples = misses at hmiss hlength' ⊢
  exact thresholdOf_constant (List.ne_nil_of_length_eq_add_one hlength)
    (List.ne_nil_of_length_eq_add_one hlength') hhit hmiss hapart

end Threshold

/-! ## Counting attempts -/

/-- The training bytes tell the attempts apart. -/
def DistinctTraining (m : Machine abi) : Prop :=
  ∀ i < kArchitecturalArraySize, ∀ j < kArchitecturalArraySize, m.array1 i = m.array1 j → i = j

/-- The candidate that stands for a byte. -/
def candidate (value : UInt8) : Fin kProbeValues :=
  ⟨value.toNat, value.toNat_lt⟩

theorem candidate_injective {value value' : UInt8} (h : candidate value = candidate value') :
    value = value' :=
  UInt8.toNat_inj.1 (Fin.ext_iff.1 h)

/-- Every sixteenth attempt trains with the same index. -/
theorem count_mod (k n : Nat) (hk : k < kArchitecturalArraySize) :
    Nat.count (fun attempt => attempt % kArchitecturalArraySize = k) n = (n + 15 - k) / 16 := by
  unfold kArchitecturalArraySize at hk ⊢
  induction n with
  | zero =>
      rw [Nat.count_zero]
      omega
  | succ n ih =>
      rw [Nat.count_succ, ih]
      split <;> omega

section Counts

variable {m : Machine abi} {maliciousX : SizeT abi}

theorem leaked_le (speculates : Bool) (n : Nat) (c : Fin kProbeValues) :
    leaked speculates m maliciousX n c ≤ n :=
  Nat.count_le _

/-- The byte behind the bound shows in every attempt. -/
theorem leaked_secret (n : Nat) :
    leaked true m maliciousX n (candidate (m.array1 maliciousX.toNat)) = n := by
  unfold leaked
  rw [Nat.count_iff_forall]
  intro attempt _
  unfold hot candidate
  simp

/-- Any other byte shows as often as it is trained with. -/
theorem leaked_other {speculates : Bool} {c : Fin kProbeValues}
    (hc : speculates = true → c ≠ candidate (m.array1 maliciousX.toNat)) (n : Nat) :
    leaked speculates m maliciousX n c =
      Nat.count (fun attempt => c = candidate (trainingByte m attempt)) n := by
  unfold leaked
  refine count_congr fun attempt _ => ?_
  unfold hot
  rw [Bool.or_eq_true, Bool.and_eq_true, decide_eq_true_eq, decide_eq_true_eq]
  constructor
  · rintro (htraining | ⟨hspeculates, hsecret⟩)
    · exact Fin.ext htraining
    · exact absurd (Fin.ext hsecret) (hc hspeculates)
  · rintro rfl
    exact Or.inl rfl

section Distinct

variable (hdistinct : DistinctTraining m)
include hdistinct

theorem count_training {k : Nat} (hk : k < kArchitecturalArraySize) (n : Nat) :
    Nat.count (fun attempt => candidate (m.array1 k) = candidate (trainingByte m attempt)) n =
      (n + 15 - k) / 16 := by
  rw [← count_mod k n hk]
  refine count_congr fun attempt _ => ?_
  have hmod : attempt % kArchitecturalArraySize < kArchitecturalArraySize :=
    Nat.mod_lt _ (by decide)
  unfold trainingByte
  constructor
  · intro heq
    exact (hdistinct k hk _ hmod (candidate_injective heq)).symm
  · intro heq
    rw [heq]

theorem count_training_le (c : Fin kProbeValues) (n : Nat) :
    Nat.count (fun attempt => c = candidate (trainingByte m attempt)) n ≤ (n + 15) / 16 := by
  by_cases hc : ∃ k < kArchitecturalArraySize, c = candidate (m.array1 k)
  · rcases hc with ⟨k, hk, rfl⟩
    rw [count_training hdistinct hk]
    omega
  · -- A candidate that is never trained with is never counted.
    have hnone : Nat.count (fun attempt => c = candidate (trainingByte m attempt)) n = 0 :=
      Nat.count_iff_forall_not.2 fun attempt _ heq => hc ⟨_, Nat.mod_lt _ (by decide), heq⟩
    rw [hnone]
    exact Nat.zero_le _

/-- Next to any candidate there is another one that shows in nearly every sixteenth attempt. -/
theorem exists_trained_ne (c : Fin kProbeValues) (n : Nat) :
    ∃ c' ≠ c, (n + 14) / 16 ≤
      Nat.count (fun attempt => c' = candidate (trainingByte m attempt)) n := by
  have hne : candidate (m.array1 0) ≠ candidate (m.array1 1) := fun heq =>
    absurd (hdistinct 0 (by decide) 1 (by decide) (candidate_injective heq)) (by decide)
  by_cases hc : candidate (m.array1 0) = c
  · refine ⟨candidate (m.array1 1), fun heq => hne (hc.trans heq.symm), ?_⟩
    rw [count_training hdistinct (by decide)]
    omega
  · refine ⟨candidate (m.array1 0), hc, ?_⟩
    rw [count_training hdistinct (by decide)]
    omega

end Distinct

end Counts

/-! ## What one measurement decides -/

/-- The scores of a measurement on the core. -/
def Measures (speculates : Bool) (m : Machine abi) (maliciousX : SizeT abi) (tries : Int)
    (scores : CandidateScores) : Prop :=
  ∀ c, scores.score c = (leaked speculates m maliciousX tries.toNat c : Nat)

section Decision

variable {m : Machine abi} {maliciousX : SizeT abi} {tries : Int} {scores : CandidateScores}
  (hpos : 0 ≤ tries)
include hpos

theorem Measures.bounds {speculates : Bool} (h : Measures speculates m maliciousX tries scores)
    (c : Fin kProbeValues) : 0 ≤ scores.score c ∧ scores.score c ≤ tries := by
  have hle : leaked speculates m maliciousX tries.toNat c ≤ tries.toNat := leaked_le _ _ _
  rw [h c]
  omega

/-- On a core that speculates the byte behind the bound has the best score. -/
theorem Measures.best (hdistinct : DistinctTraining m)
    (h : Measures true m maliciousX tries scores) :
    scores.score (analyzeLoop scores.score).1 = tries ∧
      (2 ≤ tries →
        (analyzeLoop scores.score).1 = candidate (m.array1 maliciousX.toNat)) := by
  have hsecret : scores.score (candidate (m.array1 maliciousX.toNat)) = tries := by
    rw [h, leaked_secret]
    exact Int.toNat_of_nonneg hpos
  have hargmax := leastArgmax_analyzeLoop scores.score
  have hge := hargmax.1 (candidate (m.array1 maliciousX.toNat))
  have hle := (h.bounds hpos (analyzeLoop scores.score).1).2
  -- A byte that is only trained with has every sixteenth attempt at most, rounded up.
  refine ⟨by omega, fun htwo => ?_⟩
  by_contra hne
  have hother := h (analyzeLoop scores.score).1
  rw [leaked_other fun _ => hne] at hother
  have hcount := count_training_le hdistinct (analyzeLoop scores.score).1 tries.toNat
  omega

variable (hmax : tries ≤ intMax) (threshold : UInt64)
include hmax

/-- The decision of `analyze_scores`, with the wrap of the doubled score written out. -/
theorem Measures.success_iff {speculates : Bool}
    (h : Measures speculates m maliciousX tries scores) :
    (analyzeScores scores threshold tries).success = true ↔
      (if 2 * scores.score (analyzeLoop scores.score).2 + 5 ≤ intMax then
          2 * scores.score (analyzeLoop scores.score).2 + 5
        else 2 * scores.score (analyzeLoop scores.score).2 + 5 - 2 ^ 32) ≤
          scores.score (analyzeLoop scores.score).1 ∧
        max 5 (tries / 40) ≤ scores.score (analyzeLoop scores.score).1 := by
  have hsecond := h.bounds hpos (analyzeLoop scores.score).2
  rw [analyzeScores_success, max_five_tdiv,
    wrapInt_double_add_five hsecond.1 (hsecond.2.trans hmax)]

variable (hdistinct : DistinctTraining m)
include hdistinct

/-- Without speculation the two best training bytes are too close to each other. -/
theorem not_success_of_not_speculates (h : Measures false m maliciousX tries scores) :
    ¬ (analyzeScores scores threshold tries).success = true := by
  rw [h.success_iff hpos hmax]
  have hscore : ∀ c, scores.score c =
      (Nat.count (fun attempt => c = candidate (trainingByte m attempt)) tries.toNat : Nat) := by
    intro c
    have hsame : leaked false m maliciousX tries.toNat c =
        Nat.count (fun attempt => c = candidate (trainingByte m attempt)) tries.toNat :=
      leaked_other (fun hfalse => absurd hfalse Bool.false_ne_true) _
    rw [h c, hsame]
  have hupper : ∀ c, scores.score c ≤ ((tries.toNat + 15) / 16 : Nat) := by
    intro c
    rw [hscore c]
    exact_mod_cast count_training_le hdistinct c tries.toNat
  have hbest := hupper (analyzeLoop scores.score).1
  have hsecond := hupper (analyzeLoop scores.score).2
  have hmax' := intMax_eq
  by_cases hrival : ZeroHasRival scores.score
  · rcases exists_trained_ne hdistinct (analyzeLoop scores.score).1 tries.toNat with ⟨c, hc, hle⟩
    have hclose := (maxWithout_analyzeLoop hrival).2 c hc
    have hlower : (((tries.toNat + 14) / 16 : Nat) : Int) ≤ scores.score c := by
      rw [hscore c]
      exact_mod_cast hle
    rintro ⟨hseparated, hevidence⟩
    rw [if_pos (by omega)] at hseparated
    omega
  · -- Candidate 0 alone at the top is its own runner-up.
    rw [analyzeLoop_of_no_rival hrival] at hbest ⊢
    dsimp only at hbest ⊢
    rintro ⟨hseparated, hevidence⟩
    rw [if_pos (by omega)] at hseparated
    omega

/-- What a single measurement needs: seven tries, and a byte other than 0 or so many tries that
the doubled score leaves the range of `int`. -/
def Decisive₁ (tries : Int) (byte : UInt8) : Prop :=
  7 ≤ tries ∧ (byte ≠ 0 ∨ intMax < 2 * tries + 5)

theorem success_iff_of_speculates (h : Measures true m maliciousX tries scores) :
    (analyzeScores scores threshold tries).success = true ↔
      Decisive₁ tries (m.array1 maliciousX.toNat) := by
  rcases h.best hpos hdistinct with ⟨hbest, hplace⟩
  rw [h.success_iff hpos hmax, hbest]
  unfold Decisive₁
  have hmax' := intMax_eq
  -- Less than five attempts are never enough evidence.
  by_cases hfew : tries < 5
  · constructor
    · rintro ⟨_, hevidence⟩
      omega
    · rintro ⟨hseven, _⟩
      omega
  have hplace := hplace (by omega)
  by_cases hrival : ZeroHasRival scores.score
  · -- The runner-up has been trained with, and no more often than every sixteenth time.
    rcases maxWithout_analyzeLoop hrival with ⟨⟨j, hj, hjv⟩, hother⟩
    rcases exists_trained_ne hdistinct (analyzeLoop scores.score).1 tries.toNat with ⟨c, hc, hle⟩
    have hclose := hother c hc
    rw [hplace] at hj hc
    have hlower : (((tries.toNat + 14) / 16 : Nat) : Int) ≤ scores.score c := by
      rw [h c, leaked_other fun _ => hc]
      exact_mod_cast hle
    have hupper : scores.score j ≤ ((tries.toNat + 15) / 16 : Nat) := by
      rw [h j, leaked_other fun _ => hj]
      exact_mod_cast count_training_le hdistinct j tries.toNat
    -- A byte of 0 would have all the attempts, and no rival could reach it.
    have hbyte : m.array1 maliciousX.toNat ≠ 0 := by
      rintro hzero
      rcases hrival with ⟨r, hr, hrle⟩
      have hcandidate : (0 : Fin kProbeValues) = candidate (m.array1 maliciousX.toNat) := by
        rw [hzero]
        rfl
      have hzeroscore : scores.score 0 = tries := by
        rw [hcandidate, ← hplace]
        exact hbest
      have hrival' : scores.score r ≤ ((tries.toNat + 15) / 16 : Nat) := by
        rw [h r, leaked_other fun _ => hcandidate ▸ hr]
        exact_mod_cast count_training_le hdistinct r tries.toNat
      omega
    rw [← hjv] at hclose ⊢
    rw [if_pos (by omega)]
    constructor
    · rintro ⟨hseparated, _⟩
      exact ⟨by omega, Or.inl hbyte⟩
    · rintro ⟨hseven, _⟩
      exact ⟨by omega, by omega⟩
  · -- The byte is 0, and its own score is reported as the runner-up's.
    have hzero : m.array1 maliciousX.toNat = 0 := by
      by_contra hne
      refine hrival ⟨candidate (m.array1 maliciousX.toNat), fun heq => hne ?_, ?_⟩
      · exact candidate_injective (heq.trans rfl)
      · rw [← hplace]
        exact (leastArgmax_analyzeLoop scores.score).1 0
    have hloop := analyzeLoop_of_no_rival hrival
    have hsecond : scores.score (analyzeLoop scores.score).2 = tries := by
      rw [hloop] at hbest ⊢
      exact hbest
    rw [hsecond]
    constructor
    · rintro ⟨hseparated, _⟩
      split at hseparated
      · omega
      · exact ⟨by omega, Or.inr (by omega)⟩
    · rintro ⟨hseven, hne | hover⟩
      · exact absurd hzero hne
      · rw [if_neg (by omega)]
        exact ⟨by omega, by omega⟩

omit hmax in
theorem guessedValue_of_speculates (h : Measures true m maliciousX tries scores)
    (htwo : 2 ≤ tries) :
    (analyzeScores scores threshold tries).guessedValue = m.array1 maliciousX.toNat := by
  show UInt8.ofNat (analyzeLoop scores.score).1.val = _
  rw [(h.best hpos hdistinct).2 htwo]
  exact UInt8.ofNat_toNat

end Decision

/-- One measurement of any number of attempts, also of none. -/
theorem success_iff_decisive {m : Machine abi} {maliciousX : SizeT abi} {attempts : Int}
    {speculates : Bool} {scores : CandidateScores} (hmax : attempts ≤ intMax)
    (hdistinct : DistinctTraining m) (h : Measures speculates m maliciousX attempts scores)
    (threshold : UInt64) :
    (analyzeScores scores threshold attempts).success = true ↔
      speculates = true ∧ Decisive₁ attempts (m.array1 maliciousX.toNat) := by
  by_cases hpos : 0 ≤ attempts
  · cases speculates with
    | false =>
        have hnot := not_success_of_not_speculates hpos hmax threshold hdistinct h
        exact iff_of_false hnot fun hspeculates => nomatch hspeculates.1
    | true =>
        rw [success_iff_of_speculates hpos hmax threshold hdistinct h]
        exact ⟨fun hdecisive => ⟨rfl, hdecisive⟩, And.right⟩
  · -- Without attempts all scores are 0.
    refine iff_of_false ?_ ?_
    · rw [analyzeScores_success]
      rintro ⟨_, hevidence⟩
      have hzero := h (analyzeLoop scores.score).1
      have hle : leaked speculates m maliciousX attempts.toNat (analyzeLoop scores.score).1 ≤
          attempts.toNat := leaked_le _ _ _
      omega
    · rintro ⟨_, hseven, _⟩
      omega

/-! ## The retry -/

/-- The fixture, as far as the attack depends on it. -/
structure Attackable (m : Machine abi) : Prop where
  bound : m.array1Size = BitVec.ofNat _ kArchitecturalArraySize
  distinct : DistinctTraining m

/-- What an attack leaves as it is. -/
structure SameFixture (m m' : Machine abi) : Prop where
  array1 : m'.array1 = m.array1
  array1Size : m'.array1Size = m.array1Size
  timing : m'.timing = m.timing

theorem keeps_sameFixture (m : Machine abi) :
    Keeps (fun _ : SizeT abi => True) (SameFixture m) where
  touch := fun h _ => ⟨h.array1, h.array1Size, h.timing⟩
  timedTouch := fun h _ => ⟨h.array1, h.array1Size, h.timing⟩
  attack := fun h _ _ => ⟨h.array1, h.array1Size, h.timing⟩
  victim := by
    intro m' h x _
    unfold victimFunction
    dsimp only
    split <;> exact ⟨h.array1, h.array1Size, h.timing⟩

theorem SameFixture.attackable {m m' : Machine abi} (h : SameFixture m m') (hm : Attackable m) :
    Attackable m' := by
  refine ⟨h.array1Size.trans hm.bound, ?_⟩
  unfold DistinctTraining
  rw [h.array1]
  exact hm.distinct

/-- `retry_if_uncertain`: the second measurement is made only after a first one that failed. -/
def retryAccesses (m : Machine abi) (maliciousX : SizeT abi) (tries : Int) (threshold : UInt64) :
    List (Access Line) :=
  let first := readByteWithThreshold m maliciousX tries threshold
  measurementAccesses m maliciousX tries.toNat ++
    if first.1.success then []
    else measurementAccesses first.2 maliciousX (retryTries tries).toNat

/-- The bytes that the attack recovers. -/
def Legible (speculates : Bool) (tries : Int) (byte : UInt8) : Prop :=
  speculates = true ∧ 3 ≤ tries ∧ (byte ≠ 0 ∨ intMax < 2 * tries + 5)

instance (speculates : Bool) (tries : Int) (byte : UInt8) :
    Decidable (Legible speculates tries byte) := by
  unfold Legible
  infer_instance

theorem retryTries_le (tries : Int) : retryTries tries ≤ 5000 :=
  min_le_right _ _

theorem retryTries_of_le {tries : Int} (hpos : 0 ≤ tries) (hsmall : tries ≤ 1666) :
    retryTries tries = 3 * tries := by
  have hmax := intMax_eq
  have hmin := intMin_eq
  unfold retryTries
  rw [wrapInt_of_inInt ⟨by omega, by omega⟩]
  omega

/-- A first measurement that is not decisive is saved by the second one from three tries on. -/
theorem legible_iff {speculates : Bool} {tries : Int} (hpos : 0 < tries) (byte : UInt8) :
    Legible speculates tries byte ↔
      (speculates = true ∧ Decisive₁ tries byte) ∨
        (tries < 7 ∧ speculates = true ∧ Decisive₁ (retryTries tries) byte) := by
  unfold Legible Decisive₁
  have hmax := intMax_eq
  by_cases hseven : 7 ≤ tries
  · constructor
    · rintro ⟨hspeculates, _, hbyte⟩
      exact Or.inl ⟨hspeculates, hseven, hbyte⟩
    · rintro (⟨hspeculates, _, hbyte⟩ | ⟨hfew, _⟩)
      · exact ⟨hspeculates, by omega, hbyte⟩
      · omega
  -- So few tries are tripled without reaching the limit of `retry_if_uncertain`.
  · rw [retryTries_of_le (by omega) (by omega)]
    constructor
    · rintro ⟨hspeculates, hthree, hbyte⟩
      exact Or.inr ⟨by omega, hspeculates, by omega, Or.inl (hbyte.resolve_right (by omega))⟩
    · rintro (⟨_, hseven', _⟩ | ⟨_, hspeculates, hthree, hbyte⟩)
      · omega
      · exact ⟨hspeculates, by omega, Or.inl (hbyte.resolve_right (by omega))⟩

section Readings

variable (m : Machine abi) (maliciousX : SizeT abi) (tries : Int) (threshold : UInt64)

abbrev firstReading : SpectreResult × Machine abi :=
  readByteWithThreshold m maliciousX tries threshold

/-- The measurement after a first one that failed. -/
abbrev secondReading : SpectreResult × Machine abi :=
  readByteWithThreshold (firstReading m maliciousX tries threshold).2 maliciousX
    (retryTries tries) threshold

variable {m maliciousX tries threshold}

theorem retryIfUncertain_of_success
    (h : (firstReading m maliciousX tries threshold).1.success = true) :
    (retryIfUncertain m maliciousX tries threshold).1 =
      (firstReading m maliciousX tries threshold).1 := by
  unfold retryIfUncertain
  rw [if_pos h]

theorem retryIfUncertain_of_failure
    (h : ¬ (firstReading m maliciousX tries threshold).1.success = true) :
    (retryIfUncertain m maliciousX tries threshold).1 =
      if (firstReading m maliciousX tries threshold).1.score <
          (secondReading m maliciousX tries threshold).1.score then
        (secondReading m maliciousX tries threshold).1
      else (firstReading m maliciousX tries threshold).1 := by
  unfold retryIfUncertain
  rw [if_neg h]

end Readings

section Retry

variable {m : Machine abi} {maliciousX : SizeT abi} {tries : Int} {threshold : UInt64}
  {latencies : Latencies} {speculates : Bool} {σ : Core Line}
  (hm : Attackable m) (hx : kArchitecturalArraySize ≤ maliciousX.toNat)
  (hthreshold : latencies.Tells threshold)
include hm hx hthreshold

theorem measures_readByte
    (hshows : Shows latencies m.timing m.clock
      (σ.outcomes speculates (measurementAccesses m maliciousX tries.toNat))) :
    Measures speculates m maliciousX tries (attemptLoop m maliciousX tries threshold).1 :=
  fun c => score_attemptLoop hm.bound hx speculates hshows hthreshold c

theorem retryIfUncertain_on_core (hpos : 0 < tries) (hmax : tries ≤ intMax)
    (hshows : Shows latencies m.timing m.clock
      (σ.outcomes speculates (retryAccesses m maliciousX tries threshold))) :
    ((retryIfUncertain m maliciousX tries threshold).1.success = true ↔
        Legible speculates tries (m.array1 maliciousX.toNat)) ∧
      ((retryIfUncertain m maliciousX tries threshold).1.success = true →
        (retryIfUncertain m maliciousX tries threshold).1.guessedValue =
          m.array1 maliciousX.toNat) := by
  have hintMax := intMax_eq
  unfold retryAccesses at hshows
  dsimp only at hshows
  rw [Core.outcomes_append, shows_append,
    length_outcomes_measurement hm.bound hx] at hshows
  have hfirst := measures_readByte hm hx hthreshold hshows.1
  have hdecided : (firstReading m maliciousX tries threshold).1.success = true ↔
      speculates = true ∧ Decisive₁ tries (m.array1 maliciousX.toNat) :=
    success_iff_decisive hmax hm.distinct hfirst threshold
  rw [legible_iff hpos]
  by_cases hsuccess : (firstReading m maliciousX tries threshold).1.success = true
  · rw [retryIfUncertain_of_success hsuccess]
    have hdecisive := hdecided.1 hsuccess
    refine ⟨iff_of_true hsuccess (Or.inl hdecisive), fun _ => ?_⟩
    rcases hdecisive with ⟨rfl, hseven, _⟩
    exact guessedValue_of_speculates hpos.le threshold hm.distinct hfirst (by omega)
  · -- The second measurement starts where the first one has ended.
    have hkept : SameFixture m (firstReading m maliciousX tries threshold).2 :=
      (keeps_sameFixture m).readByteWithThreshold ⟨rfl, rfl, rfl⟩ trivial tries threshold
    have hclock : (firstReading m maliciousX tries threshold).2.clock =
        m.clock + kProbeValues * tries.toNat :=
      (collected_attemptLoop m maliciousX tries threshold).clock
    have hsecondShows := hshows.2
    rw [if_neg hsuccess, ← hclock, ← hkept.timing] at hsecondShows
    have hm' := hkept.attackable hm
    have hsecond := measures_readByte hm' hx hthreshold hsecondShows
    have hdecided' := success_iff_decisive
      ((retryTries_le tries).trans (by omega)) hm'.distinct hsecond threshold
    rw [hkept.array1] at hdecided'
    rw [retryIfUncertain_of_failure hsuccess]
    by_cases hsuccess' : (secondReading m maliciousX tries threshold).1.success = true
    · rcases hdecided'.1 hsuccess' with ⟨rfl, hdecisive⟩
      have hle := retryTries_le tries
      -- The first one would have succeeded with seven tries.
      have hfew : tries < 7 := by
        by_contra hmany
        refine hsuccess (hdecided.2 ⟨rfl, by omega, ?_⟩)
        exact Or.inl (hdecisive.2.resolve_right (by omega))
      have hthrice := retryTries_of_le hpos.le (by omega)
      -- The second measurement has three times the score of the first one.
      have hscore := (hfirst.best hpos.le hm.distinct).1
      have hscore' := (hsecond.best (by omega) hm'.distinct).1
      have hbetter : (firstReading m maliciousX tries threshold).1.score <
          (secondReading m maliciousX tries threshold).1.score := by
        show (attemptLoop m maliciousX tries threshold).1.score _ <
          (attemptLoop _ maliciousX (retryTries tries) threshold).1.score _
        rw [hscore, hscore', hthrice]
        omega
      rw [if_pos hbetter]
      refine ⟨iff_of_true hsuccess' (Or.inr ⟨hfew, rfl, hdecisive⟩), fun _ => ?_⟩
      rw [← hkept.array1]
      have hseven := hdecisive.1
      exact guessedValue_of_speculates (by omega) threshold hm'.distinct hsecond (by omega)
    · have hfails : ¬ (if (firstReading m maliciousX tries threshold).1.score <
            (secondReading m maliciousX tries threshold).1.score then
          (secondReading m maliciousX tries threshold).1
        else (firstReading m maliciousX tries threshold).1).success = true := by
        split
        · exact hsuccess'
        · exact hsuccess
      refine ⟨iff_of_false hfails ?_, fun hres => absurd hres hfails⟩
      rintro (hdecisive | ⟨_, hdecisive⟩)
      · exact hsuccess (hdecided.2 hdecisive)
      · exact hsuccess' (hdecided'.2 hdecisive)

end Retry

end Recovery

end Spectre
end LatencyAnalyzer
