import LatencyAnalyzer.Spectre.Probes
import LatencyAnalyzer.Statistics.Order

/-!
# Calibration — the threshold lies between the hit times and the miss times

The threshold starts from the integer parts of two quantiles.  The times are integers, so taking the
integer part of a quantile moves no time from one side of it to the other, and the counts of ranks
carry over.
-/

namespace LatencyAnalyzer
namespace Spectre

open Cxx

section Calibration

variable {abi : Abi}

/-! ## The two samples -/

/-- The times of the first `n` accesses to the cached line. -/
def hitTimings (m : Machine abi) (n : Nat) : List UInt64 :=
  (List.range n).map fun k => m.timing (m.clock + 2 * k)

/-- The times of the first `n` accesses to the flushed line. -/
def missTimings (m : Machine abi) (n : Nat) : List UInt64 :=
  (List.range n).map fun k => m.timing (m.clock + (2 * k + 1))

theorem hitTimings_length (m : Machine abi) (n : Nat) : (hitTimings m n).length = n := by
  rw [hitTimings, List.length_map, List.length_range]

theorem missTimings_length (m : Machine abi) (n : Nat) : (missTimings m n).length = n := by
  rw [missTimings, List.length_map, List.length_range]

/-- The state of the loop of `calibrate_threshold` after `n` rounds from `m`. -/
structure Sampled (m : Machine abi) (n : Nat) (st : (List UInt64 × List UInt64) × Machine abi) :
    Prop where
  timing : st.2.timing = m.timing
  clock : st.2.clock = m.clock + 2 * n
  samples : st.1 = (hitTimings m n, missTimings m n)

theorem Sampled.step {m : Machine abi} {n : Nat} {st : (List UInt64 × List UInt64) × Machine abi}
    (h : Sampled m n st) : Sampled m (n + 1) (calibrationSample st) := by
  have hclock : (calibrationSample st).2.clock = st.2.clock + 1 + 1 := rfl
  refine ⟨h.timing, ?_, ?_⟩
  · rw [hclock, h.clock]
    omega
  · have hsamples : (calibrationSample st).1 =
        (st.1.1 ++ [st.2.timing st.2.clock], st.1.2 ++ [st.2.timing (st.2.clock + 1)]) := rfl
    rw [hsamples, h.samples, h.timing, h.clock]
    unfold hitTimings missTimings
    rw [List.range_succ, List.map_append, List.map_append, Nat.add_assoc]
    rfl

theorem sampled_calibrationLoop (m : Machine abi) :
    Sampled m kCalibrationSamples (calibrationLoop m) := by
  unfold calibrationLoop
  generalize kCalibrationSamples = n
  induction n with
  | zero => exact ⟨rfl, rfl, rfl⟩
  | succ n ih =>
      rw [List.range_succ, List.foldl_append]
      exact ih.step

/-! ## Integer parts of quantiles -/

/-- `static_cast<std::uint64_t>(hit.p99)`, before it is put into 64 bits. -/
def hitP99 (hits : List UInt64) : Nat :=
  ⌊(Statistics.summarizeTicks Rat.sqrt hits : Statistics.Summary ℚ).p99⌋₊

/-- `static_cast<std::uint64_t>(miss.median)`, before it is put into 64 bits. -/
def missMedian (misses : List UInt64) : Nat :=
  ⌊(Statistics.summarizeTicks Rat.sqrt misses : Statistics.Summary ℚ).median⌋₊

/-- The times as the numbers that are summarized. -/
def ticks (times : List UInt64) : List ℚ :=
  (times.map UInt64.toNat).map Nat.cast

theorem hitP99_eq (hits : List UInt64) :
    hitP99 hits = ⌊Lib.quantile (ticks hits) (99 / 100)⌋₊ := by
  unfold hitP99 Statistics.summarizeTicks ticks
  rw [Statistics.p99_summarizeImpl, List.map_map]
  rfl

theorem missMedian_eq (misses : List UInt64) :
    missMedian misses = ⌊Lib.quantile (ticks misses) (50 / 100)⌋₊ := by
  unfold missMedian Statistics.summarizeTicks ticks
  rw [Statistics.median_summarizeImpl, List.map_map]
  rfl

section Quantiles

variable {times : List UInt64} {q : ℚ}

theorem ticks_ne_nil (htimes : times ≠ []) : ticks times ≠ [] := by
  unfold ticks
  simpa using htimes

theorem ticks_length : (ticks times).length = times.length := by
  unfold ticks
  rw [List.length_map, List.length_map]

theorem quantile_ticks_nonneg (htimes : times ≠ []) (hq : 0 ≤ q) (hone : q ≤ 1) :
    0 ≤ Lib.quantile (ticks times) q := by
  refine le_trans ?_ (Lib.quantile_mono (ticks_ne_nil htimes) le_rfl hq hone)
  have hmem := Lib.ranked_mem 0 (List.length_pos_iff.2 (ticks_ne_nil htimes))
  rw [Lib.quantile_zero]
  rcases List.mem_map.1 hmem with ⟨time, _, htime⟩
  exact htime ▸ Nat.cast_nonneg time

/-- The times up to the rank below the position of a quantile are at most its integer part. -/
theorem floor_lt_countP_le (htimes : times ≠ []) (hq : 0 ≤ q) (hone : q ≤ 1) :
    ⌊q * ((times.length - 1 : Nat) : ℚ)⌋₊ <
      times.countP (·.toNat ≤ ⌊Lib.quantile (ticks times) q⌋₊) := by
  have hcount := Lib.floor_lt_countP_quantile (ticks_ne_nil htimes) hq hone
  have hcast : (ticks times).countP (· ≤ Lib.quantile (ticks times) q) =
      (times.map UInt64.toNat).countP (· ≤ ⌊Lib.quantile (ticks times) q⌋₊) :=
    Lib.countP_natCast_le (quantile_ticks_nonneg htimes hq hone) _
  rw [ticks_length, hcast, List.countP_map] at hcount
  exact hcount

/-- Those from the rank above the position on are at least its integer part. -/
theorem length_le_ceil_add_countP (htimes : times ≠ []) (hq : 0 ≤ q) (hone : q ≤ 1) :
    times.length ≤ ⌈q * ((times.length - 1 : Nat) : ℚ)⌉₊ +
      times.countP (⌊Lib.quantile (ticks times) q⌋₊ ≤ ·.toNat) := by
  have hcount := Lib.length_le_ceil_add_countP_quantile (ticks_ne_nil htimes) hq hone
  have hcast : (ticks times).countP (Lib.quantile (ticks times) q ≤ ·) ≤
      (times.map UInt64.toNat).countP (⌊Lib.quantile (ticks times) q⌋₊ ≤ ·) :=
    Lib.countP_le_natCast _ _
  rw [ticks_length] at hcount
  rw [List.countP_map] at hcast
  exact hcount.trans (Nat.add_le_add_left hcast _)

theorem floor_quantile_lt {bound : Nat} (htimes : times ≠ []) (hq : 0 ≤ q) (hone : q ≤ 1)
    (hbound : ∀ time ∈ times, time.toNat < bound) :
    ⌊Lib.quantile (ticks times) q⌋₊ < bound := by
  rw [Nat.floor_lt (quantile_ticks_nonneg htimes hq hone)]
  apply Lib.quantile_lt (ticks_ne_nil htimes) hq hone
  intro v hv
  rcases List.mem_map.1 hv with ⟨count, hcount, rfl⟩
  rcases List.mem_map.1 hcount with ⟨time, htime, rfl⟩
  exact_mod_cast hbound time htime

end Quantiles

/-! ## The threshold -/

/-- The threshold `t` is above nearly all hit times and, with enough space between the two samples,
below half of the miss times. -/
structure Separates (hits misses : List UInt64) (t : UInt64) : Prop where
  hits_le : 99 * hits.length ≤ 100 * hits.countP (· ≤ t)
  lt_misses : hitP99 hits + 10 < missMedian misses →
    misses.length ≤ 2 * misses.countP (t < ·)
  /-- The sums that are formed fit into 64 bits. -/
  no_wrap : hitP99 hits + 20 < 2 ^ 64 ∧ hitP99 hits + missMedian misses < 2 ^ 64
  exact_value : t.toNat =
    if hitP99 hits + 10 < missMedian misses then (hitP99 hits + missMedian misses) / 2
    else hitP99 hits + 20

theorem toNat_thresholdOf {hits misses : List UInt64} (hp99 : hitP99 hits < 2 ^ 53)
    (hmedian : missMedian misses < 2 ^ 53) :
    (thresholdOf hits misses).toNat =
      if hitP99 hits + 10 < missMedian misses then (hitP99 hits + missMedian misses) / 2
      else hitP99 hits + 20 := by
  have hp : (UInt64.ofNat (hitP99 hits)).toNat = hitP99 hits :=
    UInt64.toNat_ofNat_of_lt' (by norm_num [UInt64.size]; omega)
  have hq : (UInt64.ofNat (missMedian misses)).toNat = missMedian misses :=
    UInt64.toNat_ofNat_of_lt' (by norm_num [UInt64.size]; omega)
  have hthreshold : thresholdOf hits misses =
      if UInt64.ofNat (hitP99 hits) + 10 < UInt64.ofNat (missMedian misses) then
        (UInt64.ofNat (hitP99 hits) + UInt64.ofNat (missMedian misses)) / 2
      else UInt64.ofNat (hitP99 hits) + 20 := rfl
  have hten : (10 : UInt64).toNat = 10 := rfl
  have htwenty : (20 : UInt64).toNat = 20 := rfl
  have htwo : (2 : UInt64).toNat = 2 := rfl
  have hlt : UInt64.ofNat (hitP99 hits) + 10 < UInt64.ofNat (missMedian misses) ↔
      hitP99 hits + 10 < missMedian misses := by
    rw [UInt64.lt_iff_toNat_lt, UInt64.toNat_add, hp, hq, hten, Nat.mod_eq_of_lt (by omega)]
  rw [hthreshold]
  simp only [hlt]
  split
  · rw [UInt64.toNat_div, UInt64.toNat_add, hp, hq, htwo, Nat.mod_eq_of_lt (by omega)]
  · rw [UInt64.toNat_add, hp, htwenty, Nat.mod_eq_of_lt (by omega)]

/-- The 99th percentile of 1000 times stands at position 989.01. -/
theorem le_countP_hitP99 {hits : List UInt64} (hhits : hits.length = 1000) :
    990 ≤ hits.countP (·.toNat ≤ hitP99 hits) := by
  have hne : hits ≠ [] := List.ne_nil_of_length_eq_add_one hhits
  have hcount := floor_lt_countP_le hne (q := 99 / 100) (by norm_num) (by norm_num)
  have hposition : ⌊(99 / 100 : ℚ) * ((1000 - 1 : Nat) : ℚ)⌋₊ = 989 := by
    rw [Nat.floor_eq_iff (by norm_num)]
    norm_num
  rw [hhits, ← hitP99_eq, hposition] at hcount
  exact hcount

/-- The median of 1000 times stands at position 499.5. -/
theorem le_countP_missMedian {misses : List UInt64} (hmisses : misses.length = 1000) :
    500 ≤ misses.countP (missMedian misses ≤ ·.toNat) := by
  have hne : misses ≠ [] := List.ne_nil_of_length_eq_add_one hmisses
  have hcount := length_le_ceil_add_countP hne (q := 50 / 100) (by norm_num) (by norm_num)
  have hposition : ⌈(50 / 100 : ℚ) * ((1000 - 1 : Nat) : ℚ)⌉₊ = 500 := by
    rw [Nat.ceil_eq_iff (by norm_num)]
    norm_num
  rw [hmisses, ← missMedian_eq, hposition] at hcount
  omega

theorem separates_thresholdOf {hits misses : List UInt64} (hhits : hits.length = 1000)
    (hmisses : misses.length = 1000) (hsmall : ∀ time ∈ hits ++ misses, time.toNat < 2 ^ 53) :
    Separates hits misses (thresholdOf hits misses) := by
  have hhits' : hits ≠ [] := List.ne_nil_of_length_eq_add_one hhits
  have hmisses' : misses ≠ [] := List.ne_nil_of_length_eq_add_one hmisses
  have hp99 : hitP99 hits < 2 ^ 53 := by
    rw [hitP99_eq]
    exact floor_quantile_lt hhits' (by norm_num) (by norm_num)
      fun time htime => hsmall time (List.mem_append_left _ htime)
  have hmedian : missMedian misses < 2 ^ 53 := by
    rw [missMedian_eq]
    exact floor_quantile_lt hmisses' (by norm_num) (by norm_num)
      fun time htime => hsmall time (List.mem_append_right _ htime)
  have hvalue := toNat_thresholdOf hp99 hmedian
  have hbelow := le_countP_hitP99 hhits
  have habove := le_countP_missMedian hmisses
  constructor
  case hits_le =>
    have hmono : hits.countP (·.toNat ≤ hitP99 hits) ≤
        hits.countP (· ≤ thresholdOf hits misses) := by
      refine List.countP_mono_left fun time _ htime => ?_
      have hle : time.toNat ≤ hitP99 hits := by simpa using htime
      simp only [decide_eq_true_eq, UInt64.le_iff_toNat_le, hvalue]
      split <;> omega
    omega
  case lt_misses =>
    intro hgap
    rw [if_pos hgap] at hvalue
    have hmono : misses.countP (missMedian misses ≤ ·.toNat) ≤
        misses.countP (thresholdOf hits misses < ·) := by
      refine List.countP_mono_left fun time _ htime => ?_
      have hle : missMedian misses ≤ time.toNat := by simpa using htime
      simp only [decide_eq_true_eq, UInt64.lt_iff_toNat_lt, hvalue]
      omega
    omega
  case no_wrap => omega
  case exact_value => exact hvalue

/-- `calibrate_threshold` separates the two samples that it takes, and `score_reload` scores the
times up to the threshold. -/
theorem calibrateThreshold_separates (m : Machine abi)
    (hsmall : ∀ time ∈ hitTimings m 1000 ++ missTimings m 1000, time.toNat < 2 ^ 53) :
    (calibrationLoop m).1 = (hitTimings m 1000, missTimings m 1000) ∧
    Separates (hitTimings m 1000) (missTimings m 1000) (calibrateThreshold m).1 ∧
    ∀ (st : CandidateScores × Machine abi) (c : Fin kProbeValues),
      (scoreReload st (calibrateThreshold m).1).1.score c = st.1.score c +
        if st.2.timing (st.2.clock + slot c) ≤ (calibrateThreshold m).1 then 1 else 0 := by
  have hsamples : (calibrationLoop m).1 = (hitTimings m 1000, missTimings m 1000) :=
    (sampled_calibrationLoop m).samples
  have hthreshold : (calibrateThreshold m).1 =
      thresholdOf (calibrationLoop m).1.1 (calibrationLoop m).1.2 := rfl
  refine ⟨hsamples, ?_, ?_⟩
  · have hhits := hitTimings_length m 1000
    have hmisses := missTimings_length m 1000
    rw [hthreshold, hsamples]
    -- The lists are named, since unification would write out their 1000 entries.
    generalize hitTimings m 1000 = hits at hsmall hhits ⊢
    generalize missTimings m 1000 = misses at hsmall hmisses ⊢
    exact separates_thresholdOf hhits hmisses hsmall
  · intro st c
    rw [(probed_scoreReload st _).score c]
    simp only [slot_lt, true_and]

/-- Hits take 40 cycles and misses 200. -/
def steadyMachine : Machine .x8664 :=
  Machine.init .x8664 fun k => if k % 2 = 0 then 40 else 200

theorem steadyMachine_timing (k : Nat) :
    steadyMachine.timing k = 40 ∨ steadyMachine.timing k = 200 :=
  ite_eq_or_eq _ _ _

theorem calibrateThreshold_separates_steady :
    Separates (hitTimings steadyMachine 1000) (missTimings steadyMachine 1000)
      (calibrateThreshold steadyMachine).1 := by
  refine (calibrateThreshold_separates steadyMachine ?_).2.1
  intro time htime
  have htimes : time = 40 ∨ time = 200 := by
    rcases List.mem_append.1 htime with hmem | hmem
    all_goals
      rcases List.mem_map.1 hmem with ⟨k, _, rfl⟩
      exact steadyMachine_timing _
  rcases htimes with rfl | rfl <;> decide

end Calibration

end Spectre
end LatencyAnalyzer
