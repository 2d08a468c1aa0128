import LatencyAnalyzer.Latency.Readings

/-!
# Interrupts — medians on a machine that is disturbed

An interrupt adds to the time of the section that it falls into, and a migration can even shorten
it.  The overhead and the results are medians, so neither matters as long as it is the exception:
what the benchmarks report is the time of the machine, not that of its interrupts.
-/

namespace LatencyAnalyzer
namespace Latency

open Cxx Lib

section Interrupts

variable {abi : Abi} {m : Machine} {s : CacheState Nat} {o : LatencyMeasurer abi}

/-- The section takes its time on the machine and that of its two time stamps. -/
def undisturbed (m : Machine) (o : LatencyMeasurer abi) (cycles : UInt64) (s : CacheState Nat)
    (segments : List Segment) (k : Nat) : Bool :=
  match (m.times s segments)[k]? with
  | some t => (o.timing (o.clock + k)).toNat == cycles.toNat + t
  | none => false

/-- What the policy and the warm-up have to provide for sections of one time. -/
def Machine.Sustains (m : Machine) : Call abi → Prop
  | .measureHit _ _ _ => 1 ≤ m.policy.depth
  | .measureForcedMiss _ _ _ => True
  | .measureStore _ warmup _ => 16 ≤ m.policy.depth ∧ 0 < warmup
  | .measureStrides _ _ _ _ => False

/-- The time of the accesses that a benchmark is about. -/
def Machine.accessTime (m : Machine) : Call abi → Nat
  | .measureHit _ _ _ => m.time .load true
  | .measureForcedMiss _ _ _ => m.time .load false
  | .measureStore _ _ _ => m.time .store true
  | .measureStrides _ _ _ _ => 0

theorem plays_of_sustains {lib : Library} (hs : o.Sound) {call : Call abi}
    {results : List (MeasurementResult abi)} (h : callResults lib o call = .ok results)
    (hsustains : m.Sustains call) (s : CacheState Nat) :
    Plays m s lib o call results (call.series o.cacheLineSize).warmup
      (call.series o.cacheLineSize).samples (call.series o.cacheLineSize).steps
      (m.accessTime call) := by
  cases call with
  | measureHit iterations warmup rounds => exact plays_measureHit h hsustains s
  | measureForcedMiss iterations warmup rounds => exact plays_measureForcedMiss hs h m s
  | measureStore iterations warmup rounds => exact plays_measureStore h hsustains.1 hsustains.2 s
  | measureStrides strides iterations warmup rounds => exact hsustains.elim

/-- The undisturbed sections show the time of the machine, and they are enough for the median. -/
theorem Plays.median {lib : Library} {call : Call abi} {results : List (MeasurementResult abi)}
    {warmup : Int} {count steps time : Nat}
    (h : Plays m s lib o call results warmup count steps time)
    (hmost : count < 2 * (List.range count).countP fun k =>
      undisturbed m o o.timerOverheadCycles s (callSegments lib o.nodeCount call)
        (warmup.toNat + k)) :
    results.map (·.stats.median) = [(time : ℚ)] := by
  obtain ⟨label, rfl⟩ := h.results
  -- A section that is undisturbed costs `time` exactly; the others may cost anything.
  have hcosts : o.costs steps (o.clock + warmup.toNat) count = (List.range count).map fun k =>
      cost steps o.timerOverheadCycles (o.timing (o.clock + warmup.toNat + k)) := by
    unfold LatencyMeasurer.costs
    rw [List.range'_eq_map_range, List.map_map]
    rfl
  have hcount : (List.range count).countP (fun k =>
      undisturbed m o o.timerOverheadCycles s (callSegments lib o.nodeCount call)
        (warmup.toNat + k)) ≤
      (o.costs steps (o.clock + warmup.toNat) count).countP
        (fun v => (time : ℚ) ≤ v ∧ v ≤ time) := by
    rw [hcosts, List.countP_map]
    refine List.countP_mono_left fun k hk hundisturbed => ?_
    unfold undisturbed at hundisturbed
    rw [h.steady k (List.mem_range.1 hk)] at hundisturbed
    have helapsed := eq_of_beq hundisturbed
    rw [← Nat.add_assoc] at helapsed
    have hcost := cost_of_clock helapsed steps
    rw [div_steps h.steps_ne] at hcost
    exact decide_eq_true ⟨hcost.ge, hcost.le⟩
  have hlength : (o.costs steps (o.clock + warmup.toNat) count).length = count := by
    rw [hcosts, List.length_map, List.length_range]
  have hmajority : (o.costs steps (o.clock + warmup.toNat) count).length <
      2 * (o.costs steps (o.clock + warmup.toNat) count).countP
        (fun v => (time : ℚ) ≤ v ∧ v ≤ time) := by
    rw [hlength]
    exact hmost.trans_le (Nat.mul_le_mul_left 2 hcount)
  -- Both bounds of the majority are `time`.
  obtain ⟨hlower, hupper⟩ := Statistics.median_mem_of_majority Rat.sqrt hmajority
  exact congrArg (fun v => [v]) (le_antisymm hupper hlower)

/-- If most of the empty sections of the calibration and most of the measured sections of a
benchmark are undisturbed, then its median is the time of the machine, after any calls, from any
state of the cache and whatever the other sections take. -/
theorem medians_survive_interrupts (m : Machine) (lib : Library) {sys : System}
    {requested cacheLineSize : SizeT abi} {numaNode : Int} {fresh : LatencyMeasurer abi}
    (hfresh : construct sys requested cacheLineSize numaNode = .ok fresh)
    {cycles : UInt64}
    (hempty : 2000 <
      2 * (List.range 2000).countP fun i => Timer.emptyTime (sys.stamps i) = cycles)
    (calls : List (Call abi)) (call : Call abi) {results : List (MeasurementResult abi)}
    (h : callResults lib (runCalls lib fresh calls) call = .ok results)
    (hsustains : m.Sustains call) (s : CacheState Nat)
    (hmost : (call.series fresh.cacheLineSize).samples <
      2 * (List.range (call.series fresh.cacheLineSize).samples).countP fun k =>
        undisturbed m (runCalls lib fresh calls) cycles s
          (callSegments lib fresh.nodeCount call)
          ((call.series fresh.cacheLineSize).warmup.toNat + k)) :
    results.map (·.stats.median) = [(m.accessTime call : ℚ)] := by
  have hs : (runCalls lib fresh calls).Sound :=
    (performs_runCalls lib calls (constructed_construct hfresh).sound).layout.sound
  have hticks := ticks_runCalls lib calls fresh
  -- The measurer exists, so the calibration has not thrown.
  have hoverhead := (fresh_construct hfresh).overhead
  have hreserve : sys.reserveCycles (2000 : Int).toNat = true := by
    by_contra hfull
    unfold Timer.measureOverheadCycles at hoverhead
    rw [if_neg (by decide), if_neg hfull] at hoverhead
    cases hoverhead
  have hcycles : (runCalls lib fresh calls).timerOverheadCycles = cycles := by
    rw [hticks.overhead]
    exact Except.ok.inj (hoverhead.symm.trans (Timer.overhead_of_majority hreserve hempty))
  -- No call changes what the measurer was constructed with.
  rw [← hticks.cacheLineSize, ← hticks.nodeCount, ← hcycles] at hmost
  exact (plays_of_sustains hs h hsustains s).median hmost

/-! ## A noisy desktop -/

/-- Every fifth empty section is interrupted. -/
def noisyStamps (i : Nat) : UInt64 × UInt64 :=
  if i % 5 = 0 then (0, 9000) else (0, 24)

/-- Behind the calibration, the second section is interrupted. -/
def noisySystem : System :=
  { plainSystem 4096 with
    stamps := noisyStamps
    timing := fun k => if k = 1 then 1000000 else 24 + 128 * 300 }

theorem medians_survive_interrupts_noisy :
    ∃ fresh : LatencyMeasurer .x8664, construct noisySystem 0 64 (-1) = .ok fresh ∧
      ∃ result, callResults plainLibrary fresh (.measureForcedMiss 3 0 1) = .ok [result] ∧
        result.stats.median = 300 := by
  have hcount :
      (List.range 2000).countP (fun i => Timer.emptyTime (noisyStamps i) = 24) = 1600 := by
    decide +kernel
  have hempty : 2000 <
      2 * (List.range 2000).countP fun i => Timer.emptyTime (noisySystem.stamps i) = 24 := by
    have hstamps : noisySystem.stamps = noisyStamps := rfl
    rw [hstamps, hcount]
    decide
  have hoverhead : Timer.measureOverheadCycles noisySystem.reserveCycles noisySystem.stamps 2000 =
      .ok 24 := by
    have hsamples : (2000 : Int).toNat = 2000 := rfl
    apply Timer.overhead_of_majority rfl
    rw [hsamples]
    exact hempty
  obtain ⟨fresh, hfresh⟩ :
      ∃ fresh, construct noisySystem (0 : SizeT .x8664) 64 (-1) = .ok fresh :=
    ⟨_, construct_of_mmap noisySystem (0 : SizeT .x8664) 64 (rfl : _ = some 4096) hoverhead⟩
  have hconstructed := constructed_construct hfresh
  have hs := hconstructed.sound
  have hstamps := fresh_construct hfresh
  have hrefusal : (Call.measureForcedMiss 3 0 1 : Call .x8664).refusal plainLibrary
      fresh.nodeCount = none := by
    rw [hconstructed.nodeCount]
    exact refusal_plainLibrary (by decide) (by decide)
  have hresult : ∃ result,
      callResults plainLibrary fresh (.measureForcedMiss 3 0 1) = .ok [result] := by
    rw [(answers_call plainLibrary fresh _).results, Call.outcome, hrefusal]
    exact ⟨_, rfl⟩
  obtain ⟨result, hresult⟩ := hresult
  have hplays := plays_measureForcedMiss hs hresult desktop ⟨fun _ => false, []⟩
  -- The first and the last section escape the interrupt.
  have hundisturbed : ∀ k < 3, k ≠ 1 → undisturbed desktop fresh 24 ⟨fun _ => false, []⟩
      (callSegments plainLibrary fresh.nodeCount (.measureForcedMiss 3 0 1 : Call .x8664))
      ((0 : Int).toNat + k) = true := by
    intro k hk hquiet
    have htiming : fresh.timing (fresh.clock + ((0 : Int).toNat + k)) = 24 + 128 * 300 := by
      rw [hstamps.clock, hstamps.timing]
      exact if_neg (by simpa using hquiet)
    unfold undisturbed
    rw [hplays.steady k hk, htiming]
    decide
  have hmost : 3 < 2 * (List.range 3).countP fun k => undisturbed desktop fresh 24
      ⟨fun _ => false, []⟩
      (callSegments plainLibrary fresh.nodeCount (.measureForcedMiss 3 0 1 : Call .x8664))
      ((0 : Int).toNat + k) := by
    have hrange : List.range 3 = [0, 1, 2] := rfl
    rw [hrange]
    simp only [List.countP_cons, hundisturbed 0 (by decide) (by decide),
      hundisturbed 2 (by decide) (by decide), List.countP_nil, if_true]
    split <;> decide
  have hmedian := medians_survive_interrupts desktop plainLibrary hfresh hempty []
    (.measureForcedMiss 3 0 1) hresult trivial ⟨fun _ => false, []⟩ hmost
  exact ⟨fresh, hfresh, result, hresult, List.head_eq_of_cons_eq hmedian⟩

end Interrupts

end Latency
end LatencyAnalyzer
