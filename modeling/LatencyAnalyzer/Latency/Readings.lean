import LatencyAnalyzer.Latency.Hardware
import LatencyAnalyzer.Statistics.Bounds

/-!
# Readings — what the results say about the machine

When the section times are those of a machine, the hit and the store benchmark report the times of
its hits, and the forced-miss benchmark reports that of its misses, in every sample and whatever
the cache was like before.  The median of a stride stays close to the time of a hit, however large
the buffer is.
-/

namespace LatencyAnalyzer
namespace Latency

open Cxx Lib

section Results

variable {abi : Abi} {m : Machine} {s : CacheState Nat} {o : LatencyMeasurer abi} {first : Nat}

/-- The timed sections from `first` on take the time of the machine and that of the stamps. -/
def Clocks (m : Machine) (o : LatencyMeasurer abi) (first : Nat) (s : CacheState Nat)
    (segments : List Segment) : Prop :=
  ∀ k t, (m.times s segments)[k]? = some t →
    (o.timing (first + k)).toNat = o.timerOverheadCycles.toNat + t

theorem Clocks.left {segments segments' : List Segment}
    (h : Clocks m o first s (segments ++ segments')) : Clocks m o first s segments := by
  intro k t hk
  refine h k t ?_
  rw [times_append, List.getElem?_append_left (List.getElem?_eq_some_iff.1 hk).1]
  exact hk

theorem Clocks.right {segments segments' : List Segment}
    (h : Clocks m o first s (segments ++ segments')) :
    Clocks m o (first + segments.countP Segment.isTimed) (m.after s segments) segments' := by
  intro k t hk
  rw [Nat.add_assoc]
  refine h _ t ?_
  rw [times_append, ← length_times (m := m) (s := s),
    List.getElem?_append_right (Nat.le_add_right _ _), Nat.add_sub_cancel_left]
  exact hk

theorem cost_of_clock {elapsed overhead : UInt64} {t : Nat}
    (h : elapsed.toNat = overhead.toNat + t) (steps : Nat) :
    cost steps overhead elapsed = (t : ℚ) / steps := by
  have hnet : (subtractOverhead elapsed overhead).toNat = t := by
    unfold subtractOverhead
    split
    · rename_i hlt
      rw [UInt64.toNat_sub_of_le _ _ (UInt64.le_of_lt hlt), h, Nat.add_sub_cancel_left]
    · rename_i hge
      rw [UInt64.not_lt, UInt64.le_iff_toNat_le] at hge
      have hzero : t = 0 := by omega
      rw [hzero]
      rfl
  unfold cost
  rw [hnet]

theorem Clocks.costs {segments : List Segment} (h : Clocks m o first s segments) (steps : Nat) :
    o.costs steps first (segments.countP Segment.isTimed) =
      (m.times s segments).map fun t : Nat => (t : ℚ) / steps := by
  unfold LatencyMeasurer.costs
  rw [← length_times (m := m) (s := s)]
  refine List.ext_getElem ?_ fun k hk hk' => ?_
  · rw [List.length_map, List.length_map, List.length_range']
  · rw [List.length_map] at hk'
    rw [List.getElem_map, List.getElem_map, List.getElem_range', Nat.one_mul]
    exact cost_of_clock (h k _ (List.getElem?_eq_getElem hk')) steps

/-- The samples of a benchmark are those behind its warm-up. -/
theorem Clocks.sampled {lib : Library} {iterations warmup rounds : Int} (pre : List Segment)
    {warm : Nat → List Segment} {block : Nat → Nat → List Segment}
    (h : Clocks m o first s (pre ++ sampledSegments lib abi iterations warmup rounds warm block))
    (hfits : lib.reserveSamples (sampleCapacity abi iterations rounds) = true)
    (hpre : pre.countP Segment.isTimed = 0)
    (hwarm : ∀ i, (warm i).countP Segment.isTimed = 1)
    (hblock : ∀ round i, (block round i).countP Segment.isTimed = 1) (steps : Nat) :
    o.costs steps (first + warmup.toNat) (rounds.toNat * iterations.toNat) =
      (m.times (m.after (m.after s pre) ((List.range warmup.toNat).flatMap warm))
        (measuredSegments iterations rounds block)).map fun t : Nat => (t : ℚ) / steps := by
  have hlater := h.right
  unfold sampledSegments at hlater
  rw [if_pos hfits] at hlater
  have hmeasured := hlater.right.costs steps
  rw [hpre, countP_blocks hwarm, Nat.mul_one, Nat.add_zero,
    countP_measuredSegments hblock] at hmeasured
  exact hmeasured

/-- A plain benchmark that returns has stored its samples. -/
theorem results_of_single {lib : Library} {call : Call abi} {results : List (MeasurementResult abi)}
    {label : String} {steps : Nat} {iterations warmup rounds : Int}
    (hseries : call.series o.cacheLineSize = .single label steps iterations warmup rounds)
    (h : callResults lib o call = .ok results) :
    call.refusal lib o.nodeCount = none ∧
      lib.reserveSamples (sampleCapacity abi iterations rounds) = true ∧
      results = [o.result label steps (o.clock + warmup.toNat)
        (rounds.toNat * iterations.toNat)] := by
  rw [(answers_call lib o call).results, Call.outcome, hseries] at h
  cases hrefusal : call.refusal lib o.nodeCount with
  | some thrown =>
      rw [hrefusal] at h
      cases h
  | none =>
      rw [hrefusal] at h
      unfold LatencyMeasurer.outcomes at h
      dsimp only [Series.single] at h
      split at h
      · rename_i hfits
        refine ⟨rfl, Room.reserved_of_fits hfits, ?_⟩
        exact (Except.ok.inj h).symm
      · cases h

/-! ## Benchmarks whose sections all take one time -/

/-- Behind the first `start` ones, `count` timed sections take one time on the machine. -/
def Machine.Steady (m : Machine) (s : CacheState Nat) (segments : List Segment)
    (start count time : Nat) : Prop :=
  ∀ k < count, (m.times s segments)[start + k]? = some time

theorem steady_sampled {lib : Library} {iterations warmup rounds : Int} {time : Nat}
    (pre : List Segment) {warm : Nat → List Segment} {block : Nat → Nat → List Segment}
    (hfits : lib.reserveSamples (sampleCapacity abi iterations rounds) = true)
    (hpre : pre.countP Segment.isTimed = 0)
    (hwarm : ∀ i, (warm i).countP Segment.isTimed = 1)
    (htimes : m.times (m.after (m.after s pre) ((List.range warmup.toNat).flatMap warm))
        (measuredSegments iterations rounds block) =
      List.replicate (rounds.toNat * iterations.toNat) time) :
    m.Steady s (pre ++ sampledSegments lib abi iterations warmup rounds warm block) warmup.toNat
      (rounds.toNat * iterations.toNat) time := by
  -- The timed sections before the measured ones are those of the warm-up.
  intro k hk
  have hbefore : (m.times s (pre ++ (List.range warmup.toNat).flatMap warm)).length =
      warmup.toNat := by
    rw [length_times, List.countP_append, hpre, countP_blocks hwarm, Nat.mul_one, Nat.zero_add]
  unfold sampledSegments
  rw [if_pos hfits, ← List.append_assoc, times_append, after_append, htimes,
    List.getElem?_append_right (hbefore.trans_le (Nat.le_add_right _ _)), hbefore,
    Nat.add_sub_cancel_left]
  exact List.getElem?_replicate_of_lt hk

/-- A benchmark that has returned, and whose measured sections the machine plays in one time. -/
structure Plays (m : Machine) (s : CacheState Nat) (lib : Library) (o : LatencyMeasurer abi)
    (call : Call abi) (results : List (MeasurementResult abi)) (warmup : Int)
    (count steps time : Nat) : Prop where
  results : ∃ label, results = [o.result label steps (o.clock + warmup.toNat) count]
  count_pos : 0 < count
  steps_ne : steps ≠ 0
  steady : m.Steady s (callSegments lib o.nodeCount call) warmup.toNat count (steps * time)

theorem mul_toNat_pos {iterations rounds : Int} (hiterations : 0 < iterations)
    (hrounds : 0 < rounds) : 0 < rounds.toNat * iterations.toNat :=
  Nat.mul_pos (by omega) (by omega)

theorem not_guard {guard : Prop} [Decidable guard] {thrown : Thrown} {rest : Option Thrown}
    (h : (if guard then some thrown else rest) = none) : ¬ guard ∧ rest = none := by
  by_cases hguard : guard
  · rw [if_pos hguard] at h
    cases h
  · exact ⟨hguard, (if_neg hguard).symm.trans h⟩

/-- The other guards look for room. -/
theorem finds_room {found : Bool} {thrown : Thrown}
    (h : (if found then none else some thrown) = none) : found = true := by
  cases found with
  | false => cases h
  | true => rfl

theorem plays_measureHit {lib : Library} {iterations warmup rounds : Int}
    {results : List (MeasurementResult abi)}
    (h : callResults lib o (.measureHit iterations warmup rounds) = .ok results)
    (hdepth : 1 ≤ m.policy.depth) (s : CacheState Nat) :
    Plays m s lib o (.measureHit iterations warmup rounds) results warmup
      (rounds.toNat * iterations.toNat) kLatencyBatch (m.time .load true) := by
  obtain ⟨hrefusal, hfits, rfl⟩ := results_of_single rfl h
  have hvalid : ¬ (iterations ≤ 0 ∨ warmup < 0 ∨ rounds ≤ 0) :=
    (not_guard hrefusal).1
  -- The store in front of the walks brings node 0 in.
  have hstored : (m.after s [.plain [.store 0 (some 0)]]).Rotates m.policy (fun _ => 0) 1 0 := by
    intro k hk
    exact CacheState.survives_touch AccessKind.store 0 (by omega)
  have hwarm := (times_blocks (k := 1) (fun _ _ hs => hitWalk_times hdepth hs) warmup.toNat
    hstored).2
  have htimes := times_measuredSegments (fun _ _ _ hs => hitWalk_times hdepth hs) iterations
    rounds hwarm
  refine ⟨⟨_, rfl⟩, mul_toNat_pos (by omega) (by omega), by decide, ?_⟩
  rw [callSegments, if_neg hvalid]
  exact steady_sampled [.plain [.store 0 (some 0)]] hfits rfl (fun _ => rfl) htimes

theorem plays_measureForcedMiss {lib : Library} (hs : o.Sound) {iterations warmup rounds : Int}
    {results : List (MeasurementResult abi)}
    (h : callResults lib o (.measureForcedMiss iterations warmup rounds) = .ok results)
    (m : Machine) (s : CacheState Nat) :
    Plays m s lib o (.measureForcedMiss iterations warmup rounds) results warmup
      (rounds.toNat * iterations.toNat) kLatencyBatch (m.time .load false) := by
  obtain ⟨hrefusal, hfits, rfl⟩ := results_of_single rfl h
  obtain ⟨hvalid, hresize⟩ := not_guard hrefusal
  have hperm := lib.shuffle_perm 0xC0FFEE123456789 (List.range o.nodeCount)
  have hlength : kLatencyBatch ≤
      (lib.shuffle 0xC0FFEE123456789 (List.range o.nodeCount)).length := by
    rw [order_length hperm]
    exact kLatencyBatch_le hs
  refine ⟨⟨_, rfl⟩, mul_toNat_pos (by omega) (by omega), by decide, ?_⟩
  rw [callSegments, if_neg hvalid, if_pos (finds_room hresize)]
  refine steady_sampled [.plain (randomRingStores
    (lib.shuffle 0xC0FFEE123456789 (List.range o.nodeCount)) o.nodeCount)] hfits rfl
    (fun _ => rfl) ?_
  -- Nothing has to be known about the cache in front of a flushed walk.
  exact times_measuredSegments (fun _ _ s (_ : True) =>
    ⟨missWalk_times (order_nodup hperm) hlength _ s, trivial⟩) iterations rounds trivial

theorem plays_measureStore {lib : Library} {iterations warmup rounds : Int}
    {results : List (MeasurementResult abi)}
    (h : callResults lib o (.measureStore iterations warmup rounds) = .ok results)
    (hdepth : 16 ≤ m.policy.depth) (hwarmup : 0 < warmup) (s : CacheState Nat) :
    Plays m s lib o (.measureStore iterations warmup rounds) results warmup
      (rounds.toNat * iterations.toNat) kStoreBatch (m.time .store true) := by
  obtain ⟨hrefusal, hfits, rfl⟩ := results_of_single rfl h
  have hvalid : ¬ (iterations ≤ 0 ∨ warmup < 0 ∨ rounds ≤ 0) :=
    (not_guard hrefusal).1
  -- The last batch of the warm-up brings the lines in.
  have hwarm : (m.after (m.after s []) ((List.range warmup.toNat).flatMap
      fun _ => storeBatchSegment)).Rotates m.policy id 16 0 := by
    obtain ⟨n, hn⟩ := Nat.exists_eq_succ_of_ne_zero (by omega : warmup.toNat ≠ 0)
    rw [hn, List.range_succ, List.flatMap_append, List.flatMap_singleton, after_append]
    exact rotates_storeBatch hdepth _
  have htimes := times_measuredSegments (fun _ _ _ hs => storeBatch_times hdepth hs) iterations
    rounds hwarm
  refine ⟨⟨_, rfl⟩, mul_toNat_pos (by omega) (by omega), by decide, ?_⟩
  rw [callSegments, if_neg hvalid]
  exact steady_sampled [] hfits rfl (fun _ => rfl) htimes

theorem div_steps {steps : Nat} (hsteps : steps ≠ 0) (time : Nat) :
    ((steps * time : Nat) : ℚ) / steps = time := by
  rw [Nat.cast_mul]
  exact mul_div_cancel_left₀ _ (Nat.cast_ne_zero.2 hsteps)

theorem Plays.stats {lib : Library} {call : Call abi} {results : List (MeasurementResult abi)}
    {warmup : Int} {count steps time : Nat}
    (h : Plays m s lib o call results warmup count steps time)
    (hclocks : Clocks m o o.clock s (callSegments lib o.nodeCount call)) :
    results.map (·.stats) = [.constant count (time : ℚ)] := by
  obtain ⟨label, rfl⟩ := h.results
  have hcosts : o.costs steps (o.clock + warmup.toNat) count = List.replicate count (time : ℚ) := by
    refine List.eq_replicate_iff.2 ⟨by simp [LatencyMeasurer.costs], fun v hv => ?_⟩
    obtain ⟨k, hk, rfl⟩ := List.mem_map.1 hv
    obtain ⟨i, hi, rfl⟩ := List.mem_range'.1 hk
    have helapsed := hclocks _ _ (h.steady i hi)
    rw [← Nat.add_assoc] at helapsed
    rw [Nat.one_mul, cost_of_clock helapsed, div_steps h.steps_ne]
  have hsqrt : Rat.sqrt 0 = 0 := by decide
  refine congrArg (fun stats => [stats]) ?_
  change Statistics.summarize Rat.sqrt (o.costs _ _ _) = _
  rw [hcosts]
  exact Statistics.summarize_replicate hsqrt h.count_pos _

/-! ## What a machine makes them show -/

/-- What the results of a call say about the machine.  The benchmarks ask for different numbers of
lines that the policy has to spare. -/
def Machine.Shown (m : Machine) : Call abi → List (MeasurementResult abi) → Prop
  | .measureHit iterations _ rounds, results =>
      1 ≤ m.policy.depth → results.map (·.stats) =
        [.constant (rounds.toNat * iterations.toNat) (m.time .load true : ℚ)]
  | .measureForcedMiss iterations _ rounds, results =>
      results.map (·.stats) =
        [.constant (rounds.toNat * iterations.toNat) (m.time .load false : ℚ)]
  | .measureStore iterations warmup rounds, results =>
      16 ≤ m.policy.depth → 0 < warmup → results.map (·.stats) =
        [.constant (rounds.toNat * iterations.toNat) (m.time .store true : ℚ)]
  | .measureStrides _ iterations _ _, results =>
      kLatencyBatch ≤ m.policy.depth → ∀ result ∈ results,
        Statistics.Within (m.time .load true : ℚ) (m.time .load false) result.stats ∧
          (2 < iterations → result.stats.median ≤ (m.overlapTime : ℚ) / kLatencyBatch)

/-- If the rounds are long enough, the walks that overlap are the majority. -/
theorem shown_of_overlapping {times : List Nat} {samples : List ℚ} {iterations rounds : Int}
    (hpos : 0 < rounds.toNat * iterations.toNat)
    (hsamples : samples = times.map fun t : Nat => (t : ℚ) / kLatencyBatch)
    (h : Overlapping m (rounds.toNat * iterations.toNat) rounds.toNat times) :
    Statistics.Within (m.time .load true : ℚ) (m.time .load false)
        (Statistics.summarize Rat.sqrt samples) ∧
      (2 < iterations →
        (Statistics.summarize Rat.sqrt samples).median ≤ (m.overlapTime : ℚ) / kLatencyBatch) := by
  have hbatch : (0 : ℚ) < kLatencyBatch := by
    rw [Nat.cast_pos]
    decide
  have hlength : samples.length = rounds.toNat * iterations.toNat := by
    rw [hsamples, List.length_map, h.length]
  constructor
  · apply Statistics.within_summarize
    · exact List.length_pos_iff.1 (hlength.symm ▸ hpos)
    · intro v hv
      rw [hsamples] at hv
      obtain ⟨t, ht, rfl⟩ := List.mem_map.1 hv
      obtain ⟨hlower, hupper⟩ := h.between t ht
      rw [le_div_iff₀ hbatch, div_le_iff₀ hbatch]
      constructor
      · exact_mod_cast (Nat.mul_comm _ _).trans_le hlower
      · exact_mod_cast hupper.trans_eq (Nat.mul_comm _ _)
  · intro hiterations
    apply Statistics.median_of_majority
    have hcount : samples.countP (· ≤ (m.overlapTime : ℚ) / kLatencyBatch) =
        times.countP (· ≤ m.overlapTime) := by
      rw [hsamples, List.countP_map]
      refine List.countP_congr fun t _ => ?_
      simp only [Function.comp_apply, decide_eq_true_eq]
      rw [div_le_div_iff_of_pos_right hbatch, Nat.cast_le]
    have hfew := h.few
    -- Each round has one walk that may be slow and, with three iterations, two that are not.
    have hmany : 2 * rounds.toNat < rounds.toNat * iterations.toNat := by
      have hrounds : 0 < rounds.toNat := Nat.pos_of_mul_pos_right hpos
      rw [Nat.mul_comm]
      exact Nat.mul_lt_mul_of_pos_left (by omega) hrounds
    rw [hlength, hcount]
    omega

/-- Every stride has a window of its own, in which the machine goes on. -/
theorem shown_outcomes {lib : Library} {n : Nat} {iterations warmup rounds : Int}
    (hpos : 0 < rounds.toNat * iterations.toNat)
    (hfits : (lib.room abi iterations rounds).fits = true)
    (hdepth : kLatencyBatch ≤ m.policy.depth) (label : SizeT abi → String)
    (strides : List (SizeT abi)) {results : List (MeasurementResult abi)}
    (hclocks : Clocks m o first s
      (measureStridesSegments lib n iterations warmup rounds strides))
    {series : Series} (hsteps : series.steps = kLatencyBatch)
    (hwarmup : series.warmup = warmup)
    (hsamples : series.samples = rounds.toNat * iterations.toNat)
    (h : o.outcomes (lib.room abi iterations rounds) series (strides.map label) first =
      .ok results) :
    ∀ result ∈ results,
      Statistics.Within (m.time .load true : ℚ) (m.time .load false) result.stats ∧
        (2 < iterations → result.stats.median ≤ (m.overlapTime : ℚ) / kLatencyBatch) := by
  induction strides generalizing s first results with
  | nil =>
      cases h
      exact fun result hresult => absurd hresult List.not_mem_nil
  | cons rawStride strides ih =>
      rw [measureStridesSegments, if_pos hfits] at hclocks
      rw [List.map_cons, LatencyMeasurer.outcomes, if_pos hfits] at h
      have hreserved := Room.reserved_of_fits hfits
      have hwindow : series.length = warmup.toNat + rounds.toNat * iterations.toNat := by
        rw [Series.length, hwarmup, hsamples]
      have hlater := hclocks.right
      rw [countP_measureStrideSegments, if_pos hreserved, ← hwindow] at hlater
      cases hrest : o.outcomes (lib.room abi iterations rounds) series (strides.map label)
          (first + series.length) with
      | error thrown =>
          rw [hrest] at h
          cases h
      | ok later =>
          rw [hrest] at h
          cases h
          refine List.forall_mem_cons.2 ⟨?_, ih hlater hrest⟩
          have hcosts := Clocks.sampled [_] hclocks.left hreserved rfl (fun _ => rfl)
            (fun _ _ => rfl) kLatencyBatch
          rw [hsteps, hwarmup, hsamples]
          exact shown_of_overlapping hpos hcosts (overlapping_rounds _ hdepth _ _ _ _)

theorem shown_measureStrides {lib : Library} {strides : List (SizeT abi)}
    {iterations warmup rounds : Int} {results : List (MeasurementResult abi)}
    (h : callResults lib o (.measureStrides strides iterations warmup rounds) = .ok results)
    (hclocks : Clocks m o o.clock s
      (callSegments lib o.nodeCount (.measureStrides strides iterations warmup rounds))) :
    m.Shown (.measureStrides strides iterations warmup rounds) results := by
  intro hdepth
  rw [(answers_call lib o _).results, Call.outcome] at h
  cases hrefusal : (Call.measureStrides strides iterations warmup rounds).refusal lib
      o.nodeCount with
  | some thrown =>
      rw [hrefusal] at h
      cases h
  | none =>
      rw [hrefusal] at h
      obtain ⟨hvalid, hreserve⟩ := not_guard hrefusal
      rw [callSegments, if_neg hvalid, if_pos (finds_room hreserve)] at hclocks
      have hpos : 0 < rounds.toNat * iterations.toNat :=
        mul_toNat_pos (by omega) (by omega)
      dsimp only [Call.series] at h
      by_cases hfits : (lib.room abi iterations rounds).fits = true
      · exact shown_outcomes hpos hfits hdepth _ strides hclocks rfl rfl rfl h
      · -- Only a call without strides returns when no samples find room.
        cases strides with
        | nil =>
            cases h
            exact fun result hresult => absurd hresult List.not_mem_nil
        | cons rawStride strides =>
            rw [List.map_cons, LatencyMeasurer.outcomes, if_neg hfits] at h
            cases h

/-- On every machine and after any calls, the results of a call say what they should: the hit and
the store benchmark show the times of hits, the forced-miss benchmark that of misses, and the
strides hardly more than hits. -/
theorem results_on_machine (m : Machine) (lib : Library) {sys : System}
    {requested cacheLineSize : SizeT abi} {numaNode : Int} {fresh : LatencyMeasurer abi}
    (hfresh : construct sys requested cacheLineSize numaNode = .ok fresh)
    (calls : List (Call abi)) (call : Call abi) {results : List (MeasurementResult abi)}
    (h : callResults lib (runCalls lib fresh calls) call = .ok results) (s : CacheState Nat)
    (hclocks : Clocks m (runCalls lib fresh calls) (runCalls lib fresh calls).clock s
      (callSegments lib (runCalls lib fresh calls).nodeCount call)) :
    m.Shown call results := by
  have hs : (runCalls lib fresh calls).Sound :=
    (performs_runCalls lib calls (constructed_construct hfresh).sound).layout.sound
  cases call with
  | measureHit iterations warmup rounds =>
      exact fun hdepth => (plays_measureHit h hdepth s).stats hclocks
  | measureForcedMiss iterations warmup rounds =>
      exact (plays_measureForcedMiss hs h m s).stats hclocks
  | measureStore iterations warmup rounds =>
      exact fun hdepth hwarmup => (plays_measureStore h hdepth hwarmup s).stats hclocks
  | measureStrides strides iterations warmup rounds => exact shown_measureStrides h hclocks

/-! ## A desktop -/

/-- The policy that keeps the lines of the last accesses and no others. -/
def leastRecent (depth : Nat) : Policy Nat :=
  { depth := depth
    evicts := fun recent l => decide (l ∉ recent.take depth)
    keeps := fun _ _ hl => decide_eq_false (not_not_intro hl) }

def desktop : Machine :=
  { policy := leastRecent 512
    time := fun kind isCached =>
      match kind, isCached with
      | .load, true => 4
      | .store, true => 1
      | _, false => 300
    hit_le_miss := by decide }

/-- The section times of a desktop that measures hits four times, and misses from then on. -/
def desktopSystem : System :=
  { plainSystem 4096 with timing := fun k => if k < 4 then 24 + 128 * 4 else 24 + 128 * 300 }

/-- Section times that follow the machine through a benchmark without a warm-up. -/
theorem Plays.clocks {lib : Library} {call : Call abi} {results : List (MeasurementResult abi)}
    {count steps time : Nat} (h : Plays m s lib o call results 0 count steps time)
    (hsections : call.sections lib o = count)
    (htiming : ∀ k < count,
      (o.timing (o.clock + k)).toNat = o.timerOverheadCycles.toNat + steps * time) :
    Clocks m o o.clock s (callSegments lib o.nodeCount call) := by
  intro k t hk
  have hlt : k < count := by
    rw [← hsections, ← countP_callSegments, ← length_times (m := m) (s := s)]
    exact (List.getElem?_eq_some_iff.1 hk).1
  have hsteady := h.steady k hlt
  rw [Int.toNat_zero, Nat.zero_add, hk] at hsteady
  cases hsteady
  exact htiming k hlt

theorem refusal_plainLibrary {n : Nat} (hn : 64 ≤ n ∧ n < 2 ^ 60) {iterations warmup rounds : Int}
    (hvalid : 0 < iterations ∧ 0 ≤ warmup ∧ 0 < rounds) :
    (Call.measureForcedMiss iterations warmup rounds : Call abi).refusal plainLibrary n = none := by
  have hguard : ¬ (iterations ≤ 0 ∨ warmup < 0 ∨ rounds ≤ 0 ∨ n < 64) := by omega
  exact (if_neg hguard).trans (if_pos (decide_eq_true hn.2))

theorem results_on_machine_desktop :
    ∃ fresh : LatencyMeasurer .x8664, construct desktopSystem 0 64 (-1) = .ok fresh ∧
      (∃ result, callResults plainLibrary fresh (.measureHit 2 0 2) = .ok [result] ∧
        result.stats = .constant 4 4) ∧
      ∃ result, callResults plainLibrary (runCalls plainLibrary fresh [.measureHit 2 0 2])
          (.measureForcedMiss 2 0 2) = .ok [result] ∧ result.stats = .constant 4 300 := by
  obtain ⟨fresh, hfresh⟩ :
      ∃ fresh, construct desktopSystem (0 : SizeT .x8664) 64 (-1) = .ok fresh :=
    ⟨_, construct_of_mmap desktopSystem (0 : SizeT .x8664) 64 (rfl : _ = some 4096)
      (overhead_plainSystem 4096)⟩
  have hstamps := fresh_construct hfresh
  have hcycles : fresh.timerOverheadCycles = 24 :=
    Except.ok.inj (hstamps.overhead.symm.trans (overhead_plainSystem 4096))
  have hconstructed := constructed_construct hfresh
  have hhit : ∃ result, callResults plainLibrary fresh (.measureHit 2 0 2) = .ok [result] := by
    rw [(answers_call plainLibrary fresh _).results]
    exact ⟨_, rfl⟩
  obtain ⟨hit, hhit⟩ := hhit
  have hplays := plays_measureHit (m := desktop) hhit (by decide) ⟨fun _ => false, []⟩
  -- The first four sections are those of the hits.
  have hclocks := hplays.clocks rfl fun k hk => by
    rw [hstamps.clock, hstamps.timing, hcycles, Nat.zero_add]
    exact congrArg UInt64.toNat (if_pos hk)
  have hshown := results_on_machine desktop plainLibrary hfresh [] (.measureHit 2 0 2) hhit
    ⟨fun _ => false, []⟩ hclocks (by decide)
  have hticks := ticks_runCalls plainLibrary [.measureHit 2 0 2] fresh
  have hreached : (runCalls plainLibrary fresh [.measureHit 2 0 2]).Sound :=
    (performs_runCalls plainLibrary _ hconstructed.sound).layout.sound
  have hnodes : 64 ≤ (runCalls plainLibrary fresh [.measureHit 2 0 2]).nodeCount ∧
      (runCalls plainLibrary fresh [.measureHit 2 0 2]).nodeCount < 2 ^ 60 := by
    rw [hticks.nodeCount, hconstructed.nodeCount]
    decide
  have hmiss : ∃ result, callResults plainLibrary (runCalls plainLibrary fresh [.measureHit 2 0 2])
      (.measureForcedMiss 2 0 2) = .ok [result] := by
    rw [(answers_call plainLibrary _ _).results, Call.outcome,
      refusal_plainLibrary hnodes (by decide)]
    exact ⟨_, rfl⟩
  obtain ⟨miss, hmiss⟩ := hmiss
  have hmissPlays := plays_measureForcedMiss hreached hmiss desktop ⟨fun _ => false, []⟩
  have hmissSections : (Call.measureForcedMiss 2 0 2 : Call .x8664).sections plainLibrary
      (runCalls plainLibrary fresh [.measureHit 2 0 2]) = 4 := by
    rw [Call.sections, refusal_plainLibrary hnodes (by decide)]
    rfl
  have hmissClocks := hmissPlays.clocks hmissSections fun k _ => by
    have hclock : (runCalls plainLibrary fresh [.measureHit 2 0 2]).clock = 4 := by
      rw [hticks.clock, hstamps.clock]
      rfl
    rw [hticks.timing, hticks.overhead, hstamps.timing, hcycles, hclock]
    exact congrArg UInt64.toNat (if_neg (by omega))
  have hmissShown := results_on_machine desktop plainLibrary hfresh [.measureHit 2 0 2]
    (.measureForcedMiss 2 0 2) hmiss ⟨fun _ => false, []⟩ hmissClocks
  exact ⟨fresh, hfresh, ⟨hit, hhit, List.head_eq_of_cons_eq hshown⟩, miss, hmiss,
    List.head_eq_of_cons_eq hmissShown⟩

end Results

end Latency
end LatencyAnalyzer
