import LatencyAnalyzer.Latency.Flush
import LatencyAnalyzer.Latency.Samples
import LatencyAnalyzer.Lib.Replacement

/-!
# Hardware — the timed sections on a machine with a cache

The machine has a cache with any replacement policy that spares the last few lines, and an access
takes one time if its line is cached and another one if it is not.  The accesses of a call are cut
at its time stamps, so that the machine tells how long each timed section takes: the walks on one
node and the batches of stores hit, and the walks on flushed nodes miss.  The walks of the stride
benchmark overlap: after the first one of a round, all steps but one find their lines.
-/

namespace LatencyAnalyzer
namespace Latency

open Cxx Lib

/-! ## The machine -/

inductive AccessKind
  | load
  | store
  deriving DecidableEq, Repr

/-- A node of the buffer fills a cache line, so its number stands for the line. -/
structure Machine where
  policy : Policy Nat
  /-- The ticks of an access, by whether its line is cached. -/
  time : AccessKind → Bool → Nat
  hit_le_miss : time .load true ≤ time .load false

/-- What an access does to the cache.  A pointer outside of the buffer has no line. -/
def Access.ops : Access → List (CacheOp AccessKind Nat)
  | .load (some i) => [.touch .load i]
  | .load none => []
  | .store i _ => [.touch .store i]
  | .flush i => [.flush i]
  | .fence => []

/-- A part of a run: the accesses between two time stamps, or those outside. -/
inductive Segment
  | plain (accesses : List Access)
  | timed (accesses : List Access)

def Segment.accesses : Segment → List Access
  | .plain accesses => accesses
  | .timed accesses => accesses

def Segment.isTimed : Segment → Bool
  | .plain _ => false
  | .timed _ => true

def Segment.ops (segment : Segment) : List (CacheOp AccessKind Nat) :=
  segment.accesses.flatMap Access.ops

/-- The cache after some segments. -/
def Machine.after (m : Machine) (s : CacheState Nat) (segments : List Segment) : CacheState Nat :=
  s.run m.policy (segments.flatMap Segment.ops)

/-- The times of the timed segments.  A load waits for the one before it, so times add up. -/
def Machine.times (m : Machine) : CacheState Nat → List Segment → List Nat
  | _, [] => []
  | s, .plain accesses :: rest => m.times (m.after s [.plain accesses]) rest
  | s, .timed accesses :: rest =>
      s.cost m.policy m.time (Segment.timed accesses).ops ::
        m.times (m.after s [.timed accesses]) rest

/-! ## The segments of a call -/

section Segments

variable {abi : Abi}

def measuredSegments (iterations rounds : Int) (block : Nat → Nat → List Segment) : List Segment :=
  (List.range rounds.toNat).flatMap fun round =>
    (List.range iterations.toNat).flatMap (block round)

/-- `sampled`, with the time stamps. -/
def sampledSegments (lib : Library) (abi : Abi) (iterations warmup rounds : Int)
    (warm : Nat → List Segment) (block : Nat → Nat → List Segment) : List Segment :=
  (List.range warmup.toNat).flatMap warm ++
    if lib.reserveSamples (sampleCapacity abi iterations rounds) then
      measuredSegments iterations rounds block
    else []

def hitWalk : List Segment :=
  [.timed (loads (List.iterate id 0 kLatencyBatch))]

def missWalk (order : List Nat) (start : Nat) : List Segment :=
  [.plain ((window order 0 start kLatencyBatch).map Access.flush ++ [.fence]),
    .timed (loads (window order 0 start kLatencyBatch))]

def storeBatchSegment : List Segment :=
  [.timed ((List.range kStoreBatch).map fun i => Access.store (i % 16) (some (i % 16)))]

/-- The step to the next starting node comes behind the second time stamp. -/
def strideSegments (succ : Nat → Nat) (start i : Nat) : List Segment :=
  [.timed (loads (List.iterate succ (succ^[i] start) kLatencyBatch)),
    .plain [.load (some (succ^[i] start))]]

def measureStrideSegments (lib : Library) (n : Nat) (iterations warmup rounds : Int)
    (rawStride : SizeT abi) : List Segment :=
  let succ := strideNext n (strideLines nodeSize (strideOf nodeSize rawStride.toNat))
  .plain ((List.range n).map fun i => Access.store i (some (succ i))) ::
    sampledSegments lib abi iterations warmup rounds (strideSegments succ 0) fun round =>
      strideSegments succ (round % n)

def measureStridesSegments (lib : Library) (n : Nat) (iterations warmup rounds : Int) :
    List (SizeT abi) → List Segment
  | [] => []
  | rawStride :: strides =>
      measureStrideSegments lib n iterations warmup rounds rawStride ++
        if (lib.room abi iterations rounds).fits then
          measureStridesSegments lib n iterations warmup rounds strides
        else []

/-- The accesses of a call, cut at its time stamps. -/
def callSegments (lib : Library) (n : Nat) : Call abi → List Segment
  | .measureHit iterations warmup rounds =>
      if iterations ≤ 0 ∨ warmup < 0 ∨ rounds ≤ 0 then []
      else
        .plain [.store 0 (some 0)] ::
          sampledSegments lib abi iterations warmup rounds (fun _ => hitWalk) fun _ _ => hitWalk
  | .measureForcedMiss iterations warmup rounds =>
      if iterations ≤ 0 ∨ warmup < 0 ∨ rounds ≤ 0 ∨ n < 64 then []
      else if lib.resizeOrder n then
        let order := lib.shuffle 0xC0FFEE123456789 (List.range n)
        .plain (randomRingStores order n) ::
          sampledSegments lib abi iterations warmup rounds (fun i => missWalk order (i % n))
            fun round i => missWalk order (startPosition abi iterations.toNat n round i)
      else []
  | .measureStore iterations warmup rounds =>
      if iterations ≤ 0 ∨ warmup < 0 ∨ rounds ≤ 0 then []
      else
        sampledSegments lib abi iterations warmup rounds (fun _ => storeBatchSegment)
          fun _ _ => storeBatchSegment
  | .measureStrides strides iterations warmup rounds =>
      if iterations ≤ 0 ∨ warmup < 0 ∨ rounds ≤ 0 then []
      else if lib.reserveResults strides.length then
        measureStridesSegments lib n iterations warmup rounds strides
      else []

/-! ### They are the accesses of the call -/

theorem accesses_sampledSegments (lib : Library) (iterations warmup rounds : Int)
    (warm : Nat → List Segment) (block : Nat → Nat → List Segment) :
    (sampledSegments lib abi iterations warmup rounds warm block).flatMap Segment.accesses =
      sampled lib abi iterations warmup rounds (fun i => (warm i).flatMap Segment.accesses)
        fun round i => (block round i).flatMap Segment.accesses := by
  unfold sampledSegments sampled measuredSegments
  rw [List.flatMap_append, List.flatMap_assoc]
  split
  · simp only [List.flatMap_assoc]
  · rfl

theorem accesses_measureStrideSegments (lib : Library) (n : Nat) (iterations warmup rounds : Int)
    (rawStride : SizeT abi) :
    (measureStrideSegments lib n iterations warmup rounds rawStride).flatMap Segment.accesses =
      stridePlan lib n iterations warmup rounds rawStride := by
  unfold measureStrideSegments stridePlan
  rw [List.flatMap_cons, accesses_sampledSegments]
  rfl

theorem accesses_measureStridesSegments (lib : Library) (n : Nat) (iterations warmup rounds : Int)
    (strides : List (SizeT abi)) :
    (measureStridesSegments lib n iterations warmup rounds strides).flatMap Segment.accesses =
      stridesPlan lib n iterations warmup rounds strides := by
  induction strides with
  | nil => rfl
  | cons rawStride strides ih =>
      unfold measureStridesSegments stridesPlan
      rw [List.flatMap_append, accesses_measureStrideSegments]
      split
      · rw [ih]
      · rfl

theorem accesses_callSegments (lib : Library) {o : LatencyMeasurer abi} (hs : o.Sound)
    (call : Call abi) :
    (callSegments lib o.nodeCount call).flatMap Segment.accesses = callAccesses lib o call := by
  have hempty : ([] : List Segment).flatMap Segment.accesses = [] := rfl
  have htimed : ∀ accesses, [Segment.timed accesses].flatMap Segment.accesses = accesses :=
    fun accesses => List.append_nil accesses
  have hmiss : ∀ order start,
      (missWalk order start).flatMap Segment.accesses = flushAndWalk order start :=
    fun order start => congrArg (_ ++ ·) (List.append_nil _)
  rw [callAccesses_eq lib hs]
  cases call with
  | measureHit iterations warmup rounds =>
      unfold callSegments plannedAccesses hitPlan
      rw [apply_ite (List.flatMap Segment.accesses), List.flatMap_cons, accesses_sampledSegments]
      unfold hitWalk
      simp only [htimed, hempty]
      rfl
  | measureForcedMiss iterations warmup rounds =>
      unfold callSegments plannedAccesses forcedMissPlan
      dsimp only
      rw [apply_ite (List.flatMap Segment.accesses), apply_ite (List.flatMap Segment.accesses),
        List.flatMap_cons, accesses_sampledSegments]
      simp only [hmiss, hempty]
      rfl
  | measureStore iterations warmup rounds =>
      unfold callSegments plannedAccesses storePlan
      rw [apply_ite (List.flatMap Segment.accesses), accesses_sampledSegments]
      unfold storeBatchSegment
      simp only [htimed, hempty]
  | measureStrides strides iterations warmup rounds =>
      unfold callSegments plannedAccesses
      rw [apply_ite (List.flatMap Segment.accesses), apply_ite (List.flatMap Segment.accesses),
        accesses_measureStridesSegments, hempty]

end Segments

/-! ## Times -/

section Times

variable {m : Machine} {s : CacheState Nat}

theorem after_append (segments segments' : List Segment) :
    m.after s (segments ++ segments') = m.after (m.after s segments) segments' := by
  unfold Machine.after
  rw [List.flatMap_append, CacheState.run_append]

theorem times_append (segments segments' : List Segment) :
    m.times s (segments ++ segments') =
      m.times s segments ++ m.times (m.after s segments) segments' := by
  induction segments generalizing s with
  | nil => rfl
  | cons segment segments ih =>
      have hafter : m.after s (segment :: segments) = m.after (m.after s [segment]) segments :=
        after_append [segment] segments
      rw [hafter]
      cases segment with
      | plain accesses => exact ih
      | timed accesses => exact congrArg (_ :: ·) ih

theorem length_times (segments : List Segment) :
    (m.times s segments).length = segments.countP Segment.isTimed := by
  induction segments generalizing s with
  | nil => rfl
  | cons segment segments ih =>
      cases segment with
      | plain accesses =>
          rw [List.countP_cons_of_neg Bool.false_ne_true]
          exact ih
      | timed accesses =>
          rw [List.countP_cons_of_pos rfl]
          exact congrArg Nat.succ ih

/-- Blocks that keep an invariant of the cache and take the same time. -/
theorem times_blocks {Inv : CacheState Nat → Prop} {block : Nat → List Segment} {k t : Nat}
    (h : ∀ i s, Inv s →
      m.times s (block i) = List.replicate k t ∧ Inv (m.after s (block i)))
    (n : Nat) (hs : Inv s) :
    m.times s ((List.range n).flatMap block) = List.replicate (n * k) t ∧
      Inv (m.after s ((List.range n).flatMap block)) := by
  induction n with
  | zero =>
      rw [Nat.zero_mul]
      exact ⟨rfl, hs⟩
  | succ n ih =>
      obtain ⟨htimes, hinv⟩ := ih
      obtain ⟨hblock, hnext⟩ := h n _ hinv
      rw [List.range_succ, List.flatMap_append, List.flatMap_singleton, times_append,
        after_append, htimes, hblock, List.replicate_append_replicate, Nat.succ_mul]
      exact ⟨rfl, hnext⟩

theorem times_measuredSegments {Inv : CacheState Nat → Prop} {block : Nat → Nat → List Segment}
    {t : Nat}
    (h : ∀ round i s, Inv s →
      m.times s (block round i) = [t] ∧ Inv (m.after s (block round i)))
    (iterations rounds : Int) (hs : Inv s) :
    m.times s (measuredSegments iterations rounds block) =
      List.replicate (rounds.toNat * iterations.toNat) t := by
  have hround : ∀ round s, Inv s →
      m.times s ((List.range iterations.toNat).flatMap (block round)) =
          List.replicate iterations.toNat t ∧
        Inv (m.after s ((List.range iterations.toNat).flatMap (block round))) := by
    intro round s hs
    have hblocks := times_blocks (k := 1) (h round) iterations.toNat hs
    rw [Nat.mul_one] at hblocks
    exact hblocks
  exact (times_blocks hround rounds.toNat hs).1

theorem countP_blocks {block : Nat → List Segment} {k : Nat}
    (h : ∀ i, (block i).countP Segment.isTimed = k) (n : Nat) :
    ((List.range n).flatMap block).countP Segment.isTimed = n * k := by
  induction n with
  | zero => exact (Nat.zero_mul k).symm
  | succ n ih =>
      rw [List.range_succ, List.flatMap_append, List.flatMap_singleton, List.countP_append, ih, h,
        Nat.succ_mul]

theorem countP_measuredSegments {block : Nat → Nat → List Segment}
    (h : ∀ round i, (block round i).countP Segment.isTimed = 1) (iterations rounds : Int) :
    (measuredSegments iterations rounds block).countP Segment.isTimed =
      rounds.toNat * iterations.toNat :=
  countP_blocks (fun round => (countP_blocks (h round) _).trans (Nat.mul_one _)) _

theorem countP_sampledSegments (lib : Library) (abi : Abi) (iterations warmup rounds : Int)
    {warm : Nat → List Segment} {block : Nat → Nat → List Segment}
    (hwarm : ∀ i, (warm i).countP Segment.isTimed = 1)
    (hblock : ∀ round i, (block round i).countP Segment.isTimed = 1) :
    (sampledSegments lib abi iterations warmup rounds warm block).countP Segment.isTimed =
      if (lib.room abi iterations rounds).reserved then
        warmup.toNat + rounds.toNat * iterations.toNat
      else warmup.toNat := by
  have hreserved : (lib.room abi iterations rounds).reserved =
      lib.reserveSamples (sampleCapacity abi iterations rounds) := rfl
  unfold sampledSegments
  rw [List.countP_append, countP_blocks hwarm, Nat.mul_one, hreserved]
  split
  · rw [countP_measuredSegments hblock]
  · rfl

theorem countP_measureStrideSegments {abi : Abi} (lib : Library) (n : Nat)
    (iterations warmup rounds : Int) (rawStride : SizeT abi) :
    (measureStrideSegments lib n iterations warmup rounds rawStride).countP Segment.isTimed =
      if (lib.room abi iterations rounds).reserved then
        warmup.toNat + rounds.toNat * iterations.toNat
      else warmup.toNat :=
  (List.countP_cons_of_neg Bool.false_ne_true).trans
    (countP_sampledSegments lib abi iterations warmup rounds (fun _ => rfl) fun _ _ => rfl)

theorem countP_measureStridesSegments {abi : Abi} (lib : Library) (n : Nat) {s : Series}
    (label : SizeT abi → String) (strides : List (SizeT abi)) :
    (measureStridesSegments lib n s.iterations s.warmup s.rounds strides).countP
        Segment.isTimed =
      s.sections (lib.room abi s.iterations s.rounds) (strides.map label) := by
  induction strides with
  | nil => rfl
  | cons rawStride strides ih =>
      unfold measureStridesSegments
      rw [List.countP_append, countP_measureStrideSegments, List.map_cons, Series.sections, ← ih,
        apply_ite (List.countP Segment.isTimed)]
      rfl

/-- A plain benchmark has a guard, a warm-up and one series of samples. -/
theorem countP_of_single {abi : Abi} {lib : Library} {o : LatencyMeasurer abi} {call : Call abi}
    {guard : Prop} [Decidable guard] {segments : List Segment} {thrown : Thrown} {label : String}
    {steps : Nat} {iterations warmup rounds : Int}
    (hcall : callSegments lib o.nodeCount call = if guard then [] else segments)
    (hrefusal : call.refusal lib o.nodeCount = if guard then some thrown else none)
    (hseries : call.series o.cacheLineSize = .single label steps iterations warmup rounds)
    (hsegments : segments.countP Segment.isTimed =
      if (lib.room abi iterations rounds).reserved then
        warmup.toNat + rounds.toNat * iterations.toNat
      else warmup.toNat) :
    (callSegments lib o.nodeCount call).countP Segment.isTimed = call.sections lib o := by
  rw [hcall, Call.sections, hrefusal]
  split
  · rfl
  · rw [hseries, hsegments]
    exact (Series.sections_singleton _ (.single label steps iterations warmup rounds) label).symm

/-- There is one timed segment for every section that the call takes. -/
theorem countP_callSegments {abi : Abi} (lib : Library) (o : LatencyMeasurer abi)
    (call : Call abi) :
    (callSegments lib o.nodeCount call).countP Segment.isTimed = call.sections lib o := by
  have hcons : ∀ accesses (segments : List Segment),
      (Segment.plain accesses :: segments).countP Segment.isTimed =
        segments.countP Segment.isTimed :=
    fun _ _ => List.countP_cons_of_neg Bool.false_ne_true
  cases call with
  | measureHit iterations warmup rounds =>
      exact countP_of_single rfl rfl rfl ((hcons _ _).trans
        (countP_sampledSegments _ _ _ _ _ (fun _ => rfl) fun _ _ => rfl))
  | measureForcedMiss iterations warmup rounds =>
      have hrefusal : (Call.measureForcedMiss iterations warmup rounds : Call abi).refusal lib
          o.nodeCount = if iterations ≤ 0 ∨ warmup < 0 ∨ rounds ≤ 0 ∨ o.nodeCount < 64 then
            some (.invalidArgument "Invalid forced-miss benchmark configuration")
          else if lib.resizeOrder o.nodeCount then none else some .allocation := rfl
      -- The order has to find room before there is anything to walk on.
      by_cases hresize : lib.resizeOrder o.nodeCount = true
      · rw [if_pos hresize] at hrefusal
        let order := lib.shuffle 0xC0FFEE123456789 (List.range o.nodeCount)
        have hcall : callSegments lib o.nodeCount
            (.measureForcedMiss iterations warmup rounds : Call abi) =
              if iterations ≤ 0 ∨ warmup < 0 ∨ rounds ≤ 0 ∨ o.nodeCount < 64 then []
              else
                .plain (randomRingStores order o.nodeCount) ::
                  sampledSegments lib abi iterations warmup rounds
                    (fun i => missWalk order (i % o.nodeCount)) fun round i =>
                      missWalk order (startPosition abi iterations.toNat o.nodeCount round i) := by
          unfold callSegments
          dsimp only
          rw [if_pos hresize]
        exact countP_of_single hcall hrefusal rfl ((hcons _ _).trans
          (countP_sampledSegments _ _ _ _ _ (fun _ => rfl) fun _ _ => rfl))
      · rw [callSegments, Call.sections, hrefusal, if_neg hresize, if_neg hresize]
        split <;> rfl
  | measureStore iterations warmup rounds =>
      exact countP_of_single rfl rfl rfl
        (countP_sampledSegments _ _ _ _ _ (fun _ => rfl) fun _ _ => rfl)
  | measureStrides strides iterations warmup rounds =>
      have hrefusal : (Call.measureStrides strides iterations warmup rounds).refusal lib
          o.nodeCount = if iterations ≤ 0 ∨ warmup < 0 ∨ rounds ≤ 0 then
            some (.invalidArgument "Invalid stride benchmark configuration")
          else if lib.reserveResults strides.length then none else some .allocation := rfl
      -- Strides have a second guard, the reservation of the results.
      rw [callSegments, Call.sections, hrefusal]
      split
      · rfl
      · split
        · exact countP_measureStridesSegments lib o.nodeCount
            (s := (Call.measureStrides strides iterations warmup rounds).series o.cacheLineSize)
            (strideLabel o.cacheLineSize) strides
        · rfl

/-! ### Blocks of the benchmarks -/

theorem ops_loads (nodes : List Nat) :
    (Segment.timed (loads nodes)).ops = nodes.map (.touch .load) := by
  unfold Segment.ops loads
  rw [List.map_eq_flatMap, List.map_eq_flatMap]
  exact List.flatMap_assoc

theorem times_timed (accesses : List Access) :
    m.times s [.timed accesses] = [s.cost m.policy m.time (Segment.timed accesses).ops] := rfl

/-- Node 0 is walked on alone, so any policy that spares the last line keeps it. -/
theorem hitWalk_times (hdepth : 1 ≤ m.policy.depth) (hs : s.Rotates m.policy (fun _ => 0) 1 0) :
    m.times s hitWalk = [kLatencyBatch * m.time .load true] ∧
      (m.after s hitWalk).Rotates m.policy (fun _ => 0) 1 0 := by
  have hops : (Segment.timed (loads (List.iterate id 0 kLatencyBatch))).ops =
      CacheState.turns .load (fun _ => 0) 1 0 kLatencyBatch := by
    rw [ops_loads, ← List.range_map_iterate, CacheState.turns, List.range_eq_range', List.map_map]
    refine List.map_congr_left fun k _ => ?_
    exact congrArg (CacheOp.touch AccessKind.load) (congrFun (Function.iterate_id k) 0)
  have hturns := hs.turns hdepth Nat.one_pos m.time AccessKind.load kLatencyBatch
  have hafter : m.after s hitWalk =
      s.run m.policy (Segment.timed (loads (List.iterate id 0 kLatencyBatch))).ops :=
    congrArg (s.run m.policy) (List.append_nil _)
  -- `next` of node 0 is node 0, so the walk is a rotation through one line.
  rw [hafter, hitWalk, times_timed, hops, hturns.1]
  refine ⟨rfl, ?_⟩
  have hall := hturns.2
  rw [Nat.zero_add, ← Nat.one_mul kLatencyBatch] at hall
  exact hall.restart

/-- The flushed lines of a walk are all different, so each of its steps misses. -/
theorem missWalk_times {order : List Nat} (hnodup : order.Nodup)
    (hlength : kLatencyBatch ≤ order.length) (start : Nat) (s : CacheState Nat) :
    m.times s (missWalk order start) = [kLatencyBatch * m.time .load false] := by
  have hflush : ∀ nodes : List Nat,
      (Segment.plain (nodes.map Access.flush ++ [.fence])).ops =
        CacheState.flushes AccessKind nodes := by
    intro nodes
    unfold Segment.ops Segment.accesses CacheState.flushes
    rw [List.flatMap_append, List.flatMap_map, List.map_eq_flatMap]
    exact List.append_nil _
  have hafter : ∀ accesses,
      m.after s [.plain accesses] = s.run m.policy (Segment.plain accesses).ops :=
    fun accesses => congrArg (s.run m.policy) (List.append_nil _)
  -- The window of the shuffled order holds different nodes, and its flushes have just run.
  have hcold := CacheState.cost_cold (p := m.policy)
    (s := s.run m.policy (CacheState.flushes AccessKind (window order 0 start kLatencyBatch)))
    m.time AccessKind.load
    (Lib.window_nodup hnodup start hlength)
    fun l hl => CacheState.cached_flushes _ (Or.inr hl)
  have htimes : m.times s (missWalk order start) =
      [(m.after s [.plain ((window order 0 start kLatencyBatch).map Access.flush ++ [.fence])]).cost
        m.policy m.time (Segment.timed (loads (window order 0 start kLatencyBatch))).ops] := rfl
  rw [htimes, hafter, hflush, ops_loads, hcold, window_length]

/-- Sixteen lines are written in turn. -/
theorem storeBatch_ops :
    (Segment.timed ((List.range kStoreBatch).map fun i =>
      Access.store (i % 16) (some (i % 16)))).ops =
      CacheState.turns AccessKind.store id 16 0 kStoreBatch := by
  unfold Segment.ops Segment.accesses CacheState.turns
  rw [List.flatMap_map, List.map_eq_flatMap, List.range_eq_range']
  rfl

/-- After one batch the sixteen lines are in the cache, whatever has been there before. -/
theorem rotates_storeBatch (hdepth : 16 ≤ m.policy.depth) (s : CacheState Nat) :
    (m.after s storeBatchSegment).Rotates m.policy id 16 0 := by
  have hturns := CacheState.rotates_turns (s := s) hdepth AccessKind.store id
    (by decide : 16 ≤ 16 * 16)
  have hafter : m.after s storeBatchSegment =
      s.run m.policy (CacheState.turns AccessKind.store id 16 0 (16 * 16)) := by
    have hbatch : kStoreBatch = 16 * 16 := rfl
    rw [← hbatch, ← storeBatch_ops]
    exact congrArg (s.run m.policy) (List.append_nil _)
  rw [hafter]
  exact hturns.restart

theorem storeBatch_times (hdepth : 16 ≤ m.policy.depth) (hs : s.Rotates m.policy id 16 0) :
    m.times s storeBatchSegment = [kStoreBatch * m.time .store true] ∧
      (m.after s storeBatchSegment).Rotates m.policy id 16 0 := by
  refine ⟨?_, rotates_storeBatch hdepth s⟩
  rw [storeBatchSegment, times_timed, storeBatch_ops,
    (hs.turns hdepth (by decide) m.time AccessKind.store kStoreBatch).1]

/-! ### Walks that overlap -/

/-- The `i`-th walk of a round finds all its lines but the last one. -/
def Warm (m : Machine) (s : CacheState Nat) (succ : Nat → Nat) (start i : Nat) : Prop :=
  ∀ k < kLatencyBatch - 1, s.Survives m.policy k (succ^[i + k] start)

/-- The time of a walk that misses its last line only. -/
def Machine.overlapTime (m : Machine) : Nat :=
  (kLatencyBatch - 1) * m.time .load true + m.time .load false

variable (succ : Nat → Nat) (start : Nat)

theorem warm_after (hdepth : kLatencyBatch ≤ m.policy.depth) (s : CacheState Nat) (i : Nat) :
    Warm m (m.after s (strideSegments succ start i)) succ start (i + 1) := by
  intro k hk
  let lines := List.iterate succ (succ^[i] start) kLatencyBatch ++ [succ^[i] start]
  have hafter : m.after s (strideSegments succ start i) =
      s.run m.policy (lines.map (.touch AccessKind.load)) := by
    have hops : (strideSegments succ start i).flatMap Segment.ops =
        lines.map (.touch AccessKind.load) := by
      unfold strideSegments
      rw [List.flatMap_cons, ops_loads, List.map_append]
      rfl
    exact congrArg (s.run m.policy) hops
  have hlength : lines.length = kLatencyBatch + 1 := by
    rw [List.length_append, List.length_iterate, List.length_singleton]
  have hk' : k + 1 < kLatencyBatch := by omega
  have hindex : k + 1 < lines.length := by omega
  -- The walk has read the line one step later than the next walk will.
  have hline : lines[k + 1] = succ^[i + 1 + k] start := by
    have hiterate : k + 1 < (List.iterate succ (succ^[i] start) kLatencyBatch).length := by
      rw [List.length_iterate]
      exact hk'
    have hsteps : k + 1 + i = i + 1 + k := by omega
    calc
      lines[k + 1] = (List.iterate succ (succ^[i] start) kLatencyBatch)[k + 1] :=
        List.getElem_append_left hiterate
      _ = succ^[k + 1] (succ^[i] start) := List.getElem_iterate _ _ _ _ _
      _ = succ^[k + 1 + i] start := (Function.iterate_add_apply succ (k + 1) i start).symm
      _ = succ^[i + 1 + k] start := by rw [hsteps]
  have hlives : k + lines.length ≤ m.policy.depth + (k + 1) := by
    rw [hlength]
    omega
  have hsurvives := CacheState.survives_touches (s := s) AccessKind.load lines hindex hlives
  rw [hline] at hsurvives
  rw [hafter]
  exact hsurvives

theorem strideSegments_times (s : CacheState Nat) (i : Nat) :
    ∃ t, m.times s (strideSegments succ start i) = [t] ∧
      kLatencyBatch * m.time .load true ≤ t ∧ t ≤ kLatencyBatch * m.time .load false ∧
      (Warm m s succ start i → t ≤ m.overlapTime) := by
  have htimes : m.times s (strideSegments succ start i) =
      [s.cost m.policy m.time
        ((List.iterate succ (succ^[i] start) kLatencyBatch).map (.touch .load))] := by
    rw [← ops_loads]
    rfl
  have hbetween := CacheState.cost_between (p := m.policy) (s := s) m.hit_le_miss
    (List.iterate succ (succ^[i] start) kLatencyBatch)
  rw [List.length_iterate] at hbetween
  refine ⟨_, htimes, hbetween.1, hbetween.2, ?_⟩
  intro hwarm
  -- All lines of the walk but the last one are hits; the last one is anything.
  have hsplit : List.iterate succ (succ^[i] start) kLatencyBatch =
      List.iterate succ (succ^[i] start) (kLatencyBatch - 1) ++
        [succ^[kLatencyBatch - 1] (succ^[i] start)] :=
    iterate_succ_append succ (succ^[i] start) (kLatencyBatch - 1)
  have hfirst : s.cost m.policy m.time
      ((List.iterate succ (succ^[i] start) (kLatencyBatch - 1)).map (.touch AccessKind.load)) =
        (kLatencyBatch - 1) * m.time .load true := by
    rw [CacheState.cost_hot, List.length_iterate]
    intro k hk
    rw [List.length_iterate] at hk
    rw [List.getElem_iterate, ← Function.iterate_add_apply, Nat.add_comm]
    exact hwarm k hk
  have hlast := (CacheState.cost_between (p := m.policy)
    (s := s.run m.policy ((List.iterate succ (succ^[i] start) (kLatencyBatch - 1)).map
      (.touch AccessKind.load))) m.hit_le_miss [succ^[kLatencyBatch - 1] (succ^[i] start)]).2
  rw [hsplit, List.map_append, CacheState.cost_append, hfirst]
  unfold Machine.overlapTime
  rw [List.length_singleton, Nat.one_mul] at hlast
  exact Nat.add_le_add_left hlast _

/-- The times of samples of which all but a few do not exceed the time of an overlapping walk. -/
structure Overlapping (m : Machine) (n few : Nat) (times : List Nat) : Prop where
  length : times.length = n
  between : ∀ t ∈ times,
    kLatencyBatch * m.time .load true ≤ t ∧ t ≤ kLatencyBatch * m.time .load false
  few : n ≤ times.countP (· ≤ m.overlapTime) + few

theorem Overlapping.append {n n' few few' : Nat} {times times' : List Nat}
    (h : Overlapping m n few times) (h' : Overlapping m n' few' times') :
    Overlapping m (n + n') (few + few') (times ++ times') where
  length := by rw [List.length_append, h.length, h'.length]
  between := List.forall_mem_append.2 ⟨h.between, h'.between⟩
  few := by
    have hleft := h.few
    have hright := h'.few
    rw [List.countP_append]
    omega

/-- In a round only the first walk starts on lines that it may not find. -/
theorem overlapping_round (hdepth : kLatencyBatch ≤ m.policy.depth) (s : CacheState Nat) (n : Nat) :
    Overlapping m n 1 (m.times s ((List.range n).flatMap (strideSegments succ start))) ∧
      (0 < n →
        Warm m (m.after s ((List.range n).flatMap (strideSegments succ start))) succ start n) := by
  induction n with
  | zero => exact ⟨⟨rfl, nofun, Nat.zero_le _⟩, fun h => absurd h (Nat.lt_irrefl 0)⟩
  | succ n ih =>
      obtain ⟨hbefore, hwarm⟩ := ih
      rw [List.range_succ, List.flatMap_append, List.flatMap_singleton, times_append, after_append]
      generalize m.after s ((List.range n).flatMap (strideSegments succ start)) = s' at hwarm ⊢
      obtain ⟨t, htimes, hlower, hupper, hoverlap⟩ := strideSegments_times (m := m) succ start s' n
      refine ⟨?_, fun _ => warm_after succ start hdepth s' n⟩
      have hbetween : ∀ t' ∈ [t], kLatencyBatch * m.time .load true ≤ t' ∧
          t' ≤ kLatencyBatch * m.time .load false := by
        rintro t' ht'
        rw [List.mem_singleton.1 ht']
        exact ⟨hlower, hupper⟩
      rw [htimes]
      rcases Nat.eq_zero_or_pos n with rfl | hpos
      · -- The first walk may miss, and nothing has come before it.
        have hnone : m.times s ((List.range 0).flatMap (strideSegments succ start)) = [] := rfl
        rw [hnone]
        exact ⟨rfl, hbetween, Nat.le_add_left _ _⟩
      · have hsmall : t ≤ m.overlapTime := hoverlap (hwarm hpos)
        have hone : Overlapping m 1 0 [t] := ⟨rfl, hbetween, by simp [hsmall]⟩
        exact hbefore.append hone

theorem overlapping_rounds (hdepth : kLatencyBatch ≤ m.policy.depth) (s : CacheState Nat)
    (starts : Nat → Nat) (iterations rounds : Int) :
    Overlapping m (rounds.toNat * iterations.toNat) rounds.toNat
      (m.times s (measuredSegments iterations rounds fun round =>
        strideSegments succ (starts round))) := by
  unfold measuredSegments
  generalize rounds.toNat = n
  induction n with
  | zero =>
      rw [Nat.zero_mul]
      exact ⟨rfl, nofun, Nat.zero_le _⟩
  | succ n ih =>
      -- Each round starts somewhere else, and pays for it with one walk.
      have hround := overlapping_round succ (starts n) hdepth
        (m.after s ((List.range n).flatMap fun round =>
          (List.range iterations.toNat).flatMap (strideSegments succ (starts round))))
        iterations.toNat
      rw [List.range_succ, List.flatMap_append, List.flatMap_singleton, times_append, Nat.succ_mul]
      exact ih.append hround.1

end Times

end Latency
end LatencyAnalyzer
