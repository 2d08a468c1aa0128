import LatencyAnalyzer.Latency.Plans

/-!
# History — reachable measurers, and what a call on one of them accesses

The constructor leaves a sound object behind and every call keeps it sound, so every call performs
its plan.  The plans are made from the number of nodes and stay inside the buffer.
-/

namespace LatencyAnalyzer
namespace Latency

open Cxx Lib

/-! ## Plans stay inside the buffer -/

section Inside

variable {abi : Abi} {n : Nat}

theorem inside_flatMap {block : Nat → List Access} (h : ∀ i, ∀ a ∈ block i, a.Inside n)
    (count : Nat) : ∀ a ∈ (List.range count).flatMap block, a.Inside n := by
  intro a ha
  rcases List.mem_flatMap.1 ha with ⟨i, _, hi⟩
  exact h i a hi

theorem inside_append {plan plan' : List Access} (h : ∀ a ∈ plan, a.Inside n)
    (h' : ∀ a ∈ plan', a.Inside n) : ∀ a ∈ plan ++ plan', a.Inside n := by
  intro a ha
  rcases List.mem_append.1 ha with ha | ha
  · exact h a ha
  · exact h' a ha

theorem inside_sampled (lib : Library) (iterations warmup rounds : Int) {warm : Nat → List Access}
    {block : Nat → Nat → List Access} (hwarm : ∀ i, ∀ a ∈ warm i, a.Inside n)
    (hblock : ∀ round i, ∀ a ∈ block round i, a.Inside n) :
    ∀ a ∈ sampled lib abi iterations warmup rounds warm block, a.Inside n := by
  refine inside_append (inside_flatMap hwarm _) ?_
  split
  · exact inside_flatMap (fun round => inside_flatMap (hblock round) _) _
  · exact List.forall_mem_nil _

theorem iterate_lt {succ : Nat → Nat} (hsucc : ∀ i < n, succ i < n) {start : Nat}
    (hstart : start < n) (k : Nat) : succ^[k] start < n := by
  have hmaps : Set.MapsTo succ (Set.Iio n) (Set.Iio n) := hsucc
  exact hmaps.iterate k hstart

theorem inside_iterate {succ : Nat → Nat} (hsucc : ∀ i < n, succ i < n) {start : Nat}
    (hstart : start < n) (steps : Nat) :
    ∀ a ∈ loads (List.iterate succ start steps), a.Inside n := by
  apply inside_loads
  intro i hi
  rcases List.mem_iterate.1 hi with ⟨k, _, rfl⟩
  exact iterate_lt hsucc hstart k

theorem inside_hitPlan (lib : Library) (iterations warmup rounds : Int) (hpos : 0 < n) :
    ∀ a ∈ hitPlan lib abi iterations warmup rounds, a.Inside n := by
  have hwalk : ∀ a ∈ loads (List.iterate id 0 kLatencyBatch), a.Inside n :=
    inside_iterate (fun _ hi => hi) hpos kLatencyBatch
  refine List.forall_mem_cons.2 ⟨⟨hpos, 0, hpos, rfl⟩, ?_⟩
  exact inside_sampled lib iterations warmup rounds (fun _ => hwalk) fun _ _ => hwalk

theorem inside_flushAndWalk {order : List Nat} (h : order.Perm (List.range n)) (hpos : 0 < n)
    (start : Nat) : ∀ a ∈ flushAndWalk order start, a.Inside n := by
  have hnode : ∀ i ∈ window order 0 start kLatencyBatch, i < n := by
    intro i hi
    exact (mem_order h i).1 (window_subset (by rwa [order_length h]) i hi)
  have hflush : ∀ a ∈ (window order 0 start kLatencyBatch).map Access.flush, a.Inside n :=
    List.forall_mem_map.2 hnode
  exact inside_append (inside_append hflush (List.forall_mem_singleton.2 trivial))
    (inside_loads hnode)

theorem inside_forcedMissPlan (lib : Library) (iterations warmup rounds : Int) (hpos : 0 < n) :
    ∀ a ∈ forcedMissPlan lib abi n iterations warmup rounds, a.Inside n := by
  have hperm := lib.shuffle_perm 0xC0FFEE123456789 (List.range n)
  refine inside_append (inside_stores (fun i hi => order_getD_lt hperm hi)
    fun i _ => order_getD_lt hperm (Nat.mod_lt _ hpos)) ?_
  exact inside_sampled lib iterations warmup rounds (fun i => inside_flushAndWalk hperm hpos _)
    fun _ _ => inside_flushAndWalk hperm hpos _

theorem inside_storePlan (lib : Library) (iterations warmup rounds : Int) (hn : 16 ≤ n) :
    ∀ a ∈ storePlan lib abi iterations warmup rounds, a.Inside n := by
  have hslot : ∀ i < kStoreBatch, i % 16 < n :=
    fun i _ => lt_of_lt_of_le (Nat.mod_lt i (by decide)) hn
  have hbatch := inside_stores hslot hslot
  exact inside_sampled lib iterations warmup rounds (fun _ => hbatch) fun _ _ => hbatch

theorem inside_stridePlan (lib : Library) (iterations warmup rounds : Int) (hpos : 0 < n)
    (rawStride : SizeT abi) :
    ∀ a ∈ stridePlan lib n iterations warmup rounds rawStride, a.Inside n := by
  unfold stridePlan
  generalize strideLines nodeSize (strideOf nodeSize rawStride.toNat) = lines
  have hnext : ∀ i < n, strideNext n lines i < n := fun _ _ => Nat.mod_lt _ hpos
  have hwalk : ∀ start < n, ∀ i, ∀ a ∈ strideWalk (strideNext n lines) start i, a.Inside n := by
    intro start hstart i
    have hi : (strideNext n lines)^[i] start < n := iterate_lt hnext hstart i
    exact inside_append (inside_iterate hnext hi _) (List.forall_mem_singleton.2 ⟨_, hi, rfl⟩)
  refine inside_append (inside_stores (fun _ hi => hi) hnext) ?_
  exact inside_sampled lib iterations warmup rounds (hwalk 0 hpos)
    fun round => hwalk (round % n) (Nat.mod_lt _ hpos)

theorem inside_stridesPlan (lib : Library) (iterations warmup rounds : Int) (hpos : 0 < n)
    (strides : List (SizeT abi)) :
    ∀ a ∈ stridesPlan lib n iterations warmup rounds strides, a.Inside n := by
  induction strides with
  | nil => exact List.forall_mem_nil _
  | cons rawStride strides ih =>
      refine inside_append (inside_stridePlan lib iterations warmup rounds hpos rawStride) ?_
      split
      · exact ih
      · exact List.forall_mem_nil _

theorem inside_unless {c : Prop} [Decidable c] {plan : List Access}
    (h : ∀ a ∈ plan, a.Inside n) : ∀ a ∈ if c then [] else plan, a.Inside n := by
  split
  · exact List.forall_mem_nil _
  · exact h

theorem inside_plannedAccesses (lib : Library) (hn : 16 ≤ n) (call : Call abi) :
    ∀ a ∈ plannedAccesses lib n call, a.Inside n := by
  have hpos : 0 < n := lt_of_lt_of_le (by decide) hn
  cases call with
  | measureHit iterations warmup rounds =>
      exact inside_unless (inside_hitPlan lib iterations warmup rounds hpos)
  | measureForcedMiss iterations warmup rounds =>
      apply inside_unless
      split
      · exact inside_forcedMissPlan lib iterations warmup rounds hpos
      · exact List.forall_mem_nil _
  -- The store batch writes sixteen slots, whatever the size of the buffer.
  | measureStore iterations warmup rounds =>
      exact inside_unless (inside_storePlan lib iterations warmup rounds hn)
  | measureStrides strides iterations warmup rounds =>
      apply inside_unless
      split
      · exact inside_stridesPlan lib iterations warmup rounds hpos strides
      · exact List.forall_mem_nil _

theorem inside_plannedHistory (lib : Library) (hn : 16 ≤ n) (calls : List (Call abi)) :
    ∀ a ∈ plannedHistory lib n calls, a.Inside n := by
  intro a ha
  rcases List.mem_flatMap.1 ha with ⟨call, _, hcall⟩
  exact inside_plannedAccesses lib hn call a hcall

end Inside

/-! ## Construction -/

section Construction

variable {abi : Abi}

theorem minimum_le_bufferSizeFor (requested : Nat) :
    Config.minBufferSize ≤ bufferSizeFor requested := by
  unfold bufferSizeFor
  dsimp only
  generalize (if requested = 0 then Config.minBufferSize else max requested Config.minBufferSize) /
    nodeSize * nodeSize = rounded
  split <;> omega

/-- The object that the constructor leaves behind. -/
structure Constructed (size : Nat) (o : LatencyMeasurer abi) : Prop where
  sound : o.Sound
  bufferSize : o.bufferSize = size
  nodeCount : o.nodeCount = size / nodeSize
  inside : ∀ a ∈ o.accesses, a.Inside o.nodeCount

theorem Constructed.performs {bufferSize : Nat} {o o' : LatencyMeasurer abi} {plan : List Access}
    (h : Constructed bufferSize o) (hp : Performs o o' plan)
    (hplan : ∀ a ∈ plan, a.Inside o.nodeCount) : Constructed bufferSize o' := by
  refine ⟨hp.layout.sound, hp.layout.bufferSize.trans h.bufferSize,
    hp.layout.nodeCount.trans h.nodeCount, ?_⟩
  rw [hp.accesses, hp.layout.nodeCount]
  exact inside_append h.inside hplan

theorem constructed_linkToSelf (sys : System) (numaNode : Int) {bufferSize : Nat}
    (hsize : Config.minBufferSize ≤ bufferSize) (base : Nat) :
    Constructed bufferSize (linkToSelf (allocated abi sys numaNode bufferSize base)) := by
  -- The pages read as zero at first, so the invariant starts with this loop.
  have hrewritten : Rewritten id id (bufferSize / nodeSize)
      (allocated abi sys numaNode bufferSize base)
      (linkToSelf (allocated abi sys numaNode bufferSize base)) :=
    rewritten_foldl (allocated abi sys numaNode bufferSize base) id id (fun _ hi => hi)
      fun _ _ _ _ heq => heq
  generalize linkToSelf (allocated abi sys numaNode bufferSize base) = o at hrewritten ⊢
  have hcount : o.nodeCount = bufferSize / nodeSize := by
    rw [hrewritten.layout]
    rfl
  refine ⟨⟨?_, ?_, ?_⟩, ?_, hcount, ?_⟩
  · rw [hrewritten.layout]
    rfl
  · rw [hcount]
    exact Nat.div_le_div_right hsize
  · intro i hi
    rw [hcount] at hi ⊢
    refine ⟨i, hi, (hrewritten.written i hi).trans ?_⟩
    rw [hrewritten.layout]
    rfl
  · rw [hrewritten.layout]
    rfl
  · rw [hcount, hrewritten.accesses]
    exact inside_stores (fun _ hi => hi) fun _ hi => hi

theorem constructed_linked (sys : System) (numaNode : Int) {bufferSize : Nat}
    (hsize : Config.minBufferSize ≤ bufferSize) (base : Nat) (cycles : UInt64) :
    Constructed bufferSize (linked abi sys numaNode bufferSize base cycles) := by
  have hlinked : Constructed bufferSize
      ((linkToSelf (allocated abi sys numaNode bufferSize base)).withOverhead cycles) := by
    rcases constructed_linkToSelf sys numaNode hsize base with ⟨hs, hb, hc, hi⟩
    exact ⟨hs, hb, hc, hi⟩
  unfold linked
  dsimp only
  generalize (linkToSelf (allocated abi sys numaNode bufferSize base)).withOverhead
    cycles = o at hlinked ⊢
  have hpos : 0 < o.nodeCount := hlinked.sound.pos
  have hlooped : Constructed bufferSize (buildSelfLoop o) :=
    hlinked.performs (performs_buildSelfLoop hlinked.sound)
      (List.forall_mem_singleton.2 ⟨hpos, 0, hpos, rfl⟩)
  -- The last page that is touched starts inside the buffer.
  have hpage : ∀ k < ((buildSelfLoop o).nodeCount + 511) / 512,
      512 * k < (buildSelfLoop o).nodeCount := by
    intro k hk
    omega
  have htouched := (rewritten_foldl (buildSelfLoop o) (512 * ·) (512 * ·) hpage
    fun _ _ _ _ heq => heq).performs hlooped.sound hpage
  exact hlooped.performs htouched (inside_stores hpage hpage)

theorem constructed_setUp {sys : System} {numaNode : Int} {bufferSize : Nat}
    (hsize : Config.minBufferSize ≤ bufferSize) {base : Nat} {o : LatencyMeasurer abi}
    (h : setUp abi sys numaNode bufferSize base = .ok o) : Constructed bufferSize o := by
  unfold setUp at h
  split at h
  · cases h
    exact constructed_linked sys numaNode hsize base _
  · cases h

theorem constructed_construct {sys : System} {requested cacheLineSize : SizeT abi}
    {numaNode : Int} {o : LatencyMeasurer abi}
    (h : construct sys requested cacheLineSize numaNode = .ok o) :
    Constructed (bufferSizeFor requested.toNat) o := by
  have hsize := minimum_le_bufferSizeFor requested.toNat
  unfold construct at h
  dsimp only at h
  split at h
  · split at h
    · split at h
      · exact constructed_setUp hsize h
      · cases h
    · cases h
  · split at h
    · exact constructed_setUp hsize h
    · cases h

/-- The constructor, when the buffer can be mapped and the overhead can be measured. -/
theorem construct_of_mmap (sys : System) (requested cacheLineSize : SizeT abi) {base : Nat}
    (h : sys.mmap (bufferSizeFor requested.toNat) = some base) {cycles : UInt64}
    (hcycles : Timer.measureOverheadCycles sys.reserveCycles sys.stamps 2000 = .ok cycles) :
    construct sys requested cacheLineSize (-1) =
      .ok (linked abi sys (-1) (bufferSizeFor requested.toNat) base cycles) := by
  unfold construct setUp
  dsimp only
  rw [if_neg (by decide), h, hcycles]

/-! ## Independence of the history -/

theorem callAccesses_eq (lib : Library) {o : LatencyMeasurer abi} (hs : o.Sound) (call : Call abi) :
    callAccesses lib o call = plannedAccesses lib o.nodeCount call := by
  have hs' : ({ o with accesses := [] } : LatencyMeasurer abi).Sound := hs
  exact (performs_runCall lib hs' call).accesses

/-- After any calls, all pointers and all accesses stay in the buffer, and the next call accesses
what it would access on a fresh object of the same size, which may lie elsewhere in memory. -/
theorem accesses_independent_of_history (lib : Library) {sys sys' : System}
    {requested requested' cacheLineSize cacheLineSize' : SizeT abi} {numaNode numaNode' : Int}
    {o fresh : LatencyMeasurer abi}
    (ho : construct sys requested cacheLineSize numaNode = .ok o)
    (hfresh : construct sys' requested' cacheLineSize' numaNode' = .ok fresh)
    (hsize : fresh.bufferSize = o.bufferSize) (calls : List (Call abi)) :
    let reached := runCalls lib o calls
    (∀ i < reached.nodeCount, ∃ j < reached.nodeCount, reached.next i = reached.address j) ∧
    (∀ a ∈ reached.accesses, a.Inside reached.nodeCount) ∧
    ∀ call, callAccesses lib reached call = callAccesses lib fresh call := by
  intro reached
  have hconstructed := constructed_construct ho
  have hfresh' := constructed_construct hfresh
  have hreached : Performs o reached (plannedHistory lib o.nodeCount calls) :=
    performs_runCalls lib calls hconstructed.sound
  have hsixteen : 16 ≤ o.nodeCount := le_trans (by decide) hconstructed.sound.nodeCount
  -- A plan depends on the number of nodes only, and the sizes agree.
  have hcounts : o.nodeCount = fresh.nodeCount := by
    rw [hconstructed.nodeCount, hfresh'.nodeCount, ← hconstructed.bufferSize,
      ← hfresh'.bufferSize, hsize]
  refine ⟨hreached.layout.sound.closed, ?_, ?_⟩
  · rw [hreached.accesses, hreached.layout.nodeCount]
    exact inside_append hconstructed.inside (inside_plannedHistory lib hsixteen calls)
  · intro call
    calc
      callAccesses lib reached call = plannedAccesses lib reached.nodeCount call :=
        callAccesses_eq lib hreached.layout.sound call
      _ = plannedAccesses lib fresh.nodeCount call := by rw [hreached.layout.nodeCount, hcounts]
      _ = callAccesses lib fresh call := (callAccesses_eq lib hfresh'.sound call).symm

/-- A machine without NUMA whose next mapping starts at `base`. -/
def plainSystem (base : Nat) : System :=
  { numaAvailable := false
    allocateOnNode := fun _ _ => none
    mmap := fun _ => some base
    reserveCycles := fun _ => true
    stamps := fun _ => (0, 24)
    timing := fun _ => 512 }

/-- A library whose shuffle reverses its range. -/
def plainLibrary : Library :=
  { reserveSamples := fun count => count < 2 ^ 60
    reserveResults := fun count => count < 2 ^ 56
    resizeOrder := fun count => count < 2 ^ 60
    copySamples := fun count => count < 2 ^ 60
    shuffle := fun _ l => l.reverse
    shuffle_perm := fun _ l => l.reverse_perm }

/-- All empty sections take the same time. -/
theorem overhead_plainSystem (base : Nat) :
    Timer.measureOverheadCycles (plainSystem base).reserveCycles (plainSystem base).stamps 2000 =
      .ok 24 := by
  apply Timer.overhead_of_majority rfl
  have hempty : (24 : UInt64) - 0 = 24 := by decide
  have hall : (List.range (2000 : Int).toNat).countP
      (fun i => Timer.emptyTime ((plainSystem base).stamps i) = 24) =
        (List.range (2000 : Int).toNat).length :=
    List.countP_eq_length.2 fun _ _ => decide_eq_true hempty
  rw [hall, List.length_range]
  decide

/-- The object that a machine without NUMA makes. -/
def plainMeasurer (requested : SizeT abi) (base : Nat) : LatencyMeasurer abi :=
  linked abi (plainSystem base) (-1) (bufferSizeFor requested.toNat) base 24

theorem construct_plainSystem (base : Nat) (requested cacheLineSize : SizeT abi) :
    construct (plainSystem base) requested cacheLineSize (-1) =
      .ok (plainMeasurer requested base) :=
  construct_of_mmap (plainSystem base) requested cacheLineSize rfl (overhead_plainSystem base)

theorem accesses_after_store :
    let o := plainMeasurer (0 : SizeT .x8664) 4096
    let fresh := plainMeasurer (0 : SizeT .x8664) 8192
    ∀ call, callAccesses plainLibrary (runCalls plainLibrary o [.measureStore 1 0 1]) call =
      callAccesses plainLibrary fresh call := by
  have ho := construct_plainSystem 4096 (0 : SizeT .x8664) 64
  have hfresh := construct_plainSystem 8192 (0 : SizeT .x8664) 64
  have hsize := (constructed_construct hfresh).bufferSize.trans
    (constructed_construct ho).bufferSize.symm
  exact (accesses_independent_of_history plainLibrary ho hfresh hsize [.measureStore 1 0 1]).2.2

end Construction

end Latency
end LatencyAnalyzer
