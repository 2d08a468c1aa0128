import LatencyAnalyzer.Latency.Samples
import LatencyAnalyzer.Latency.Walks

/-!
# Plans — the accesses of a benchmark, written down from its arguments

`plannedAccesses` says, from the number of nodes and the arguments alone, which nodes a call reads,
writes and flushes.  `performs_runCall` shows that every call on a sound object performs exactly
its plan and leaves a sound object behind.
-/

namespace LatencyAnalyzer
namespace Latency

open Cxx Lib

/-! ## The plans -/

section Plans

variable {abi : Abi}

/-- Warm-up blocks, then the blocks of the measured rounds if the samples can be stored. -/
def sampled (lib : Library) (abi : Abi) (iterations warmup rounds : Int)
    (warm : Nat → List Access) (block : Nat → Nat → List Access) : List Access :=
  (List.range warmup.toNat).flatMap warm ++
    if lib.reserveSamples (sampleCapacity abi iterations rounds) then
      (List.range rounds.toNat).flatMap fun round =>
        (List.range iterations.toNat).flatMap (block round)
    else []

def hitPlan (lib : Library) (abi : Abi) (iterations warmup rounds : Int) : List Access :=
  let walk := loads (List.iterate id 0 kLatencyBatch)
  .store 0 (some 0) :: sampled lib abi iterations warmup rounds (fun _ => walk) fun _ _ => walk

/-- The stores of `build_random_ring` for a shuffled order. -/
def randomRingStores (order : List Nat) (n : Nat) : List Access :=
  (List.range n).map fun i => .store (order.getD i 0) (some (order.getD ((i + 1) % n) 0))

/-- One sample of the forced-miss benchmark: the flushed window, a fence, the same window read. -/
def flushAndWalk (order : List Nat) (start : Nat) : List Access :=
  (window order 0 start kLatencyBatch).map Access.flush ++ [.fence] ++
    loads (window order 0 start kLatencyBatch)

def forcedMissPlan (lib : Library) (abi : Abi) (n : Nat) (iterations warmup rounds : Int) :
    List Access :=
  let order := lib.shuffle 0xC0FFEE123456789 (List.range n)
  randomRingStores order n ++
    sampled lib abi iterations warmup rounds (fun i => flushAndWalk order (i % n)) fun round i =>
      flushAndWalk order (startPosition abi iterations.toNat n round i)

def storePlan (lib : Library) (abi : Abi) (iterations warmup rounds : Int) : List Access :=
  let batch := (List.range kStoreBatch).map fun i => Access.store (i % 16) (some (i % 16))
  sampled lib abi iterations warmup rounds (fun _ => batch) fun _ _ => batch

/-- The node `lines` lines after node `i`, around the end of the buffer. -/
def strideNext (n lines i : Nat) : Nat :=
  (i + lines) % n

/-- The walk of the `i`-th sample of a round that starts in node `start`, and the step to the next
starting node. -/
def strideWalk (succ : Nat → Nat) (start i : Nat) : List Access :=
  loads (List.iterate succ (succ^[i] start) kLatencyBatch) ++ [.load (some (succ^[i] start))]

def stridePlan (lib : Library) (n : Nat) (iterations warmup rounds : Int) (rawStride : SizeT abi) :
    List Access :=
  let lines := strideLines nodeSize (strideOf nodeSize rawStride.toNat)
  let succ := strideNext n lines
  (List.range n).map (fun i => Access.store i (some (succ i))) ++
    sampled lib abi iterations warmup rounds (strideWalk succ 0) fun round =>
      strideWalk succ (round % n)

/-- The first stride whose samples find no room ends the call. -/
def stridesPlan (lib : Library) (n : Nat) (iterations warmup rounds : Int) :
    List (SizeT abi) → List Access
  | [] => []
  | rawStride :: strides =>
      stridePlan lib n iterations warmup rounds rawStride ++
        if (lib.room abi iterations rounds).fits then
          stridesPlan lib n iterations warmup rounds strides
        else []

def plannedAccesses (lib : Library) (n : Nat) : Call abi → List Access
  | .measureHit iterations warmup rounds =>
      if iterations ≤ 0 ∨ warmup < 0 ∨ rounds ≤ 0 then []
      else hitPlan lib abi iterations warmup rounds
  | .measureForcedMiss iterations warmup rounds =>
      if iterations ≤ 0 ∨ warmup < 0 ∨ rounds ≤ 0 ∨ n < 64 then []
      else if lib.resizeOrder n then forcedMissPlan lib abi n iterations warmup rounds
      else []
  | .measureStore iterations warmup rounds =>
      if iterations ≤ 0 ∨ warmup < 0 ∨ rounds ≤ 0 then []
      else storePlan lib abi iterations warmup rounds
  | .measureStrides strides iterations warmup rounds =>
      if iterations ≤ 0 ∨ warmup < 0 ∨ rounds ≤ 0 then []
      else if lib.reserveResults strides.length then
        stridesPlan lib n iterations warmup rounds strides
      else []

end Plans

/-! ## Performing a plan -/

/-- What a benchmark may rely on, whatever ran before it. -/
structure Layout.Sound (l : Layout) : Prop where
  cacheLineSize : l.cacheLineSize = nodeSize
  nodeCount : Config.minBufferSize / nodeSize ≤ l.nodeCount
  closed : l.Closed

section Performing

variable {abi : Abi}

theorem Layout.Sound.pos {l : Layout} (h : l.Sound) : 0 < l.nodeCount :=
  (by decide : 0 < Config.minBufferSize / nodeSize).trans_le h.nodeCount

/-- A sound layout of the same buffer. -/
structure Layout.Reuses (l l' : Layout) : Prop where
  sound : l'.Sound
  base : l'.base = l.base
  bufferSize : l'.bufferSize = l.bufferSize
  nodeCount : l'.nodeCount = l.nodeCount

theorem Layout.Reuses.refl {l : Layout} (h : l.Sound) : l.Reuses l :=
  ⟨h, rfl, rfl, rfl⟩

theorem Layout.Reuses.trans {l l' l'' : Layout} (h : l.Reuses l') (h' : l'.Reuses l'') :
    l.Reuses l'' :=
  ⟨h'.sound, h'.base.trans h.base, h'.bufferSize.trans h.bufferSize,
    h'.nodeCount.trans h.nodeCount⟩

/-- A call that performs `plan` and leaves the buffer sound. -/
def Performs (o o' : LatencyMeasurer abi) (plan : List Access) : Prop :=
  Emits o.Reuses o o' plan

theorem Performs.refl {o : LatencyMeasurer abi} (h : o.Sound) : Performs o o [] :=
  ⟨Layout.Reuses.refl h, (List.append_nil _).symm⟩

theorem Performs.trans {o o' o'' : LatencyMeasurer abi} {plan plan' : List Access}
    (h : Performs o o' plan) (h' : Performs o' o'' plan') : Performs o o'' (plan ++ plan') :=
  Emits.trans h (Emits.mono h' fun _ hl => h.layout.trans hl)

theorem Emits.performs {o o' : LatencyMeasurer abi} {plan : List Access} (hs : o.Sound)
    (h : Emits (· = o.toLayout) o o' plan) : Performs o o' plan := by
  apply h.mono
  rintro l rfl
  exact Layout.Reuses.refl hs

theorem Rewritten.performs {key target : Nat → Nat} {n : Nat} {o o' : LatencyMeasurer abi}
    (h : Rewritten key target n o o') (hs : o.Sound) (htarget : ∀ i < n, target i < o.nodeCount) :
    Performs o o' ((List.range n).map fun i => Access.store (key i) (some (target i))) := by
  have hclosed := h.closed hs.closed htarget
  refine ⟨⟨⟨?_, ?_, hclosed⟩, ?_, ?_, ?_⟩, h.accesses⟩
  · rw [h.layout]
    exact hs.cacheLineSize
  · rw [h.layout]
    exact hs.nodeCount
  all_goals
    rw [h.layout]
    rfl

theorem performs_buildSelfLoop {o : LatencyMeasurer abi} (hs : o.Sound) :
    Performs o (buildSelfLoop o) [.store 0 (some 0)] := by
  have hpos : 0 < o.nodeCount := hs.pos
  exact (rewritten_foldl (n := 1) o (fun _ => 0) (fun _ => 0) (fun _ _ => hpos)
    (fun _ _ _ _ _ => rfl)).performs hs fun _ _ => hpos

/-! ## Samples -/

theorem emits_measuredRounds {P : Layout → Prop} (rounds iterations : Nat)
    {sample : Nat → Nat → LatencyMeasurer abi → ℚ × LatencyMeasurer abi}
    {block : Nat → Nat → List Access}
    (hsample : ∀ round i o, P o.toLayout → Emits P o (sample round i o).2 (block round i))
    {o : LatencyMeasurer abi} (ho : P o.toLayout) :
    Emits P o (measuredRounds rounds iterations sample o).2
      ((List.range rounds).flatMap fun round => (List.range iterations).flatMap (block round)) := by
  have hstep : ∀ round i (st : List ℚ × LatencyMeasurer abi), P st.2.toLayout →
      Emits P st.2 (takeSample (sample round i) st).2 (block round i) :=
    fun round i st hst => hsample round i st.2 hst
  have hround : ∀ round (st : List ℚ × LatencyMeasurer abi), P st.2.toLayout →
      Emits P st.2
        ((List.range iterations).foldl (fun st' i => takeSample (sample round i) st') st).2
        ((List.range iterations).flatMap (block round)) :=
    fun round st hst => emits_foldl Prod.snd (hstep round) hst iterations
  exact emits_foldl (b := ([], o)) Prod.snd hround ho rounds

theorem emits_report (lib : Library) (label : String) (iterations rounds : Int)
    {measured : LatencyMeasurer abi → List ℚ × LatencyMeasurer abi} {o : LatencyMeasurer abi}
    {P : Layout → Prop} (ho : P o.toLayout) {block : List Access}
    (h : Emits P o (measured o).2 block) :
    Emits P o (report lib label iterations rounds measured o).2
      (if lib.reserveSamples (sampleCapacity abi iterations rounds) then block else []) := by
  unfold report
  dsimp only
  split
  -- A copy that finds no room comes after the walks.
  · split <;> exact h
  · exact ⟨ho, (List.append_nil _).symm⟩

/-- Warm-up and report of a benchmark whose blocks all keep the property `P`. -/
theorem emits_sampled (lib : Library) (label : String) (iterations warmup rounds : Int)
    {warmStep : LatencyMeasurer abi → Nat → LatencyMeasurer abi}
    {sample : Nat → Nat → LatencyMeasurer abi → ℚ × LatencyMeasurer abi}
    {warm : Nat → List Access} {block : Nat → Nat → List Access} {P : Layout → Prop}
    (hwarm : ∀ i o, P o.toLayout → Emits P o (warmStep o i) (warm i))
    (hsample : ∀ round i o, P o.toLayout → Emits P o (sample round i o).2 (block round i))
    {o : LatencyMeasurer abi} (ho : P o.toLayout) :
    Emits P o
      (report lib label iterations rounds
        (measuredRounds rounds.toNat iterations.toNat sample)
        ((List.range warmup.toNat).foldl warmStep o)).2
      (sampled lib abi iterations warmup rounds warm block) := by
  have hwarmed := emits_foldl id hwarm ho warmup.toNat
  have hmeasured := emits_measuredRounds rounds.toNat iterations.toNat hsample hwarmed.layout
  exact hwarmed.trans (emits_report lib label iterations rounds hwarmed.layout hmeasured)

/-! ## The benchmarks -/

theorem performs_measureHit (lib : Library) (iterations warmup rounds : Int)
    {o : LatencyMeasurer abi} (hs : o.Sound) :
    Performs o (measureHit lib iterations warmup rounds o).2
      (plannedAccesses lib o.nodeCount (.measureHit iterations warmup rounds : Call abi)) := by
  unfold measureHit plannedAccesses
  dsimp only
  split
  · exact Performs.refl hs
  · have hbuilt := performs_buildSelfLoop hs
    -- Only node 0 is walked on, so nothing has to be known about the other nodes.
    have hlinks : (buildSelfLoop o).Links id (· = 0) := by
      refine ⟨?_, fun _ hi => hi, ?_⟩
      · rintro i rfl
        exact hbuilt.layout.sound.pos
      · rintro i rfl
        show Function.update o.next 0 (o.address 0) 0 = _
        exact Function.update_self _ _ _
    have hwalk : ∀ (o' : LatencyMeasurer abi), o'.toLayout = (buildSelfLoop o).toLayout →
        Emits (· = (buildSelfLoop o).toLayout) o'
          (timedPointerChase ((buildSelfLoop o).address 0) kLatencyBatch o').2
          (loads (List.iterate id 0 kLatencyBatch)) :=
      fun o' ho' => emits_timedPointerChase ho' hlinks rfl kLatencyBatch
    have hsampled := emits_sampled (P := (· = (buildSelfLoop o).toLayout)) lib
      "Cache Hit (L1 pointer-chasing latency)" iterations warmup rounds (fun _ => hwalk)
      (fun _ _ => hwalk) rfl
    exact hbuilt.trans (hsampled.performs hbuilt.layout.sound)

theorem performs_storeBatch {o : LatencyMeasurer abi} (hs : o.Sound) (steps : Nat) :
    Performs o (timedStoreBatch steps o).2
      ((List.range steps).map fun i => Access.store (i % 16) (some (i % 16))) := by
  have htarget : ∀ i < steps, i % 16 < o.nodeCount := by
    intro i _
    have hlt : i % 16 < 16 := Nat.mod_lt _ (by decide)
    exact lt_of_lt_of_le (hlt.trans (by decide)) hs.nodeCount
  -- Sixteen slots are written over and over, each with its own address.
  have hrewritten := rewritten_foldl o (· % 16) (· % 16) htarget
    fun _ _ _ _ heq => heq
  rcases hrewritten.performs hs htarget with ⟨hlayout, haccesses⟩
  exact ⟨hlayout, haccesses⟩

theorem performs_measureStore (lib : Library) (iterations warmup rounds : Int)
    {o : LatencyMeasurer abi} (hs : o.Sound) :
    Performs o (measureStore lib iterations warmup rounds o).2
      (plannedAccesses lib o.nodeCount (.measureStore iterations warmup rounds : Call abi)) := by
  unfold measureStore plannedAccesses
  dsimp only
  split
  · exact Performs.refl hs
  · -- Each batch rewrites the slots, so the layout is kept up to its self loops only.
    have hbatch : ∀ (o' : LatencyMeasurer abi), o.Reuses o'.toLayout →
        Emits o.Reuses o' (timedStoreBatch kStoreBatch o').2
          ((List.range kStoreBatch).map fun i => Access.store (i % 16) (some (i % 16))) :=
      fun o' ho' => (performs_storeBatch ho'.sound kStoreBatch).mono fun _ hl => ho'.trans hl
    exact emits_sampled lib "Store (hot lines; issue throughput per store)" iterations warmup
      rounds (fun _ => hbatch) (fun _ _ => hbatch) (Layout.Reuses.refl hs)

/-! ## The random ring -/

/-- The map on node numbers that the stored addresses describe. -/
def Layout.succ (l : Layout) (i : Nat) : Nat :=
  (l.nodeOf (l.next i)).getD 0

theorem Layout.succ_eq {l : Layout} {i j : Nat} (hj : j < l.nodeCount)
    (hnext : l.next i = l.address j) : l.succ i = j := by
  unfold Layout.succ
  rw [hnext, l.nodeOf_address hj]
  rfl

theorem Layout.Closed.links {l : Layout} (h : l.Closed) : l.Links l.succ (· < l.nodeCount) := by
  refine ⟨fun _ hi => hi, ?_, ?_⟩
  all_goals
    intro i hi
    rcases h i hi with ⟨j, hj, hnext⟩
    rw [Layout.succ_eq hj hnext]
  · exact hj
  · exact hnext

/-! A shuffled order lists every node once. -/

section Order

variable {order : List Nat} {n : Nat} (h : order.Perm (List.range n))
include h

theorem order_length : order.length = n := by
  rw [h.length_eq, List.length_range]

theorem order_nodup : order.Nodup :=
  h.nodup_iff.2 List.nodup_range

theorem mem_order (i : Nat) : i ∈ order ↔ i < n :=
  h.mem_iff.trans List.mem_range

theorem order_getD_lt {i : Nat} (hi : i < n) : order.getD i 0 < n := by
  have hi' : i < order.length := by rwa [order_length h]
  rw [List.getD_eq_getElem _ _ hi']
  exact (mem_order h _).1 (List.getElem_mem _)

end Order

theorem rewritten_linkRandomOrder {o : LatencyMeasurer abi}
    (h : o.randomOrder.Perm (List.range o.nodeCount)) (hpos : 0 < o.nodeCount) :
    Rewritten (fun i => o.randomOrder.getD i 0)
      (fun i => o.randomOrder.getD ((i + 1) % o.nodeCount) 0) o.nodeCount o
      (linkRandomOrder o) := by
  apply rewritten_foldl o _ _
  · intro i _
    exact order_getD_lt h (Nat.mod_lt _ hpos)
  · intro i hi j hj heq
    -- No node occurs twice in the order, so no link is overwritten by another one.
    have hij : i = j := by
      refine getD_inj (order_nodup h) ?_ ?_ heq
      · rwa [order_length h]
      · rwa [order_length h]
    rw [hij]

/-- Linked in a shuffled order, the stored addresses follow that order. -/
theorem follows_linkRandomOrder {o : LatencyMeasurer abi}
    (h : o.randomOrder.Perm (List.range o.nodeCount)) (hpos : 0 < o.nodeCount) :
    Follows (linkRandomOrder o).succ o.randomOrder 0 := by
  have hrewritten := rewritten_linkRandomOrder h hpos
  intro i hi
  rw [order_length h] at hi ⊢
  apply Layout.succ_eq
  · rw [hrewritten.layout]
    exact order_getD_lt h (Nat.mod_lt _ hpos)
  · rw [hrewritten.written i hi, hrewritten.layout]
    rfl

section RandomRing

variable (lib : Library) (seed : UInt64) {o : LatencyMeasurer abi} (hs : o.Sound)
include hs

theorem randomOrder_buildRandomRing :
    (buildRandomRing lib seed o).randomOrder = lib.shuffle seed (List.range o.nodeCount) := by
  have hperm := lib.shuffle_perm seed (List.range o.nodeCount)
  have hrewritten := rewritten_linkRandomOrder (o := shuffled lib seed o) hperm hs.pos
  exact congrArg Layout.randomOrder hrewritten.layout

theorem follows_buildRandomRing :
    Follows (buildRandomRing lib seed o).succ (lib.shuffle seed (List.range o.nodeCount)) 0 :=
  follows_linkRandomOrder (o := shuffled lib seed o)
    (lib.shuffle_perm seed (List.range o.nodeCount)) hs.pos

theorem performs_buildRandomRing :
    Performs o (buildRandomRing lib seed o)
      (randomRingStores (lib.shuffle seed (List.range o.nodeCount)) o.nodeCount) := by
  have hpos : 0 < o.nodeCount := hs.pos
  have hperm := lib.shuffle_perm seed (List.range o.nodeCount)
  have hshuffled : (shuffled lib seed o).Sound := ⟨hs.cacheLineSize, hs.nodeCount, hs.closed⟩
  have hrewritten := rewritten_linkRandomOrder (o := shuffled lib seed o) hperm hpos
  rcases hrewritten.performs hshuffled fun i _ => order_getD_lt hperm (Nat.mod_lt _ hpos)
    with ⟨hlayout, haccesses⟩
  exact ⟨⟨hlayout.sound, hlayout.base, hlayout.bufferSize, hlayout.nodeCount⟩, haccesses⟩

end RandomRing

/-- The walk from a position of the order reads the nodes that were flushed for it. -/
theorem emits_missSample {o : LatencyMeasurer abi} {l : Layout} (hl : o.toLayout = l)
    (hclosed : l.Closed) (hperm : l.randomOrder.Perm (List.range l.nodeCount))
    (hfollows : Follows l.succ l.randomOrder 0) {start : Nat} (hstart : start < l.nodeCount) :
    Emits (· = l) o (missSample start o).2 (flushAndWalk l.randomOrder start) := by
  have hflush := emits_flushRandomPath hl start kLatencyBatch
  have hwalk := emits_timedPointerChase hflush.layout hclosed.links
    (order_getD_lt hperm hstart) kLatencyBatch
  rw [hfollows.iterate_eq_window (by rwa [order_length hperm])] at hwalk
  have haddress : o.address (o.randomOrder.getD start 0) =
      l.address (l.randomOrder.getD start 0) := by rw [hl]
  unfold missSample
  rw [haddress]
  exact hflush.trans hwalk

theorem performs_measureForcedMiss (lib : Library) (iterations warmup rounds : Int)
    {o : LatencyMeasurer abi} (hs : o.Sound) :
    Performs o (measureForcedMiss lib iterations warmup rounds o).2
      (plannedAccesses lib o.nodeCount
        (.measureForcedMiss iterations warmup rounds : Call abi)) := by
  unfold measureForcedMiss plannedAccesses forcedMissPlan
  dsimp only
  split
  · exact Performs.refl hs
  by_cases hresize : lib.resizeOrder o.nodeCount = true
  · rw [if_pos hresize, if_pos hresize]
    have hpos : 0 < o.nodeCount := hs.pos
    have hbuilt := performs_buildRandomRing lib 0xC0FFEE123456789 hs
    have hperm := lib.shuffle_perm 0xC0FFEE123456789 (List.range o.nodeCount)
    have horder := randomOrder_buildRandomRing lib 0xC0FFEE123456789 hs
    have hfollows := follows_buildRandomRing lib 0xC0FFEE123456789 hs
    generalize lib.shuffle 0xC0FFEE123456789 (List.range o.nodeCount) = order
      at hperm hbuilt horder hfollows ⊢
    generalize buildRandomRing lib 0xC0FFEE123456789 o = ring at hbuilt horder hfollows ⊢
    have hcount : ring.nodeCount = o.nodeCount := hbuilt.layout.nodeCount
    -- Warm-up and measured samples differ only in the number that is reduced to a position.
    have hsample : ∀ k (o' : LatencyMeasurer abi), o'.toLayout = ring.toLayout →
        Emits (· = ring.toLayout) o' (missSample (k % o'.randomOrder.length) o').2
          (flushAndWalk order (k % o.nodeCount)) := by
      intro k o' ho'
      have hsize : o'.randomOrder.length = o.nodeCount := by
        rw [ho', horder, order_length hperm]
      have hlt : k % o.nodeCount < o.nodeCount := Nat.mod_lt _ hpos
      rw [hsize]
      rw [← hcount] at hperm hlt ⊢
      rw [← horder] at hperm hfollows ⊢
      exact emits_missSample ho' hbuilt.layout.sound.closed hperm hfollows hlt
    have hsampled := emits_sampled (P := (· = ring.toLayout)) lib
      "Forced Cache Miss (random pointer chase + CLFLUSH)" iterations warmup rounds hsample
      (fun round i => hsample ((round * iterations.toNat + i) % 2 ^ abi.sizeBits)) rfl
    exact hbuilt.trans (hsampled.performs hbuilt.layout.sound)
  · rw [if_neg hresize, if_neg hresize]
    exact Performs.refl hs

/-! ## Stride rings -/

theorem emits_strideSample {o : LatencyMeasurer abi} {l : Layout} (hl : o.toLayout = l)
    {succ : Nat → Nat} {T : Nat → Prop} (h : l.Links succ T) {i : Nat} (hi : T i) :
    (strideSample (l.address i) o).2.1 = l.address (succ i) ∧
      Emits (· = l) o (strideSample (l.address i) o).2.2
        (loads (List.iterate succ i kLatencyBatch) ++ [.load (some i)]) := by
  have hwalk := emits_timedPointerChase hl h hi kLatencyBatch
  have hload := loadNext_address hwalk.layout (h.inside i hi)
  unfold strideSample
  dsimp only
  rw [hload]
  exact ⟨h.next i hi, hwalk.trans (emits_emitAll hwalk.layout _)⟩

/-- A loop whose starting node moves by one step of the ring with every sample. -/
theorem emits_strideLoop {β : Type*} (pointer : β → Nat) (view : β → LatencyMeasurer abi)
    {step : β → Nat → β}
    (hstep : ∀ b k, pointer (step b k) = (strideSample (pointer b) (view b)).2.1 ∧
      view (step b k) = (strideSample (pointer b) (view b)).2.2)
    {l : Layout} {succ : Nat → Nat} {T : Nat → Prop} (h : l.Links succ T) {start : Nat}
    (hstart : T start) {b : β} (hb : pointer b = l.address start) (hl : (view b).toLayout = l)
    (n : Nat) :
    Emits (· = l) (view b) (view ((List.range n).foldl step b))
      ((List.range n).flatMap (strideWalk succ start)) := by
  -- After `k` samples the pointer is `k` steps from the start.
  have hround : ∀ k b', k < n →
      pointer b' = l.address (succ^[k] start) ∧ (view b').toLayout = l →
      (pointer (step b' k) = l.address (succ^[k + 1] start) ∧ (view (step b' k)).toLayout = l) ∧
        (view (step b' k)).accesses = (view b').accesses ++ strideWalk succ start k := by
    rintro k b' - ⟨hpointer, hlayout⟩
    rcases emits_strideSample hlayout h (h.iterate hstart k) with ⟨hnext, hemits⟩
    rw [(hstep b' k).1, (hstep b' k).2, hpointer, Function.iterate_succ_apply']
    exact ⟨⟨hnext, hemits.layout⟩, hemits.accesses⟩
  rcases foldl_range_trace (fun b => (view b).accesses) (strideWalk succ start)
    (fun k b => pointer b = l.address (succ^[k] start) ∧ (view b).toLayout = l) step n hround b
    ⟨hb, hl⟩ with ⟨hinv, haccesses⟩
  exact ⟨hinv.2, haccesses⟩

theorem emits_strideWarmup {o : LatencyMeasurer abi} {l : Layout} (hl : o.toLayout = l)
    {succ : Nat → Nat} {T : Nat → Prop} (h : l.Links succ T) {start : Nat} (hstart : T start)
    (warmup : Nat) :
    Emits (· = l) o (strideWarmup warmup (l.address start) o).2
      ((List.range warmup).flatMap (strideWalk succ start)) :=
  emits_strideLoop (b := (l.address start, o)) Prod.fst Prod.snd (fun _ _ => ⟨rfl, rfl⟩) h hstart
    rfl hl warmup

theorem emits_strideRounds {o : LatencyMeasurer abi} {l : Layout} (hl : o.toLayout = l)
    (hpos : 0 < l.nodeCount) {succ : Nat → Nat} (h : l.Links succ (· < l.nodeCount))
    (rounds iterations : Nat) :
    Emits (· = l) o (strideRounds rounds iterations o).2
      ((List.range rounds).flatMap fun round =>
        (List.range iterations).flatMap (strideWalk succ (round % l.nodeCount))) := by
  have hround : ∀ round (st : List ℚ × LatencyMeasurer abi), st.2.toLayout = l →
      Emits (· = l) st.2
        (strideRound iterations (st.2.address (round % st.2.nodeCount)) st).2
        ((List.range iterations).flatMap (strideWalk succ (round % l.nodeCount))) := by
    intro round st hst
    rw [hst]
    exact emits_strideLoop (b := (l.address (round % l.nodeCount), st)) Prod.fst
      (fun b : Nat × List ℚ × LatencyMeasurer abi => b.2.2) (fun _ _ => ⟨rfl, rfl⟩) h
      (Nat.mod_lt _ hpos) rfl hst iterations
  exact emits_foldl (b := ([], o)) (P := (· = l)) Prod.snd hround hl rounds

/-- The stores of `build_stride_ring`, for any number of nodes. -/
theorem rewritten_buildStrideRing {o : LatencyMeasurer abi} (hpos : 0 < o.nodeCount)
    (hline : o.cacheLineSize = nodeSize) (strideBytes : Nat) :
    Rewritten (fun i => i) (strideNext o.nodeCount (strideLines nodeSize strideBytes)) o.nodeCount o
      (buildStrideRing strideBytes o) := by
  have htarget : ∀ i < o.nodeCount,
      strideNext o.nodeCount (strideLines nodeSize strideBytes) i < o.nodeCount :=
    fun i _ => Nat.mod_lt _ hpos
  unfold buildStrideRing
  rw [hline]
  exact rewritten_foldl o (fun i => i) _ htarget fun i _ j _ hij => by rw [hij]

theorem links_buildStrideRing {o : LatencyMeasurer abi} (hpos : 0 < o.nodeCount)
    (hline : o.cacheLineSize = nodeSize) (strideBytes : Nat) :
    (buildStrideRing strideBytes o).Links
      (strideNext o.nodeCount (strideLines nodeSize strideBytes)) (· < o.nodeCount) := by
  have hrewritten := rewritten_buildStrideRing hpos hline strideBytes
  refine ⟨?_, fun i _ => Nat.mod_lt _ hpos, ?_⟩
  · intro i hi
    rw [hrewritten.layout]
    exact hi
  · intro i hi
    rw [hrewritten.written i hi, hrewritten.layout]
    rfl

theorem performs_buildStrideRing {o : LatencyMeasurer abi} (hs : o.Sound) (strideBytes : Nat) :
    Performs o (buildStrideRing strideBytes o)
      ((List.range o.nodeCount).map fun i =>
        Access.store i (some (strideNext o.nodeCount (strideLines nodeSize strideBytes) i))) :=
  (rewritten_buildStrideRing hs.pos hs.cacheLineSize strideBytes).performs hs
    fun _ _ => Nat.mod_lt _ hs.pos

/-- The walks of one stride leave its ring as it was built. -/
theorem emits_measureStride (lib : Library) (rawStride : SizeT abi)
    (iterations warmup rounds : Int) {o : LatencyMeasurer abi} (hpos : 0 < o.nodeCount)
    (hline : o.cacheLineSize = nodeSize) :
    Emits (· = (buildStrideRing (strideOf nodeSize rawStride.toNat) o).toLayout) o
      (measureStride lib rawStride iterations warmup rounds o).2
      (stridePlan lib o.nodeCount iterations warmup rounds rawStride) := by
  unfold measureStride stridePlan
  dsimp only
  rw [hline]
  have hlinks := links_buildStrideRing hpos hline (strideOf nodeSize rawStride.toNat)
  have hbuilt := rewritten_buildStrideRing hpos hline (strideOf nodeSize rawStride.toNat)
  have hcount :
      (buildStrideRing (strideOf nodeSize rawStride.toNat) o).nodeCount = o.nodeCount := by
    rw [hbuilt.layout]
    rfl
  have haccesses := hbuilt.accesses
  generalize buildStrideRing (strideOf nodeSize rawStride.toNat) o = ring
    at hlinks hcount haccesses ⊢
  rw [← hcount] at hpos hlinks haccesses ⊢
  have hwarmed := emits_strideWarmup rfl hlinks hpos warmup.toNat
  have hmeasured := emits_strideRounds hwarmed.layout hpos hlinks rounds.toNat iterations.toNat
  have hreport := emits_report (P := (· = ring.toLayout)) lib
    ("Stride " ++ toString (strideOf nodeSize rawStride.toNat) ++ " B (dependent pointer chase)")
    iterations rounds hwarmed.layout hmeasured
  exact Emits.trans ⟨rfl, haccesses⟩ (hwarmed.trans hreport)

theorem performs_measureStride (lib : Library) (rawStride : SizeT abi)
    (iterations warmup rounds : Int) {o : LatencyMeasurer abi} (hs : o.Sound) :
    Performs o (measureStride lib rawStride iterations warmup rounds o).2
      (stridePlan lib o.nodeCount iterations warmup rounds rawStride) := by
  have hbuilt := performs_buildStrideRing hs (strideOf nodeSize rawStride.toNat)
  have hemits :=
    emits_measureStride lib rawStride iterations warmup rounds hs.pos hs.cacheLineSize
  refine hemits.mono ?_
  rintro l rfl
  exact hbuilt.layout

/-- Whether a stride is reported depends on the room for its samples only. -/
theorem measureStride_outcome (lib : Library) (rawStride : SizeT abi)
    (iterations warmup rounds : Int) (o : LatencyMeasurer abi) :
    if (lib.room abi iterations rounds).fits then
      ∃ result, (measureStride lib rawStride iterations warmup rounds o).1 = .ok result
    else (measureStride lib rawStride iterations warmup rounds o).1 = .error .allocation := by
  have hmeasured := measures_measureStride lib rawStride
    { labels := []
      steps := kLatencyBatch
      iterations := iterations
      warmup := warmup
      rounds := rounds } rfl o
  have hresult := hmeasured.result
  dsimp only at hresult
  rw [hresult]
  split
  · exact ⟨_, rfl⟩
  · rfl

theorem performs_measureStridesLoop (lib : Library) (iterations warmup rounds : Int)
    (strides : List (SizeT abi)) (results : List (MeasurementResult abi))
    {o : LatencyMeasurer abi} (hs : o.Sound) :
    Performs o (measureStridesLoop lib iterations warmup rounds strides results o).2
      (stridesPlan lib o.nodeCount iterations warmup rounds strides) := by
  induction strides generalizing results o with
  | nil => exact Performs.refl hs
  | cons rawStride strides ih =>
      have hstride := performs_measureStride lib rawStride iterations warmup rounds hs
      have houtcome := measureStride_outcome lib rawStride iterations warmup rounds o
      unfold measureStridesLoop stridesPlan
      generalize measureStride lib rawStride iterations warmup rounds o = measured
        at hstride houtcome ⊢
      rcases measured with ⟨outcome, o'⟩
      -- Either the stride is reported and the loop goes on, or the exception ends it here.
      split at houtcome
      · rcases houtcome with ⟨result, rfl⟩
        have hcount : o'.nodeCount = o.nodeCount := hstride.layout.nodeCount
        have hrest := ih (results ++ [result]) hstride.layout.sound
        rw [hcount] at hrest
        rw [if_pos ‹_›]
        exact hstride.trans hrest
      · subst houtcome
        rw [if_neg ‹_›, List.append_nil]
        exact hstride

theorem performs_measureStrides (lib : Library) (strides : List (SizeT abi))
    (iterations warmup rounds : Int) {o : LatencyMeasurer abi} (hs : o.Sound) :
    Performs o (measureStrides lib strides iterations warmup rounds o).2
      (plannedAccesses lib o.nodeCount (.measureStrides strides iterations warmup rounds)) := by
  unfold measureStrides plannedAccesses
  dsimp only
  split
  · exact Performs.refl hs
  · split
    · exact performs_measureStridesLoop lib iterations warmup rounds strides [] hs
    · exact Performs.refl hs

/-- Every call on a sound object performs its plan and leaves a sound object behind. -/
theorem performs_runCall (lib : Library) {o : LatencyMeasurer abi} (hs : o.Sound)
    (call : Call abi) : Performs o (runCall lib o call) (plannedAccesses lib o.nodeCount call) := by
  cases call with
  | measureHit iterations warmup rounds => exact performs_measureHit lib iterations warmup rounds hs
  | measureForcedMiss iterations warmup rounds =>
      exact performs_measureForcedMiss lib iterations warmup rounds hs
  | measureStore iterations warmup rounds =>
      exact performs_measureStore lib iterations warmup rounds hs
  | measureStrides strides iterations warmup rounds =>
      exact performs_measureStrides lib strides iterations warmup rounds hs

/-- A history of calls, seen as one call. -/
def plannedHistory (lib : Library) (n : Nat) (calls : List (Call abi)) : List Access :=
  calls.flatMap (plannedAccesses lib n)

theorem performs_runCalls (lib : Library) (calls : List (Call abi)) {o : LatencyMeasurer abi}
    (hs : o.Sound) :
    Performs o (runCalls lib o calls) (plannedHistory lib o.nodeCount calls) := by
  induction calls generalizing o with
  | nil => exact Performs.refl hs
  | cons call calls ih =>
      have hcall := performs_runCall lib hs call
      have hrest := ih hcall.layout.sound
      rw [hcall.layout.nodeCount] at hrest
      exact hcall.trans hrest

end Performing

end Latency
end LatencyAnalyzer
