import LatencyAnalyzer.Latency.History

/-!
# Flush — the flushed lines are the lines the timed walk reads

The forced-miss benchmark keeps one path twice: as the shuffled order that it flushes by, and as
the pointers that the timed walk follows.  Both are the same cycle through all nodes, and a batch
is shorter than the cycle.
-/

namespace LatencyAnalyzer
namespace Latency

open Cxx Lib

section Flush

variable {abi : Abi}

/-! ## The single cycle -/

theorem kLatencyBatch_le {l : Layout} (hs : l.Sound) : kLatencyBatch ≤ l.nodeCount :=
  le_trans (by decide) hs.nodeCount

/-- What `build_random_ring` establishes for the walks that follow it. -/
structure Ring (o : LatencyMeasurer abi) : Prop where
  sound : o.Sound
  order : o.randomOrder.Perm (List.range o.nodeCount)
  follows : Follows o.succ o.randomOrder 0

theorem ring_buildRandomRing (lib : Library) (seed : UInt64) {o : LatencyMeasurer abi}
    (hs : o.Sound) : Ring (buildRandomRing lib seed o) := by
  have hbuilt := performs_buildRandomRing lib seed hs
  have horder := randomOrder_buildRandomRing lib seed hs
  refine ⟨hbuilt.layout.sound, ?_, ?_⟩
  · rw [horder, hbuilt.layout.nodeCount]
    exact lib.shuffle_perm seed (List.range o.nodeCount)
  · rw [horder]
    exact follows_buildRandomRing lib seed hs

namespace Ring

variable {o : LatencyMeasurer abi} (h : Ring o)
include h

theorem chase_eq {x : Nat} (hx : x < o.nodeCount) (steps : Nat) :
    chase (o.address x) steps o =
      (o.address (o.succ^[steps] x), o.emitAll (loads (List.iterate o.succ x steps))) :=
  Latency.chase_eq h.sound.closed.links hx steps

/-- A walk returns to its first node after multiples of the number of nodes only. -/
theorem chase_returns_iff {x : Nat} (hx : x < o.nodeCount) (steps : Nat) :
    (chase (o.address x) steps o).1 = o.address x ↔ o.nodeCount ∣ steps := by
  have hmem : x ∈ o.randomOrder := (mem_order h.order x).2 hx
  rw [h.chase_eq hx, ← order_length h.order,
    ← h.follows.iterate_eq_self_iff (order_nodup h.order) hmem steps]
  constructor
  · exact fun heq => o.address_inj heq
  · exact fun heq => congrArg o.address heq

/-- One turn reads every node once. -/
theorem turn_perm {x : Nat} (hx : x < o.nodeCount) :
    (List.iterate o.succ x o.nodeCount).Perm (List.range o.nodeCount) := by
  have hlength := order_length h.order
  rcases exists_getD_of_mem (d := 0) ((mem_order h.order x).2 hx) with ⟨i, hi, hget⟩
  -- One turn is the window of full length, which does not repeat a node.
  have hnodup : (List.iterate o.succ x o.nodeCount).Nodup := by
    rw [← hget, h.follows.iterate_eq_window hi]
    exact window_nodup (order_nodup h.order) i hlength.ge
  rw [List.perm_ext_iff_of_nodup hnodup List.nodup_range]
  intro y
  rw [List.mem_range]
  constructor
  · intro hy
    rcases List.mem_iterate.1 hy with ⟨k, _, rfl⟩
    exact h.sound.closed.links.iterate hx k
  · intro hy
    rcases h.follows.exists_iterate_eq ((mem_order h.order x).2 hx) ((mem_order h.order y).2 hy)
      with ⟨k, hk, heq⟩
    exact List.mem_iterate.2 ⟨k, hlength ▸ hk, heq.symm⟩

/-! ## The window -/

theorem window_nodup (start : Nat) : (window o.randomOrder 0 start kLatencyBatch).Nodup := by
  refine Lib.window_nodup (order_nodup h.order) start ?_
  rw [order_length h.order]
  exact kLatencyBatch_le h.sound

theorem flush_then_chase {start : Nat} (hstart : start < o.nodeCount) :
    (flushRandomPath start kLatencyBatch o).accesses =
        o.accesses ++ ((window o.randomOrder 0 start kLatencyBatch).map Access.flush ++ [.fence]) ∧
      (chase (o.address (o.randomOrder.getD start 0)) kLatencyBatch
          (flushRandomPath start kLatencyBatch o)).2.accesses =
        (flushRandomPath start kLatencyBatch o).accesses ++
          loads (window o.randomOrder 0 start kLatencyBatch) := by
  have hflush := emits_flushRandomPath (o := o) rfl start kLatencyBatch
  refine ⟨hflush.accesses, ?_⟩
  generalize flushRandomPath start kLatencyBatch o = flushed at hflush ⊢
  have hlayout : flushed.toLayout = o.toLayout := hflush.layout
  -- Flushing changes no pointer, so the walk still follows the ring.
  have hlinks : flushed.Links o.succ (· < o.nodeCount) := hlayout ▸ h.sound.closed.links
  have hchase := Latency.chase_eq hlinks (order_getD_lt h.order hstart) kLatencyBatch
  rw [hlayout] at hchase
  rw [hchase, h.follows.iterate_eq_window (by rwa [order_length h.order])]
  rfl

end Ring

/-! ## Agreement -/

/-- The forced-miss benchmark on a buffer in the state `reached`.  For every seed the ring is a
single cycle, and the batch walked from a position is the batch flushed for it, in the same order
and without repetition.  `measure_forced_miss` consists of such pairs, one for each warm-up and
measured sample; without room for the order it does nothing. -/
structure FlushAgreement (lib : Library) (reached : LatencyMeasurer abi) : Prop where
  cycle : ∀ seed, ∀ x < reached.nodeCount,
    let ring := buildRandomRing lib seed reached
    (∀ steps, (chase (ring.address x) steps ring).1 = ring.address x ↔
      reached.nodeCount ∣ steps) ∧
    ∃ nodes, nodes.Perm (List.range reached.nodeCount) ∧
      (chase (ring.address x) reached.nodeCount ring).2.accesses = ring.accesses ++ loads nodes
  batch : ∀ seed, ∀ start < reached.nodeCount,
    let ring := buildRandomRing lib seed reached
    let flushed := flushRandomPath start kLatencyBatch ring
    ∃ nodes, nodes.Nodup ∧ nodes.length = kLatencyBatch ∧
      flushed.accesses = ring.accesses ++ (nodes.map Access.flush ++ [.fence]) ∧
      (chase (ring.address (ring.randomOrder.getD start 0)) kLatencyBatch flushed).2.accesses =
        flushed.accesses ++ loads nodes
  benchmark : ∀ iterations warmup rounds, 0 < iterations → 0 ≤ warmup → 0 < rounds →
    ∃ order, order.Perm (List.range reached.nodeCount) ∧
      (∀ start, (window order 0 start kLatencyBatch).Nodup) ∧
      callAccesses lib reached (.measureForcedMiss iterations warmup rounds) =
        if lib.resizeOrder reached.nodeCount then
          randomRingStores order reached.nodeCount ++
            sampled lib abi iterations warmup rounds
              (fun i => flushAndWalk order (i % reached.nodeCount))
              fun round i => flushAndWalk order
                (startPosition abi iterations.toNat reached.nodeCount round i)
        else []

/-- Flushed and timed nodes agree on every object that any calls have left behind. -/
theorem flush_agrees_with_chase (lib : Library) {sys : System}
    {requested cacheLineSize : SizeT abi} {numaNode : Int} {o : LatencyMeasurer abi}
    (ho : construct sys requested cacheLineSize numaNode = .ok o) (calls : List (Call abi)) :
    FlushAgreement lib (runCalls lib o calls) := by
  have hreached : (runCalls lib o calls).Sound :=
    (performs_runCalls lib calls (constructed_construct ho).sound).layout.sound
  generalize runCalls lib o calls = reached at hreached
  have hring : ∀ seed, Ring (buildRandomRing lib seed reached) :=
    fun seed => ring_buildRandomRing lib seed hreached
  have hcount : ∀ seed, (buildRandomRing lib seed reached).nodeCount = reached.nodeCount :=
    fun seed => (performs_buildRandomRing lib seed hreached).layout.nodeCount
  refine ⟨?_, ?_, ?_⟩
  · intro seed x hx ring
    rw [← hcount seed] at hx ⊢
    refine ⟨(hring seed).chase_returns_iff hx, _, (hring seed).turn_perm hx, ?_⟩
    rw [(hring seed).chase_eq hx]
    rfl
  · intro seed start hstart ring flushed
    rw [← hcount seed] at hstart
    exact ⟨_, (hring seed).window_nodup start, window_length start kLatencyBatch,
      (hring seed).flush_then_chase hstart⟩
  · intro iterations warmup rounds hiterations hwarmup hrounds
    have hperm := lib.shuffle_perm 0xC0FFEE123456789 (List.range reached.nodeCount)
    have hbatch := kLatencyBatch_le hreached
    refine ⟨_, hperm, ?_, ?_⟩
    · intro start
      exact Lib.window_nodup (order_nodup hperm) start (by rwa [order_length hperm])
    · rw [callAccesses_eq lib hreached]
      -- The guard on 64 nodes never fires: the constructor provides many more.
      have hsixtyFour : 64 ≤ kLatencyBatch := by decide
      exact if_neg (by omega)

theorem flush_agrees_after_store :
    FlushAgreement plainLibrary
      (runCalls plainLibrary (plainMeasurer (1 : SizeT .i386) 4096) [.measureStore 1 0 1]) :=
  flush_agrees_with_chase plainLibrary (construct_plainSystem 4096 (1 : SizeT .i386) 64)
    [.measureStore 1 0 1]

end Flush

end Latency
end LatencyAnalyzer
