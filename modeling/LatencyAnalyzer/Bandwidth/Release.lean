import LatencyAnalyzer.Bandwidth.Measurer

/-!
# Release — what `BandwidthMeasurer::measure` has released when control leaves it

Whatever allocator a buffer comes from, `release_buffer` finds the routine that belongs to it and
gives it the length that was asked for.  All exits but one call it for both buffers: an exception
behind the allocation leaves both of them behind.
-/

namespace LatencyAnalyzer
namespace Bandwidth

open Cxx Lib Report

section Release

variable {abi : Abi}

/-! ## Requests and releases -/

/-- The ledger entry that settles `obtained memory pointer`. -/
def released (memory : Nat → Memory abi) (pointer : Option Nat) : List (Entry (Memory abi)) :=
  match pointer with
  | none => []
  | some p => [.release (memory p)]

theorem settled_pair {memory : Nat → Memory abi} (hinj : Function.Injective memory)
    {src dst : Option Nat} (hdistinct : ∀ p q, src = some p → dst = some q → p ≠ q) :
    Settled (obtained memory src ++ obtained memory dst ++
      (released memory src ++ released memory dst)) := by
  cases src with
  | none =>
      cases dst with
      | none => rfl
      | some q => exact settled_of_one (memory q)
  | some p =>
      cases dst with
      | none => exact settled_of_one (memory p)
      | some q =>
          have hne : memory p ≠ memory q := fun heq => hdistinct p q rfl rfl (hinj heq)
          exact settled_of_two hne

/-- A buffer that is not released leaves the ledger open. -/
theorem not_settled_obtained (memory : Nat → Memory abi) (p : Nat) (dst : Option Nat) :
    ¬ Settled (obtained memory (some p) ++ obtained memory dst) := by
  intro hsettled
  have hcount := hsettled.count_eq (memory p)
  cases dst <;> simp [obtained] at hcount

/-! ## One buffer -/

/-- The methods that `allocate_buffer` knows. -/
def methods : List Text :=
  ["malloc".toList, "LargePage".toList, "mmap".toList]

/-- An allocator is asked for memory. -/
def World.Asks (w : World) (method : Text) (numaNode : Int) : Prop :=
  (0 ≤ numaNode ∧ w.numaAvailable = true) ∨ (numaNode < 0 ∧ method ∈ methods)

/-- The kind of memory that the arguments ask for. -/
def kindOf (sizeBytes : SizeT abi) (method : Text) (numaNode : Int) : Nat → Memory abi :=
  if 0 ≤ numaNode then (.numa · sizeBytes)
  else if method = "malloc".toList then .heap
  else if method = "LargePage".toList then (.mapping · (largePageLength sizeBytes))
  else (.mapping · sizeBytes)

theorem kindOf_injective (sizeBytes : SizeT abi) (method : Text) (numaNode : Int) :
    Function.Injective (kindOf sizeBytes method numaNode) := by
  intro p q heq
  unfold kindOf at heq
  split at heq
  · exact (Memory.numa.inj heq).1
  split at heq
  · exact Memory.heap.inj heq
  split at heq
  · exact (Memory.mapping.inj heq).1
  · exact (Memory.mapping.inj heq).1

/-- The number of the node is read back from the name of the method. -/
theorem stoi_numaMethod {numaNode : Int} (hnode : InInt numaNode) (hnonneg : 0 ≤ numaNode) :
    Text.stoi ((numaMethod numaNode).substrFrom numaPrefix.length) = some numaNode := by
  have hvalue : (numaNode.toNat : Int) = numaNode := Int.toNat_of_nonneg hnonneg
  have hinteger : Text.integer numaNode = Text.decimal numaNode.toNat := by
    unfold Text.integer
    rw [if_neg (not_lt.2 hnonneg)]
    congr 1
    omega
  have hnumber : (numaMethod numaNode).substrFrom numaPrefix.length =
      Text.decimal numaNode.toNat := by
    unfold numaMethod Text.substrFrom
    rw [hinteger, List.drop_left]
  rw [hnumber, Text.stoi_decimal (by rw [hvalue]; exact hnode.2), hvalue]

theorem releaseBuffer_numa {sizeBytes : SizeT abi} (hsize : sizeBytes ≠ 0) {numaNode : Int}
    (hnode : InInt numaNode) (hnonneg : 0 ≤ numaNode) (pointer : Option Nat) :
    releaseBuffer { pointer := pointer, size := sizeBytes, method := numaMethod numaNode } =
      released (.numa · sizeBytes) pointer := by
  have hstarts : numaPrefix.isPrefixOf (numaMethod numaNode) = true := by
    simp [numaMethod]
  unfold releaseBuffer released
  cases pointer with
  | none => rfl
  | some p =>
      dsimp only
      rw [if_pos hstarts, stoi_numaMethod hnode hnonneg, Option.getD_some, if_pos hnonneg]
      exact if_pos hsize

theorem releaseBuffer_method {method : Text} (hmethod : method ∈ methods) (size : SizeT abi)
    (pointer : Option Nat) :
    releaseBuffer { pointer := pointer, size := size, method := method } =
      released (if method = "malloc".toList then .heap else (.mapping · size)) pointer := by
  have hstarts : numaPrefix.isPrefixOf method = false := by
    revert hmethod
    unfold methods
    simp only [List.mem_cons, List.not_mem_nil, or_false]
    rintro (rfl | rfl | rfl) <;> decide
  unfold releaseBuffer released
  cases pointer with
  | none => rfl
  | some p =>
      dsimp only
      rw [hstarts, if_neg Bool.false_ne_true]
      split <;> rfl

/-- A buffer of any kind is released by the routine that it was obtained with. -/
theorem allocateBuffer_of_asks {w : World} {sizeBytes : SizeT abi} (hsize : sizeBytes ≠ 0)
    {method : Text} {numaNode : Int} (hnode : InInt numaNode) (hasks : w.Asks method numaNode)
    (k : Nat) :
    ∃ allocation, allocation.pointer = w.memory k ∧
      allocateBuffer w k sizeBytes method numaNode =
        .ok (allocation, obtained (kindOf sizeBytes method numaNode) (w.memory k)) ∧
      releaseBuffer allocation = released (kindOf sizeBytes method numaNode) (w.memory k) := by
  unfold allocateBuffer kindOf
  rcases hasks with ⟨hnonneg, havailable⟩ | ⟨hneg, hmethod⟩
  · have hpointer : allocateOnNode w k sizeBytes numaNode = w.memory k := by
      unfold allocateOnNode
      rw [if_neg]
      rintro (hzero | hneg | hunavailable)
      · exact hsize hzero
      · exact absurd hnonneg (not_le.2 hneg)
      · exact absurd (havailable.symm.trans hunavailable) (by decide)
    rw [if_pos hnonneg, if_pos hnonneg, if_pos havailable, hpointer]
    exact ⟨_, rfl, rfl, releaseBuffer_numa hsize hnode hnonneg _⟩
  · have hrelease (size : SizeT abi) := releaseBuffer_method hmethod size
    rw [if_neg (not_le.2 hneg), if_neg (not_le.2 hneg)]
    -- One allocator after the other, in the order of the source.
    by_cases hmalloc : method = "malloc".toList
    · rw [if_pos hmalloc, if_pos hmalloc]
      simp only [if_pos hmalloc] at hrelease
      exact ⟨_, rfl, rfl, hrelease sizeBytes _⟩
    rw [if_neg hmalloc, if_neg hmalloc]
    simp only [if_neg hmalloc] at hrelease
    by_cases hlarge : method = "LargePage".toList
    · rw [if_pos hlarge, if_pos hlarge]
      exact ⟨_, rfl, rfl, hrelease (largePageLength sizeBytes) _⟩
    · simp only [methods, List.mem_cons, List.not_mem_nil, or_false] at hmethod
      have hmmap := (hmethod.resolve_left hmalloc).resolve_left hlarge
      rw [if_neg hlarge, if_neg hlarge, if_pos hmmap]
      exact ⟨_, rfl, rfl, hrelease sizeBytes _⟩

/-- Otherwise there is no buffer, and nothing to be released. -/
theorem allocateBuffer_of_not_asks {w : World} (sizeBytes : SizeT abi) {method : Text}
    {numaNode : Int} (hasks : ¬ w.Asks method numaNode) :
    (∀ k, ∃ thrown, allocateBuffer w k sizeBytes method numaNode = .error thrown) ∨
      ∀ k, ∃ allocation, allocation.pointer = none ∧
        allocateBuffer w k sizeBytes method numaNode = .ok (allocation, []) := by
  unfold allocateBuffer
  by_cases hnonneg : 0 ≤ numaNode
  · have havailable : ¬ w.numaAvailable = true := fun h => hasks (Or.inl ⟨hnonneg, h⟩)
    right
    intro k
    rw [if_pos hnonneg, if_neg havailable]
    exact ⟨_, rfl, rfl⟩
  · have hmethod : method ∉ methods := fun h => hasks (Or.inr ⟨not_le.1 hnonneg, h⟩)
    simp only [methods, List.mem_cons, List.not_mem_nil, or_false, not_or] at hmethod
    left
    intro k
    rw [if_neg hnonneg, if_neg hmethod.1, if_neg hmethod.2.1, if_neg hmethod.2.2]
    exact ⟨_, rfl⟩

/-! ## Interrupted runs -/

/-- An exception behind the allocation: a vector cannot be reserved, or a clock reading fails. -/
def World.Interrupts (w : World) (repeats : Nat) : Prop :=
  (∃ k < 3, w.reserve k repeats = false) ∨ ∃ k < 6 * repeats, w.clock k = none

theorem timedRate_eq_none_iff (w : World) (bytes k : Nat) :
    timedRate w bytes k = none ↔ w.clock k = none ∨ w.clock (k + 1) = none := by
  unfold timedRate
  cases w.clock k <;> cases w.clock (k + 1) <;> simp

/-- One of `count` readings from reading `k` on fails. -/
def World.ClockFails (w : World) (k count : Nat) : Prop :=
  ∃ j, k ≤ j ∧ j < k + count ∧ w.clock j = none

theorem clockFails_round (w : World) (bytes k : Nat) :
    w.ClockFails k 6 ↔
      timedRate w bytes k = none ∨ timedRate w bytes (k + 2) = none ∨
        timedRate w bytes (k + 4) = none := by
  rw [timedRate_eq_none_iff, timedRate_eq_none_iff, timedRate_eq_none_iff]
  constructor
  · rintro ⟨j, hlo, hhi, hj⟩
    obtain rfl | rfl | rfl | rfl | rfl | rfl : j = k ∨ j = k + 1 ∨ j = k + 2 ∨
        j = k + 2 + 1 ∨ j = k + 4 ∨ j = k + 4 + 1 := by omega
    all_goals simp [hj]
  · rintro ((h | h) | (h | h) | (h | h))
    all_goals exact ⟨_, by omega, by omega, h⟩

theorem clockFails_succ (w : World) (k rounds : Nat) :
    w.ClockFails k (6 * (rounds + 1)) ↔
      w.ClockFails k 6 ∨ w.ClockFails (k + 6) (6 * rounds) := by
  constructor
  · rintro ⟨j, hlo, hhi, hj⟩
    rcases Nat.lt_or_ge j (k + 6) with hlt | hge
    · exact Or.inl ⟨j, hlo, hlt, hj⟩
    · exact Or.inr ⟨j, hge, by omega, hj⟩
  · rintro (⟨j, hlo, hhi, hj⟩ | ⟨j, hlo, hhi, hj⟩)
    all_goals exact ⟨j, by omega, by omega, hj⟩

theorem measureRounds_eq_none_iff (w : World) (bytes rounds k : Nat) (rates : Rates) :
    measureRounds w bytes rounds k rates = none ↔ w.ClockFails k (6 * rounds) := by
  induction rounds generalizing k rates with
  | zero =>
      constructor
      · intro h
        cases h
      · rintro ⟨j, hlo, hhi, _⟩
        omega
  | succ rounds ih =>
      rw [clockFails_succ, clockFails_round w bytes]
      unfold measureRounds
      cases timedRate w bytes k with
      | none => simp
      | some read =>
          cases timedRate w bytes (k + 2) with
          | none => simp
          | some write =>
              cases timedRate w bytes (k + 4) with
              | none => simp
              | some copy => simpa using ih (k + 6) _

theorem measureRates_isOk_iff (w : World) (bytes repeats : Nat) :
    (measureRates w bytes repeats).isOk = true ↔ ¬ w.Interrupts repeats := by
  have hreserves : (w.reserve 0 repeats && w.reserve 1 repeats && w.reserve 2 repeats) = true ↔
      ¬ ∃ k < 3, w.reserve k repeats = false := by
    simp only [Bool.and_eq_true, not_exists, not_and, Bool.not_eq_false]
    constructor
    · rintro ⟨⟨h0, h1⟩, h2⟩ k hk
      obtain rfl | rfl | rfl : k = 0 ∨ k = 1 ∨ k = 2 := by omega
      all_goals assumption
    · intro h
      exact ⟨⟨h 0 (by omega), h 1 (by omega)⟩, h 2 (by omega)⟩
  have hrounds :=
    measureRounds_eq_none_iff w bytes repeats 0 { read := [], write := [], copy := [] }
  unfold World.ClockFails at hrounds
  simp only [Nat.zero_le, true_and, Nat.zero_add] at hrounds
  unfold measureRates World.Interrupts
  rw [← hrounds, not_or, ← hreserves]
  split
  · rename_i hall
    cases measureRounds w bytes repeats 0 { read := [], write := [], copy := [] } with
    | none => simp [Except.isOk, Except.toBool]
    | some rates => simp [Except.isOk, Except.toBool, hall]
  · rename_i hall
    exact iff_of_false Bool.false_ne_true fun h => hall h.1

/-! ## The ledger of a run -/

/-- Both buffers are obtained. -/
def World.ObtainsBoth (w : World) (method : Text) (numaNode : Int) : Prop :=
  w.Asks method numaNode ∧ w.memory 0 ≠ none ∧ w.memory 1 ≠ none

/-- The requests of a run that asks for memory, and the releases unless an exception passes them
by. -/
theorem measure_log_of_asks {w : World} {sizeBytes : SizeT abi} (hsize : sizeBytes ≠ 0)
    {method : Text} {repeats : Int} (hrepeats : 0 < repeats) {numaNode : Int}
    (hnode : InInt numaNode) (hasks : w.Asks method numaNode) :
    (measure w sizeBytes method repeats numaNode).2 =
      let memory := kindOf sizeBytes method numaNode
      obtained memory (w.memory 0) ++ obtained memory (w.memory 1) ++
        if w.memory 0 = none ∨ w.memory 1 = none ∨
            (measureRates w sizeBytes.toNat repeats.toNat).isOk = true then
          released memory (w.memory 0) ++ released memory (w.memory 1)
        else [] := by
  rcases allocateBuffer_of_asks hsize hnode hasks 0 with ⟨src, hsrc, hallocate, hrelease⟩
  rcases allocateBuffer_of_asks hsize hnode hasks 1 with ⟨dst, hdst, hallocate', hrelease'⟩
  unfold measure
  rw [if_neg (not_or.2 ⟨hsize, not_le.2 hrepeats⟩), hallocate, hallocate']
  dsimp only
  rw [hrelease, hrelease', hsrc, hdst]
  by_cases hfailed : w.memory 0 = none ∨ w.memory 1 = none
  · rw [if_pos hfailed, if_pos (or_assoc.1 (Or.inl hfailed))]
  · rw [if_neg hfailed]
    cases measureRates w sizeBytes.toNat repeats.toNat with
    | error thrown =>
        have hthrown : ¬ (w.memory 0 = none ∨ w.memory 1 = none ∨
            (Except.error thrown : Except Thrown Rates).isOk = true) := by
          rintro (hsrc | hdst | hok)
          · exact hfailed (Or.inl hsrc)
          · exact hfailed (Or.inr hdst)
          · cases hok
        rw [if_neg hthrown, List.append_nil]
    | ok rates =>
        have hok : (Except.ok rates : Except Thrown Rates).isOk = true := rfl
        rw [if_pos (Or.inr (Or.inr hok))]

/-- Nothing is obtained, whether an exception or a null pointer says so. -/
theorem measure_log_of_not_asks {w : World} (sizeBytes : SizeT abi) {method : Text}
    (repeats : Int) {numaNode : Int} (hasks : ¬ w.Asks method numaNode) :
    (measure w sizeBytes method repeats numaNode).2 = [] := by
  unfold measure
  split
  · rfl
  rcases allocateBuffer_of_not_asks sizeBytes hasks with herror | hnull
  · rcases herror 0 with ⟨thrown, hthrown⟩
    rw [hthrown]
  · rcases hnull 0 with ⟨src, hsrc, hallocate⟩
    rcases hnull 1 with ⟨dst, hdst, hallocate'⟩
    rw [hallocate, hallocate']
    dsimp only
    rw [if_pos (Or.inl hsrc)]
    unfold releaseBuffer
    rw [hsrc, hdst]
    rfl

/-- Every buffer is released once, by the routine that belongs to it, if and only if no exception
interrupts the run after both have been obtained. -/
theorem measure_settled_iff (w : World) (sizeBytes : SizeT abi) (method : Text) (repeats : Int)
    {numaNode : Int} (hnode : InInt numaNode) :
    Settled (measure w sizeBytes method repeats numaNode).2 ↔
      ¬ (sizeBytes ≠ 0 ∧ 0 < repeats ∧ w.ObtainsBoth method numaNode ∧
        w.Interrupts repeats.toNat) := by
  by_cases harguments : sizeBytes = 0 ∨ repeats ≤ 0
  · have hlog : (measure w sizeBytes method repeats numaNode).2 = [] := by
      unfold measure
      rw [if_pos harguments]
    rw [hlog]
    refine iff_of_true rfl ?_
    rintro ⟨hsize, hrepeats, _⟩
    exact harguments.elim hsize (not_le.2 hrepeats)
  rcases not_or.1 harguments with ⟨hsize, hrepeats⟩
  have hpos : 0 < repeats := not_le.1 hrepeats
  by_cases hasks : w.Asks method numaNode
  · have hinterrupts := measureRates_isOk_iff w sizeBytes.toNat repeats.toNat
    rw [measure_log_of_asks hsize hpos hnode hasks]
    dsimp only
    split
    · rename_i hreleased
      refine iff_of_true
        (settled_pair (kindOf_injective sizeBytes method numaNode) w.memory_distinct) ?_
      rintro ⟨_, _, ⟨_, hfirst, hsecond⟩, hinterrupt⟩
      rcases hreleased with hnone | hnone | hok
      · exact hfirst hnone
      · exact hsecond hnone
      · exact hinterrupts.1 hok hinterrupt
    · -- Both buffers are there, and the exception passes their releases by.
      rename_i hpassed
      rcases not_or.1 hpassed with ⟨hfirst, hrest⟩
      rcases not_or.1 hrest with ⟨hsecond, hthrown⟩
      rcases Option.ne_none_iff_exists'.1 hfirst with ⟨p, hp⟩
      rw [hinterrupts, not_not] at hthrown
      refine iff_of_false ?_ (not_not.2 ⟨hsize, hpos, ⟨hasks, hfirst, hsecond⟩, hthrown⟩)
      rw [hp, List.append_nil]
      exact not_settled_obtained _ p _
  · rw [measure_log_of_not_asks sizeBytes repeats hasks]
    exact iff_of_true rfl fun h => hasks h.2.2.1.1

/-- A system whose clock works for a number of readings. -/
def meteredWorld (readings : Nat) : World :=
  { numaAvailable := true
    memory := fun k => some (4096 * (k + 1))
    memory_distinct := by
      rintro p q ⟨⟩ ⟨⟩
      decide
    reserve := fun _ count => count ≤ 1000
    clock := fun k => if k < readings then some (UInt64.ofNat (1000 * k)) else none }

/-- A run on a NUMA node whose six readings succeed. -/
theorem measure_settled_numa :
    Settled (measure (meteredWorld 6) (4096 : SizeT .x8664) "numa".toList 1 1).2 := by
  rw [measure_settled_iff _ _ _ _ (by decide)]
  rintro ⟨_, _, _, hreserve | ⟨k, hk, hclock⟩⟩
  · rcases hreserve with ⟨k, _, hfull⟩
    simp [meteredWorld] at hfull
  · have hlt : k < 6 := hk
    simp [meteredWorld, hlt] at hclock

/-- The clock fails in the first round: two mappings of 64 MiB stay behind. -/
theorem measure_leaks_mappings :
    ¬ Settled (measure (meteredWorld 3) (67108864 : SizeT .x8664) "mmap".toList 5 (-1)).2 := by
  decide

end Release

end Bandwidth
end LatencyAnalyzer
