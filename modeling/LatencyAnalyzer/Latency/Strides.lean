import LatencyAnalyzer.Latency.History
import LatencyAnalyzer.Lib.Rotation

/-!
# Strides — which lines a stride measurement touches

A stride ring adds a constant modulo the number of nodes, so it falls apart into cycles that have
one node in every `gcd n s`.  The lemmas on `rotate` say what a chase visits; the rest is the
arithmetic between the bytes of a label and the lines of a ring.
-/

namespace LatencyAnalyzer
namespace Latency

open Cxx Lib

section Strides

variable {abi : Abi}

/-! ## What a ring does -/

/-- A chase from node `i` visits the nodes that are congruent to `i`, each once before it comes
back to `i`. -/
structure TurnsBy (n s : Nat) (ring : LatencyMeasurer abi) : Prop where
  nodeCount : ring.nodeCount = n
  bijOn : Set.BijOn ring.succ (Set.Iio n) (Set.Iio n)
  moves : ∀ i < n, ∀ steps,
    (chase (ring.address i) steps ring).1 = ring.address ((i + steps * s) % n)
  returns : ∀ i < n,
    IsLeast {steps | 0 < steps ∧ (chase (ring.address i) steps ring).1 = ring.address i}
      (n / Nat.gcd n s)
  visits : ∀ i < n, ∀ steps, ∃ visited,
    (chase (ring.address i) steps ring).2.accesses = ring.accesses ++ loads visited ∧
      (∀ j ∈ visited, j < n ∧ j ≡ i [MOD Nat.gcd n s]) ∧
      (steps ≤ n / Nat.gcd n s → visited.Nodup) ∧
      (n / Nat.gcd n s ≤ steps → ∀ j < n, j ≡ i [MOD Nat.gcd n s] → j ∈ visited)

theorem iterate_initial {succ : Nat → Nat} {i steps steps' : Nat} (h : steps ≤ steps') :
    List.iterate succ i steps <+: List.iterate succ i steps' := by
  rcases Nat.exists_eq_add_of_le h with ⟨rest, rfl⟩
  rw [List.iterate_add]
  exact List.prefix_append _ _

theorem turnsBy_of_links {ring : LatencyMeasurer abi} {n s : Nat} (hcount : ring.nodeCount = n)
    (hn : 0 < n) (hs : 0 < s) (h : ring.Links (rotate n s) (· < n)) : TurnsBy n s ring := by
  have hsucc : ∀ i < n, ring.succ i = rotate n s i := by
    intro i hi
    exact Layout.succ_eq (h.inside _ (h.closed i hi)) (h.next i hi)
  -- The end of a chase is at its start if the walk on the numbers is.
  have hend : ∀ i < n, ∀ steps,
      (chase (ring.address i) steps ring).1 = ring.address i ↔ n / Nat.gcd n s ∣ steps := by
    intro i hi steps
    rw [chase_eq h hi, ← iterate_rotate_eq_self_iff hi]
    constructor
    · intro heq
      exact ring.address_inj heq
    · intro heq
      exact congrArg ring.address heq
  constructor
  case nodeCount => exact hcount
  case bijOn => exact (bijOn_rotate hn).congr fun i hi => (hsucc i hi).symm
  case moves =>
    intro i hi steps
    rw [chase_eq h hi, iterate_rotate hi]
  case returns =>
    intro i hi
    constructor
    · refine ⟨?_, (hend i hi _).2 dvd_rfl⟩
      exact Nat.div_pos (Nat.gcd_le_left s hn) (Nat.gcd_pos_of_pos_left s hn)
    · rintro steps ⟨hsteps, heq⟩
      exact Nat.le_of_dvd hsteps ((hend i hi steps).1 heq)
  case visits =>
    intro i hi steps
    refine ⟨List.iterate (rotate n s) i steps, ?_, ?_, ?_, ?_⟩
    · rw [chase_eq h hi]
      rfl
    · intro j hj
      rcases List.mem_iterate.1 hj with ⟨k, _, rfl⟩
      exact ⟨h.iterate hi k, iterate_rotate_modEq hi k⟩
    · intro hle
      exact (nodup_iterate_rotate hi).sublist (iterate_initial hle).sublist
    · intro hle j hj hmod
      exact (iterate_initial hle).subset ((mem_iterate_rotate_iff hi hs j).2 ⟨hj, hmod⟩)

theorem turnsBy_buildStrideRing {o : LatencyMeasurer abi} (hpos : 0 < o.nodeCount)
    (hline : o.cacheLineSize = nodeSize) (strideBytes : Nat) :
    TurnsBy o.nodeCount (strideLines nodeSize strideBytes) (buildStrideRing strideBytes o) := by
  have hbuilt := rewritten_buildStrideRing hpos hline strideBytes
  refine turnsBy_of_links ?_ hpos (Nat.le_max_left 1 _) (links_buildStrideRing hpos hline _)
  rw [hbuilt.layout]
  rfl

/-- The sum `i + stride_lines` is taken in `size_t`, which holds it. -/
theorem strideSum_lt {n : Nat} (hbuffer : nodeSize * n ≤ 2 ^ abi.sizeBits)
    (strideBytes : SizeT abi) {i : Nat} (hi : i < n) :
    i + strideLines nodeSize strideBytes.toNat < 2 ^ abi.sizeBits := by
  have hstride := strideBytes.isLt
  have hwidth := abi.two_pow_le_sizeMax
  unfold strideLines
  unfold nodeSize at *
  omega

/-- `(i + stride_lines) % node_count_`, in `size_t`. -/
def strideNextSize (n : Nat) (strideBytes : SizeT abi) (i : Nat) : SizeT abi :=
  (BitVec.ofNat _ i + BitVec.ofNat _ (strideLines nodeSize strideBytes.toNat)) % BitVec.ofNat _ n

/-- In a buffer that lies in the address space, the nodes that the links are computed to are the
ones that the links go to. -/
theorem succ_buildStrideRing {o : LatencyMeasurer abi} (hline : o.cacheLineSize = nodeSize)
    (hbuffer : nodeSize * o.nodeCount ≤ 2 ^ abi.sizeBits) (strideBytes : SizeT abi) {i : Nat}
    (hi : i < o.nodeCount) :
    (buildStrideRing strideBytes.toNat o).succ i =
      (strideNextSize o.nodeCount strideBytes i).toNat := by
  have hsum := strideSum_lt hbuffer strideBytes hi
  have hcount : o.nodeCount < 2 ^ abi.sizeBits := by
    unfold nodeSize at hbuffer
    omega
  have hlinks := links_buildStrideRing (Nat.zero_lt_of_lt hi) hline strideBytes.toNat
  have hsucc : (buildStrideRing strideBytes.toNat o).succ i =
      strideNext o.nodeCount (strideLines nodeSize strideBytes.toNat) i :=
    Layout.succ_eq (hlinks.inside _ (hlinks.closed i hi)) (hlinks.next i hi)
  unfold strideNextSize
  rw [hsucc, BitVec.toNat_umod, ← BitVec.ofNat_add, BitVec.toNat_ofNat, BitVec.toNat_ofNat,
    Nat.mod_eq_of_lt hsum, Nat.mod_eq_of_lt hcount]
  rfl

/-! ## Labels -/

theorem strideOf_eq (rawStride : Nat) :
    strideOf nodeSize rawStride = nodeSize * strideLines nodeSize rawStride := by
  unfold strideOf strideLines nodeSize
  omega

theorem strideLines_strideOf (rawStride : Nat) :
    strideLines nodeSize (strideOf nodeSize rawStride) = strideLines nodeSize rawStride := by
  rw [strideOf_eq]
  unfold strideLines nodeSize
  omega

/-- The result of a stride that was measured on `o`, which is `o'` afterwards.  The ring that is
built for it on `o` moves by as many lines as the label says in bytes; the samples are walks on
that ring, and it is still there when they have been taken. -/
structure MeasuredStride (lib : Library) (iterations warmup rounds : Int) (n : Nat)
    (o : LatencyMeasurer abi) (rawStride : SizeT abi) (result : MeasurementResult abi)
    (o' : LatencyMeasurer abi) : Prop where
  returns : measureStride lib rawStride iterations warmup rounds o = (.ok result, o')
  built : TurnsBy n (strideLines nodeSize rawStride.toNat)
    (buildStrideRing (strideOf nodeSize rawStride.toNat) o)
  left : TurnsBy n (strideLines nodeSize rawStride.toNat) o'
  layout : o'.toLayout = (buildStrideRing (strideOf nodeSize rawStride.toNat) o).toLayout
  accesses : o'.accesses = o.accesses ++ stridePlan lib n iterations warmup rounds rawStride
  stats : result.stats = Statistics.summarize Rat.sqrt
    (strideRounds rounds.toNat iterations.toNat
      (strideWarmup warmup.toNat
        ((buildStrideRing (strideOf nodeSize rawStride.toNat) o).address 0)
        (buildStrideRing (strideOf nodeSize rawStride.toNat) o)).2).1
  label : result.label = "Stride " ++ toString (64 * strideLines nodeSize rawStride.toNat) ++
    " B (dependent pointer chase)"

/-- The strides are measured one after the other on the same object. -/
inductive MeasuredStrides (lib : Library) (iterations warmup rounds : Int) (n : Nat) :
    LatencyMeasurer abi → List (SizeT abi) → List (MeasurementResult abi) →
      LatencyMeasurer abi → Prop
  | nil (o : LatencyMeasurer abi) : MeasuredStrides lib iterations warmup rounds n o [] [] o
  | cons {o o' o'' : LatencyMeasurer abi} {rawStride : SizeT abi} {result : MeasurementResult abi}
      {strides : List (SizeT abi)} {results : List (MeasurementResult abi)}
      (first : MeasuredStride lib iterations warmup rounds n o rawStride result o')
      (rest : MeasuredStrides lib iterations warmup rounds n o' strides results o'') :
      MeasuredStrides lib iterations warmup rounds n o (rawStride :: strides)
        (result :: results) o''

theorem measuredStride_measureStride {lib : Library} {rawStride : SizeT abi}
    {iterations warmup rounds : Int} {o o' : LatencyMeasurer abi} (hpos : 0 < o.nodeCount)
    (hline : o.cacheLineSize = nodeSize) {result : MeasurementResult abi}
    (h : measureStride lib rawStride iterations warmup rounds o = (.ok result, o')) :
    MeasuredStride lib iterations warmup rounds o.nodeCount o rawStride result o' := by
  have hturns := turnsBy_buildStrideRing hpos hline (strideOf nodeSize rawStride.toNat)
  have hlinks := links_buildStrideRing hpos hline (strideOf nodeSize rawStride.toNat)
  rw [strideLines_strideOf] at hturns hlinks
  have hemits := emits_measureStride lib rawStride iterations warmup rounds hpos hline
  rw [h] at hemits
  have hlayout : o'.toLayout =
      (buildStrideRing (strideOf nodeSize rawStride.toNat) o).toLayout := hemits.layout
  have hsample : result.stats = Statistics.summarize Rat.sqrt
      (strideRounds rounds.toNat iterations.toNat
        (strideWarmup warmup.toNat
          ((buildStrideRing (strideOf nodeSize rawStride.toNat) o).address 0)
          (buildStrideRing (strideOf nodeSize rawStride.toNat) o)).2).1 ∧
      result.label = "Stride " ++ toString (64 * strideLines nodeSize rawStride.toNat) ++
        " B (dependent pointer chase)" := by
    have hstride : strideOf nodeSize rawStride.toNat =
        64 * strideLines nodeSize rawStride.toNat := strideOf_eq _
    rw [← hstride]
    unfold measureStride report at h
    dsimp only at h
    rw [hline] at h
    split at h
    · split at h
      · cases h
        exact ⟨rfl, rfl⟩
      · cases h
    · cases h
  refine ⟨h, hturns, turnsBy_of_links ?_ hpos (Nat.le_max_left 1 _) ?_, hlayout, hemits.accesses,
    hsample.1, hsample.2⟩
  · rw [hlayout]
    exact hturns.nodeCount
  · -- The walks have not written to the ring.
    rw [hlayout]
    exact hlinks

theorem measuredStrides_measureStridesLoop {lib : Library} {iterations warmup rounds : Int}
    {strides : List (SizeT abi)} {before results : List (MeasurementResult abi)}
    {o o' : LatencyMeasurer abi} (hpos : 0 < o.nodeCount) (hline : o.cacheLineSize = nodeSize)
    (h : measureStridesLoop lib iterations warmup rounds strides before o = (.ok results, o')) :
    ∃ new, results = before ++ new ∧
      MeasuredStrides lib iterations warmup rounds o.nodeCount o strides new o' := by
  induction strides generalizing before o with
  | nil =>
      cases h
      exact ⟨[], (List.append_nil _).symm, .nil _⟩
  | cons rawStride strides ih =>
      unfold measureStridesLoop at h
      cases hmeasure : measureStride lib rawStride iterations warmup rounds o with
      | mk outcome o₁ =>
          rw [hmeasure] at h
          cases outcome with
          | error thrown => cases h
          | ok result =>
              have hfirst := measuredStride_measureStride hpos hline hmeasure
              -- The object after a stride has the same buffer, so the next ring is one of its size.
              have hcount : o₁.nodeCount = o.nodeCount := hfirst.left.nodeCount
              have hsize : o₁.cacheLineSize = o.cacheLineSize := by
                rw [hfirst.layout,
                  (rewritten_buildStrideRing hpos hline (strideOf nodeSize rawStride.toNat)).layout]
                rfl
              obtain ⟨new, rfl, hnew⟩ := ih (hcount ▸ hpos) (hsize.trans hline) h
              rw [hcount] at hnew
              exact ⟨result :: new, by rw [List.append_assoc]; rfl, .cons hfirst hnew⟩

/-! ## Rings and labels -/

/-- Every stride ring turns by the lines of its stride, which `size_t` can compute, and
`measure_strides` measures each stride on such a ring and labels it by what it has built. -/
theorem stride_rings_turn (o : LatencyMeasurer abi) (hpos : 0 < o.nodeCount)
    (hline : o.cacheLineSize = nodeSize) :
    (∀ strideBytes,
      TurnsBy o.nodeCount (max 1 (strideBytes / 64)) (buildStrideRing strideBytes o)) ∧
    (nodeSize * o.nodeCount ≤ 2 ^ abi.sizeBits → ∀ (strideBytes : SizeT abi), ∀ i < o.nodeCount,
      (buildStrideRing strideBytes.toNat o).succ i =
        (strideNextSize o.nodeCount strideBytes i).toNat) ∧
    ∀ (lib : Library) (strides : List (SizeT abi)) (iterations warmup rounds : Int)
      (results : List (MeasurementResult abi)) (o' : LatencyMeasurer abi),
      measureStrides lib strides iterations warmup rounds o = (.ok results, o') →
        MeasuredStrides lib iterations warmup rounds o.nodeCount o strides results o' := by
  refine ⟨turnsBy_buildStrideRing hpos hline,
    fun hbuffer strideBytes i hi => succ_buildStrideRing hline hbuffer strideBytes hi, ?_⟩
  intro lib strides iterations warmup rounds results o' h
  unfold measureStrides at h
  split at h
  · cases h
  · split at h
    · obtain ⟨new, rfl, hnew⟩ := measuredStrides_measureStridesLoop hpos hline h
      exact hnew
    · cases h

/-- A buffer of ten nodes at address 4096. -/
def tenNodes : LatencyMeasurer .x8664 :=
  allocated .x8664 (plainSystem 4096) (-1) 640 4096

theorem measureStrides_tenNodes :
    ∃ result o', measureStrides plainLibrary [256] 1 0 1 tenNodes = (.ok [result], o') := by
  have houtcome := measureStride_outcome plainLibrary 256 1 0 1 tenNodes
  rw [if_pos (by decide)] at houtcome
  rcases houtcome with ⟨result, hresult⟩
  unfold measureStrides
  rw [if_neg (by decide), if_pos (by decide)]
  unfold measureStridesLoop
  generalize measureStride plainLibrary 256 1 0 1 tenNodes = measured at hresult ⊢
  rcases measured with ⟨outcome, o⟩
  subst hresult
  exact ⟨result, o, rfl⟩

/-- A stride of four lines makes two cycles of five nodes each, and 256 bytes are on the label. -/
theorem stride_rings_turn_ten :
    TurnsBy 10 4 (buildStrideRing 256 tenNodes) ∧
      ∃ result o', MeasuredStrides plainLibrary 1 0 1 10 tenNodes [256] [result] o' ∧
        TurnsBy 10 4 o' ∧ result.label = "Stride 256 B (dependent pointer chase)" := by
  have hturn := stride_rings_turn tenNodes (by decide) rfl
  obtain ⟨result, o', hresult⟩ := measureStrides_tenNodes
  have hmeasured := hturn.2.2 plainLibrary [256] 1 0 1 [result] o' hresult
  refine ⟨hturn.1 256, result, o', hmeasured, ?_⟩
  obtain _ | ⟨hfirst, hrest⟩ := hmeasured
  cases hrest
  exact ⟨hfirst.left, hfirst.label⟩

end Strides

end Latency
end LatencyAnalyzer
