import LatencyAnalyzer.Lib.Speculation
import LatencyAnalyzer.Spectre.Probes

/-!
# Channel — what the attack leaves in the cache

The cache accesses of the attack, on a core with a cache and a branch predictor.  Flushes, fences
and delay loops change no architectural state; here they are what matters.  A fence has no access
of its own: the accesses take effect in program order.

After an attempt two pages are cached, whatever the core was like before it: the page of the
training byte, and on a core that speculates the page of the byte behind the bound.
-/

namespace LatencyAnalyzer
namespace Spectre

open Cxx Lib

/-- The lines that the attack flushes. -/
inductive Line
  /-- The line of `array1_size`. -/
  | bound
  /-- The first line of a page of `array2`. -/
  | page (v : Fin kProbeValues)
  deriving DecidableEq

section Channel

variable {abi : Abi}

/-- The line of `array2[value * kProbeStride]`. -/
def pageOf (value : UInt8) : Line :=
  .page ⟨value.toNat, value.toNat_lt⟩

/-! ## Accesses -/

/-- The argument of the `j`-th call of the victim in `train_and_attack`. -/
def victimArgument (maliciousX : SizeT abi) (attempt j : Nat) : SizeT abi :=
  if j % kTrainingEvery = kTrainingEvery - 1 then maliciousX
  else BitVec.ofNat _ (attempt % kArchitecturalArraySize)

/-- `array1_size` is flushed before every call of `victim_function`. -/
def attackAccesses (m : Machine abi) (maliciousX : SizeT abi) (attempt : Nat) :
    List (Access Line) :=
  Core.visits .bound (fun j => decide (victimArgument maliciousX attempt j < m.array1Size))
    (fun j => pageOf (m.array1 (victimArgument maliciousX attempt j).toNat)) kTrainingIterations

def flushAccesses : List (Access Line) :=
  ((List.finRange kProbeValues).map Line.page).map .flush

/-- The timed loads of `score_reload`. -/
def reloadAccesses : List (Access Line) :=
  ((List.range kProbeValues).map fun i => Line.page (mixed i)).map .timed

/-- One round of the loop of `read_byte_with_threshold`. -/
def attemptAccesses (m : Machine abi) (maliciousX : SizeT abi) (attempt : Nat) :
    List (Access Line) :=
  flushAccesses ++ attackAccesses m maliciousX attempt ++ reloadAccesses

/-- `read_byte_with_threshold` with `n` tries.  No attempt writes `array1` or its size. -/
def measurementAccesses (m : Machine abi) (maliciousX : SizeT abi) (n : Nat) :
    List (Access Line) :=
  (List.range n).flatMap (attemptAccesses m maliciousX)

/-- One round of the loop of `calibrate_threshold`. -/
def calibrationAccesses : List (Access Line) :=
  [.load (pageOf 0), .timed (pageOf 0), .flush (pageOf 0), .timed (pageOf 0)]

/-! ## What an attempt shows -/

/-- The byte that the training calls of an attempt load. -/
def trainingByte (m : Machine abi) (attempt : Nat) : UInt8 :=
  m.array1 (attempt % kArchitecturalArraySize)

/-- The page is in the cache when it is probed. -/
def hot (speculates : Bool) (m : Machine abi) (maliciousX : SizeT abi) (attempt : Nat)
    (c : Fin kProbeValues) : Bool :=
  decide (c.val = (trainingByte m attempt).toNat) ||
    (speculates && decide (c.val = (m.array1 maliciousX.toNat).toNat))

theorem page_eq_pageOf {c : Fin kProbeValues} {value : UInt8} :
    Line.page c = pageOf value ↔ c.val = value.toNat := by
  unfold pageOf
  rw [Line.page.injEq, Fin.ext_iff]

theorem nodup_reloaded : ((List.range kProbeValues).map fun i => Line.page (mixed i)).Nodup := by
  refine List.Nodup.map_on ?_ List.nodup_range
  intro i hi j hj heq
  -- `slot` undoes the mixing of the order.
  have hmixed : mixed i = mixed j := Line.page.inj heq
  rw [← slot_mixed (List.mem_range.1 hi), hmixed, slot_mixed (List.mem_range.1 hj)]

section Attempt

variable {m : Machine abi} {maliciousX : SizeT abi}
  (hbound : m.array1Size = BitVec.ofNat _ kArchitecturalArraySize)
include hbound

theorem training_taken (attempt : Nat) {j : Nat} (hj : ¬ j % kTrainingEvery = kTrainingEvery - 1) :
    decide (victimArgument maliciousX attempt j < m.array1Size) = true ∧
      (victimArgument maliciousX attempt j).toNat = attempt % kArchitecturalArraySize := by
  have hmod : attempt % kArchitecturalArraySize < kArchitecturalArraySize :=
    Nat.mod_lt _ (by decide)
  have hvalue : (BitVec.ofNat abi.sizeBits (attempt % kArchitecturalArraySize)).toNat =
      attempt % kArchitecturalArraySize := toNat_ofNat_small (hmod.le.trans (by decide))
  unfold victimArgument
  rw [if_neg hj, hbound]
  refine ⟨decide_eq_true ?_, hvalue⟩
  rw [BitVec.lt_def, hvalue, arraySize_toNat]
  exact hmod

theorem attack_not_taken (hx : kArchitecturalArraySize ≤ maliciousX.toNat) (attempt : Nat) {j : Nat}
    (hj : j % kTrainingEvery = kTrainingEvery - 1) :
    decide (victimArgument maliciousX attempt j < m.array1Size) = false := by
  unfold victimArgument
  rw [if_pos hj, hbound]
  refine decide_eq_false ?_
  rw [BitVec.lt_def, arraySize_toNat]
  exact Nat.not_lt.2 hx

theorem cached_attackAccesses (hx : kArchitecturalArraySize ≤ maliciousX.toNat) (attempt : Nat)
    (speculates : Bool) (σ : Core Line) (c : Fin kProbeValues)
    (hflushed : σ.cached (.page c) = false) :
    (σ.run speculates (attackAccesses m maliciousX attempt)).cached (.page c) =
      hot speculates m maliciousX attempt c := by
  have hpage : Line.page c ≠ .bound := nofun
  unfold attackAccesses hot trainingByte
  rw [Bool.eq_iff_iff, Core.cached_visits _ _ _ _ hpage, hflushed]
  simp only [Bool.or_eq_true, Bool.and_eq_true, decide_eq_true_eq, Bool.false_eq_true, false_or,
    page_eq_pageOf]
  constructor
  · rintro ⟨j, _, htarget, hruns⟩
    by_cases hj : j % kTrainingEvery = kTrainingEvery - 1
    · -- In an attack slot the branch is not taken, so the load ran ahead.
      have hnot := of_decide_eq_false (attack_not_taken hbound hx attempt hj)
      unfold victimArgument at htarget
      rw [if_pos hj] at htarget
      exact Or.inr ⟨(hruns.resolve_left hnot).1, htarget⟩
    · rw [(training_taken hbound attempt hj).2] at htarget
      exact Or.inl htarget
  -- The first call of an attempt trains.
  · rintro (htraining | ⟨hspeculates, hsecret⟩)
    · have htaken : decide (victimArgument maliciousX attempt 0 < m.array1Size) = true ∧
          (victimArgument maliciousX attempt 0).toNat = attempt % kArchitecturalArraySize :=
        training_taken hbound attempt (by decide)
      refine ⟨0, by decide, ?_, Or.inl (of_decide_eq_true htaken.1)⟩
      rw [htaken.2]
      exact htraining
    · -- The first attack slot comes after five training calls.
      refine ⟨5, by decide, hsecret, Or.inr ⟨hspeculates, ?_⟩⟩
      exact Core.two_le_counter _ _ _ (training_taken hbound attempt (j := 3) (by decide)).1
        (training_taken hbound attempt (j := 4) (by decide)).1

theorem outcomes_attemptAccesses (hx : kArchitecturalArraySize ≤ maliciousX.toNat) (attempt : Nat)
    (speculates : Bool) (σ : Core Line) :
    σ.outcomes speculates (attemptAccesses m maliciousX attempt) =
      (List.range kProbeValues).map fun i => hot speculates m maliciousX attempt (mixed i) := by
  have hattack : ∀ τ : Core Line,
      τ.outcomes speculates (attackAccesses m maliciousX attempt) = [] :=
    fun τ => Core.outcomes_visits _ _ _ _
  -- Only the reloads are timed; each of them finds what the flushes and the attack have left of its
  -- page, since no page is loaded twice.
  unfold attemptAccesses reloadAccesses
  rw [Core.outcomes_append, Core.outcomes_append, hattack, Core.run_append,
    Core.outcomes_timed nodup_reloaded, List.map_map]
  have hflush : σ.outcomes speculates flushAccesses = [] := Core.outcomes_flush _
  rw [hflush]
  refine List.map_congr_left fun i _ => ?_
  refine cached_attackAccesses hbound hx attempt speculates _ _ ?_
  exact Core.cached_flush _ (List.mem_map_of_mem (List.mem_finRange _))

end Attempt

/-! ## Times -/

/-- How long a timed load takes. -/
structure Latencies where
  hit : UInt64
  miss : UInt64

def Latencies.time (latencies : Latencies) (isCached : Bool) : UInt64 :=
  if isCached then latencies.hit else latencies.miss

/-- The times from `start` on are those of loads with the given outcomes. -/
def Shows (latencies : Latencies) (timing : Nat → UInt64) (start : Nat) (outcomes : List Bool) :
    Prop :=
  ∀ k isCached, outcomes[k]? = some isCached → timing (start + k) = latencies.time isCached

section Shows

variable {latencies : Latencies} {timing : Nat → UInt64} {start : Nat}

theorem shows_append {outcomes outcomes' : List Bool} :
    Shows latencies timing start (outcomes ++ outcomes') ↔
      Shows latencies timing start outcomes ∧
        Shows latencies timing (start + outcomes.length) outcomes' := by
  constructor
  · intro h
    refine ⟨fun k isCached hk => h k isCached ?_, fun k isCached hk => ?_⟩
    · rw [List.getElem?_append_left (List.getElem?_eq_some_iff.1 hk).1]
      exact hk
    · rw [Nat.add_assoc]
      refine h _ isCached ?_
      rw [List.getElem?_append_right (Nat.le_add_right _ _), Nat.add_sub_cancel_left]
      exact hk
  · rintro ⟨hleft, hright⟩ k isCached hk
    by_cases hlt : k < outcomes.length
    · rw [List.getElem?_append_left hlt] at hk
      exact hleft k isCached hk
    · rw [List.getElem?_append_right (Nat.le_of_not_lt hlt)] at hk
      have hsame : start + outcomes.length + (k - outcomes.length) = start + k := by omega
      rw [← hsame]
      exact hright _ isCached hk

theorem length_blocks {block : Nat → List Bool} {w : Nat} (hw : ∀ a, (block a).length = w)
    (n : Nat) : ((List.range n).flatMap block).length = w * n := by
  induction n with
  | zero => rfl
  | succ n ih =>
      rw [List.range_succ, List.flatMap_append, List.flatMap_singleton, List.length_append, ih, hw,
        Nat.mul_succ]

/-- Blocks of one length follow each other. -/
theorem Shows.block {block : Nat → List Bool} {w n : Nat} (hw : ∀ a, (block a).length = w)
    (h : Shows latencies timing start ((List.range n).flatMap block)) {a : Nat} (ha : a < n) :
    Shows latencies timing (start + w * a) (block a) := by
  induction n with
  | zero => exact absurd ha (Nat.not_lt_zero a)
  | succ n ih =>
      rw [List.range_succ, List.flatMap_append, List.flatMap_singleton, shows_append,
        length_blocks hw] at h
      rcases Nat.lt_succ_iff_lt_or_eq.1 ha with hlt | rfl
      · exact ih h.1 hlt
      · exact h.2

end Shows

/-- The threshold tells cached lines from the others. -/
def Latencies.Tells (latencies : Latencies) (threshold : UInt64) : Prop :=
  latencies.hit ≤ threshold ∧ threshold < latencies.miss

theorem Latencies.Tells.time_le {latencies : Latencies} {threshold : UInt64}
    (h : latencies.Tells threshold) (isCached : Bool) :
    latencies.time isCached ≤ threshold ↔ isCached = true := by
  unfold Latencies.time
  cases isCached with
  | true => exact iff_of_true h.1 rfl
  | false => exact iff_of_false (UInt64.not_le.2 h.2) nofun

/-! ## Scores of a measurement -/

theorem count_congr {p q : Nat → Prop} [DecidablePred p] [DecidablePred q] {n : Nat}
    (h : ∀ k < n, p k ↔ q k) : Nat.count p n = Nat.count q n :=
  le_antisymm (Nat.count_mono_left fun k hk => (h k hk).1)
    (Nat.count_mono_left fun k hk => (h k hk).2)

/-- The number of the first `n` attempts in which the page of a candidate is hot. -/
def leaked (speculates : Bool) (m : Machine abi) (maliciousX : SizeT abi) (n : Nat)
    (c : Fin kProbeValues) : Nat :=
  Nat.count (fun attempt => hot speculates m maliciousX attempt c = true) n

section Measurement

variable {m : Machine abi} {maliciousX : SizeT abi}
  (hbound : m.array1Size = BitVec.ofNat _ kArchitecturalArraySize)
  (hx : kArchitecturalArraySize ≤ maliciousX.toNat) (speculates : Bool)
include hbound hx

theorem outcomes_measurementAccesses (n : Nat) (σ : Core Line) :
    σ.outcomes speculates (measurementAccesses m maliciousX n) =
      (List.range n).flatMap fun attempt =>
        (List.range kProbeValues).map fun i => hot speculates m maliciousX attempt (mixed i) := by
  unfold measurementAccesses
  induction n with
  | zero => rfl
  | succ n ih =>
      rw [List.range_succ, List.flatMap_append, List.flatMap_append, Core.outcomes_append, ih,
        List.flatMap_singleton, List.flatMap_singleton, outcomes_attemptAccesses hbound hx]

theorem length_outcomes_measurement (n : Nat) (σ : Core Line) :
    (σ.outcomes speculates (measurementAccesses m maliciousX n)).length = kProbeValues * n := by
  rw [outcomes_measurementAccesses hbound hx]
  exact length_blocks (fun _ => by rw [List.length_map, List.length_range]) n

variable {latencies : Latencies} {σ : Core Line} {tries : Int}
  (hshows : Shows latencies m.timing m.clock
    (σ.outcomes speculates (measurementAccesses m maliciousX tries.toNat)))
include hshows

/-- The scores of a measurement count the attempts that left the candidate's page in the cache. -/
theorem score_attemptLoop {threshold : UInt64} (hthreshold : latencies.Tells threshold)
    (c : Fin kProbeValues) :
    (attemptLoop m maliciousX tries threshold).1.score c =
      (leaked speculates m maliciousX tries.toNat c : Nat) := by
  rw [(collected_attemptLoop m maliciousX tries threshold).score c]
  rw [outcomes_measurementAccesses hbound hx] at hshows
  have hattempt : ∀ attempt < tries.toNat,
      (m.timing (m.clock + kProbeValues * attempt + slot c) ≤ threshold ↔
        hot speculates m maliciousX attempt c = true) := by
    intro attempt hlt
    have hblock := hshows.block (w := kProbeValues)
      (fun _ => by rw [List.length_map, List.length_range]) hlt
    -- Within the block of an attempt, candidate `c` is timed in its slot.
    have htime := hblock (slot c) (hot speculates m maliciousX attempt c) (by
      rw [List.getElem?_map, List.getElem?_range (slot_lt c), Option.map_some, mixed_slot])
    rw [htime, hthreshold.time_le]
  unfold hits leaked
  exact congrArg Nat.cast (count_congr hattempt)

end Measurement

end Channel

end Spectre
end LatencyAnalyzer
