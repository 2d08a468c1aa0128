import Mathlib.Data.Rat.Sqrt
import Mathlib.Tactic.FieldSimp
import Mathlib.Tactic.Linarith
import LatencyAnalyzer.Evaluation.Blocks
import LatencyAnalyzer.Evaluation.Lab
import LatencyAnalyzer.Lib.Settles
import LatencyAnalyzer.Report.Honesty

/-!
# Alignment — what the alignment loss of the lab measures

The two classes of every run have the same number of blocks, so alignment drops nothing.  The
reported loss compares the collected pairs, a quotient for each run, with one quotient for all
runs.  It is 0 as long as the remainders of the runs do not add up to a block, and the product of
the sizes does not wrap to another number of blocks.  There is a loss to report only if the vectors
find room.
-/

namespace LatencyAnalyzer
namespace EvaluationLab

open Cxx
open Evaluation
open Lib (Settles settles_ok settles_ok_eq)
open Report (Destination Format PlatformSignature)

section Traces

variable {K : Type*} [Field K] (sources : Sources)

/-! ## The clock -/

/-- The clock can be read in the `count` timed sections from `first` on. -/
def Reads (first count : Nat) : Prop :=
  ∀ i < count, sources.reads (first + i) = true

theorem reads_add (first a b : Nat) :
    Reads sources first (a + b) ↔ Reads sources first a ∧ Reads sources (first + a) b := by
  constructor
  · intro h
    refine ⟨fun i hi => h i (by omega), fun i hi => ?_⟩
    rw [Nat.add_assoc]
    exact h (a + i) (by omega)
  · rintro ⟨hbefore, hbehind⟩ i hi
    rcases Nat.lt_or_ge i a with hlt | hle
    · exact hbefore i hlt
    · have hlast := hbehind (i - a) (by omega)
      rwa [Nat.add_assoc, Nat.add_sub_cancel' hle] at hlast

/-- The trace that the loop of `collect_trace` leaves, if the clock can be read. -/
def traceOf (count : Nat) (randomClass leakyFixture : Bool) (recorder : Recorder) :
    List K × Recorder :=
  (List.range count).foldl (fun st _ => sampleOf sources randomClass leakyFixture st)
    ([], recorder)

theorem traceOf_succ (count : Nat) (randomClass leakyFixture : Bool) (recorder : Recorder) :
    (traceOf sources (count + 1) randomClass leakyFixture recorder : List K × Recorder) =
      sampleOf sources randomClass leakyFixture
        (traceOf sources count randomClass leakyFixture recorder) := by
  unfold traceOf
  rw [List.range_succ, List.foldl_append, List.foldl_cons, List.foldl_nil]

theorem traceOf_length (count : Nat) (randomClass leakyFixture : Bool) (recorder : Recorder) :
    (traceOf sources count randomClass leakyFixture recorder : List K × Recorder).1.length =
      count := by
  induction count with
  | zero => rfl
  | succ count ih =>
      rw [traceOf_succ]
      exact List.length_append.trans (congrArg (· + 1) ih)

theorem traceOf_sections (count : Nat) (randomClass leakyFixture : Bool) (recorder : Recorder) :
    (traceOf sources count randomClass leakyFixture recorder : List K × Recorder).2.sections =
      recorder.sections + count := by
  induction count with
  | zero => rfl
  | succ count ih =>
      rw [traceOf_succ]
      exact congrArg (· + 1) ih

theorem collectLoop_settles (count : Nat) (randomClass leakyFixture : Bool)
    (recorder : Recorder) :
    Settles
      (collectLoop sources randomClass leakyFixture recorder count :
        Except Thrown (List K × Recorder))
      (Reads sources recorder.sections count)
      (· = traceOf sources count randomClass leakyFixture recorder) := by
  induction count with
  | zero =>
      have hnone : Reads sources recorder.sections 0 := fun _ hi => absurd hi (Nat.not_lt_zero _)
      exact (settles_ok_eq _).congr (iff_of_true trivial hnone)
  | succ count ih =>
      have hlast : sources.reads (recorder.sections + count) = true ∧ True ↔
          Reads sources (recorder.sections + count) 1 :=
        ⟨fun h i hi => by rw [Nat.lt_one_iff.1 hi, Nat.add_zero, h.1],
          fun h => ⟨h 0 Nat.one_pos, trivial⟩⟩
      refine (ih.bind fun _ st hst => ?_).congr
        ((and_congr_right fun _ => hlast).trans (reads_add sources _ _ _).symm)
      rw [hst, ← traceOf_sections (K := K) sources count randomClass leakyFixture recorder,
        traceOf_succ]
      exact Settles.guard _ _ fun _ => settles_ok_eq _

/-- A trace is collected if and only if it finds room and the clock can be read. -/
theorem collectTrace_settles (count : Nat) (randomClass leakyFixture : Bool)
    (recorder : Recorder) :
    Settles
      (collectTrace sources count randomClass leakyFixture recorder :
        Except Thrown (List K × Recorder))
      (count ≤ sources.room ∧ Reads sources recorder.sections count)
      (· = traceOf sources count randomClass leakyFixture recorder) :=
  Settles.guard _ _ fun _ => collectLoop_settles sources count randomClass leakyFixture recorder

/-! ## The traces of a run -/

/-- The traces of a run, if they find room and the clock can be read. -/
def traces (traceSamples run : Nat) (recorder : Recorder) : Capture K :=
  let fixed := traceOf sources traceSamples false true recorder
  let random := traceOf sources traceSamples true true fixed.2
  if run = 0 ∧ 8 < fixed.1.length then
    let recovery := traceOf sources 8 false true random.2
    let restored := fixed.1.take (fixed.1.length - 8) ++ recovery.1
    { fixed := restored
      random := random.1
      faults := 1
      recovered := if restored.length = traceSamples then 1 else 0
      recorder := recovery.2 }
  else
    { fixed := fixed.1
      random := random.1
      faults := 0
      recovered := 0
      recorder := random.2 }

/-- The timed sections of a run: its two traces and the recovery. -/
def sectionsOf (traceSamples run : Nat) : Nat :=
  traceSamples + traceSamples + if run = 0 ∧ 8 < traceSamples then 8 else 0

theorem traces_sections (traceSamples run : Nat) (recorder : Recorder) :
    (traces sources traceSamples run recorder : Capture K).recorder.sections =
      recorder.sections + sectionsOf traceSamples run := by
  unfold traces sectionsOf
  dsimp only
  rw [traceOf_length]
  split <;> simp only [traceOf_sections] <;> omega

/-- The traces are asked for one after the other, and the first that fails ends the run. -/
theorem capture_settles (traceSamples run : Nat) (recorder : Recorder) :
    Settles (capture sources traceSamples run recorder : Except Thrown (Capture K))
      (traceSamples ≤ sources.room ∧
        Reads sources recorder.sections (sectionsOf traceSamples run))
      (· = traces sources traceSamples run recorder) := by
  have hsections : Reads sources recorder.sections (sectionsOf traceSamples run) ↔
      (Reads sources recorder.sections traceSamples ∧
        Reads sources (recorder.sections + traceSamples) traceSamples) ∧
      Reads sources (recorder.sections + traceSamples + traceSamples)
        (if run = 0 ∧ 8 < traceSamples then 8 else 0) := by
    unfold sectionsOf
    rw [reads_add, reads_add, Nat.add_assoc]
  have hsequence : Settles (capture sources traceSamples run recorder : Except Thrown (Capture K))
      ((traceSamples ≤ sources.room ∧ Reads sources recorder.sections traceSamples) ∧
        (traceSamples ≤ sources.room ∧
          Reads sources (recorder.sections + traceSamples) traceSamples) ∧
        Reads sources (recorder.sections + traceSamples + traceSamples)
          (if run = 0 ∧ 8 < traceSamples then 8 else 0))
      (· = traces sources traceSamples run recorder) := by
    refine (collectTrace_settles sources _ _ _ _).bind fun hfirst fixed hfixed => ?_
    rw [hfixed, ← traceOf_sections (K := K) sources traceSamples false true recorder]
    refine (collectTrace_settles sources _ _ _ _).bind fun _ random hrandom => ?_
    rw [hrandom,
      ← traceOf_sections (K := K) sources traceSamples true true
        (traceOf sources traceSamples false true recorder : List K × Recorder).2]
    unfold traces
    dsimp only
    rw [traceOf_length]
    split
    · -- The recovery is shorter than the trace.
      rename_i hfault
      refine ((collectTrace_settles sources _ _ _ _).bind fun _ recovery hrecovery => ?_).congr
        (?_ : _ ∧ True ↔ _)
      · rw [hrecovery]
        exact settles_ok_eq _
      · rw [and_true, and_iff_right (hfault.2.le.trans hfirst.1)]
    · exact (settles_ok_eq _).congr
        (iff_of_true trivial fun _ hi => absurd hi (Nat.not_lt_zero _))
  refine hsequence.congr ?_
  rw [hsections]
  constructor
  · rintro ⟨⟨hroom, hfirst⟩, ⟨_, hsecond⟩, hthird⟩
    exact ⟨hroom, ⟨hfirst, hsecond⟩, hthird⟩
  · rintro ⟨hroom, ⟨hfirst, hsecond⟩, hthird⟩
    exact ⟨⟨hroom, hfirst⟩, ⟨hroom, hsecond⟩, hthird⟩

/-- The recovery of the first run restores the length of the fixed trace. -/
theorem traces_fixed_length (traceSamples run : Nat) (recorder : Recorder) :
    (traces sources traceSamples run recorder : Capture K).fixed.length = traceSamples := by
  unfold traces
  dsimp only
  split
  · rename_i hfault
    rw [traceOf_length] at hfault
    rw [List.length_append, List.length_take, traceOf_length, traceOf_length]
    omega
  · exact traceOf_length sources _ _ _ _

theorem traces_random_length (traceSamples run : Nat) (recorder : Recorder) :
    (traces sources traceSamples run recorder : Capture K).random.length = traceSamples := by
  unfold traces
  dsimp only
  split <;> exact traceOf_length sources _ _ _ _

/-- The traces of run `run`, when the runs before it have used up the sources. -/
def captureOf (traceSamples : Nat) : Nat → Capture K
  | 0 => traces sources traceSamples 0 { sections := 0, drawn := 0 }
  | run + 1 => traces sources traceSamples (run + 1) (captureOf traceSamples run).recorder

end Traces

/-! ## Rows of blocks -/

section Blocks

/-- `xs` is the blocks `block r j` for `r < n` and `j < k`, row by row. -/
structure Blocks {α : Type*} (n k : Nat) (block : Nat → Nat → α) (xs : List α) : Prop where
  length : xs.length = n * k
  get : ∀ r < n, ∀ j < k, xs[r * k + j]? = some (block r j)

theorem Blocks.nil {α : Type*} (k : Nat) (block : Nat → Nat → α) : Blocks 0 k block [] :=
  ⟨by simp, fun _ hr => absurd hr (Nat.not_lt_zero _)⟩

theorem Blocks.concat {α : Type*} {n k : Nat} {block : Nat → Nat → α} {xs : List α}
    (h : Blocks n k block xs) :
    Blocks (n + 1) k block (xs ++ (List.range k).map (block n)) where
  length := by
    rw [List.length_append, h.length, List.length_map, List.length_range, Nat.succ_mul]
  get := by
    intro r hr j hj
    rcases Nat.lt_succ_iff_lt_or_eq.1 hr with hlt | rfl
    · have hbound : r * k + j < n * k := by
        have hrow : (r + 1) * k ≤ n * k := Nat.mul_le_mul_right k hlt
        rw [Nat.succ_mul] at hrow
        omega
      rw [List.getElem?_append_left (by rw [h.length]; exact hbound)]
      exact h.get r hlt j hj
    · rw [List.getElem?_append_right (by rw [h.length]; exact Nat.le_add_right _ _), h.length,
        Nat.add_sub_cancel_left, List.getElem?_map, List.getElem?_range hj, Option.map_some]

end Blocks

/-! ## The loop over the runs -/

section Runs

variable {K : Type*} [Field K] [LinearOrder K] (sources : Sources) (traceSamples : Nat)
  {window : Nat}

/-- The two classes are paired block by block. -/
structure Paired (traceSamples window runs : Nat) (session : Session K) : Prop where
  fixed : Blocks runs (traceSamples / window)
    (fun r => blockMean (captureOf sources traceSamples r).fixed window) session.fixedAll
  random : Blocks runs (traceSamples / window)
    (fun r => blockMean (captureOf sources traceSamples r).random window) session.randomAll

/-- Both classes are appended whole, if there is room for them; a run without blocks appends
nothing. -/
theorem recordCapture_settles (hwindow : 0 < window) (session : Session K) (captured : Capture K)
    (hfixed : captured.fixed.length = traceSamples)
    (hrandom : captured.random.length = traceSamples)
    (hsame : session.randomAll.length = session.fixedAll.length)
    (hbefore : session.fixedAll.length ≤ sources.room) :
    Settles (recordCapture sources window session captured)
      (session.fixedAll.length + traceSamples / window ≤ sources.room) fun session' =>
        session'.fixedAll = session.fixedAll ++
          (List.range (traceSamples / window)).map (blockMean captured.fixed window) ∧
        session'.randomAll = session.randomAll ++
          (List.range (traceSamples / window)).map (blockMean captured.random window) ∧
        session'.recorder = captured.recorder := by
  have hfixedBlocks : averageBlocks captured.fixed window =
      (List.range (traceSamples / window)).map (blockMean captured.fixed window) := by
    rw [averageBlocks_eq hwindow, hfixed]
  have hrandomBlocks : averageBlocks captured.random window =
      (List.range (traceSamples / window)).map (blockMean captured.random window) := by
    rw [averageBlocks_eq hwindow, hrandom]
  have haligned : alignSamples (averageBlocks captured.fixed window)
      (averageBlocks captured.random window) = averageBlocks captured.fixed window := by
    unfold alignSamples
    dsimp only
    rw [hfixedBlocks, hrandomBlocks, List.length_map, List.length_map, min_self,
      ← List.length_map, List.take_length]
  have hwhole : ((List.range (traceSamples / window)).map
      (blockMean captured.random window)).take (traceSamples / window) =
        (List.range (traceSamples / window)).map (blockMean captured.random window) :=
    List.take_of_length_le (by simp)
  unfold recordCapture
  dsimp only
  rw [haligned, hfixedBlocks, hrandomBlocks, List.length_map, List.length_range, hwhole]
  rw [List.length_append, List.length_append, List.length_map, List.length_map, List.length_range,
    hsame]
  by_cases hnone : traceSamples / window = 0
  · rw [if_pos hnone, hnone, Nat.add_zero]
    exact (settles_ok ⟨(List.append_nil _).symm, (List.append_nil _).symm, rfl⟩).congr
      (iff_of_true trivial hbefore)
  · rw [if_neg hnone]
    refine (Settles.guard _ _ fun _ => settles_ok ⟨rfl, rfl, rfl⟩).congr ?_
    rw [and_true, and_self]

/-- The timed sections of the first runs. -/
def sectionsBefore (traceSamples : Nat) : Nat → Nat
  | 0 => 0
  | run + 1 => sectionsBefore traceSamples run + sectionsOf traceSamples run

theorem sectionsBefore_succ (traceSamples run : Nat) :
    sectionsBefore traceSamples (run + 1) =
      2 * (run + 1) * traceSamples + if 8 < traceSamples then 8 else 0 := by
  induction run with
  | zero =>
      unfold sectionsBefore sectionsBefore sectionsOf
      simp only [true_and]
      omega
  | succ run ih =>
      have hrest : sectionsOf traceSamples (run + 1) = traceSamples + traceSamples := by
        simp [sectionsOf]
      have hsplit : 2 * (run + 1 + 1) * traceSamples =
          2 * (run + 1) * traceSamples + (traceSamples + traceSamples) := by ring
      rw [sectionsBefore, ih, hrest, hsplit]
      omega

/-- Along with the pairs, the recorder stands where the next run is to begin. -/
structure Collects (window runs : Nat) (session : Session K) : Prop where
  paired : Paired sources traceSamples window runs session
  sections : session.recorder.sections = sectionsBefore traceSamples runs
  next : traces sources traceSamples runs session.recorder =
    (captureOf sources traceSamples runs : Capture K)

/-- One more run, behind others that have found room. -/
theorem Collects.step (hwindow : 0 < window) {run : Nat} {session : Session K}
    (h : Collects sources traceSamples window run session)
    (hbefore : run * (traceSamples / window) ≤ sources.room) :
    Settles (recordRun sources traceSamples window session run)
      ((traceSamples ≤ sources.room ∧
        Reads sources (sectionsBefore traceSamples run) (sectionsOf traceSamples run)) ∧
        (run + 1) * (traceSamples / window) ≤ sources.room)
      (Collects sources traceSamples window (run + 1)) := by
  have hcapture := capture_settles (K := K) sources traceSamples run session.recorder
  rw [h.sections, h.next] at hcapture
  refine hcapture.bind fun _ captured hcaptured => ?_
  have hlength := h.paired.fixed.length
  rw [hcaptured, Nat.succ_mul, ← hlength]
  refine (recordCapture_settles sources traceSamples hwindow session
    (captureOf sources traceSamples run) ?_ ?_ ?_ ?_).mono ?_
  · rw [← h.next]
    exact traces_fixed_length sources traceSamples run _
  · rw [← h.next]
    exact traces_random_length sources traceSamples run _
  · exact h.paired.random.length.trans hlength.symm
  · rw [hlength]
    exact hbefore
  · rintro _ session' ⟨hfixed, hrandom, hrecorder⟩
    refine ⟨⟨?_, ?_⟩, ?_, ?_⟩
    · rw [hfixed]
      exact h.paired.fixed.concat
    · rw [hrandom]
      exact h.paired.random.concat
    · rw [hrecorder, ← h.next, traces_sections, h.sections]
      rfl
    · rw [hrecorder]
      rfl

/-- What the loop over the runs needs from its sources. -/
structure Supplied (window runs : Nat) : Prop where
  trace : traceSamples ≤ sources.room
  collected : runs * (traceSamples / window) ≤ sources.room
  reads : Reads sources 0 (sectionsBefore traceSamples runs)

theorem Supplied.of_succ {run : Nat} (h : Supplied sources traceSamples window (run + 1)) :
    Supplied sources traceSamples window run ∧
      Reads sources (sectionsBefore traceSamples run) (sectionsOf traceSamples run) := by
  have hreads := (reads_add sources 0 _ _).1 h.reads
  rw [Nat.zero_add] at hreads
  exact ⟨⟨h.trace, (Nat.mul_le_mul_right _ (Nat.le_succ run)).trans h.collected, hreads.1⟩,
    hreads.2⟩

/-- The loop comes to its end if and only if each trace and all the pairs find room, and the clock
can be read. -/
theorem collectRuns_settles (hwindow : 0 < window) (runs : Nat) :
    Settles (collectRuns sources traceSamples window runs : Except Thrown (Session K))
      (runs = 0 ∨ Supplied sources traceSamples window runs)
      (Collects sources traceSamples window runs) := by
  induction runs with
  | zero =>
      exact (settles_ok ⟨⟨Blocks.nil _ _, Blocks.nil _ _⟩, rfl, rfl⟩).congr
        (iff_of_true trivial (Or.inl rfl))
  | succ run ih =>
      have hbefore : run = 0 ∨ Supplied sources traceSamples window run →
          run * (traceSamples / window) ≤ sources.room := by
        rintro (rfl | hsupplied)
        · rw [Nat.zero_mul]
          exact Nat.zero_le _
        · exact hsupplied.collected
      have hreads : run = 0 ∨ Supplied sources traceSamples window run →
          Reads sources 0 (sectionsBefore traceSamples run) := by
        rintro (rfl | hsupplied)
        · exact fun _ hi => absurd hi (Nat.not_lt_zero _)
        · exact hsupplied.reads
      refine (ih.bind fun hearlier session hcollects =>
        Collects.step sources traceSamples hwindow hcollects (hbefore hearlier)).congr ?_
      constructor
      · rintro ⟨hearlier, ⟨htrace, hnow⟩, hcollected⟩
        refine Or.inr ⟨htrace, hcollected, ?_⟩
        refine (reads_add sources 0 _ _).2 ⟨hreads hearlier, ?_⟩
        rw [Nat.zero_add]
        exact hnow
      · rintro (hzero | hsupplied)
        · exact absurd hzero (Nat.succ_ne_zero run)
        · exact ⟨Or.inr hsupplied.of_succ.1, ⟨hsupplied.trace, hsupplied.of_succ.2⟩,
            hsupplied.collected⟩

end Runs

/-! ## The loss -/

section Loss

variable {K : Type*} [Field K] [LinearOrder K] [IsStrictOrderedRing K]

omit [LinearOrder K] [IsStrictOrderedRing K] in
theorem alignmentLoss_eq_zero_iff [CharZero K] (aligned requested : Nat) :
    (alignmentLoss aligned requested : K) = 0 ↔ requested = 0 ∨ requested = aligned := by
  unfold alignmentLoss
  split
  · rename_i hpos
    have hne : (requested : K) ≠ 0 := by exact_mod_cast hpos.ne'
    have hhundred : (Report.hundred : K) ≠ 0 := by
      rw [Report.hundred_eq]
      norm_num
    rw [mul_eq_zero, or_iff_right hhundred, sub_eq_zero, eq_div_iff hne, one_mul, Nat.cast_inj]
    omega
  · rename_i hzero
    exact iff_of_true rfl (Or.inl (by omega))

theorem averagingWindow_pos {abi : Abi} {averagingWindow : SizeT abi} (h : averagingWindow ≠ 0) :
    0 < averagingWindow.toNat := by
  apply Nat.pos_of_ne_zero
  intro hzero
  exact h (BitVec.eq_of_toNat_eq hzero)

theorem requestedPairs_toNat {abi : Abi} (runs traceSamples : Int) (averagingWindow : SizeT abi) :
    (requestedPairs runs traceSamples averagingWindow).toNat =
      runs.toNat * traceSamples.toNat % 2 ^ abi.sizeBits / averagingWindow.toNat := by
  unfold requestedPairs
  rw [BitVec.toNat_udiv, BitVec.toNat_mul, BitVec.toNat_ofNat, BitVec.toNat_ofNat, ← Nat.mul_mod]
  congr 3
  omega

/-- The product of the sizes, in `size_t`, has no block at all or the blocks of the single runs. -/
def WholeBlocks (abi : Abi) (runs traceSamples window : Nat) : Prop :=
  runs * traceSamples % 2 ^ abi.sizeBits < window ∨
    runs * (traceSamples / window) * window ≤ runs * traceSamples % 2 ^ abi.sizeBits ∧
      runs * traceSamples % 2 ^ abi.sizeBits < (runs * (traceSamples / window) + 1) * window

theorem wholeBlocks_iff {abi : Abi} {runs traceSamples window : Nat} (hwindow : 0 < window) :
    WholeBlocks abi runs traceSamples window ↔
      runs * traceSamples % 2 ^ abi.sizeBits / window = 0 ∨
        runs * traceSamples % 2 ^ abi.sizeBits / window = runs * (traceSamples / window) := by
  unfold WholeBlocks
  generalize runs * traceSamples % 2 ^ abi.sizeBits = product
  rw [Nat.div_eq_zero_iff_lt hwindow, Nat.div_eq_iff hwindow, Nat.succ_mul]
  refine or_congr_right (and_congr_right fun _ => ?_)
  omega

/-- Without a wrap, the remainders of the runs must not add up to a block. -/
theorem wholeBlocks_of_fits {abi : Abi} {runs traceSamples window : Nat}
    (hfits : runs * traceSamples < 2 ^ abi.sizeBits) :
    WholeBlocks abi runs traceSamples window ↔ runs * (traceSamples % window) < window := by
  have hsplit : runs * traceSamples =
      runs * (traceSamples / window) * window + runs * (traceSamples % window) := by
    rw [Nat.mul_assoc, ← Nat.mul_add, Nat.div_add_mod']
  unfold WholeBlocks
  rw [Nat.mod_eq_of_lt hfits, Nat.succ_mul]
  constructor
  · rintro (hnone | ⟨_, hlt⟩)
    · omega
    · omega
  · intro hlt
    exact Or.inr ⟨by omega, by omega⟩

end Loss

/-! ## Exactly when the loss is one of alignment -/

section Measures

variable {K : Type*} [Field K] [LinearOrder K]

/-- The vectors of a lab find room: what is reserved for each class, a trace, and all the pairs. -/
structure FindsRoom (abi : Abi) (room runs traceSamples window : Nat) : Prop where
  reserved : runs * traceSamples % 2 ^ abi.sizeBits ≤ room
  trace : traceSamples ≤ room
  collected : runs * (traceSamples / window) ≤ room

instance (abi : Abi) (room runs traceSamples window : Nat) :
    Decidable (FindsRoom abi room runs traceSamples window) :=
  decidable_of_iff
    (runs * traceSamples % 2 ^ abi.sizeBits ≤ room ∧ traceSamples ≤ room ∧
      runs * (traceSamples / window) ≤ room)
    ⟨fun ⟨hreserved, htrace, hcollected⟩ => ⟨hreserved, htrace, hcollected⟩,
      fun h => ⟨h.reserved, h.trace, h.collected⟩⟩

/-- Without a wrap, the pairs are no more than what is reserved for them. -/
theorem findsRoom_of_fits {abi : Abi} {room runs traceSamples window : Nat} (hruns : 0 < runs)
    (hfits : runs * traceSamples < 2 ^ abi.sizeBits) :
    FindsRoom abi room runs traceSamples window ↔ runs * traceSamples ≤ room := by
  constructor
  · intro h
    have hreserved := h.reserved
    rwa [Nat.mod_eq_of_lt hfits] at hreserved
  · intro hle
    refine ⟨(Nat.mod_le _ _).trans hle, (Nat.le_mul_of_pos_left _ hruns).trans hle, ?_⟩
    exact (Nat.mul_le_mul_left runs (Nat.div_le_self _ _)).trans hle

/-- The clock can be read in every timed section of a lab: two traces a run, and one recovery. -/
def ReadsClock (sources : Sources) (runs traceSamples : Nat) : Prop :=
  Reads sources 0 (2 * runs * traceSamples + if 8 < traceSamples then 8 else 0)

theorem readsClock_iff (sources : Sources) (traceSamples : Nat) {runs : Nat} (hruns : 0 < runs) :
    ReadsClock sources runs traceSamples ↔
      Reads sources 0 (sectionsBefore traceSamples runs) := by
  cases runs with
  | zero => exact absurd hruns (Nat.lt_irrefl 0)
  | succ run =>
      rw [sectionsBefore_succ]
      rfl

/-- The classes of a result are paired, and its loss says that nothing of them was dropped, as the
loss of one run does. -/
structure MeasuresAlignment (sources : Sources) (traceSamples window runs : Nat)
    (result : Report.EvaluationLabResult K) (ofOneRun : Report.EvaluationLabResult K → Prop) :
    Prop where
  paired : ∃ session : Session K, collectRuns sources traceSamples window runs = .ok session ∧
    Paired sources traceSamples window runs session ∧
    result.alignedSamples = session.fixedAll.length
  lossless : 0 < traceSamples / window → result.alignmentLossPercent = 0
  percent : 0 ≤ result.alignmentLossPercent ∧ result.alignmentLossPercent ≤ 100
  runsIrrelevant : ∀ one, ofOneRun one →
    result.alignmentLossPercent = one.alignmentLossPercent

variable {abi : Abi} (sqrt log10 : K → K) (fmt : Format K) (d : Destination)
  (platform : PlatformSignature) (sources : Sources)

omit [Field K] [LinearOrder K] in
theorem withReport_fields (result : Report.EvaluationLabResult K)
    (tvlaClean : Report.TvlaResult K) (runMedians : List K) :
    Report.EvaluationLab.withReport fmt d result tvlaClean runMedians =
      { result with
        reportWritten :=
          (Report.EvaluationLab.writeReport fmt d result tvlaClean runMedians).returned } := by
  unfold Report.EvaluationLab.withReport
  cases (Report.EvaluationLab.writeReport fmt d result tvlaClean runMedians).returned <;> rfl

theorem reservedSamples_toNat (abi : Abi) (runs traceSamples : Int) :
    (reservedSamples abi runs traceSamples).toNat =
      runs.toNat * traceSamples.toNat % 2 ^ abi.sizeBits := by
  unfold reservedSamples
  rw [BitVec.toNat_mul, BitVec.toNat_ofNat, BitVec.toNat_ofNat, ← Nat.mul_mod, Nat.mul_comm]

/-- A lab that is not refused returns if and only if its vectors find room and its clock can be
read, and then it hands on what its runs have collected. -/
theorem run_settles {runs traceSamples : Int} {averagingWindow : SizeT abi} {reportPath : String}
    (hruns : 0 < runs) (htrace : 0 < traceSamples) (hwindow : averagingWindow ≠ 0)
    (hpath : reportPath ≠ "") :
    Settles (run sqrt log10 fmt d platform sources runs traceSamples averagingWindow reportPath)
      (FindsRoom abi sources.room runs.toNat traceSamples.toNat averagingWindow.toNat ∧
        ReadsClock sources runs.toNat traceSamples.toNat) fun result =>
      ∃ session : Session K,
        collectRuns sources traceSamples.toNat averagingWindow.toNat runs.toNat = .ok session ∧
        Paired sources traceSamples.toNat averagingWindow.toNat runs.toNat session ∧
        let lab : Handed K :=
          evaluate sqrt log10 platform runs traceSamples averagingWindow reportPath session
        result =
          { lab.result with
            reportWritten := (Report.EvaluationLab.writeReport fmt d lab.result lab.tvlaClean
              lab.runMedians).returned } := by
  have hguard : ¬ (runs ≤ 0 ∨ traceSamples ≤ 0 ∨ averagingWindow = 0 ∨
      reportPath.isEmpty = true) := by
    rw [String.isEmpty_iff]
    rintro (hle | hle | hzero | hempty)
    · omega
    · omega
    · exact hwindow hzero
    · exact hpath hempty
  have hsome : runs.toNat ≠ 0 := by omega
  have hloop := (collectRuns_settles (K := K) sources traceSamples.toNat
    (averagingWindow_pos hwindow) runs.toNat).congr (or_iff_right hsome)
  have hclock := readsClock_iff sources traceSamples.toNat (Nat.pos_of_ne_zero hsome)
  unfold run
  rw [if_neg hguard, reservedSamples_toNat]
  refine (Settles.guard _ _ fun _ => ?_ :
    Settles _ (_ ∧ Supplied sources traceSamples.toNat averagingWindow.toNat runs.toNat) _).congr ?_
  · rcases hloop with ⟨hsupplied, session, hok, hcollects⟩ | ⟨hsupplied, thrown, hthrown⟩
    · rw [hok]
      exact Or.inl ⟨hsupplied, _, rfl, session, rfl, hcollects.paired,
        withReport_fields fmt d _ _ _⟩
    · rw [hthrown]
      exact Or.inr ⟨hsupplied, thrown, rfl⟩
  · constructor
    · rintro ⟨hreserved, hsupplied⟩
      exact ⟨⟨hreserved, hsupplied.trace, hsupplied.collected⟩, hclock.2 hsupplied.reads⟩
    · rintro ⟨hroom, hreads⟩
      exact ⟨hroom.reserved, hroom.trace, hroom.collected, hclock.1 hreads⟩

/-- The loss that a lab reports when it returns. -/
theorem loss_of_run {runs traceSamples : Int} {averagingWindow : SizeT abi} {reportPath : String}
    (hruns : 0 < runs) (htrace : 0 < traceSamples) (hwindow : averagingWindow ≠ 0)
    (hpath : reportPath ≠ "") {result : Report.EvaluationLabResult K}
    (h : run sqrt log10 fmt d platform sources runs traceSamples averagingWindow reportPath =
      .ok result) :
    result.alignmentLossPercent =
      alignmentLoss (runs.toNat * (traceSamples.toNat / averagingWindow.toNat))
        (runs.toNat * traceSamples.toNat % 2 ^ abi.sizeBits / averagingWindow.toNat) := by
  obtain ⟨_, session, _, hpaired, rfl⟩ :=
    (run_settles sqrt log10 fmt d platform sources hruns htrace hwindow hpath).of_ok h
  rw [← requestedPairs_toNat, ← hpaired.fixed.length]
  rfl

/-- The loss of a lab measures alignment if and only if its vectors find room, its clock can be
read and the product of the sizes has as many blocks as the single runs; without a wrap, there has
to be room for the product, and the remainders of the runs must not make up a block. -/
theorem alignment_loss_iff [IsStrictOrderedRing K] {runs traceSamples : Int}
    {averagingWindow : SizeT abi} {reportPath : String} (hruns : 0 < runs)
    (htrace : 0 < traceSamples) (htraceInt : InInt traceSamples) (hwindow : averagingWindow ≠ 0)
    (hpath : reportPath ≠ "") :
    ((∃ result, run sqrt log10 fmt d platform sources runs traceSamples averagingWindow reportPath =
        .ok result ∧
      MeasuresAlignment sources traceSamples.toNat averagingWindow.toNat runs.toNat result
        fun one => ∃ sources', run sqrt log10 fmt d platform sources' 1 traceSamples
          averagingWindow reportPath = .ok one) ↔
      FindsRoom abi sources.room runs.toNat traceSamples.toNat averagingWindow.toNat ∧
        ReadsClock sources runs.toNat traceSamples.toNat ∧
        WholeBlocks abi runs.toNat traceSamples.toNat averagingWindow.toNat) ∧
    (runs.toNat * traceSamples.toNat < 2 ^ abi.sizeBits →
      (FindsRoom abi sources.room runs.toNat traceSamples.toNat averagingWindow.toNat ↔
        runs.toNat * traceSamples.toNat ≤ sources.room) ∧
      (WholeBlocks abi runs.toNat traceSamples.toNat averagingWindow.toNat ↔
        runs.toNat * (traceSamples.toNat % averagingWindow.toNat) < averagingWindow.toNat)) := by
  have hwindow' := averagingWindow_pos hwindow
  have htraceSize : traceSamples.toNat < 2 ^ abi.sizeBits := by
    have hmax := htraceInt.2
    rw [intMax_eq] at hmax
    exact lt_of_lt_of_le (by omega) abi.two_pow_le_sizeMax
  have hone : ∀ sources' one, run sqrt log10 fmt d platform sources' 1 traceSamples
      averagingWindow reportPath = .ok one → one.alignmentLossPercent = 0 := by
    intro sources' one h
    rw [loss_of_run sqrt log10 fmt d platform sources' (by decide) htrace hwindow hpath h,
      alignmentLoss_eq_zero_iff]
    right
    rw [Int.toNat_one, one_mul, one_mul, Nat.mod_eq_of_lt htraceSize]
  have hsettles := run_settles sqrt log10 fmt d platform sources hruns htrace hwindow hpath
  refine ⟨?_, fun hfits => ⟨findsRoom_of_fits (by omega) hfits, wholeBlocks_of_fits hfits⟩⟩
  rw [wholeBlocks_iff hwindow', ← alignmentLoss_eq_zero_iff (K := K)]
  constructor
  · rintro ⟨result, hresult, hmeasures⟩
    obtain ⟨⟨hroom, hclock⟩, _⟩ := hsettles.of_ok hresult
    refine ⟨hroom, hclock, ?_⟩
    -- One run returns where there is room for its trace and a clock that works.
    have hsingle : FindsRoom abi traceSamples.toNat (1 : Int).toNat traceSamples.toNat
        averagingWindow.toNat := by
      refine (findsRoom_of_fits (by decide) ?_).2 ?_ <;> rw [Int.toNat_one, one_mul]
      exact htraceSize
    obtain ⟨one, hrun, _⟩ := (run_settles sqrt log10 fmt d platform
      { sources with room := traceSamples.toNat, reads := fun _ => true }
      (by decide : (0 : Int) < 1) htrace hwindow hpath).returns ⟨hsingle, fun _ _ => rfl⟩
    rw [← loss_of_run sqrt log10 fmt d platform sources hruns htrace hwindow hpath hresult,
      hmeasures.runsIrrelevant _ ⟨_, hrun⟩]
    exact hone _ _ hrun
  · rintro ⟨hroom, hclock, hzero⟩
    obtain ⟨_, hrun, session, hok, hpaired, rfl⟩ := hsettles.returns ⟨hroom, hclock⟩
    rw [← loss_of_run sqrt log10 fmt d platform sources hruns htrace hwindow hpath hrun] at hzero
    refine ⟨_, hrun, ⟨session, hok, hpaired, rfl⟩, fun _ => hzero, ?_, ?_⟩
    · rw [hzero]
      norm_num
    · rintro one ⟨sources', hresult⟩
      rw [hzero, hone sources' one hresult]

/-! Two runs of four samples in blocks of two, and two runs of three samples. -/

/-- Timed sections that all take the same time, and a generator stuck at one byte. -/
def steadySources : Sources :=
  { reads := fun _ => true
    elapsed := fun _ _ _ => 100
    byte := fun _ => 0
    room := 2 ^ 60 - 1 }

def noPlatform : PlatformSignature :=
  { vendor := ""
    brand := ""
    osRelease := ""
    machine := ""
    physicalCores := 1
    logicalCpus := 1
    packages := 1
    smtActive := false }

theorem alignment_loss_even :
    ∃ result, run Rat.sqrt id Report.integerFormat Report.fullDisk noPlatform steadySources 2 4
      (2 : SizeT .x8664) "evaluation_lab_report.json" = .ok result ∧
        result.alignmentLossPercent = 0 := by
  obtain ⟨result, hresult, hmeasures⟩ :=
    (alignment_loss_iff Rat.sqrt id Report.integerFormat Report.fullDisk noPlatform steadySources
      (by decide : (0 : Int) < 2) (by decide : (0 : Int) < 4) (by decide)
      (by decide : (2 : SizeT .x8664) ≠ 0)
      (by decide : "evaluation_lab_report.json" ≠ "")).1.2
      ⟨by decide, fun _ _ => rfl, Or.inr (by decide)⟩
  exact ⟨result, hresult, hmeasures.lossless (by decide)⟩

/-- Every run drops its third sample, and the two of them are reported as a lost pair. -/
theorem alignment_loss_odd :
    ∃ result, run Rat.sqrt id Report.integerFormat Report.fullDisk noPlatform steadySources 2 3
      (2 : SizeT .x8664) "evaluation_lab_report.json" = .ok result ∧
        ¬ MeasuresAlignment steadySources 3 2 2 result fun one =>
          ∃ sources', run Rat.sqrt id Report.integerFormat Report.fullDisk noPlatform sources' 1 3
            (2 : SizeT .x8664) "evaluation_lab_report.json" = .ok one := by
  obtain ⟨_, hrun, _⟩ := (run_settles Rat.sqrt id Report.integerFormat Report.fullDisk noPlatform
    steadySources (by decide : (0 : Int) < 2) (by decide : (0 : Int) < 3)
    (by decide : (2 : SizeT .x8664) ≠ 0) (by decide : "evaluation_lab_report.json" ≠ "")).returns
      ⟨by decide, fun _ _ => rfl⟩
  refine ⟨_, hrun, fun hmeasures => ?_⟩
  have hzero := hmeasures.lossless (by decide)
  rw [loss_of_run Rat.sqrt id Report.integerFormat Report.fullDisk noPlatform steadySources
    (by decide) (by decide) (by decide) (by decide) hrun, alignmentLoss_eq_zero_iff] at hzero
  revert hzero
  decide

end Measures

end EvaluationLab
end LatencyAnalyzer
