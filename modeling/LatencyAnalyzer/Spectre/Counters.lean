import Mathlib.Algebra.BigOperators.Group.List.Lemmas
import Mathlib.Algebra.BigOperators.Ring.Finset
import Mathlib.Algebra.Order.BigOperators.Group.List
import LatencyAnalyzer.Spectre.Fixture

/-!
# Counters — the bookkeeping of the reliability lab

The lab updates three aggregates on every recovered string: the exact matches, the correct bytes of
all runs and the correct runs of every byte.  They count the entries of one table, which has a row
for every run and a column for every byte of the secret: its full rows, all of its entries, and the
entries of its columns.
-/

namespace LatencyAnalyzer
namespace Spectre

open Cxx

section Counters

variable {abi : Abi}

/-! ## The loop over recovered strings -/

/-- What the lab makes of the strings that its runs recover. -/
def labReport (abi : Abi) (runs triesPerByte : Int) (strings : List (List UInt8)) :
    SpectreLabResult abi :=
  strings.foldl SpectreLabResult.record (SpectreLabResult.start abi runs triesPerByte)

/-- The bytes that `main` lists as stable. -/
def stableBytes (lab : SpectreLabResult abi) : List Nat :=
  (List.range lab.perByteCorrectRuns.length).filter fun i =>
    lab.perByteCorrectRuns.getD i 0 == lab.runs

/-! ## The table -/

/-- The bytes the lab compares with. -/
def reference : List UInt8 := kSecret.take kSecretLength

theorem reference_length : reference.length = kSecretLength := by decide

/-- The entries of a row. -/
def correctIn (recovered : List UInt8) : Nat :=
  (List.range kSecretLength).countP (byteCorrect recovered)

/-- The entries of a column. -/
def correctRuns (strings : List (List UInt8)) (i : Nat) : Nat :=
  strings.countP fun recovered => byteCorrect recovered i

/-- All entries. -/
def correctOf (strings : List (List UInt8)) : Nat :=
  (strings.map correctIn).sum

theorem correctRuns_concat (strings : List (List UInt8)) (recovered : List UInt8) (i : Nat) :
    correctRuns (strings ++ [recovered]) i =
      correctRuns strings i + if byteCorrect recovered i then 1 else 0 := by
  unfold correctRuns
  rw [List.countP_append, List.countP_singleton]

theorem correctOf_concat (strings : List (List UInt8)) (recovered : List UInt8) :
    correctOf (strings ++ [recovered]) = correctOf strings + correctIn recovered := by
  unfold correctOf
  rw [List.map_append, List.sum_append, List.map_singleton, List.sum_singleton]

theorem correctIn_le (recovered : List UInt8) : correctIn recovered ≤ kSecretLength :=
  List.countP_le_length.trans_eq List.length_range

theorem correctOf_le (strings : List (List UInt8)) :
    correctOf strings ≤ kSecretLength * strings.length := by
  have hrow : ∀ n ∈ strings.map correctIn, n ≤ kSecretLength := by
    intro n hn
    rcases List.mem_map.1 hn with ⟨recovered, _, rfl⟩
    exact correctIn_le recovered
  have hsum := List.sum_le_card_nsmul _ _ hrow
  rw [List.length_map, nsmul_eq_mul, mul_comm] at hsum
  exact hsum

theorem correctRuns_le (strings : List (List UInt8)) (i : Nat) :
    correctRuns strings i ≤ strings.length :=
  List.countP_le_length

theorem sum_indicator {α : Type*} (p : α → Bool) (xs : List α) :
    (xs.map fun x => if p x then 1 else 0).sum = xs.countP p := by
  induction xs with
  | nil => rfl
  | cons x xs ih => rw [List.map_cons, List.sum_cons, ih, List.countP_cons, Nat.add_comm]

/-- The entries can be counted column by column. -/
theorem sum_correctRuns (strings : List (List UInt8)) :
    ((List.range kSecretLength).map (correctRuns strings)).sum = correctOf strings := by
  induction strings using List.reverseRecOn with
  | nil =>
      apply List.sum_eq_zero
      intro n hn
      rcases List.mem_map.1 hn with ⟨i, _, rfl⟩
      rfl
  | append_singleton strings recovered ih =>
      have hcolumn : correctRuns (strings ++ [recovered]) = fun i =>
          correctRuns strings i + if byteCorrect recovered i then 1 else 0 :=
        funext (correctRuns_concat strings recovered)
      rw [hcolumn, List.sum_map_add, ih, sum_indicator, correctOf_concat]
      rfl

/-! ## The full rows -/

theorem byteCorrect_reference {i : Nat} (hi : i < kSecretLength) :
    byteCorrect reference i = true := by
  have hall : ∀ i ∈ List.range kSecretLength, byteCorrect reference i = true := by decide
  exact hall i (List.mem_range.2 hi)

/-- Among the strings that are not too long, the secret is the one with all bytes correct. -/
theorem eq_reference_iff {recovered : List UInt8} (hlength : recovered.length ≤ kSecretLength) :
    recovered = reference ↔ ∀ i < kSecretLength, byteCorrect recovered i = true := by
  constructor
  · rintro rfl i hi
    exact byteCorrect_reference hi
  · intro hall
    have hbyte : ∀ i < kSecretLength,
        i < recovered.length ∧ recovered.getD i 0 = kSecret.getD i 0 := by
      intro i hi
      have hcorrect := hall i hi
      simp only [byteCorrect, Bool.and_eq_true, decide_eq_true_eq, beq_iff_eq] at hcorrect
      exact hcorrect
    have hlong : recovered.length = kSecretLength := by
      have hlast := (hbyte (kSecretLength - 1) (by decide)).1
      omega
    refine List.ext_getElem (hlong.trans reference_length.symm) ?_
    intro i hi hi'
    rw [reference_length] at hi'
    have hreference : reference.getD i 0 = kSecret.getD i 0 := by
      have hcorrect := byteCorrect_reference hi'
      simp only [byteCorrect, Bool.and_eq_true, beq_iff_eq] at hcorrect
      exact hcorrect.2
    have hsame := (hbyte i hi').2.trans hreference.symm
    rwa [List.getD_eq_getElem?_getD, List.getD_eq_getElem?_getD, List.getElem?_eq_getElem hi,
      List.getElem?_eq_getElem] at hsame

/-- A full row has an entry in every column. -/
theorem exact_le_correctRuns (strings : List (List UInt8)) {i : Nat} (hi : i < kSecretLength) :
    strings.countP (· = reference) ≤ correctRuns strings i := by
  apply List.countP_mono_left
  intro recovered _ heq
  rw [decide_eq_true_eq] at heq
  rw [heq]
  exact byteCorrect_reference hi

/-! ## The aggregates count the table -/

/-- `per_byte_correct_runs` after the runs that recovered `strings`. -/
def columnCounts (strings : List (List UInt8)) : List Int :=
  (List.range kSecretLength).map fun i => (correctRuns strings i : Int)

theorem columnCounts_nil : columnCounts [] = List.replicate kSecretLength 0 := by
  decide

theorem columnCounts_concat (strings : List (List UInt8)) (recovered : List UInt8) :
    ((columnCounts strings).mapIdx fun i count =>
      if byteCorrect recovered i then count + 1 else count) =
        columnCounts (strings ++ [recovered]) := by
  refine List.ext_getElem (by simp [columnCounts]) ?_
  intro i hi _
  simp only [columnCounts, List.getElem_mapIdx, List.getElem_map, List.getElem_range,
    correctRuns_concat]
  split <;> simp

/-- The result after the runs that recovered `strings`. -/
structure Counted (runs : Int) (strings : List (List UInt8)) (result : SpectreLabResult abi) :
    Prop where
  runs_eq : result.runs = runs
  secretLength : result.secretLength = kSecretLength
  totalBytes : result.totalBytes =
    BitVec.ofNat _ kSecretLength * BitVec.ofNat _ (max 0 runs).toNat
  exactMatches : result.exactMatches = (strings.countP (· = reference) : Nat)
  correctBytes : result.correctBytes = BitVec.ofNat _ (correctOf strings)
  perByteFirst : strings = [] → result.perByteCorrectRuns = []
  perByte : strings ≠ [] → result.perByteCorrectRuns = columnCounts strings

theorem counted_start (runs triesPerByte : Int) :
    Counted runs [] (SpectreLabResult.start abi runs triesPerByte) where
  runs_eq := rfl
  secretLength := rfl
  totalBytes := rfl
  exactMatches := rfl
  correctBytes := rfl
  perByteFirst := fun _ => rfl
  perByte := fun h => absurd rfl h

theorem Counted.record {runs : Int} {strings : List (List UInt8)}
    {result : SpectreLabResult abi} (h : Counted runs strings result) (recovered : List UInt8) :
    Counted runs (strings ++ [recovered]) (result.record recovered) := by
  -- The comparison of the lengths is redundant: equal strings have equal lengths.
  have hexact : (recovered.length == result.secretLength &&
      recovered == kSecret.take result.secretLength) = decide (recovered = reference) := by
    rw [h.secretLength, Bool.eq_iff_iff]
    simp only [Bool.and_eq_true, beq_iff_eq, decide_eq_true_eq]
    constructor
    · rintro ⟨_, heq⟩
      exact heq
    · rintro rfl
      exact ⟨reference_length, rfl⟩
  -- The first run finds the vector empty and fills it with zeros.
  have hcounts : (if result.perByteCorrectRuns.length = result.secretLength
      then result.perByteCorrectRuns else List.replicate result.secretLength 0) =
        columnCounts strings := by
    rw [h.secretLength]
    rcases eq_or_ne strings [] with rfl | hne
    · rw [h.perByteFirst rfl, columnCounts_nil]
      rfl
    · rw [h.perByte hne, if_pos (by simp [columnCounts])]
  have hsecret := h.secretLength
  unfold SpectreLabResult.record
  rw [hexact]
  refine ⟨?_, ?_, ?_, ?_, ?_, ?_, ?_⟩
  · dsimp only
    split <;> exact h.runs_eq
  · dsimp only
    split <;> exact hsecret
  · dsimp only
    split <;> exact h.totalBytes
  · rw [List.countP_append, List.countP_singleton]
    dsimp only
    split
    · push_cast
      rw [← h.exactMatches]
    · rw [Nat.add_zero]
      exact h.exactMatches
  · have hbytes := h.correctBytes
    dsimp only
    rw [correctOf_concat, BitVec.ofNat_add, ← hbytes]
    split <;> rw [hsecret] <;> rfl
  · intro hnil
    exact absurd hnil (by simp)
  · intro _
    rw [← columnCounts_concat, ← hcounts]
    dsimp only
    split <;> rfl

theorem labReport_concat (runs triesPerByte : Int) (strings : List (List UInt8))
    (recovered : List UInt8) :
    labReport abi runs triesPerByte (strings ++ [recovered]) =
      (labReport abi runs triesPerByte strings).record recovered :=
  List.foldl_append

theorem counted_labReport (runs triesPerByte : Int) (strings : List (List UInt8)) :
    Counted runs strings (labReport abi runs triesPerByte strings) := by
  induction strings using List.reverseRecOn with
  | nil => exact counted_start runs triesPerByte
  | append_singleton strings recovered ih =>
      rw [labReport_concat]
      exact ih.record recovered

/-! ## The lab is such a loop -/

theorem readStringImpl_length (retry : Retry abi) (m : Machine abi) (startOffset length : SizeT abi)
    (tries : Int) : (readStringImpl retry m startOffset length tries).1.length ≤ length.toNat := by
  unfold readStringImpl
  split
  · exact Nat.zero_le _
  · have hloop : ∀ (st : List UInt8 × Machine abi) (n : Nat),
        ((List.range n).foldl (readElement retry startOffset tries
          (calibrateThreshold m).1) st).1.length = st.1.length + n := by
      intro st n
      induction n with
      | zero => rfl
      | succ n ih =>
          rw [List.range_succ, List.foldl_append, List.foldl_cons, List.foldl_nil]
          apply List.length_append.trans
          rw [ih]
          rfl
    dsimp only
    rw [hloop]
    exact (Nat.zero_add _).le

/-- The strings that `read_string_impl` returns to the lab run by run, each in the process that the
runs before have left behind. -/
def recoveredStrings (retry : Retry abi) (m : Machine abi) (triesPerByte : Int) :
    Nat → List (List UInt8) × Machine abi
  | 0 => ([], m)
  | n + 1 =>
      let before := recoveredStrings retry m triesPerByte n
      let recovered := readStringImpl retry before.2 (BitVec.ofNat _ kArchitecturalArraySize)
        (BitVec.ofNat _ kSecretLength) triesPerByte
      (before.1 ++ [recovered.1], recovered.2)

theorem recoveredStrings_mem (retry : Retry abi) (m : Machine abi) (triesPerByte : Int) (n : Nat) :
    (recoveredStrings retry m triesPerByte n).1.length = n ∧
      ∀ recovered ∈ (recoveredStrings retry m triesPerByte n).1,
        recovered.length ≤ kSecretLength := by
  induction n with
  | zero => exact ⟨rfl, fun _ hmem => absurd hmem List.not_mem_nil⟩
  | succ n ih =>
      obtain ⟨hlength, hshort⟩ := ih
      have hread := readStringImpl_length retry (recoveredStrings retry m triesPerByte n).2
        (BitVec.ofNat _ kArchitecturalArraySize) (BitVec.ofNat _ kSecretLength) triesPerByte
      have hsecret : (BitVec.ofNat abi.sizeBits kSecretLength).toNat = kSecretLength :=
        SizeT.toNat_ofNat (by decide)
      rw [hsecret] at hread
      refine ⟨List.length_append.trans (congrArg (· + 1) hlength), ?_⟩
      intro recovered hmem
      rcases List.mem_append.1 hmem with hmem | hmem
      · exact hshort recovered hmem
      · rw [List.mem_singleton.1 hmem]
        exact hread

/-- The lab reports on the strings that its runs read, and leaves the process as the last one of
them does. -/
theorem runReliabilityLab_eq (retry : Retry abi) (m : Machine abi) {runs triesPerByte : Int}
    (hruns : 0 < runs) (htries : 0 < triesPerByte) :
    runReliabilityLab retry m runs triesPerByte =
      (labReport abi runs triesPerByte (recoveredStrings retry m triesPerByte runs.toNat).1,
        (recoveredStrings retry m triesPerByte runs.toNat).2) := by
  have hloop : ∀ n : Nat,
      (List.range n).foldl (fun st _ => labRun retry triesPerByte st)
        (SpectreLabResult.start abi runs triesPerByte, m) =
          (labReport abi runs triesPerByte (recoveredStrings retry m triesPerByte n).1,
            (recoveredStrings retry m triesPerByte n).2) := by
    intro n
    induction n with
    | zero => rfl
    | succ n ih =>
        rw [List.range_succ, List.foldl_append, ih, List.foldl_cons, List.foldl_nil]
        unfold labRun
        dsimp only
        rw [(counted_labReport runs triesPerByte _).secretLength]
        exact Prod.ext (labReport_concat runs triesPerByte _ _).symm rfl
  unfold runReliabilityLab
  dsimp only
  rw [if_neg (by omega)]
  exact hloop runs.toNat

/-! ## Consistency -/

/-- The counters of `runs` runs agree with the recovered strings and with one another. -/
structure Consistent (runs : Int) (strings : List (List UInt8)) (lab : SpectreLabResult abi) :
    Prop where
  perByteSum : lab.perByteCorrectRuns.sum = lab.correctBytes.toNat
  correct_le : lab.correctBytes.toNat ≤ lab.totalBytes.toNat
  total : (lab.totalBytes.toNat : Int) = runs * lab.secretLength
  exact : lab.exactMatches =
    (strings.countP fun recovered => ∀ i < kSecretLength, byteCorrect recovered i = true : Nat)
  perByteLength : lab.perByteCorrectRuns.length = lab.secretLength
  perByte : ∀ count ∈ lab.perByteCorrectRuns, lab.exactMatches ≤ count ∧ count ≤ runs
  stable : ∀ i, i ∈ stableBytes lab ↔
    i < lab.secretLength ∧ ∀ recovered ∈ strings, byteCorrect recovered i = true

section Consistency

variable {runs : Int} {strings : List (List UInt8)} {lab : SpectreLabResult abi}
  (h : Counted runs strings lab) (hruns : 0 < runs) (hcount : strings.length = runs.toNat)

include h

theorem Counted.totalBytes_toNat :
    lab.totalBytes.toNat = kSecretLength * runs.toNat % 2 ^ abi.sizeBits := by
  rw [h.totalBytes, BitVec.toNat_mul, BitVec.toNat_ofNat, BitVec.toNat_ofNat, ← Nat.mul_mod]
  congr 2
  omega

/-- The total of a consistent result has not wrapped. -/
theorem Counted.fits (hconsistent : Consistent runs strings lab) :
    kSecretLength * runs.toNat < 2 ^ abi.sizeBits := by
  have htotal := hconsistent.total
  rw [h.totalBytes_toNat, h.secretLength] at htotal
  have hlt : kSecretLength * runs.toNat % 2 ^ abi.sizeBits < 2 ^ abi.sizeBits :=
    Nat.mod_lt _ (Nat.two_pow_pos _)
  have heq : kSecretLength * runs.toNat % 2 ^ abi.sizeBits = kSecretLength * runs.toNat := by
    have hnonneg : 0 ≤ runs := by
      have hpos : (0 : Int) < kSecretLength := by decide
      have hsize : (0 : Int) ≤ (kSecretLength * runs.toNat % 2 ^ abi.sizeBits : Nat) :=
        Int.natCast_nonneg _
      rw [htotal] at hsize
      exact nonneg_of_mul_nonneg_left hsize hpos
    have hcast : ((kSecretLength * runs.toNat : Nat) : Int) = runs * kSecretLength := by
      rw [Nat.cast_mul, Int.toNat_of_nonneg hnonneg, mul_comm]
    rw [← hcast] at htotal
    exact_mod_cast htotal
  rwa [heq] at hlt

include hruns hcount

theorem Counted.perByte_eq : lab.perByteCorrectRuns = columnCounts strings := by
  apply h.perByte
  rintro rfl
  rw [List.length_nil] at hcount
  omega

/-- A byte is listed as stable if it was right in every run. -/
theorem Counted.mem_stableBytes (i : Nat) :
    i ∈ stableBytes lab ↔
      i < kSecretLength ∧ ∀ recovered ∈ strings, byteCorrect recovered i = true := by
  have hall : ((correctRuns strings i : Nat) : Int) = runs ↔
      ∀ recovered ∈ strings, byteCorrect recovered i = true := by
    unfold correctRuns
    rw [← List.countP_eq_length, hcount]
    omega
  unfold stableBytes
  rw [List.mem_filter, List.mem_range, h.perByte_eq hruns hcount, h.runs_eq, beq_iff_eq]
  have hlength : (columnCounts strings).length = kSecretLength := by simp [columnCounts]
  rw [hlength]
  refine and_congr_right fun hi => ?_
  have hget : (columnCounts strings).getD i 0 = (correctRuns strings i : Int) := by
    rw [List.getD_eq_getElem?_getD]
    simp only [columnCounts, List.getElem?_map, List.getElem?_range hi, Option.map_some,
      Option.getD_some]
  rw [hget, hall]

theorem Counted.consistent (hshort : ∀ recovered ∈ strings, recovered.length ≤ kSecretLength)
    (hfits : kSecretLength * runs.toNat < 2 ^ abi.sizeBits) : Consistent runs strings lab := by
  have htotal : lab.totalBytes.toNat = kSecretLength * runs.toNat := by
    rw [h.totalBytes_toNat, Nat.mod_eq_of_lt hfits]
  have hentries : correctOf strings ≤ kSecretLength * runs.toNat := by
    rw [← hcount]
    exact correctOf_le strings
  have hcorrect : lab.correctBytes.toNat = correctOf strings := by
    rw [h.correctBytes, BitVec.toNat_ofNat, Nat.mod_eq_of_lt (hentries.trans_lt hfits)]
  have hcolumns := h.perByte_eq hruns hcount
  constructor
  case perByteSum =>
    rw [hcorrect, ← sum_correctRuns, hcolumns, Nat.cast_list_sum, List.map_map]
    rfl
  case correct_le => rw [hcorrect, htotal]; exact hentries
  case total =>
    rw [htotal, h.secretLength, Nat.cast_mul, Int.toNat_of_nonneg hruns.le, mul_comm]
  case exact =>
    rw [h.exactMatches]
    congr 1
    apply List.countP_congr
    intro recovered hmem
    rw [decide_eq_true_eq, decide_eq_true_eq]
    exact eq_reference_iff (hshort recovered hmem)
  case perByteLength => rw [hcolumns, h.secretLength]; simp [columnCounts]
  case perByte =>
    intro count hmem
    rw [hcolumns] at hmem
    rcases List.mem_map.1 hmem with ⟨i, hi, rfl⟩
    have hrow := exact_le_correctRuns strings (List.mem_range.1 hi)
    have hle := correctRuns_le strings i
    rw [h.exactMatches]
    omega
  case stable =>
    rw [h.secretLength]
    exact h.mem_stableBytes hruns hcount

end Consistency

end Counters

end Spectre
end LatencyAnalyzer
