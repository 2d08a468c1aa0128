import LatencyAnalyzer.Cxx.Stream
import LatencyAnalyzer.Numa.CpuList

/-!
# CpuList — the parser of `cpu_info.cpp`, and that it is the one of `numa_support.cpp`

This parser takes its items from a string stream.  Both parsers go through the items between the
commas from the front, and both stop at the first item that is rejected or overflows the counter.
-/

namespace LatencyAnalyzer
namespace CpuInfo

open Cxx
open Lib
open Numa (Stop pushRange pushRange_of_le pushToken parseFrom_eq pushItems pushItems_cons
  formatCpuList)

/-! ## `parse_cpu_list` -/

/-- The body of the loop, which is that of the other parser. -/
def pushItem (item : Text) (cpus : List Int) : Except Stop (List Int) :=
  pushToken item cpus

/-- The loop over the lines of the stream. -/
def parseLines (ss : InStream) (cpus : List Int) : Except Stop (List Int) :=
  match _hline : ss.getline ',' with
  | none => .ok cpus
  | some (item, ss') =>
      match pushItem item cpus with
      | .error reason => .error reason
      | .ok cpus' => parseLines ss' cpus'
termination_by ss.size
decreasing_by exact InStream.size_getline_lt _hline

/-- `parse_cpu_list`, with `none` for an overflow of its loop counter. -/
def parseCpuList (text : Text) : Option (List Int) :=
  match parseLines (InStream.ofText text) [] with
  | .ok cpus => some cpus
  | .error .rejected => some []
  | .error .overflow => none

/-! ## The same fold over the items -/

theorem parseLines_of_none {ss : InStream} (h : ss.getline ',' = none) (cpus : List Int) :
    parseLines ss cpus = .ok cpus := by
  rw [parseLines]
  split
  · rfl
  · rename_i item ss' hline
    rw [h] at hline
    cases hline

theorem parseLines_of_some {ss ss' : InStream} {item : Text}
    (h : ss.getline ',' = some (item, ss')) (cpus : List Int) :
    parseLines ss cpus = (pushToken item cpus).bind (parseLines ss') := by
  rw [parseLines]
  split
  · rename_i hline
    rw [h] at hline
    cases hline
  · rename_i item' rest' hline
    rw [h] at hline
    cases hline
    unfold pushItem
    cases pushToken item cpus <;> rfl

theorem parseLines_eq (text : Text) (cpus : List Int) :
    parseLines (InStream.ofText text) cpus = pushItems (items ',' text) cpus := by
  induction text using items_induction ',' generalizing cpus with
  | nil =>
      rw [parseLines_of_none (InStream.getline_ofText_nil ','), items_nil]
      rfl
  | last item hne habsent =>
      rw [parseLines_of_some (InStream.getline_last hne habsent), items_of_absent hne habsent,
        pushItems_cons]
      congr 1
      funext cpus'
      exact parseLines_of_none (InStream.getline_of_eof ',' []) cpus'
  | step item rest habsent ih =>
      rw [parseLines_of_some (InStream.getline_item habsent rest), items_append_cons habsent,
        pushItems_cons]
      congr 1
      funext cpus'
      exact ih cpus'

/-- What both parsers return, in terms of the items. -/
def outcome (text : Text) : Option (List Int) :=
  match pushItems (items ',' text) [] with
  | .ok cpus => some cpus
  | .error .rejected => some []
  | .error .overflow => none

theorem parseCpuList_eq (text : Text) : parseCpuList text = outcome text := by
  unfold parseCpuList outcome
  rw [parseLines_eq]

theorem numa_parseCpuList_eq (text : Text) : Numa.parseCpuList text = outcome text := by
  have hparse := parseFrom_eq (List.drop_zero (l := text)) []
  unfold Numa.parseCpuList outcome
  cases hresult : pushItems (items ',' text) [] with
  | ok cpus => simp only [hparse, hresult]
  | error reason => cases reason <;> simp only [hparse, hresult]

/-! ## What an item stands for -/

/-- The first and the last CPU of an item, with `none` when `std::stoi` does not read it or the
bounds are in the wrong order. -/
def bounds (item : Text) : Option (Int × Int) :=
  match item.find '-' 0 with
  | none => item.stoi.map fun cpu => (cpu, cpu)
  | some dash =>
      match (item.substr 0 dash).stoi, (item.substrFrom (dash + 1)).stoi with
      | some first, some last => if first > last then none else some (first, last)
      | _, _ => none

theorem bounds_ordered {item : Text} {range : Int × Int} (h : bounds item = some range) :
    range.1 ≤ range.2 := by
  unfold bounds at h
  split at h
  · rcases Option.map_eq_some_iff.1 h with ⟨cpu, _, rfl⟩
    exact le_rfl
  · split at h
    · split at h
      · cases h
      · rename_i horder
        cases h
        exact not_lt.1 horder
    · cases h

/-- A range up to `INT_MAX`, whose loop makes one increment too many. -/
def Overflows (item : Text) : Prop :=
  item.find '-' 0 ≠ none ∧ ∃ first, bounds item = some (first, intMax)

/-- The CPUs from `first` to `last`. -/
def interval (first last : Int) : List Int :=
  (List.range (last + 1 - first).toNat).map fun i : Nat => first + i

theorem stoi_le_intMax {text : Text} {value : Int} (h : text.stoi = some value) :
    value ≤ intMax := by
  unfold Text.stoi at h
  split at h
  · cases h
  · split at h
    · rename_i hint
      cases h
      exact hint.2
    · cases h

theorem pushRange_of_lt (n : Nat) (first : Int) (cpus : List Int) (hfirst : first ≤ intMax)
    (h : intMax < first + n) : pushRange n first cpus = .error .overflow := by
  induction n generalizing first cpus with
  | zero =>
      push_cast at h
      omega
  | succ n ih =>
      rw [pushRange]
      split
      · rfl
      · rename_i hne
        push_cast at h
        exact ih (first + 1) (cpus ++ [first]) (by omega) (by omega)

/-- Why the parsers stop at an item. -/
def stopOf (item : Text) : Option Stop :=
  match bounds item with
  | none => some .rejected
  | some (_, last) =>
      if item.find '-' 0 ≠ none ∧ last = intMax then some .overflow else none

/-- The CPUs of an item. -/
def cpusOf (item : Text) : List Int :=
  match bounds item with
  | none => []
  | some (first, last) => interval first last

theorem stopOf_eq_rejected_iff (item : Text) :
    stopOf item = some .rejected ↔ bounds item = none := by
  unfold stopOf
  split
  · rename_i hnone
    simp [hnone]
  · rename_i first last hsome
    rw [hsome]
    split <;> simp

theorem stopOf_eq_overflow_iff (item : Text) :
    stopOf item = some .overflow ↔ Overflows item := by
  unfold stopOf Overflows
  split
  · rename_i hnone
    simp [hnone]
  · rename_i first last hsome
    rw [hsome]
    simp

theorem stopOf_eq_none_iff (item : Text) :
    stopOf item = none ↔ bounds item ≠ none ∧ ¬ Overflows item := by
  rw [ne_eq, ← stopOf_eq_rejected_iff, ← stopOf_eq_overflow_iff]
  cases stopOf item with
  | none => simp
  | some reason => cases reason <;> simp

/-- The body of both loops. -/
theorem pushToken_eq (item : Text) (cpus : List Int) :
    pushToken item cpus =
      match stopOf item with
      | some reason => .error reason
      | none => .ok (cpus ++ cpusOf item) := by
  unfold stopOf cpusOf bounds pushToken
  cases hdash : item.find '-' 0 with
  | none =>
      dsimp only
      cases item.stoi with
      | none => rfl
      | some cpu => simp [interval]
  | some dash =>
      dsimp only
      cases (item.substr 0 dash).stoi with
      | none => rfl
      | some first =>
          cases hlast : (item.substrFrom (dash + 1)).stoi with
          | none => rfl
          | some last =>
              have hmax := stoi_le_intMax hlast
              dsimp only
              by_cases horder : first > last
              · rw [if_pos horder, if_pos horder]
              · rw [if_neg horder, if_neg horder]
                dsimp only
                -- The counter leaves `int` if and only if the last value is the largest one.
                by_cases htop : last = intMax
                · rw [if_pos ⟨by simp, htop⟩]
                  exact pushRange_of_lt _ first cpus (by omega) (by omega)
                · rw [if_neg fun h => htop h.2]
                  exact pushRange_of_le _ first cpus (by omega)

/-- Both loops: they stop at the first item that they do not get through. -/
theorem pushItems_eq (list : List Text) (cpus : List Int) :
    pushItems list cpus =
      match list.findSome? stopOf with
      | some reason => .error reason
      | none => .ok (cpus ++ list.flatMap cpusOf) := by
  induction list generalizing cpus with
  | nil =>
      simp only [List.findSome?_nil, List.flatMap_nil, List.append_nil]
      rfl
  | cons item list ih =>
      rw [pushItems_cons, pushToken_eq, List.findSome?_cons]
      cases stopOf item with
      | some reason => rfl
      | none =>
          simp only [Except.bind, ih, List.flatMap_cons, List.append_assoc]

theorem outcome_eq (text : Text) :
    outcome text =
      match (items ',' text).findSome? stopOf with
      | none => some ((items ',' text).flatMap cpusOf)
      | some .rejected => some []
      | some .overflow => none := by
  unfold outcome
  rw [pushItems_eq]
  cases (items ',' text).findSome? stopOf with
  | none => rfl
  | some reason => cases reason <;> rfl

theorem outcome_eq_none_iff (text : Text) :
    outcome text = none ↔ (items ',' text).findSome? stopOf = some .overflow := by
  rw [outcome_eq]
  cases (items ',' text).findSome? stopOf with
  | none => simp
  | some reason => cases reason <;> simp

/-! ## Agreement and round trip -/

/-- The two parsers agree on every text.  They return a list unless a range ends in `INT_MAX`. -/
theorem cpu_list_parsers_agree (text : Text) :
    parseCpuList text = Numa.parseCpuList text ∧
      ((∀ item ∈ items ',' text, ¬ Overflows item) →
        ∃ cpus, parseCpuList text = some cpus ∧ Numa.parseCpuList text = some cpus) := by
  rw [parseCpuList_eq, numa_parseCpuList_eq]
  refine ⟨rfl, ?_⟩
  intro hfits
  cases houtcome : outcome text with
  | some cpus => exact ⟨cpus, rfl, rfl⟩
  | none =>
      rw [outcome_eq_none_iff] at houtcome
      rcases List.exists_of_findSome?_eq_some houtcome with ⟨item, hmem, hstop⟩
      exact absurd ((stopOf_eq_overflow_iff item).1 hstop) (hfits item hmem)

theorem cpu_list_parsers_agree_mixed :
    ∃ cpus, parseCpuList "0-3, 7,9-".toList = some cpus ∧
      Numa.parseCpuList "0-3, 7,9-".toList = some cpus := by
  have hstops : ∀ item ∈ items ',' "0-3, 7,9-".toList, stopOf item ≠ some .overflow := by decide
  exact (cpu_list_parsers_agree "0-3, 7,9-".toList).2 fun item hmem hover =>
    hstops item hmem ((stopOf_eq_overflow_iff item).2 hover)

/-- What the kernel prints for a set of CPUs is read back by both parsers as the set, in ascending
order. -/
theorem cpu_list_round_trip (cpus : Finset Nat) (h : ∀ cpu ∈ cpus, (cpu : Int) < intMax) :
    parseCpuList (formatCpuList cpus) = some ((cpus.sort (· ≤ ·)).map Int.ofNat) ∧
      Numa.parseCpuList (formatCpuList cpus) = some ((cpus.sort (· ≤ ·)).map Int.ofNat) := by
  have hnuma := Numa.parseCpuList_format h
  refine ⟨?_, hnuma⟩
  calc
    parseCpuList (formatCpuList cpus) = outcome (formatCpuList cpus) := parseCpuList_eq _
    _ = Numa.parseCpuList (formatCpuList cpus) := (numa_parseCpuList_eq _).symm
    _ = some ((cpus.sort (· ≤ ·)).map Int.ofNat) := hnuma

theorem cpu_list_round_trip_four :
    parseCpuList (formatCpuList {0, 1, 2, 5}) =
      some ((({0, 1, 2, 5} : Finset Nat).sort (· ≤ ·)).map Int.ofNat) :=
  (cpu_list_round_trip {0, 1, 2, 5} (by decide)).1

end CpuInfo
end LatencyAnalyzer
