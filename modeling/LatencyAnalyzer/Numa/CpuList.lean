import Mathlib.Data.Finset.Sort
import LatencyAnalyzer.Cxx.Text
import LatencyAnalyzer.Lib.Items
import LatencyAnalyzer.Lib.Runs

/-!
# CpuList — the kernel's CPU lists and the parser of `numa_support.cpp`

The parser walks over the text with two indices, as the source does.  What the kernel prints for a
set of CPUs is a definition of its own, and the parser reads it back.
-/

namespace LatencyAnalyzer
namespace Numa

open Cxx
open Lib

/-! ## `parse_cpu_list` -/

/-- Why `parse_cpu_list` gives up. -/
inductive Stop
  /-- `return {}`. -/
  | rejected
  /-- `++cpu` beyond `INT_MAX`, which the language leaves undefined. -/
  | overflow
  deriving DecidableEq, Repr

/-- `for (int cpu = first; cpu <= last; ++cpu)`, with the number of values that are left. -/
def pushRange : Nat → Int → List Int → Except Stop (List Int)
  | 0, _, cpus => .ok cpus
  | n + 1, cpu, cpus =>
      -- The increment after the last value is made as well, and `INT_MAX` has no successor.
      if cpu = intMax then .error .overflow else pushRange n (cpu + 1) (cpus ++ [cpu])

/-- The body of the `try` block. -/
def pushToken (token : Text) (cpus : List Int) : Except Stop (List Int) :=
  match token.find '-' 0 with
  | none =>
      match token.stoi with
      | some cpu => .ok (cpus ++ [cpu])
      | none => .error .rejected
  -- The first dash splits the token, so a leading minus sign leaves nothing before it.
  | some dash =>
      match (token.substr 0 dash).stoi, (token.substrFrom (dash + 1)).stoi with
      | some first, some last =>
          if first > last then .error .rejected
          else pushRange (last + 1 - first).toNat first cpus
      | _, _ => .error .rejected

/-- The loop over the items, from the index `start` on. -/
def parseFrom (text : Text) (start : Nat) (cpus : List Int) : Except Stop (List Int) :=
  if start < text.length then
    let stop := (text.find ',' start).getD text.length
    -- An empty item rejects the whole text, a trailing comma does not.
    if stop = start then .error .rejected
    else
      match pushToken (text.substr start (stop - start)) cpus with
      | .error reason => .error reason
      | .ok cpus' =>
          match hcomma : text.find ',' start with
          | none => .ok cpus'
          | some comma => parseFrom text (comma + 1) cpus'
  else
    .ok cpus
termination_by text.length - start
decreasing_by
  have hge := Text.find_ge hcomma
  omega

/-- `parse_cpu_list`, with `none` for an overflow of its loop counter. -/
def parseCpuList (text : Text) : Option (List Int) :=
  match parseFrom text 0 [] with
  | .ok cpus => some cpus
  | .error .rejected => some []
  | .error .overflow => none

/-! ## The loop is a fold over the items -/

/-- The loop, on the items of a text. -/
def pushItems (list : List Text) (cpus : List Int) : Except Stop (List Int) :=
  list.foldlM (fun cpus item => pushToken item cpus) cpus

theorem pushItems_cons (item : Text) (list : List Text) (cpus : List Int) :
    pushItems (item :: list) cpus = (pushToken item cpus).bind (pushItems list) := by
  unfold pushItems
  rw [List.foldlM_cons]
  rfl

theorem pushItems_singleton (item : Text) (cpus : List Int) :
    pushItems [item] cpus = pushToken item cpus := by
  rw [pushItems_cons]
  cases pushToken item cpus <;> rfl

theorem lt_length_of_drop {text item : Text} {start : Nat} (htext : text.drop start = item)
    (hne : item ≠ []) : start < text.length := by
  have hlength : text.length - start = item.length := by
    rw [← htext, List.length_drop]
  have hpos : 0 < item.length := List.length_pos_of_ne_nil hne
  omega

/-- The last item of a text. -/
theorem parseFrom_last {text item : Text} {start : Nat} (htext : text.drop start = item)
    (hne : item ≠ []) (hcomma : ',' ∉ item) (cpus : List Int) :
    parseFrom text start cpus = pushToken item cpus := by
  have hlt := lt_length_of_drop htext hne
  have hfind := Text.find_of_absent htext hcomma
  have hlength : text.length - start = item.length := by
    rw [← htext, List.length_drop]
  rw [parseFrom]
  simp only [hlt, if_true, hfind, Option.getD_none, Nat.ne_of_gt hlt, if_false, Text.substr,
    htext, hlength, List.take_length]
  cases pushToken item cpus with
  | error reason => simp
  | ok cpus' =>
      dsimp only
      split
      · rfl
      · rename_i comma heq
        simp [hfind] at heq

/-- An item that a comma follows. -/
theorem parseFrom_step {text item rest : Text} {start : Nat}
    (htext : text.drop start = item ++ ',' :: rest) (hne : item ≠ []) (hcomma : ',' ∉ item)
    (cpus : List Int) :
    parseFrom text start cpus =
      (pushToken item cpus).bind (parseFrom text (start + item.length + 1)) := by
  have hlt := lt_length_of_drop htext (by simp)
  have hfind := Text.find_of_drop htext hcomma
  have hpos : 0 < item.length := List.length_pos_of_ne_nil hne
  have hstop : start + item.length ≠ start := by omega
  have hcount : start + item.length - start = item.length := by omega
  rw [parseFrom]
  simp only [hlt, if_true, hfind, Option.getD_some, hstop, if_false, hcount, Text.substr, htext,
    List.take_left]
  cases pushToken item cpus with
  | error reason => rfl
  | ok cpus' =>
      dsimp only [Except.bind]
      split
      · rename_i heq
        simp [hfind] at heq
      · rename_i comma heq
        have hcomma' : start + item.length = comma := by simpa [hfind] using heq
        rw [← hcomma']

/-- A comma right away. -/
theorem parseFrom_comma {text rest : Text} {start : Nat} (htext : text.drop start = ',' :: rest)
    (cpus : List Int) : parseFrom text start cpus = .error .rejected := by
  have hlt := lt_length_of_drop htext (by simp)
  have hempty : text.drop start = [] ++ ',' :: rest := htext
  have hfind : text.find ',' start = some (start + 0) :=
    Text.find_of_drop hempty List.not_mem_nil
  rw [parseFrom]
  simp only [hlt, if_true, hfind, Option.getD_some, Nat.add_zero]

theorem parseFrom_end {text : Text} {start : Nat} (htext : text.drop start = [])
    (cpus : List Int) : parseFrom text start cpus = .ok cpus := by
  have hge : ¬ start < text.length := not_lt.2 (List.drop_eq_nil_iff.1 htext)
  rw [parseFrom, if_neg hge]

theorem parseFrom_eq {tail text : Text} {start : Nat} (htext : text.drop start = tail)
    (cpus : List Int) : parseFrom text start cpus = pushItems (items ',' tail) cpus := by
  induction tail using items_induction ',' generalizing start cpus with
  | nil =>
      rw [parseFrom_end htext, items_nil]
      rfl
  | last item hne habsent =>
      rw [parseFrom_last htext hne habsent, items_of_absent hne habsent, pushItems_singleton]
  | step item rest habsent ih =>
      rw [items_append_cons habsent, pushItems_cons]
      -- The loop tests for an empty item, on which `std::stoi` would throw as well.
      by_cases hne : item = []
      · subst hne
        rw [parseFrom_comma htext]
        rfl
      · have hrest : text.drop (start + item.length + 1) = rest := by
          rw [Nat.add_assoc, ← List.drop_drop, htext, List.drop_append]
          simp
        rw [parseFrom_step htext hne habsent]
        congr 1
        funext cpus'
        exact ih hrest cpus'

/-! ## What the kernel prints -/

/-- One run of CPUs: a single number, or the first and the last one. -/
def cpuItem (run : Nat × Nat) : Text :=
  if run.1 = run.2 then Text.decimal run.1
  else Text.decimal run.1 ++ '-' :: Text.decimal run.2

/-- The kernel's list format for a set of CPUs: the maximal runs, in ascending order. -/
def formatCpuList (cpus : Finset Nat) : Text :=
  List.intercalate [','] ((runs (cpus.sort (· ≤ ·))).map cpuItem)

/-! ## Reading it back -/

theorem not_mem_decimal {n : Nat} {c : Char} (h : c.isDigit = false) : c ∉ Text.decimal n := by
  intro hc
  rw [Text.isDigit_of_mem_decimal hc] at h
  cases h

theorem pushRange_of_le (n : Nat) (first : Int) (cpus : List Int) (h : first + n ≤ intMax) :
    pushRange n first cpus = .ok (cpus ++ (List.range n).map fun i : Nat => first + i) := by
  induction n generalizing first cpus with
  | zero => simp [pushRange]
  | succ n ih =>
      have hne : first ≠ intMax := by omega
      have hnext : first + 1 + n ≤ intMax := by
        push_cast at h
        omega
      have hshift : (fun i : Nat => first + 1 + i) =
          (fun i : Nat => first + i) ∘ Nat.succ := by
        funext i
        simp only [Function.comp_apply]
        push_cast
        omega
      rw [pushRange, if_neg hne, ih (first + 1) (cpus ++ [first]) hnext, List.range_succ_eq_map,
        List.map_cons, List.map_map, hshift]
      simp

/-- An item of the kernel's format gives exactly the CPUs of its run. -/
theorem pushToken_cpuItem {run : Nat × Nat} (hordered : run.1 ≤ run.2)
    (hlast : (run.2 : Int) < intMax) (cpus : List Int) :
    pushToken (cpuItem run) cpus = .ok (cpus ++ (span run).map Int.ofNat) := by
  rcases run with ⟨first, last⟩
  have hdash : ∀ n, '-' ∉ Text.decimal n := fun n => not_mem_decimal rfl
  -- A run of one CPU is printed without a dash.
  by_cases heq : first = last
  · subst heq
    have hfind : (Text.decimal first).find '-' 0 = none :=
      Text.find_of_absent rfl (hdash first)
    simp [pushToken, cpuItem, hfind, Text.stoi_decimal (Int.le_of_lt hlast)]
  · have hfind : (Text.decimal first ++ '-' :: Text.decimal last).find '-' 0 =
        some (0 + (Text.decimal first).length) := Text.find_of_drop rfl (hdash first)
    have hfirst := Text.stoi_decimal (n := first) (by omega)
    have hlast' := Text.stoi_decimal (n := last) (by omega)
    have hcount : ((last : Int) + 1 - first).toNat = last + 1 - first := by omega
    have hpush := pushRange_of_le (last + 1 - first) first cpus (by omega)
    have hspan : (span (first, last)).map Int.ofNat =
        (List.range (last + 1 - first)).map fun i : Nat => (first : Int) + i := by
      rw [span, List.range'_eq_map_range, List.map_map]
      rfl
    have hle : ¬ last < first := not_lt.2 hordered
    simp only [cpuItem, heq, if_false, pushToken, hfind, Nat.zero_add, hspan]
    simp [Text.substr, Text.substrFrom, hfirst, hlast', hle, hcount, hpush]

theorem cpuItem_ne_nil (run : Nat × Nat) : cpuItem run ≠ [] := by
  unfold cpuItem
  split
  · exact Text.decimal_ne_nil _
  · simp

theorem comma_not_mem_cpuItem (run : Nat × Nat) : ',' ∉ cpuItem run := by
  have hdigits : ∀ n, ',' ∉ Text.decimal n := fun n => not_mem_decimal rfl
  unfold cpuItem
  split
  · exact hdigits _
  · simp [hdigits]

theorem items_formatCpuList (cpus : Finset Nat) :
    items ',' (formatCpuList cpus) = (runs (cpus.sort (· ≤ ·))).map cpuItem := by
  apply items_intercalate
  intro item hitem
  rcases List.mem_map.1 hitem with ⟨run, _, rfl⟩
  exact ⟨cpuItem_ne_nil run, comma_not_mem_cpuItem run⟩

theorem pushItems_runs {rs : List (Nat × Nat)}
    (hruns : ∀ run ∈ rs, run.1 ≤ run.2 ∧ (run.2 : Int) < intMax) (cpus : List Int) :
    pushItems (rs.map cpuItem) cpus = .ok (cpus ++ (rs.flatMap span).map Int.ofNat) := by
  induction rs generalizing cpus with
  | nil =>
      rw [List.flatMap_nil, List.map_nil, List.map_nil, List.append_nil]
      rfl
  | cons run rest ih =>
      rcases hruns run List.mem_cons_self with ⟨hordered, hlast⟩
      have hrest := ih fun r hr => hruns r (List.mem_cons_of_mem run hr)
      rw [List.map_cons, pushItems_cons, pushToken_cpuItem hordered hlast]
      simp [Except.bind, hrest]

/-- What the kernel prints for a set of CPUs is read back as the set, in ascending order. -/
theorem parseCpuList_format {cpus : Finset Nat} (h : ∀ cpu ∈ cpus, (cpu : Int) < intMax) :
    parseCpuList (formatCpuList cpus) = some ((cpus.sort (· ≤ ·)).map Int.ofNat) := by
  have hruns : ∀ run ∈ runs (cpus.sort (· ≤ ·)), run.1 ≤ run.2 ∧ (run.2 : Int) < intMax := by
    intro run hrun
    have hmem := (ends_mem_of_mem_runs hrun).2
    exact ⟨runs_ordered _ run hrun, h _ ((Finset.mem_sort _).1 hmem)⟩
  have hparse := parseFrom_eq (List.drop_zero (l := formatCpuList cpus)) []
  rw [items_formatCpuList, pushItems_runs hruns, flatMap_span_runs] at hparse
  simp [parseCpuList, hparse]

end Numa
end LatencyAnalyzer
