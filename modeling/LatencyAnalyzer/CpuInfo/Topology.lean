import Mathlib.Data.Finset.Card
import LatencyAnalyzer.CpuInfo.CpuList
import LatencyAnalyzer.Cxx.Extract

/-!
# Topology — packages, cores and hyper-threads in `cpu_info.cpp`

A CPU belongs to the core that its files name, a package and a number within it.  The online CPUs
are counted by `sysconf` and listed in a file, and the cores are the distinct pairs of the listed
ones.
-/

namespace LatencyAnalyzer
namespace CpuInfo

open Cxx

/-! ## `read_int_file` and `cpu_topology_pair` -/

/-- The result of `read_int_file`, and the value of its argument afterwards.  The file is `none`
when it cannot be opened. -/
def readIntFile (file : Option Text) (value : Int) : Bool × Int :=
  match file with
  | none => (false, value)
  | some text =>
      match text.extractInt with
      | .exhausted => (false, value)
      | .failed stored => (false, stored)
      | .ok read _ => (true, read)

def packagePath (cpu : Int) : Text :=
  "/sys/devices/system/cpu/cpu".toList ++ Text.integer cpu ++
    "/topology/physical_package_id".toList

def corePath (cpu : Int) : Text :=
  "/sys/devices/system/cpu/cpu".toList ++ Text.integer cpu ++ "/topology/core_id".toList

/-- The results of `read_int_file` are dropped. -/
def cpuTopologyPair (files : Files) (cpu : Int) : Int × Int :=
  let packageId := (readIntFile (files (packagePath cpu)) 0).2
  let coreId := (readIntFile (files (corePath cpu)) cpu).2
  (packageId, coreId)

/-! ## `choose_distinct_cpu` -/

/-- `pairOf` is `cpu_topology_pair`. -/
def chooseDistinctCpu (pairOf : Int → Int × Int) (primaryCpu : Int) (allowedCpus : List Int) :
    Int :=
  match allowedCpus with
  | [] | [_] => primaryCpu
  | first :: second :: rest =>
      let other := (first :: second :: rest).find? fun cpu =>
        cpu ≠ primaryCpu ∧ pairOf cpu ≠ pairOf primaryCpu
      -- `allowed_cpus[1]`, whichever CPU that is.
      other.getD second

/-! ## `topology` -/

structure CpuTopologyInfo where
  logicalCpus : Int
  physicalCores : Int
  packages : Int
  smtCapable : Bool
  smtActive : Bool
  deriving DecidableEq, Repr

/-- What `topology` asks the machine for. -/
structure Host where
  /-- `sysconf(_SC_NPROCESSORS_ONLN)`. -/
  online : Int
  /-- The C library counts the processors in an `int`. -/
  online_inInt : InInt online
  /-- `edx` of the first leaf of `cpuid`, with `none` when there is no such leaf. -/
  edx : Option (BitVec 32)
  files : Files

/-- The bit of `cpuid` for hyper-threading. -/
def Host.smtCapable (host : Host) : Bool :=
  match host.edx with
  | none => false
  | some edx => edx &&& (1#32 <<< 28) != 0

def onlinePath : Text :=
  "/sys/devices/system/cpu/online".toList

/-- The list of the online CPUs, which is empty when the file cannot be opened, with `none` for an
overflow in `parse_cpu_list`. -/
def onlineCpus (host : Host) : Option (List Int) :=
  match host.files onlinePath with
  | none => some []
  | some content => parseCpuList (content.takeWhile (· != '\n'))

/-- The sets `cores` and `packages` of the loop over the list. -/
def collect (pairOf : Int → Int × Int) (cpus : List Int) : Finset (Int × Int) × Finset Int :=
  cpus.foldl (fun (cores, packages) cpu =>
    (insert (pairOf cpu) cores, insert (pairOf cpu).1 packages)) (∅, ∅)

def topology (pairOf : Int → Int × Int) (host : Host) : Option CpuTopologyInfo :=
  let logicalCpus := if 0 < host.online then wrapInt host.online else 1
  (onlineCpus host).map fun cpus =>
    let (cores, packages) := collect pairOf cpus
    let physicalCores := if cores ≠ ∅ then wrapInt cores.card else logicalCpus
    { logicalCpus := logicalCpus
      physicalCores := physicalCores
      packages := if cores ≠ ∅ then wrapInt packages.card else 1
      smtCapable := host.smtCapable
      smtActive := logicalCpus > physicalCores }

/-- The topology as the files of the machine give it. -/
def Host.topology (host : Host) : Option CpuTopologyInfo :=
  CpuInfo.topology (cpuTopologyPair host.files) host

/-! ## What a file is read for -/

/-- A failing read of the file leaves this value as it is: there is no file, it is blank, there is
a number that an `int` holds, or the value is the one that the failure stores. -/
def Keeps (file : Option Text) (value : Int) : Prop :=
  match file with
  | none => True
  | some text =>
      text.IsBlank ∨
        match text.strtol with
        | none => value = 0
        | some n => InInt n ∨ (n < intMin ∧ value = intMin) ∨ (intMax < n ∧ value = intMax)

/-- The number that can be read from a file. -/
def intOf (file : Option Text) : Option Int :=
  file.bind Text.stoi

/-- Whether a read succeeds, and what it leaves in its argument then and otherwise. -/
theorem readIntFile_spec (file : Option Text) (value : Int) :
    (readIntFile file value).1 = (intOf file).isSome ∧
      ((readIntFile file value).2 = (intOf file).getD value ↔ Keeps file value) := by
  cases file with
  | none => simp [readIntFile, intOf, Keeps]
  | some text =>
      rcases text.extractInt_cases with
        ⟨hblank, hread⟩ | ⟨hblank, hstrtol, hread⟩ | ⟨n, hblank, hstrtol, hlow, hread⟩ |
          ⟨n, hblank, hstrtol, hhigh, hread⟩ | ⟨n, rest, hblank, hstrtol, hint, hread⟩
      · have hstrtol := Text.strtol_of_isBlank hblank
        simp [readIntFile, intOf, Keeps, Text.stoi, hread, hstrtol, hblank]
      · simp [readIntFile, intOf, Keeps, Text.stoi, hread, hstrtol, hblank, eq_comm]
      · have hnot : ¬ InInt n := fun h => absurd h.1 (not_le.2 hlow)
        have hhigh : ¬ intMax < n := not_lt.2 (le_trans hlow.le (by decide))
        simp [readIntFile, intOf, Keeps, Text.stoi, hread, hstrtol, hblank, hnot, hlow, hhigh,
          eq_comm]
      · have hnot : ¬ InInt n := fun h => absurd h.2 (not_le.2 hhigh)
        have hlow : ¬ n < intMin := not_lt.2 (le_trans (by decide) hhigh.le)
        simp [readIntFile, intOf, Keeps, Text.stoi, hread, hstrtol, hblank, hnot, hlow, hhigh,
          eq_comm]
      · simp [readIntFile, intOf, Keeps, Text.stoi, hread, hstrtol, hint]

/-- A number that is read is no fallback. -/
theorem keeps_of_intOf {file : Option Text} {n : Int} (h : intOf file = some n) (value : Int) :
    Keeps file value := by
  cases file with
  | none => cases h
  | some text =>
      have hstoi : text.stoi = some n := h
      unfold Text.stoi at hstoi
      split at hstoi
      · cases hstoi
      · rename_i v hstrtol
        split at hstoi
        · rename_i hint
          simp [Keeps, hstrtol, hint]
        · cases hstoi

theorem readIntFile_failing_iff (file : Option Text) (value : Int) :
    ((readIntFile file value).1 = false → (readIntFile file value).2 = value) ↔
      Keeps file value := by
  rcases readIntFile_spec file value with ⟨hsucceeds, hkeeps⟩
  cases hint : intOf file with
  | none =>
      rw [hint] at hsucceeds hkeeps
      rw [← hkeeps]
      exact ⟨fun h => h hsucceeds, fun h _ => h⟩
  | some n =>
      rw [hint] at hsucceeds
      refine ⟨fun _ => keeps_of_intOf hint value, fun _ hfail => ?_⟩
      rw [hsucceeds] at hfail
      cases hfail

/-- A failing read keeps the fallback exactly where the failure stores nothing else, and so does
the pair of a CPU.  The pairs of two CPUs that keep their numbers as cores are different. -/
theorem topology_fallback_iff (files : Files) :
    (∀ (path : Text) (value : Int),
      ((readIntFile (files path) value).1 = false → (readIntFile (files path) value).2 = value) ↔
        Keeps (files path) value) ∧
    (∀ cpu : Int,
      cpuTopologyPair files cpu =
          ((intOf (files (packagePath cpu))).getD 0, (intOf (files (corePath cpu))).getD cpu) ↔
        Keeps (files (packagePath cpu)) 0 ∧ Keeps (files (corePath cpu)) cpu) ∧
    (∀ a b : Int, a ≠ b →
      intOf (files (corePath a)) = none → intOf (files (corePath b)) = none →
      Keeps (files (corePath a)) a → Keeps (files (corePath b)) b →
      cpuTopologyPair files a ≠ cpuTopologyPair files b) := by
  refine ⟨fun path value => readIntFile_failing_iff (files path) value, ?_, ?_⟩
  · intro cpu
    rw [← (readIntFile_spec (files (packagePath cpu)) 0).2,
      ← (readIntFile_spec (files (corePath cpu)) cpu).2]
    exact Prod.ext_iff
  · intro a b hne hnoneA hnoneB hkeepsA hkeepsB heq
    have hcore := congrArg Prod.snd heq
    have hcoreA := (readIntFile_spec (files (corePath a)) a).2.2 hkeepsA
    have hcoreB := (readIntFile_spec (files (corePath b)) b).2.2 hkeepsB
    rw [hnoneA] at hcoreA
    rw [hnoneB] at hcoreB
    refine hne ?_
    calc
      a = (readIntFile (files (corePath a)) a).2 := hcoreA.symm
      _ = (readIntFile (files (corePath b)) b).2 := hcore
      _ = b := hcoreB

/-- Without any file, each CPU is a core of its own. -/
theorem topology_fallback_missing :
    cpuTopologyPair (fun _ => none) 1 ≠ cpuTopologyPair (fun _ => none) 2 :=
  (topology_fallback_iff fun _ => none).2.2 1 2 (by decide) rfl rfl trivial trivial

/-- Two CPUs with core files that hold no number. -/
def garbledFiles : Files := fun path =>
  if path = corePath 1 ∨ path = corePath 2 then some "n/a\n".toList else some "0\n".toList

theorem garbled_cores_merged :
    intOf (garbledFiles (corePath 1)) = none ∧ intOf (garbledFiles (corePath 2)) = none ∧
      cpuTopologyPair garbledFiles 1 = (0, 0) ∧ cpuTopologyPair garbledFiles 2 = (0, 0) := by
  decide +kernel

/-! ## The other CPU -/

/-- A CPU of the list that is not the primary one, and on another core if there is one there. -/
def IsDistinct (pairOf : Int → Int × Int) (primaryCpu : Int) (allowedCpus : List Int)
    (cpu : Int) : Prop :=
  cpu ∈ allowedCpus ∧ cpu ≠ primaryCpu ∧
    ((∃ other ∈ allowedCpus, pairOf other ≠ pairOf primaryCpu) → pairOf cpu ≠ pairOf primaryCpu)

/-- Without another core in the list, the second CPU is taken, and it may be the primary one. -/
theorem chooseDistinctCpu_distinct_iff {pairOf : Int → Int × Int} {primaryCpu : Int}
    {allowedCpus : List Int} (hlength : 2 ≤ allowedCpus.length) (hnodup : allowedCpus.Nodup)
    (hprimary : primaryCpu ∈ allowedCpus) :
    IsDistinct pairOf primaryCpu allowedCpus (chooseDistinctCpu pairOf primaryCpu allowedCpus) ↔
      (∃ other ∈ allowedCpus, pairOf other ≠ pairOf primaryCpu) ∨
        allowedCpus[1]? ≠ some primaryCpu := by
  match allowedCpus, hlength with
  | first :: second :: rest, _ =>
      cases hfind : (first :: second :: rest).find? fun cpu =>
        decide (cpu ≠ primaryCpu ∧ pairOf cpu ≠ pairOf primaryCpu) with
      | some cpu =>
          have hresult : chooseDistinctCpu pairOf primaryCpu (first :: second :: rest) = cpu := by
            simp only [chooseDistinctCpu, hfind, Option.getD_some]
          have hmem := List.mem_of_find?_eq_some hfind
          have hother : cpu ≠ primaryCpu ∧ pairOf cpu ≠ pairOf primaryCpu := by
            simpa using List.find?_some hfind
          rw [hresult]
          exact ⟨fun _ => Or.inl ⟨cpu, hmem, hother.2⟩,
            fun _ => ⟨hmem, hother.1, fun _ => hother.2⟩⟩
      | none =>
          have hresult : chooseDistinctCpu pairOf primaryCpu (first :: second :: rest) =
              second := by
            simp only [chooseDistinctCpu, hfind, Option.getD_none]
          -- A CPU of another core is not the primary one, so the search would have found it.
          have hnone : ¬ ∃ other ∈ first :: second :: rest, pairOf other ≠ pairOf primaryCpu := by
            rintro ⟨other, hmem, hpair⟩
            have hne : other ≠ primaryCpu := fun heq => hpair (by rw [heq])
            have hskip := List.find?_eq_none.1 hfind other hmem
            exact hskip (decide_eq_true ⟨hne, hpair⟩)
          have hsecond : (first :: second :: rest)[1]? = some second := rfl
          rw [hresult, hsecond]
          constructor
          · rintro ⟨_, hne, _⟩
            exact Or.inr fun heq => hne (Option.some.inj heq)
          · rintro (hother | hne)
            · exact absurd hother hnone
            · exact ⟨by simp, fun heq => hne (congrArg some heq), fun h => absurd h hnone⟩

theorem chooseDistinctCpu_distinct_front :
    IsDistinct (fun _ => (0, 0)) 0 [0, 1] (chooseDistinctCpu (fun _ => (0, 0)) 0 [0, 1]) :=
  (chooseDistinctCpu_distinct_iff (by decide) (by decide) (by decide)).2 (Or.inr (by decide))

/-- Two hyper-threads of one core, and the second one is the primary CPU. -/
theorem chooseDistinctCpu_primary : chooseDistinctCpu (fun _ => (0, 0)) 1 [0, 1] = 1 := by
  decide

/-! ## The cores of the online CPUs -/

theorem foldl_insert (pairOf : Int → Int × Int) (cpus : List Int) :
    ∀ (cores : Finset (Int × Int)) (packages : Finset Int),
      cpus.foldl (fun (cores, packages) cpu =>
          (insert (pairOf cpu) cores, insert (pairOf cpu).1 packages)) (cores, packages) =
        (cores ∪ cpus.toFinset.image pairOf,
          packages ∪ cpus.toFinset.image fun cpu => (pairOf cpu).1) := by
  induction cpus with
  | nil => simp
  | cons cpu cpus ih =>
      intro cores packages
      rw [List.foldl_cons, ih]
      simp [Finset.image_insert, Finset.insert_union, Finset.union_insert]

theorem collect_eq (pairOf : Int → Int × Int) (cpus : List Int) :
    collect pairOf cpus =
      (cpus.toFinset.image pairOf, cpus.toFinset.image fun cpu => (pairOf cpu).1) := by
  unfold collect
  rw [foldl_insert, Finset.empty_union, Finset.empty_union]

/-- Two CPUs of the list share a core. -/
def SharesCore (pairOf : Int → Int × Int) (cpus : List Int) : Prop :=
  ∃ a ∈ cpus, ∃ b ∈ cpus, a ≠ b ∧ pairOf a = pairOf b

/-- There are fewer cores than CPUs if and only if two of them share one. -/
theorem card_cores_lt_iff (pairOf : Int → Int × Int) {cpus : List Int} (h : cpus.Nodup) :
    (cpus.toFinset.image pairOf).card < cpus.length ↔ SharesCore pairOf cpus := by
  rw [← List.toFinset_card_of_nodup h]
  constructor
  · intro hlt
    rcases Finset.exists_ne_map_eq_of_card_image_lt hlt with ⟨a, ha, b, hb, hne, heq⟩
    exact ⟨a, List.mem_toFinset.1 ha, b, List.mem_toFinset.1 hb, hne, heq⟩
  · rintro ⟨a, ha, b, hb, hne, heq⟩
    refine lt_of_le_of_ne Finset.card_image_le fun hcard => hne ?_
    exact Finset.injOn_of_card_image_eq hcard (List.mem_toFinset.2 ha) (List.mem_toFinset.2 hb) heq

/-- A package is the package of a core. -/
theorem card_packages_le (pairOf : Int → Int × Int) (cpus : List Int) :
    (cpus.toFinset.image fun cpu => (pairOf cpu).1).card ≤ (cpus.toFinset.image pairOf).card := by
  have hpackages : (cpus.toFinset.image fun cpu => (pairOf cpu).1) =
      (cpus.toFinset.image pairOf).image Prod.fst := by
    rw [Finset.image_image]
    rfl
  rw [hpackages]
  exact Finset.card_image_le

theorem card_cores_le (pairOf : Int → Int × Int) (cpus : List Int) :
    (cpus.toFinset.image pairOf).card ≤ cpus.length :=
  Finset.card_image_le.trans (List.toFinset_card_le cpus)

/-- The counts of a list that is not empty and as long as the number of CPUs that are online. -/
theorem topology_of_read {pairOf : Int → Int × Int} {host : Host} {cpus : List Int}
    (hread : onlineCpus host = some cpus) (hne : cpus ≠ [])
    (hcount : (cpus.length : Int) = host.online) :
    topology pairOf host = some
      { logicalCpus := cpus.length
        physicalCores := (cpus.toFinset.image pairOf).card
        packages := (cpus.toFinset.image fun cpu => (pairOf cpu).1).card
        smtCapable := host.smtCapable
        smtActive := (cpus.toFinset.image pairOf).card < cpus.length } := by
  have hpos : 0 < host.online := by
    rw [← hcount]
    exact_mod_cast List.length_pos_iff.2 hne
  have hmax : (cpus.length : Int) ≤ intMax := by
    rw [hcount]
    exact host.online_inInt.2
  have hcores : cpus.toFinset.image pairOf ≠ ∅ := by
    rw [Ne, Finset.image_eq_empty, List.toFinset_eq_empty_iff]
    exact hne
  -- None of the counts is above the length, so no conversion to `int` changes one.
  have hwrap : ∀ n : Nat, n ≤ cpus.length → wrapInt n = n := fun n hn =>
    wrapInt_of_inInt (inInt_of_nonneg_le (by omega) (by omega))
  have hcoresLe := card_cores_le pairOf cpus
  have hpackagesLe := card_packages_le pairOf cpus
  have hlogical : (if 0 < host.online then wrapInt host.online else 1) = cpus.length := by
    rw [if_pos hpos, ← hcount, hwrap _ le_rfl]
  simp only [topology, hread, Option.map_some, collect_eq, hlogical, ne_eq, hcores,
    not_false_eq_true, if_true, hwrap _ hcoresLe, hwrap _ (hpackagesLe.trans hcoresLe),
    gt_iff_lt, Nat.cast_lt]

/-- What is reported of a machine with these CPUs online. -/
structure CpuTopologyInfo.Exact (info : CpuTopologyInfo) (pairOf : Int → Int × Int)
    (cpus : List Int) : Prop where
  packages_pos : 1 ≤ info.packages
  packages_le : info.packages ≤ info.physicalCores
  physicalCores_le : info.physicalCores ≤ info.logicalCpus
  logicalCpus : info.logicalCpus = cpus.length
  physicalCores : info.physicalCores = (cpus.toFinset.image pairOf).card
  smtActive : info.smtActive = true ↔ SharesCore pairOf cpus

theorem topology_exact {pairOf : Int → Int × Int} {host : Host} {cpus : List Int}
    (hread : onlineCpus host = some cpus) (hne : cpus ≠ []) (hnodup : cpus.Nodup)
    (hcount : (cpus.length : Int) = host.online) :
    ∃ info, topology pairOf host = some info ∧ info.Exact pairOf cpus := by
  refine ⟨_, topology_of_read hread hne hcount, ?_⟩
  have hpackagesPos : 0 < (cpus.toFinset.image fun cpu => (pairOf cpu).1).card := by
    rw [Finset.card_pos, Finset.image_nonempty, List.toFinset_nonempty_iff]
    exact hne
  exact
    { packages_pos := Nat.one_le_cast.2 hpackagesPos
      packages_le := Nat.cast_le.2 (card_packages_le pairOf cpus)
      physicalCores_le := Nat.cast_le.2 (card_cores_le pairOf cpus)
      logicalCpus := rfl
      physicalCores := rfl
      smtActive := by
        rw [← card_cores_lt_iff pairOf hnodup]
        exact decide_eq_true_iff }

/-- Two cores of two hyper-threads each. -/
def fourThreads : Host :=
  { online := 4
    online_inInt := by decide
    edx := none
    files := fun path =>
      if path = onlinePath then some "0-3\n".toList
      else if path = corePath 2 ∨ path = corePath 3 then some "1\n".toList
      else some "0\n".toList }

theorem topology_exact_four :
    ∃ info, fourThreads.topology = some info ∧
      info.Exact (cpuTopologyPair fourThreads.files) [0, 1, 2, 3] := by
  have hread : onlineCpus fourThreads = some [0, 1, 2, 3] := by
    have hfile : fourThreads.files onlinePath = some "0-3\n".toList := by simp [fourThreads]
    have hparse : parseCpuList ("0-3\n".toList.takeWhile (· != '\n')) = some [0, 1, 2, 3] := by
      rw [parseCpuList_eq]
      decide
    rw [onlineCpus, hfile]
    exact hparse
  exact topology_exact hread (by decide) (by decide) rfl

end CpuInfo
end LatencyAnalyzer
