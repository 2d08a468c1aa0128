import LatencyAnalyzer.CommandLine.Benchmarks
import LatencyAnalyzer.Lib.Registers

/-!
# Permutations — the options of a command line in another order

Each option but `--help` has one variable of `main`, and no two have the same.  The loop writes the
variables one after the other, and the checks behind it look at what they hold in the end.
-/

namespace LatencyAnalyzer
namespace CommandLine

open Cxx
open Lib

variable {abi : Abi}

/-! ## The variable of an option -/

/-- What a variable holds. -/
inductive Slot (abi : Abi)
  | flag (b : Bool)
  | int (value : Int)
  | size (value : SizeT abi)
  | file (path : Text)

/-- The variable that belongs to an option.  There is none for `--help`. -/
def Settings.get (s : Settings abi) : OptionName → Slot abi
  | .help => .flag false
  | .spectre => .flag s.runSpectre
  | .quiet => .flag s.quiet
  | .verbose => .flag s.verbose
  | .noBandwidth => .flag s.runBandwidth
  | .noSharedMemory => .flag s.runSharedMemory
  | .rounds => .int s.rounds
  | .iterations => .int s.iterations
  | .warmup => .int s.warmup
  | .shmIterations => .int s.shmIterations
  | .numaNode => .int s.numaNode
  | .numaMatrix => .flag s.runNumaMatrixMode
  | .bufferMib => .size s.bufferSize
  | .bandwidthMib => .size s.bandwidthSize
  | .spectreLab => .flag s.runSpectreLab
  | .labRuns => .int s.spectreLabRuns
  | .phase5Lab => .flag s.runPhase5Lab
  | .phase5Runs => .int s.phase5Runs
  | .cpuCapability => .flag s.runCpuCapability
  | .computeSeconds => .int s.computeSeconds
  | .evaluationLab => .flag s.runEvaluationLab
  | .evaluationRuns => .int s.evaluationRuns
  | .traceSamples => .int s.traceSamples
  | .traceAverage => .int s.traceAverage
  | .evaluationReport => .file s.evaluationReport
  | .operationalLab => .flag s.runOperationalLab
  | .operationalRuns => .int s.operationalRuns
  | .operationalReport => .file s.operationalReport
  | .spectreTries => .int s.spectreTries
  | .csv => .file s.csvFile

/-- The options cover all variables. -/
theorem Settings.ext_get {s s' : Settings abi} (h : ∀ name, s.get name = s'.get name) :
    s = s' := by
  cases s
  cases s'
  have hspectre := h .spectre
  have hquiet := h .quiet
  have hverbose := h .verbose
  have hnoBandwidth := h .noBandwidth
  have hnoSharedMemory := h .noSharedMemory
  have hrounds := h .rounds
  have hiterations := h .iterations
  have hwarmup := h .warmup
  have hshmIterations := h .shmIterations
  have hnumaNode := h .numaNode
  have hnumaMatrix := h .numaMatrix
  have hbufferMib := h .bufferMib
  have hbandwidthMib := h .bandwidthMib
  have hspectreLab := h .spectreLab
  have hlabRuns := h .labRuns
  have hphase5Lab := h .phase5Lab
  have hphase5Runs := h .phase5Runs
  have hcpuCapability := h .cpuCapability
  have hcomputeSeconds := h .computeSeconds
  have hevaluationLab := h .evaluationLab
  have hevaluationRuns := h .evaluationRuns
  have htraceSamples := h .traceSamples
  have htraceAverage := h .traceAverage
  have hevaluationReport := h .evaluationReport
  have hoperationalLab := h .operationalLab
  have hoperationalRuns := h .operationalRuns
  have hoperationalReport := h .operationalReport
  have hspectreTries := h .spectreTries
  have hcsv := h .csv
  simp only [get, Slot.flag.injEq, Slot.int.injEq, Slot.size.injEq, Slot.file.injEq] at *
  simp only [*]

/-- The write goes to the variable of the option, with a value that does not depend on the
settings. -/
def WritesOnly (name : OptionName) (set : Settings abi → Settings abi) : Prop :=
  ∀ s other, (set s).get other = if other = name then (set {}).get name else s.get other

theorem writesOnly_flag {name : OptionName} {set : Settings abi → Settings abi}
    (h : name.kind = .flag set) : WritesOnly name set := by
  cases name <;> cases h <;> intro s other <;> cases other <;> rfl

theorem writesOnly_int {name : OptionName} {set : Int → Settings abi → Settings abi}
    {accepts : Int → Bool} (h : name.kind = .int set accepts) (value : Int) :
    WritesOnly name (set value) := by
  cases name <;> cases h <;> intro s other <;> cases other <;> rfl

theorem writesOnly_sizeMib {name : OptionName} {set : SizeT abi → Settings abi → Settings abi}
    (h : name.kind = .sizeMib set) (value : SizeT abi) : WritesOnly name (set value) := by
  cases name <;> cases h <;> intro s other <;> cases other <;> rfl

theorem writesOnly_file {name : OptionName} {set : Text → Settings abi → Settings abi}
    (h : name.kind = .file set) (path : Text) : WritesOnly name (set path) := by
  cases name <;> cases h <;> intro s other <;> cases other <;> rfl

/-! ## Groups -/

/-- An option with the value that it takes, if it takes one.  The value may be any text. -/
structure Group (abi : Abi) where
  name : OptionName
  value : Option Text
  name_ne : name ≠ .help
  shape : value.isSome = (@OptionName.kind abi name).takesValue

namespace Group

/-- The arguments of the group. -/
def args (g : Group abi) : List Text :=
  g.name.arg :: g.value.toList

/-- The option does not refuse its value. -/
def Accepted (g : Group abi) : Prop :=
  ∀ text, g.value = some text → checkedAtOption abi g.name text

/-- What the group does to the variables. -/
def apply (g : Group abi) (s : Settings abi) : Settings abi :=
  match g.name.kind, g.value with
  | .flag set, _ => set s
  | .int set _, some text => (parseInt text).elim s fun value => set value s
  | .sizeMib set, some text => (parseInt text).elim s fun value => set (mibToBytes abi value) s
  | .file set, some text => set text s
  | _, _ => s

/-- The group is a flag, or a value that is assigned. -/
theorem apply_cases {g : Group abi} (h : g.Accepted) :
    (g.value = none ∧ ∃ set, g.name.kind = .flag set ∧ ∀ s, g.apply s = set s) ∨
      ∃ text, g.value = some text ∧ (@OptionName.kind abi g.name).takesValue = true ∧
        ∀ s, g.name.kind.Assigns text s (g.apply s) := by
  rcases g with ⟨name, value, hname, hshape⟩
  unfold apply
  cases value with
  | none =>
      refine Or.inl ⟨rfl, ?_⟩
      cases hkind : (@OptionName.kind abi name) with
      | help => exact absurd (eq_help_of_kind hkind) hname
      | flag set => exact ⟨set, rfl, fun s => rfl⟩
      | int set accepts =>
          rw [hkind] at hshape
          cases hshape
      | sizeMib set =>
          rw [hkind] at hshape
          cases hshape
      | file set =>
          rw [hkind] at hshape
          cases hshape
  | some text =>
      refine Or.inr ⟨text, rfl, hshape.symm, ?_⟩
      have hvalid : (@OptionName.kind abi name).Valid text := h text rfl
      cases hkind : (@OptionName.kind abi name) with
      | help =>
          rw [hkind] at hvalid
          exact hvalid.elim
      | flag set =>
          rw [hkind] at hvalid
          exact hvalid.elim
      | int set accepts =>
          rw [hkind] at hvalid
          rcases hvalid with ⟨value, htext, haccepts⟩
          intro s
          simp only [parseInt_eq_some_iff.2 htext, Option.elim_some]
          exact .int htext haccepts
      | sizeMib set =>
          rw [hkind] at hvalid
          rcases hvalid with ⟨value, htext, hpos⟩
          intro s
          simp only [parseInt_eq_some_iff.2 htext, Option.elim_some]
          exact .sizeMib htext hpos
      | file set =>
          intro s
          exact .file

/-- A group writes the variable of its option and no other one. -/
theorem writesOnly {g : Group abi} (h : g.Accepted) : WritesOnly g.name g.apply := by
  rcases apply_cases h with ⟨_, set, hkind, happly⟩ | ⟨text, hvalue, _, _⟩
  · rw [funext happly]
    exact writesOnly_flag hkind
  · have hvalid := h text hvalue
    unfold checkedAtOption at hvalid
    cases hkind : (@OptionName.kind abi g.name) with
    | help =>
        rw [hkind] at hvalid
        exact hvalid.elim
    | flag set =>
        rw [hkind] at hvalid
        exact hvalid.elim
    | int set accepts =>
        rw [hkind] at hvalid
        rcases hvalid with ⟨value, htext, _⟩
        have happly : g.apply = set value := by
          funext s
          simp only [apply, hkind, hvalue, parseInt_eq_some_iff.2 htext, Option.elim_some]
        rw [happly]
        exact writesOnly_int hkind value
    | sizeMib set =>
        rw [hkind] at hvalid
        rcases hvalid with ⟨value, htext, _⟩
        have happly : g.apply = set (mibToBytes abi value) := by
          funext s
          simp only [apply, hkind, hvalue, parseInt_eq_some_iff.2 htext, Option.elim_some]
        rw [happly]
        exact writesOnly_sizeMib hkind _
    | file set =>
        have happly : g.apply = set text := by
          funext s
          simp only [apply, hkind, hvalue]
        rw [happly]
        exact writesOnly_file hkind text

end Group

/-- The variables of `main` as registers that the groups write. -/
def optionRegisters (abi : Abi) : Registers (Settings abi) OptionName (Slot abi) (Group abi) :=
  { get := Settings.get
    ext := fun _ _ h => Settings.ext_get h
    key := Group.name
    value := fun g => (g.apply {}).get g.name
    write := Group.apply
    good := Group.Accepted
    get_write := fun _ h s k => Group.writesOnly h s k }

/-! ## Command lines of groups -/

/-- The command line of a program with these options. -/
def commandLine (program : Text) (groups : List (Group abi)) : List Text :=
  program :: groups.flatMap Group.args

theorem parses_groups {groups : List (Group abi)} (h : ∀ g ∈ groups, g.Accepted)
    (s : Settings abi) :
    Parses (groups.flatMap Group.args) s ((optionRegisters abi).run groups s) := by
  induction groups generalizing s with
  | nil => exact .nil
  | cons g groups ih =>
      have hrest := ih (fun x hx => h x (List.mem_cons_of_mem g hx)) (g.apply s)
      rcases Group.apply_cases (h g List.mem_cons_self) with
        ⟨hvalue, set, hkind, happly⟩ | ⟨text, hvalue, _, hassigns⟩
      · rw [List.flatMap_cons, Group.args, hvalue]
        rw [happly s] at hrest
        have hrun : (optionRegisters abi).run (g :: groups) s =
            (optionRegisters abi).run groups (set s) := by
          rw [← happly s]
          rfl
        rw [hrun]
        exact .flag hkind hrest
      · rw [List.flatMap_cons, Group.args, hvalue]
        exact .value (hassigns s) hrest

/-- The first group that is refused is an error. -/
theorem errorIn_groups {groups : List (Group abi)} (h : ∃ g ∈ groups, ¬ g.Accepted) :
    ErrorIn abi (checkedAtOption abi) (groups.flatMap Group.args) := by
  induction groups with
  | nil =>
      rcases h with ⟨g, hg, _⟩
      cases hg
  | cons g groups ih =>
      by_cases hg : g.Accepted
      · have hrest : ∃ x ∈ groups, ¬ x.Accepted := by
          rcases h with ⟨x, hx, hnot⟩
          rcases List.mem_cons.1 hx with rfl | hx
          · exact absurd hg hnot
          · exact ⟨x, hx, hnot⟩
        rcases Group.apply_cases hg with ⟨hvalue, set, hkind, _⟩ | ⟨text, hvalue, htakes, _⟩
        · rw [List.flatMap_cons, Group.args, hvalue]
          exact .afterFlag hkind (ih hrest)
        · rw [List.flatMap_cons, Group.args, hvalue]
          exact .afterValue htakes (ih hrest)
      · unfold Group.Accepted at hg
        rw [not_forall] at hg
        rcases hg with ⟨text, hg⟩
        rw [Classical.not_imp] at hg
        rcases hg with ⟨hvalue, hinvalid⟩
        have htakes : (@OptionName.kind abi g.name).takesValue = true := by
          rw [← g.shape, hvalue]
          rfl
        rw [List.flatMap_cons, Group.args, hvalue]
        exact .invalid htakes hinvalid

/-- Both command lines are rejected, with whatever message, or both give the same settings. -/
inductive Outcome.Agree : Outcome abi → Outcome abi → Prop
  | rejected (message message' : Text) : Agree (.rejected message) (.rejected message')
  | parsed (s : Settings abi) : Agree (.parsed s) (.parsed s)

/-- `main` comes to the same end with both command lines: it rejects both with status 2, or it goes
on with the same variables. -/
def SameOutcome (abi : Abi) (argv argv' : List Text) : Prop :=
  (configure abi argv).Agree (configure abi argv') ∧
    ∀ env, (main env argv : MainResult abi) = main env argv'

theorem sameOutcome_of_agree {argv argv' : List Text}
    (h : (configure abi argv).Agree (configure abi argv')) : SameOutcome abi argv argv' := by
  refine ⟨h, fun env => ?_⟩
  unfold main
  generalize configure abi argv = outcome at h
  generalize configure abi argv' = outcome' at h
  cases h with
  | rejected message message' => rfl
  | parsed s => rfl

theorem configure_of_accepted {groups : List (Group abi)} (program : Text)
    (h : ∀ g ∈ groups, g.Accepted) :
    optionLoop (commandLine program groups) 1 ({} : Settings abi) =
      .parsed ((optionRegisters abi).run groups {}) :=
  optionLoop_of_parses (parses_groups h {}) rfl

theorem accepted_or_refused (groups : List (Group abi)) :
    (∀ g ∈ groups, g.Accepted) ∨ ∃ g ∈ groups, ¬ g.Accepted := by
  by_cases h : ∃ g ∈ groups, ¬ g.Accepted
  · exact Or.inr h
  · refine Or.inl fun g hg => ?_
    by_contra hrefused
    exact h ⟨g, hg, hrefused⟩

theorem configure_of_refused {groups : List (Group abi)} (program : Text)
    (h : ∃ g ∈ groups, ¬ g.Accepted) :
    ∃ message, configure abi (commandLine program groups) = .rejected message := by
  have hdrop : (commandLine program groups).drop 1 = groups.flatMap Group.args := rfl
  rcases optionLoop_of_errorIn (errorIn_groups h) {} hdrop with ⟨message, hloop⟩
  exact ⟨message, by rw [configure, hloop]⟩

/-- The checks behind the loop make the same of the same variables. -/
theorem agree_of_run {groups groups' : List (Group abi)} (program : Text)
    (hgroups : ∀ g ∈ groups, g.Accepted) (hgroups' : ∀ g ∈ groups', g.Accepted)
    (hrun : (optionRegisters abi).run groups {} = (optionRegisters abi).run groups' {}) :
    (configure abi (commandLine program groups)).Agree
      (configure abi (commandLine program groups')) := by
  unfold configure
  rw [configure_of_accepted program hgroups, configure_of_accepted program hgroups', hrun]
  dsimp only
  split
  · exact .rejected _ _
  · split
    · exact .rejected _ _
    · exact .parsed _

theorem agree_of_refused {groups groups' : List (Group abi)} (program : Text)
    (hgroups : ∃ g ∈ groups, ¬ g.Accepted) (hgroups' : ∃ g ∈ groups', ¬ g.Accepted) :
    (configure abi (commandLine program groups)).Agree
      (configure abi (commandLine program groups')) := by
  rcases configure_of_refused program hgroups with ⟨message, houtcome⟩
  rcases configure_of_refused program hgroups' with ⟨message', houtcome'⟩
  rw [houtcome, houtcome']
  exact .rejected _ _

theorem agree_of_perm {groups groups' : List (Group abi)} (program : Text)
    (hperm : groups.Perm groups') (hdistinct : (groups.map Group.name).Nodup) :
    (configure abi (commandLine program groups)).Agree
      (configure abi (commandLine program groups')) := by
  rcases accepted_or_refused groups with hall | ⟨g, hg, hrefused⟩
  · refine agree_of_run program hall (fun g hg => hall g (hperm.mem_iff.2 hg)) ?_
    exact Registers.run_perm (r := optionRegisters abi) hperm hall hdistinct {}
  · exact agree_of_refused program ⟨g, hg, hrefused⟩ ⟨g, hperm.mem_iff.1 hg, hrefused⟩

theorem agree_of_keepLast {groups : List (Group abi)} (program : Text) {name : OptionName}
    (hvalid : ∀ g ∈ groups, g.name = name → g.Accepted) :
    (configure abi (commandLine program groups)).Agree
      (configure abi (commandLine program (keepLast Group.name name groups))) := by
  rcases accepted_or_refused groups with hall | ⟨g, hg, hrefused⟩
  · refine agree_of_run program hall (fun g hg => hall g (mem_of_mem_keepLast hg)) ?_
    exact (Registers.run_keepLast (r := optionRegisters abi) name hall {}).symm
  · -- The group that is refused belongs to another option, and it is kept.
    have hne : g.name ≠ name := fun heq => hrefused (hvalid g hg heq)
    exact agree_of_refused program ⟨g, hg, hrefused⟩ ⟨g, mem_keepLast_of_ne hne hg, hrefused⟩

/-- Different options can be given in any order, and of an option with valid values only the last
one counts. -/
theorem option_order_irrelevant (abi : Abi) (program : Text) :
    (∀ groups groups' : List (Group abi), groups.Perm groups' → (groups.map Group.name).Nodup →
      SameOutcome abi (commandLine program groups) (commandLine program groups')) ∧
    (∀ (groups : List (Group abi)) (name : OptionName),
      (∀ g ∈ groups, g.name = name → g.Accepted) →
      SameOutcome abi (commandLine program groups)
        (commandLine program (keepLast Group.name name groups))) :=
  ⟨fun _ _ hperm hdistinct => sameOutcome_of_agree (agree_of_perm program hperm hdistinct),
    fun _ _ hvalid => sameOutcome_of_agree (agree_of_keepLast program hvalid)⟩

def quietGroup : Group .i386 :=
  { name := .quiet, value := none, name_ne := by decide, shape := rfl }

/-- A file name that looks like an option. -/
def csvGroup (path : Text) : Group .i386 :=
  { name := .csv, value := some path, name_ne := by decide, shape := rfl }

theorem option_order_irrelevant_two (program : Text) :
    SameOutcome .i386 (commandLine program [csvGroup "--help".toList, quietGroup])
        (commandLine program [quietGroup, csvGroup "--help".toList]) ∧
      SameOutcome .i386
        (commandLine program [csvGroup "a.csv".toList, quietGroup, csvGroup "--csv".toList])
        (commandLine program [quietGroup, csvGroup "--csv".toList]) := by
  constructor
  · exact (option_order_irrelevant .i386 program).1 _ _ (List.Perm.swap _ _ _) (by decide)
  · refine (option_order_irrelevant .i386 program).2
      [csvGroup "a.csv".toList, quietGroup, csvGroup "--csv".toList] .csv ?_
    intro g hg hname text _
    unfold checkedAtOption
    rw [hname]
    trivial

end CommandLine
end LatencyAnalyzer
