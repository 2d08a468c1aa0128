import LatencyAnalyzer.CommandLine.Benchmarks

/-!
# Safety — no command line reaches a callee with numbers it refuses

The loop keeps an invariant on what no later check looks at, the joint check adds the rest, and
each mode passes on what the two of them leave.
-/

namespace LatencyAnalyzer
namespace CommandLine

open Cxx

/-! ## What the option loop guarantees -/

/-- The sizes and windows that no later check looks at. -/
structure Settings.Sound (s : Settings .x8664) : Prop where
  bandwidthSize : s.bandwidthSize ≠ 0
  traceAverage : s.traceAverage ≤ intMax

theorem sound_default : ({} : Settings .x8664).Sound where
  bandwidthSize := by decide
  traceAverage := by decide

/-- With 64 bits, the product of `consume_size_mib` does not wrap around. -/
theorem mibToBytes_ne_zero {value : Int} (hint : InInt value) (hpos : 0 < value) :
    mibToBytes .x8664 value ≠ 0 := by
  intro hzero
  have hmax : value ≤ 2147483647 := hint.2
  -- The value is below 2 ^ 31, so the product stays below 2 ^ 51.
  have hvalue : (mibToBytes .x8664 value).toNat = value.toNat * 1024 * 1024 := by
    have hn : value.toNat ≤ 2147483647 := by omega
    have hbits : 2 ^ Abi.x8664.sizeBits = 18446744073709551616 := rfl
    rw [mibToBytes, BitVec.toNat_mul, BitVec.toNat_mul, BitVec.toNat_ofNat, BitVec.toNat_ofNat,
      hbits]
    omega
  rw [hzero] at hvalue
  have hleft : (0 : SizeT .x8664).toNat = 0 := rfl
  omega

theorem Settings.Sound.flag {name : OptionName} {set : Settings .x8664 → Settings .x8664}
    {s : Settings .x8664} (h : s.Sound) (hkind : name.kind = .flag set) : (set s).Sound := by
  rcases h with ⟨hsize, hwindow⟩
  cases name <;> cases hkind <;> exact ⟨hsize, hwindow⟩

theorem Settings.Sound.int {name : OptionName} {set : Int → Settings .x8664 → Settings .x8664}
    {accepts : Int → Bool} {s : Settings .x8664} {value : Int} (h : s.Sound)
    (hkind : name.kind = .int set accepts) (hint : InInt value) : (set value s).Sound := by
  rcases h with ⟨hsize, hwindow⟩
  -- Only `--trace-average` assigns a variable that the invariant speaks of.
  cases name <;> cases hkind <;> first
    | exact ⟨hsize, hwindow⟩
    | exact ⟨hsize, hint.2⟩

theorem Settings.Sound.sizeMib {name : OptionName}
    {set : SizeT .x8664 → Settings .x8664 → Settings .x8664} {s : Settings .x8664}
    {size : SizeT .x8664} (h : s.Sound) (hkind : name.kind = .sizeMib set) (hsize : size ≠ 0) :
    (set size s).Sound := by
  rcases h with ⟨hbandwidth, hwindow⟩
  cases name <;> cases hkind
  · exact ⟨hbandwidth, hwindow⟩
  · exact ⟨hsize, hwindow⟩

theorem Settings.Sound.file {name : OptionName} {set : Text → Settings .x8664 → Settings .x8664}
    {s : Settings .x8664} {path : Text} (h : s.Sound) (hkind : name.kind = .file set) :
    (set path s).Sound := by
  rcases h with ⟨hsize, hwindow⟩
  cases name <;> cases hkind <;> exact ⟨hsize, hwindow⟩

theorem Settings.Sound.assigns {name : OptionName} {text : Text} {s s₁ : Settings .x8664}
    (h : s.Sound) (hassigns : name.kind.Assigns text s s₁) : s₁.Sound := by
  generalize hkind : (@OptionName.kind .x8664 name) = kind at hassigns
  cases hassigns with
  | int htext _ =>
      rcases htext with ⟨_, _, _, hint, _⟩
      exact h.int hkind hint
  | sizeMib htext hpos =>
      rcases htext with ⟨_, _, _, hint, _⟩
      exact h.sizeMib hkind (mibToBytes_ne_zero hint hpos)
  | file => exact h.file hkind

theorem sound_optionStep {argv : List Text} {i j : Nat} {s s' : Settings .x8664}
    (hstep : optionStep argv i s = .next j s') (h : s.Sound) : s'.Sound := by
  rcases optionStep_next hstep with ⟨name, hbranch⟩
  rcases optionBranch_cases argv i name s with
    hhelp | ⟨set, hkind, hflag⟩ | ⟨text, s₁, hassigns, hvalue⟩ | ⟨message, hmessage⟩
  · rw [hhelp] at hbranch
    cases hbranch
  · rw [hflag] at hbranch
    cases hbranch
    exact h.flag hkind
  · rw [hvalue] at hbranch
    cases hbranch
    exact h.assigns hassigns
  · rw [hmessage] at hbranch
    cases hbranch

/-! ## Every call is accepted -/

section Accepted

variable {s : Settings .x8664}

/-- What the joint check leaves. -/
structure Settings.Checked (s : Settings .x8664) : Prop extends s.Sound where
  rounds : 0 < s.rounds
  iterations : 0 < s.iterations
  warmup : 0 ≤ s.warmup
  shmIterations : s.runSharedMemory = true → 0 < s.shmIterations
  spectreTries : 0 < s.spectreTries
  spectreLabRuns : s.runSpectreLab = true → 0 < s.spectreLabRuns
  phase5Runs : s.runPhase5Lab = true → 0 < s.phase5Runs
  computeSeconds : s.runCpuCapability = true → 0 < s.computeSeconds
  evaluation : s.runEvaluationLab = true →
    0 < s.evaluationRuns ∧ 0 < s.traceSamples ∧ 0 < s.traceAverage
  operationalRuns : s.runOperationalLab = true → 0 < s.operationalRuns

theorem checked_of_configure {argv : List Text} (h : configure .x8664 argv = .parsed s) :
    s.Checked := by
  unfold configure at h
  split at h
  · rename_i s₀ hloop
    have hsound : s₀.Sound := optionLoop_invariant sound_optionStep sound_default hloop
    split at h
    · cases h
    split at h
    · cases h
    · rename_i hvalid
      cases h
      -- The failed joint check, one disjunct after the other.
      simp only [invalidNumericConfiguration, Bool.or_eq_true, Bool.and_eq_true,
        decide_eq_true_eq, not_or, not_and, not_le, not_lt] at hvalid
      rcases hvalid with
        ⟨⟨⟨⟨⟨⟨⟨⟨⟨hrounds, hiterations⟩, hwarmup⟩, hshm⟩, htries⟩, hlab⟩, hphase5⟩, hcompute⟩,
          hevaluation⟩, hoperational⟩
      exact
        { toSound := hsound
          rounds := hrounds
          iterations := hiterations
          warmup := hwarmup
          shmIterations := hshm
          spectreTries := htries
          spectreLabRuns := hlab
          phase5Runs := hphase5
          computeSeconds := hcompute
          evaluation := fun hrun =>
            ⟨(hevaluation hrun).1.1, (hevaluation hrun).1.2, (hevaluation hrun).2⟩
          operationalRuns := hoperational }
  · rename_i outcome hnot
    exact absurd h (hnot s)

theorem bandwidth_accepted (h : s.Checked) (method : String) (numaNode : Int) :
    BenchmarkCall.Accepted
      (.bandwidth s.bandwidthSize method Config.bandwidthRepeats numaNode) := by
  rintro (hsize | hrepeats)
  · exact h.bandwidthSize hsize
  · exact absurd hrepeats (by decide)

theorem half_iterations_pos (iterations : Int) : 0 < max 1 (iterations.tdiv 2) := by
  omega

theorem half_warmup_nonneg (h : s.Checked) : 0 ≤ s.warmup.tdiv 2 :=
  Int.tdiv_nonneg h.warmup (by omega)

theorem matrixCalls_accepted (h : s.Checked) (env : Environment) :
    ∀ call ∈ matrixCalls env s, call.Accepted := by
  intro call hcall
  rcases List.mem_flatMap.1 hcall with ⟨_, _, hrow⟩
  rcases List.mem_flatMap.1 hrow with ⟨node, _, hcell⟩
  simp only [List.mem_cons, List.not_mem_nil, or_false] at hcell
  rcases hcell with rfl | rfl
  · exact latency_accepted _ _ ⟨half_iterations_pos _, half_warmup_nonneg h, by omega⟩
  · exact bandwidth_accepted h "numa" node.id

theorem latencyCalls_accepted (h : s.Checked) : ∀ call ∈ latencyCalls s, call.Accepted := by
  intro call hcall
  rcases List.mem_map.1 hcall with ⟨inner, hinner, rfl⟩
  apply latency_accepted _ _
  simp only [List.mem_cons, List.not_mem_nil, or_false] at hinner
  rcases hinner with rfl | rfl | rfl | rfl
  · exact ⟨h.iterations, h.warmup, h.rounds⟩
  · exact ⟨h.iterations, h.warmup, h.rounds⟩
  · exact ⟨h.iterations, h.warmup, h.rounds⟩
  · exact ⟨half_iterations_pos _, half_warmup_nonneg h, h.rounds⟩

theorem bandwidthCalls_accepted (h : s.Checked) : ∀ call ∈ bandwidthCalls s, call.Accepted := by
  intro call hcall
  unfold bandwidthCalls at hcall
  split at hcall
  · split at hcall
    · rw [List.mem_singleton.1 hcall]
      exact bandwidth_accepted h "numa" s.numaNode
    · rcases List.mem_map.1 hcall with ⟨method, _, rfl⟩
      exact bandwidth_accepted h method (-1)
  · cases hcall

theorem sharedMemoryCalls_accepted (h : s.Checked) (env : Environment) (primaryCpu : Int) :
    ∀ call ∈ sharedMemoryCalls env primaryCpu s, call.Accepted := by
  intro call hcall
  unfold sharedMemoryCalls at hcall
  split at hcall
  · rename_i hruns
    rw [List.mem_singleton.1 hcall]
    have hrun : s.runSharedMemory = true := ((Bool.and_eq_true _ _).mp hruns).1
    exact crossProcess_accepted (h.shmIterations hrun) (by decide) _ _
  · cases hcall

theorem averagingWindow_ne_zero (h : s.Checked) (hpos : 0 < s.traceAverage) :
    (BitVec.ofNat _ s.traceAverage.toNat : SizeT .x8664) ≠ 0 := by
  intro hzero
  have hmax : s.traceAverage ≤ 2147483647 := h.traceAverage
  have hvalue : (BitVec.ofNat _ s.traceAverage.toNat : SizeT .x8664).toNat =
      s.traceAverage.toNat := SizeT.toNat_ofNat (by omega)
  rw [hzero] at hvalue
  have hleft : (0 : SizeT .x8664).toNat = 0 := rfl
  omega

theorem runModes_accepted (h : s.Checked) (env : Environment)
    {calls : List (BenchmarkCall .x8664)} (hruns : runModes env s = .runs calls) :
    ∀ call ∈ calls, call.Accepted := by
  unfold runModes at hruns
  -- The modes in the order of the source; each one passes numbers that the joint check has seen.
  split at hruns
  · split at hruns
    · cases hruns
      exact matrixCalls_accepted h env
    · cases hruns
  split at hruns
  · cases hruns
  split at hruns
  · rename_i hmode
    cases hruns
    intro call hcall
    rw [List.mem_singleton.1 hcall]
    exact not_le.2 (h.operationalRuns hmode)
  split at hruns
  · rename_i hmode
    cases hruns
    intro call hcall
    rw [List.mem_singleton.1 hcall]
    rcases h.evaluation hmode with ⟨hlabRuns, hsamples, haverage⟩
    rintro (hle | hle | hzero)
    · omega
    · omega
    · exact averagingWindow_ne_zero h haverage hzero
  split at hruns
  · rename_i hmode
    cases hruns
    intro call hcall
    rw [List.mem_singleton.1 hcall]
    exact h.computeSeconds hmode
  split at hruns
  · rename_i hmode
    cases hruns
    intro call hcall
    rw [List.mem_singleton.1 hcall]
    have hlabRuns := h.phase5Runs hmode
    have htries := h.spectreTries
    rintro (hle | hle) <;> omega
  split at hruns
  · rename_i hmode
    cases hruns
    intro call hcall
    rw [List.mem_singleton.1 hcall]
    have hlabRuns := h.spectreLabRuns hmode
    have htries := h.spectreTries
    rintro (hle | hle) <;> omega
  split at hruns
  · cases hruns
    intro call hcall
    rw [List.mem_singleton.1 hcall]
    exact not_le.2 h.spectreTries
  · split at hruns
    · cases hruns
    · cases hruns
      intro call hcall
      rcases List.mem_append.1 hcall with hcall | hcall
      · rcases List.mem_append.1 hcall with hcall | hcall
        · exact latencyCalls_accepted h call hcall
        · exact bandwidthCalls_accepted h call hcall
      · exact sharedMemoryCalls_accepted h env _ call hcall

end Accepted

/-! ## The command line as a whole -/

/-- The final values that `main` does not go on with. -/
def Settings.JointError {abi : Abi} (s : Settings abi) : Prop :=
  s.rounds ≤ 0 ∨ s.iterations ≤ 0 ∨ s.warmup < 0 ∨
    (s.runSharedMemory = true ∧ s.shmIterations ≤ 0) ∨
      (0 ≤ s.numaNode ∧ s.runNumaMatrixMode = true)

theorem main_of_errorIn {abi : Abi} (env : Environment) {argv : List Text}
    (h : ErrorIn abi (checkedAtOption abi) (argv.drop 1)) :
    (main env argv : MainResult abi) = .exits 2 := by
  have hrejected : ∃ message, optionLoop argv 1 ({} : Settings abi) = .rejected message :=
    optionLoop_of_errorIn h _ rfl
  rcases hrejected with ⟨message, hloop⟩
  simp only [main, configure, hloop]

theorem main_of_helpIn {abi : Abi} (env : Environment) {argv : List Text}
    (h : HelpIn abi (argv.drop 1)) : (main env argv : MainResult abi) = .exits 0 := by
  have hloop : optionLoop argv 1 ({} : Settings abi) = .help := optionLoop_of_helpIn h _ rfl
  simp only [main, configure, hloop]

theorem main_of_jointError {abi : Abi} (env : Environment) {argv : List Text} {s : Settings abi}
    (hparses : Parses (argv.drop 1) {} s) (h : s.JointError) :
    (main env argv : MainResult abi) = .exits 2 := by
  have hloop : optionLoop argv 1 ({} : Settings abi) = .parsed s :=
    optionLoop_of_parses hparses rfl
  unfold main configure
  rw [hloop]
  dsimp only
  -- The mutual exclusion is checked first and has a message of its own.
  by_cases hnode : (0 ≤ s.numaNode && s.runNumaMatrixMode) = true
  · rw [if_pos hnode]
  · have hnumbers : invalidNumericConfiguration s = true := by
      rcases h with h | h | h | ⟨hrun, h⟩ | hboth
      · simp [invalidNumericConfiguration, h]
      · simp [invalidNumericConfiguration, h]
      · simp [invalidNumericConfiguration, h]
      · simp [invalidNumericConfiguration, hrun, h]
      · exact absurd (by simpa using hboth) hnode
    rw [if_neg hnode, if_pos hnumbers]

/-- Every command line asks for help, ends in an error, or is worked off with the settings that
its groups assign. -/
theorem main_cases {abi : Abi} (env : Environment) (argv : List Text) :
    (HelpIn abi (argv.drop 1) ∧ (main env argv : MainResult abi) = .exits 0) ∨
      (main env argv : MainResult abi) = .exits 2 ∨
      ∃ s : Settings abi, Parses (argv.drop 1) {} s ∧ main env argv = runModes env s := by
  rcases command_line_cases abi (argv.drop 1) {} with ⟨s, hparses⟩ | herror | hhelp
  · have hloop : optionLoop argv 1 ({} : Settings abi) = .parsed s :=
      optionLoop_of_parses hparses rfl
    unfold main configure
    rw [hloop]
    dsimp only
    by_cases hnode : (0 ≤ s.numaNode && s.runNumaMatrixMode) = true
    · exact Or.inr (Or.inl (by rw [if_pos hnode]))
    · by_cases hnumbers : invalidNumericConfiguration s = true
      · exact Or.inr (Or.inl (by rw [if_neg hnode, if_pos hnumbers]))
      · exact Or.inr (Or.inr ⟨s, hparses, by rw [if_neg hnode, if_neg hnumbers]⟩)
  · exact Or.inr (Or.inl (main_of_errorIn env herror))
  · exact Or.inl ⟨hhelp, main_of_helpIn env hhelp⟩

theorem configure_in_bounds (abi : Abi) (argv : List Text) :
    configure abi argv ≠ .outOfBounds := by
  have hloop := optionLoop_in_bounds argv 1 ({} : Settings abi)
  unfold configure
  split
  · split
    · simp
    · split <;> simp
  · exact hloop

theorem runModes_in_bounds {abi : Abi} (env : Environment) (s : Settings abi) :
    runModes env s ≠ .outOfBounds := by
  unfold runModes
  repeat' split
  all_goals simp

theorem main_in_bounds {abi : Abi} (env : Environment) (argv : List Text) :
    (main env argv : MainResult abi) ≠ .outOfBounds := by
  unfold main
  split
  · simp
  · simp
  · rename_i hconfigure
    exact absurd hconfigure (configure_in_bounds abi argv)
  · exact runModes_in_bounds env _

/-- Every access to `argv` is below `argc`, every call gets numbers that its callee accepts, and
errors end `main` with status 2 before any benchmark. -/
theorem command_line_safe (env : Environment) (argv : List Text) :
    (main env argv : MainResult .x8664) ≠ .outOfBounds ∧
      (∀ calls : List (BenchmarkCall .x8664), main env argv = .runs calls →
        ∀ call ∈ calls, call.Accepted) ∧
      (ErrorIn .x8664 (checkedAtOption .x8664) (argv.drop 1) →
        (main env argv : MainResult .x8664) = .exits 2) ∧
      (∀ s : Settings .x8664, Parses (argv.drop 1) {} s → s.JointError →
        (main env argv : MainResult .x8664) = .exits 2) := by
  refine ⟨main_in_bounds env argv, ?_, main_of_errorIn env, fun s => main_of_jointError env⟩
  intro calls hruns
  unfold main at hruns
  split at hruns
  · cases hruns
  · cases hruns
  · cases hruns
  · rename_i s hconfigure
    exact runModes_accepted (checked_of_configure hconfigure) env hruns

/-! ## Ranges that are checked only at the end -/

/-- The numbers that make sense for an option. -/
def OptionName.InRange : OptionName → Int → Prop
  | .warmup, value | .numaNode, value => 0 ≤ value
  | _, value => 0 < value

/-- The argument is a value in the range of the option. -/
def inOptionRange (name : OptionName) (text : Text) : Prop :=
  match (@OptionName.kind .x8664 name) with
  | .int _ _ | .sizeMib _ => ∃ value, Text.IntText text value ∧ name.InRange value
  | .file _ => True
  | .help | .flag _ => False

theorem intText_zero : Text.IntText "0".toList 0 :=
  Text.fromChars_eq_ok_nil_iff.1 (by decide)

theorem value_of_intText_zero {value : Int} (h : Text.IntText "0".toList value) : value = 0 := by
  have hread := Text.fromChars_eq_ok_nil_iff.2 h
  rw [Text.fromChars_eq_ok_nil_iff.2 intText_zero] at hread
  injection hread with heq
  exact heq.symm

theorem rounds_zero_out_of_range : ¬ inOptionRange .rounds "0".toList := by
  rintro ⟨value, htext, hvalue⟩
  rw [value_of_intText_zero htext] at hvalue
  exact Int.lt_irrefl 0 hvalue

theorem shmIterations_zero_out_of_range : ¬ inOptionRange .shmIterations "0".toList := by
  rintro ⟨value, htext, hvalue⟩
  rw [value_of_intText_zero htext] at hvalue
  exact Int.lt_irrefl 0 hvalue

def twoCpus : Environment where
  numaAvailable := false
  nodes := []
  initiators := []
  allowedCpus := [0, 1]
  secondaryCpu := 1

def helpAfterZeroRounds : List Text :=
  ["latency_analyzer", "--rounds", "0", "--help"].map String.toList

def zeroShmIterations : List Text :=
  ["latency_analyzer", "--shm-iterations", "0", "--no-shared-memory"].map String.toList

/-- A value out of range is accepted while the final configuration is legal, or not looked at. -/
theorem range_not_checked_at_option :
    (ErrorIn .x8664 inOptionRange (helpAfterZeroRounds.drop 1) ∧
        (main twoCpus helpAfterZeroRounds : MainResult .x8664) = .exits 0) ∧
      (ErrorIn .x8664 inOptionRange (zeroShmIterations.drop 1) ∧
        ∃ calls, (main twoCpus zeroShmIterations : MainResult .x8664) = .runs calls) := by
  have hhelp : helpAfterZeroRounds.drop 1 =
      OptionName.arg .rounds :: "0".toList :: [OptionName.arg .help] := rfl
  have hshm : zeroShmIterations.drop 1 =
      OptionName.arg .shmIterations :: "0".toList :: [OptionName.arg .noSharedMemory] := rfl
  refine ⟨⟨?_, ?_⟩, ?_, ?_⟩
  · rw [hhelp]
    exact .invalid rfl rounds_zero_out_of_range
  -- The zero is assigned, and the help is reached before the joint check.
  · have hassigns : (@OptionName.kind .x8664 .rounds).Assigns "0".toList {} _ :=
      .int intText_zero rfl
    have hnext := optionStep_assigns hhelp hassigns
    have hrest : helpAfterZeroRounds.drop 3 = [OptionName.arg .help] := rfl
    have hloop := (optionLoop_next (by decide) hnext).trans
      (optionLoop_stop (by decide) (optionStep_of_drop hrest _))
    simp only [main, configure, hloop]
  · rw [hshm]
    exact .invalid rfl shmIterations_zero_out_of_range
  · have hassigns : (@OptionName.kind .x8664 .shmIterations).Assigns "0".toList {} _ :=
      .int intText_zero rfl
    have hparses : Parses (zeroShmIterations.drop 1) ({} : Settings .x8664)
        { shmIterations := 0, runSharedMemory := false } := by
      rw [hshm]
      exact .value hassigns (.flag rfl .nil)
    have hloop := optionLoop_of_parses hparses rfl
    exact ⟨_, by rw [main, configure, hloop]; rfl⟩

end CommandLine
end LatencyAnalyzer
