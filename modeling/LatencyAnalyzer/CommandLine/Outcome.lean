import LatencyAnalyzer.Bandwidth.Release
import LatencyAnalyzer.CommandLine.Analysis
import LatencyAnalyzer.Report.Layout
import LatencyAnalyzer.SharedMemory.Exclusive

/-!
# Outcome — the exit status and the CSV file of an analysis

Once the numbers of the command line are legal, only the machine can make an analysis fail: each
stage has an exact condition, and a bandwidth measurement that throws is none of them.  The file
of an analysis that succeeds reads back as a table that is known before the run, up to what the
machine answers.
-/

namespace LatencyAnalyzer
namespace CommandLine

open Cxx Report
open Lib Lib.Csv

section Outcome

variable {abi : Abi}

/-! ## Exceptions of the stages -/

theorem estimate_isOk_iff (r : Timer.Round) :
    (Timer.estimate r).isOk = true ↔ r.nsStart ≠ none ∧ r.nsEnd ≠ none := by
  unfold Timer.estimate
  cases r.nsStart with
  | none => simp [Except.isOk, Except.toBool]
  | some nsStart =>
      cases r.nsEnd with
      | none => simp [Except.isOk, Except.toBool]
      | some nsEnd =>
          dsimp only
          split <;> simp [Except.isOk, Except.toBool]

theorem estimatesOf_isOk_iff (w : Timer.World) (n : Nat) :
    (Timer.estimatesOf w n).isOk = true ↔
      ∀ i < n, (w.round i).nsStart ≠ none ∧ (w.round i).nsEnd ≠ none := by
  induction n with
  | zero => simp [Timer.estimatesOf, Except.isOk, Except.toBool]
  | succ n ih =>
      rw [Nat.forall_lt_succ_right, ← ih, ← estimate_isOk_iff]
      simp only [Timer.estimatesOf]
      -- The round `n` is taken only if those before it have not thrown.
      cases Timer.estimatesOf w n with
      | error thrown => simp [Except.isOk, Except.toBool]
      | ok estimates =>
          cases Timer.estimate (w.round n) with
          | error thrown => simp [Except.isOk, Except.toBool]
          | ok rate => cases rate <;> simp [Except.isOk, Except.toBool]

theorem calibrateTscHz_isOk_iff (w : Timer.World) {rounds intervalMs : Int} (hrounds : 0 < rounds)
    (hinterval : 0 < intervalMs) :
    (Timer.calibrateTscHz w rounds intervalMs).isOk = true ↔
      w.reserve rounds.toNat = true ∧
        (∀ i < rounds.toNat, (w.round i).nsStart ≠ none ∧ (w.round i).nsEnd ≠ none) ∧
        w.kept rounds.toNat ≠ [] := by
  have hestimates := estimatesOf_isOk_iff w rounds.toNat
  unfold Timer.calibrateTscHz
  rw [if_neg (by omega), ← hestimates]
  cases w.reserve rounds.toNat with
  | false => simp [Except.isOk, Except.toBool]
  | true =>
      cases hrun : Timer.estimatesOf w rounds.toNat with
      | error thrown => simp [Except.isOk, Except.toBool]
      | ok estimates =>
          rw [← Timer.estimatesOf_eq_kept hrun]
          by_cases hsome : estimates = []
          · simp [hsome, Except.isOk, Except.toBool]
          · simp [hsome, Except.isOk, Except.toBool]

theorem construct_isOk_iff (sys : Latency.System) (requested lineSize : SizeT abi)
    (numaNode : Int) :
    (Latency.construct sys requested lineSize numaNode).isOk = true ↔
      (if 0 ≤ numaNode then
        sys.numaAvailable = true ∧
          sys.allocateOnNode (Latency.bufferSizeFor requested.toNat) numaNode ≠ none
      else
        sys.mmap (Latency.bufferSizeFor requested.toNat) ≠ none) ∧
      sys.reserveCycles 2000 = true := by
  have hsetUp : ∀ base, (Latency.setUp abi sys numaNode
      (Latency.bufferSizeFor requested.toNat) base).isOk = true ↔
        sys.reserveCycles 2000 = true := by
    intro base
    refine Iff.trans ?_ (Timer.measureOverheadCycles_isOk_iff sys.reserveCycles sys.stamps
      (by decide : (0 : Int) < 2000))
    unfold Latency.setUp
    cases Timer.measureOverheadCycles sys.reserveCycles sys.stamps 2000 <;> exact Iff.rfl
  unfold Latency.construct
  dsimp only
  split
  · split
    · rename_i havailable
      cases sys.allocateOnNode (Latency.bufferSizeFor requested.toNat) numaNode with
      | none => simp [Except.isOk, Except.toBool]
      | some base => simp [havailable, hsetUp]
    · rename_i hunavailable
      simp [hunavailable, Except.isOk, Except.toBool]
  · cases sys.mmap (Latency.bufferSizeFor requested.toNat) with
    | none => simp [Except.isOk, Except.toBool]
    | some base => simp [hsetUp]

/-- The parent throws when the clock of the name fails, or behind the fork. -/
theorem measureCrossProcess_threw_iff {w : SharedMemory.World} {fuel : Nat}
    {iterations warmup producerCpu consumerCpu : Int}
    {out : SharedMemory.Exit × List (Lib.Entry SharedMemory.Resource)}
    (hiterations : 0 < iterations) (hwarmup : 0 ≤ warmup) (hproducer : 0 ≤ producerCpu)
    (hconsumer : 0 ≤ consumerCpu)
    (hout : SharedMemory.measureCrossProcess w fuel iterations warmup producerCpu consumerCpu =
      some out) :
    (∃ what, out.1 = .threw what) ↔
      w.nameClock = none ∨
        (w.Forks iterations warmup producerCpu consumerCpu ∧
          (w.Interrupted fuel iterations warmup ∨ w.Overflows fuel iterations warmup)) := by
  -- An exit before the fork throws in one case only, when the clock of the name fails.
  have hearly : w.nameClock ≠ none → ¬ w.Forks iterations warmup producerCpu consumerCpu →
      (∃ result, out.1 = .returned result) → ((∃ what, out.1 = .threw what) ↔
        w.nameClock = none ∨ (w.Forks iterations warmup producerCpu consumerCpu ∧
          (w.Interrupted fuel iterations warmup ∨ w.Overflows fuel iterations warmup))) := by
    rintro hname hforks ⟨result, hresult⟩
    simp [hname, hforks, hresult]
  unfold SharedMemory.measureCrossProcess at hout
  dsimp only at hout
  rw [if_neg (by omega), if_neg (by omega)] at hout
  split at hout
  · rename_i hname
    cases hout
    simp [hname]
  rename_i hname
  split at hout
  · cases hout
    exact hearly hname (fun hforks => absurd hforks.shmOpen (not_le.2 ‹_›)) ⟨_, rfl⟩
  split at hout
  · cases hout
    exact hearly hname (fun hforks => absurd hforks.ftruncate ‹_›) ⟨_, rfl⟩
  split at hout
  · cases hout
    exact hearly hname (fun hforks => hforks.mmap ‹_›) ⟨_, rfl⟩
  split at hout
  · cases hout
    exact hearly hname (fun hforks => hforks.fork ‹_›) ⟨_, rfl⟩
  -- All calls before the fork have succeeded, and the parent goes on to wait.
  rename_i hopen htruncate hmap _ pid hfork
  have hforks : w.Forks iterations warmup producerCpu consumerCpu :=
    { iterations := hiterations
      warmup := hwarmup
      producerCpu := hproducer
      consumerCpu := hconsumer
      nameClock := hname
      shmOpen := not_lt.1 hopen
      ftruncate := not_not.1 htruncate
      mmap := hmap
      fork := by simp [hfork] }
  rcases Option.map_eq_some_iff.1 hout with ⟨run, hrun, rfl⟩
  rw [SharedMemory.runParent_threw_iff hrun]
  simp [hname, hforks]

/-! ## Two CPUs -/

theorem nonneg_of_mem_allowedCpus {affinity : Option (Nat → Bool)} {cpu : Int}
    (h : cpu ∈ allowedCpus affinity) : 0 ≤ cpu := by
  unfold allowedCpus at h
  split at h
  · exact absurd h List.not_mem_nil
  · rcases List.mem_map.1 h with ⟨n, _, rfl⟩
    exact Int.natCast_nonneg n

theorem chooseDistinctCpu_mem (pairOf : Int → Int × Int) {primaryCpu : Int} {cpus : List Int}
    (h : primaryCpu ∈ cpus) : CpuInfo.chooseDistinctCpu pairOf primaryCpu cpus ∈ cpus := by
  unfold CpuInfo.chooseDistinctCpu
  split
  · exact h
  · exact h
  · rename_i first second rest
    dsimp only
    cases hfind : (first :: second :: rest).find? fun cpu =>
        cpu ≠ primaryCpu ∧ pairOf cpu ≠ pairOf primaryCpu with
    | none => exact List.mem_cons_of_mem _ List.mem_cons_self
    | some cpu => exact List.mem_of_find?_eq_some hfind

/-- `allowed_cpus.front()`. -/
def Machine.primaryCpu (m : Machine abi) : Int :=
  (allowedCpus m.affinity).headD 0

def Machine.secondaryCpu (m : Machine abi) : Int :=
  CpuInfo.chooseDistinctCpu (CpuInfo.cpuTopologyPair m.host.files) m.primaryCpu
    (allowedCpus m.affinity)

/-- The shared-memory test runs, and an exception leaves it. -/
def Machine.Interrupts (m : Machine abi) (s : Settings abi) (fuel : Nat) : Prop :=
  s.runSharedMemory = true ∧ 2 ≤ (allowedCpus m.affinity).length ∧
    (m.sharedMemory.nameClock = none ∨
      (m.sharedMemory.Forks s.shmIterations Config.defaultShmWarmup m.primaryCpu m.secondaryCpu ∧
        (m.sharedMemory.Interrupted fuel s.shmIterations Config.defaultShmWarmup ∨
          m.sharedMemory.Overflows fuel s.shmIterations Config.defaultShmWarmup)))

/-- The `k`-th wait passes its deadline at reading `n` at the latest. -/
def Machine.Ticks (m : Machine abi) (n : Nat) : Prop :=
  ∀ k start now, (m.sharedMemory.waits k).clock 0 = some start →
    (m.sharedMemory.waits k).clock (n + 1) = some now →
      start + UInt64.ofNat Config.shmTimeoutMs * 1000000 ≤ now

theorem measureSharedMemory_spec {m : Machine abi} {s : Settings abi} (hlegal : s.Legal) {n : Nat}
    (hticks : m.Ticks n) {fuel : Nat} (hfuel : n < fuel) (hcpus : allowedCpus m.affinity ≠ []) :
    ∃ outcome, measureSharedMemory m s fuel m.primaryCpu = some outcome ∧
      (outcome.isOk = true ↔ ¬ m.Interrupts s fuel) := by
  have hprimary : m.primaryCpu ∈ allowedCpus m.affinity := by
    unfold Machine.primaryCpu
    obtain ⟨cpu, rest, hlist⟩ := List.exists_cons_of_ne_nil hcpus
    rw [hlist]
    exact List.mem_cons_self
  have hsecondary : m.secondaryCpu ∈ allowedCpus m.affinity := chooseDistinctCpu_mem _ hprimary
  unfold measureSharedMemory Machine.Interrupts
  -- Without the test, and with one CPU, nothing is called that could throw.
  cases hrun : s.runSharedMemory with
  | false => exact ⟨_, rfl, by simp [Except.isOk, Except.toBool]⟩
  | true =>
      by_cases hfew : (allowedCpus m.affinity).length < 2
      · rw [if_pos rfl, if_pos hfew]
        exact ⟨_, rfl, by simp [Except.isOk, Except.toBool, hfew]⟩
      · rw [if_pos rfl, if_neg hfew]
        have hiterations := hlegal.shmIterations hrun
        have hwarmup : 0 ≤ Config.defaultShmWarmup := by decide
        obtain ⟨out, hout⟩ := SharedMemory.measureCrossProcess_returns hticks hfuel
          s.shmIterations Config.defaultShmWarmup m.primaryCpu m.secondaryCpu
        have hthrew := measureCrossProcess_threw_iff hiterations hwarmup
          (nonneg_of_mem_allowedCpus hprimary) (nonneg_of_mem_allowedCpus hsecondary) hout
        change ∃ outcome, Option.map _ (SharedMemory.measureCrossProcess m.sharedMemory fuel
          s.shmIterations Config.defaultShmWarmup m.primaryCpu m.secondaryCpu) = _ ∧ _
        rw [hout]
        refine ⟨_, rfl, ?_⟩
        rw [not_lt] at hfew
        rw [← hthrew]
        rcases out with ⟨result | what, log⟩
        · simp [Except.isOk, Except.toBool]
        · simp [Except.isOk, Except.toBool, hfew]

/-! ## The exit status -/

/-- What an analysis needs from the machine.  No field speaks about the bandwidth tests. -/
structure Machine.Serves (m : Machine abi) (s : Settings abi) (fuel : Nat) : Prop where
  cpus : allowedCpus m.affinity ≠ []
  estimates : m.timer.reserve Config.tscCalibrationRounds.toNat = true
  readings : ∀ i < Config.tscCalibrationRounds.toNat,
    (m.timer.round i).nsStart ≠ none ∧ (m.timer.round i).nsEnd ≠ none
  /-- One round of the calibration stays on its CPU, and takes some time. -/
  kept : m.timer.kept Config.tscCalibrationRounds.toNat ≠ []
  /-- The vectors of the two measurements of the overhead, in `main` and in the measurer. -/
  overhead : m.reserveCycles 2000 = true ∧ m.latency.reserveCycles 2000 = true
  buffer :
    if 0 ≤ s.numaNode then
      m.latency.numaAvailable = true ∧
        m.latency.allocateOnNode (Latency.bufferSizeFor s.bufferSize.toNat) s.numaNode ≠ none
    else
      m.latency.mmap (Latency.bufferSizeFor s.bufferSize.toNat) ≠ none
  vectors : Fits m.library s = true
  sharedMemory : ¬ m.Interrupts s fuel

/-- The variables of `main` behind the stages. -/
def resultsOf (m : Machine abi) (s : Settings abi) (o : Latency.LatencyMeasurer abi) (tscHz : ℚ)
    (sharedMemory : SharedMemory.SharedMemoryResult) : Results abi :=
  { timestamp := m.timestamp
    csvFile := s.csvFile
    quiet := s.quiet
    runSharedMemory := s.runSharedMemory
    latencyResults := plannedLatency s o
    bandwidthResults := measureBandwidth m s
    sharedMemory := sharedMemory
    tscHz := tscHz }

/-- The stages one after the other: what each of them contributes if all succeed, and that they do
so exactly if the machine serves them. -/
theorem analyze_spec {m : Machine abi} {s : Settings abi} (hlegal : s.Legal) {n : Nat}
    (hticks : m.Ticks n) {fuel : Nat} (hfuel : n < fuel) (htopology : m.host.topology ≠ none) :
    (m.Serves s fuel ∧ ∃ o tscHz sharedMemory,
      Latency.construct m.latency s.bufferSize m.lineSize s.numaNode = .ok o ∧
      Timer.calibrateTscHz m.timer Config.tscCalibrationRounds Config.tscCalibrationMs =
        .ok tscHz ∧
      measureSharedMemory m s fuel m.primaryCpu = some (.ok sharedMemory) ∧
      analyze m s fuel = some (.ok (resultsOf m s o tscHz sharedMemory))) ∨
    (¬ m.Serves s fuel ∧ ∃ failure, analyze m s fuel = some (.error failure)) := by
  cases hcpus : allowedCpus m.affinity with
  | nil =>
      refine Or.inr ⟨fun hserves => hserves.cpus hcpus, .noCpus, ?_⟩
      unfold analyze
      rw [hcpus]
  | cons primaryCpu rest =>
      have hsome : allowedCpus m.affinity ≠ [] := by simp [hcpus]
      have hprimary : m.primaryCpu = primaryCpu := by
        unfold Machine.primaryCpu
        rw [hcpus]
        rfl
      obtain ⟨topology, htopology⟩ := Option.ne_none_iff_exists'.1 htopology
      have hcalibrated := calibrateTscHz_isOk_iff m.timer
        (by decide : 0 < Config.tscCalibrationRounds) (by decide : 0 < Config.tscCalibrationMs)
      have hmeasured := Timer.measureOverheadCycles_isOk_iff m.reserveCycles m.stamps
        (by decide : (0 : Int) < 2000)
      have hbuilt := construct_isOk_iff m.latency s.bufferSize m.lineSize s.numaNode
      obtain ⟨outcome, hshared, hinterrupts⟩ := measureSharedMemory_spec hlegal hticks hfuel hsome
      rw [hprimary] at hshared
      unfold analyze
      rw [hcpus, htopology]
      dsimp only
      cases hrate : Timer.calibrateTscHz m.timer Config.tscCalibrationRounds
          Config.tscCalibrationMs with
      | error thrown =>
          -- Each stage that throws contradicts the field that it needs.
          refine Or.inr ⟨fun hserves => ?_, .timer thrown, rfl⟩
          have hok := hcalibrated.2 ⟨hserves.estimates, hserves.readings, hserves.kept⟩
          rw [hrate] at hok
          cases hok
      | ok tscHz =>
          have hestimates := hcalibrated.1 (by rw [hrate]; rfl)
          dsimp only
          cases hcycles : Timer.measureOverheadCycles m.reserveCycles m.stamps 2000 with
          | error thrown =>
              refine Or.inr ⟨fun hserves => ?_, .timer thrown, rfl⟩
              have hok := hmeasured.2 hserves.overhead.1
              rw [hcycles] at hok
              cases hok
          | ok cycles =>
              have hoverhead := hmeasured.1 (by rw [hcycles]; rfl)
              cases hobject : Latency.construct m.latency s.bufferSize m.lineSize s.numaNode with
              | error thrown =>
                  refine Or.inr ⟨fun hserves => ?_, .latency thrown, rfl⟩
                  have hok := hbuilt.2 ⟨hserves.buffer, hserves.overhead.2⟩
                  rw [hobject] at hok
                  cases hok
              | ok o =>
                  have hbuffer := hbuilt.1 (by rw [hobject]; rfl)
                  have hlatency := measureLatency_eq hlegal m.library
                    (Latency.constructed_construct hobject)
                  cases hfits : Fits m.library s with
                  | false =>
                      refine Or.inr ⟨fun hserves => ?_, .latency .allocation, ?_⟩
                      · rw [hserves.vectors] at hfits
                        cases hfits
                      · dsimp only
                        rw [hlatency, hfits]
                        rfl
                  | true =>
                      dsimp only
                      rw [hlatency, hfits, if_pos rfl, hprimary]
                      dsimp only
                      rw [hshared]
                      cases outcome with
                      | error thrown =>
                          refine Or.inr ⟨fun hserves => ?_, .sharedMemory thrown, rfl⟩
                          cases hinterrupts.2 hserves.sharedMemory
                      | ok sharedMemory =>
                          have hserves : m.Serves s fuel :=
                            { cpus := hsome
                              estimates := hestimates.1
                              readings := hestimates.2.1
                              kept := hestimates.2.2
                              overhead := ⟨hoverhead, hbuffer.2⟩
                              buffer := hbuffer.1
                              vectors := hfits
                              sharedMemory := hinterrupts.1 rfl }
                          exact Or.inl ⟨hserves, o, tscHz, sharedMemory, rfl, rfl, rfl, rfl⟩

/-- An analysis that succeeds leaves the planned results, however it came to them. -/
theorem analyze_inversion {m : Machine abi} {s : Settings abi} (hlegal : s.Legal) {fuel : Nat}
    {r : Results abi} (h : analyze m s fuel = some (.ok r)) :
    ∃ o tscHz sharedMemory, r = resultsOf m s o tscHz sharedMemory := by
  unfold analyze at h
  split at h
  · cases h
  split at h
  · cases h
  split at h
  · cases h
  rename_i tscHz _
  split at h
  · cases h
  split at h
  · cases h
  rename_i o hobject
  rw [measureLatency_eq hlegal m.library (Latency.constructed_construct hobject)] at h
  cases hfits : Fits m.library s with
  | false =>
      rw [hfits] at h
      cases h
  | true =>
      rw [hfits, if_pos rfl] at h
      rcases Option.map_eq_some_iff.1 h with ⟨outcome, _, hresult⟩
      cases outcome with
      | error thrown => cases hresult
      | ok sharedMemory =>
          cases hresult
          exact ⟨o, tscHz, sharedMemory, rfl⟩

/-- The methods that are tried, with the node that is asked for. -/
def attempts (s : Settings abi) : List (Text × Int) :=
  if s.runBandwidth then
    if 0 ≤ s.numaNode then [("numa".toList, s.numaNode)]
    else [("mmap".toList, -1), ("malloc".toList, -1), ("LargePage".toList, -1)]
  else
    []

/-- The name under which the result of an attempt is reported. -/
def attemptName (attempt : Text × Int) : String :=
  String.ofList (if 0 ≤ attempt.2 then Bandwidth.numaMethod attempt.2 else attempt.1)

/-- The result of the `k`-th attempt, unless it throws. -/
def attempted (m : Machine abi) (s : Settings abi) (place : (Text × Int) × Nat) :
    Option (BandwidthResult abi ℚ) :=
  (Bandwidth.measure (m.bandwidth place.2) s.bandwidthSize place.1.1 Config.bandwidthRepeats
    place.1.2).1.toOption

theorem attemptBandwidth_eq (w : Bandwidth.World) (s : Settings abi) (method : Text)
    (numaNode : Int) (results : List (BandwidthResult abi ℚ)) :
    attemptBandwidth w s method numaNode results = results ++
      (Bandwidth.measure w s.bandwidthSize method Config.bandwidthRepeats
        numaNode).1.toOption.toList := by
  unfold attemptBandwidth
  cases (Bandwidth.measure w s.bandwidthSize method Config.bandwidthRepeats numaNode).1 with
  | error thrown => exact (List.append_nil results).symm
  | ok result => rfl

theorem filterMap_cons_toList {α β : Type*} (f : α → Option β) (a : α) (l : List α) :
    (a :: l).filterMap f = (f a).toList ++ l.filterMap f := by
  rw [List.filterMap_cons]
  cases f a <;> rfl

theorem measureBandwidth_eq (m : Machine abi) (s : Settings abi) :
    measureBandwidth m s = (attempts s).zipIdx.filterMap (attempted m s) := by
  unfold measureBandwidth attempts
  split
  · split
    · simp only [attemptBandwidth_eq, List.zipIdx_cons, List.zipIdx_nil, filterMap_cons_toList,
        List.filterMap_nil, List.nil_append, List.append_nil]
      rfl
    · simp only [attemptBandwidth_eq, List.zipIdx_cons, List.zipIdx_nil, filterMap_cons_toList,
        List.filterMap_nil, List.nil_append, List.append_nil, List.append_assoc]
      rfl
  · rfl

theorem measure_ok {w : Bandwidth.World} {sizeBytes : SizeT abi} {method : Text}
    {repeats numaNode : Int} {result : BandwidthResult abi ℚ}
    (h : (Bandwidth.measure w sizeBytes method repeats numaNode).1 = .ok result) :
    result.allocator = attemptName (method, numaNode) ∧ result.sizeBytes = sizeBytes := by
  unfold Bandwidth.measure at h
  split at h
  · cases h
  split at h
  · cases h
  split at h
  · cases h
  dsimp only at h
  split at h
  · cases h
  split at h
  · cases h
  · cases h
    exact ⟨rfl, rfl⟩

theorem attempted_name {m : Machine abi} {s : Settings abi} {place : (Text × Int) × Nat}
    {result : BandwidthResult abi ℚ} (h : attempted m s place = some result) :
    result.allocator = attemptName place.1 ∧ result.sizeBytes = s.bandwidthSize := by
  unfold attempted at h
  cases hmeasure : (Bandwidth.measure (m.bandwidth place.2) s.bandwidthSize place.1.1
      Config.bandwidthRepeats place.1.2).1 with
  | error thrown =>
      rw [hmeasure] at h
      cases h
  | ok result' =>
      rw [hmeasure] at h
      cases h
      exact measure_ok hmeasure

/-- The names of the results are those of the attempts, in their order, with gaps. -/
theorem bandwidth_names (m : Machine abi) (s : Settings abi) :
    ((measureBandwidth m s).map (·.allocator)).Sublist ((attempts s).map attemptName) := by
  have hnames : ∀ places : List ((Text × Int) × Nat),
      ((places.filterMap (attempted m s)).map (·.allocator)).Sublist
        ((places.map Prod.fst).map attemptName) := by
    intro places
    induction places with
    | nil => exact List.Sublist.slnil
    | cons place places ih =>
        -- A method that throws leaves a gap, and the others keep their places.
        cases hplace : attempted m s place with
        | none =>
            rw [List.filterMap_cons_none hplace]
            exact ih.trans (List.sublist_cons_self _ _)
        | some result =>
            rw [List.filterMap_cons_some hplace, List.map_cons, (attempted_name hplace).1]
            exact ih.cons_cons _
  rw [measureBandwidth_eq]
  have hplaces := hnames (attempts s).zipIdx
  rw [List.zipIdx_map_fst] at hplaces
  exact hplaces

/-! ## The CSV file -/

theorem isPlain_numaMethod {numaNode : Int} (h : 0 ≤ numaNode) :
    IsPlain (Bandwidth.numaMethod numaNode) := by
  have hinteger : Text.integer numaNode = Text.decimal numaNode.toNat := by
    unfold Text.integer
    rw [if_neg (not_lt.2 h)]
    congr 1
    omega
  have hprefix : IsPlain Bandwidth.numaPrefix := by decide
  intro c hc
  unfold Bandwidth.numaMethod at hc
  rw [hinteger] at hc
  rcases List.mem_append.1 hc with hc | hc
  · exact hprefix c hc
  · exact isPlain_decimal _ c hc

theorem isPlain_attemptName {s : Settings abi} {attempt : Text × Int}
    (h : attempt ∈ attempts s) : IsPlain (attemptName attempt).toList := by
  have hplain : ∀ method ∈ ["mmap".toList, "malloc".toList, "LargePage".toList],
      IsPlain method := by decide
  unfold attemptName
  rw [String.toList_ofList]
  split
  · rename_i hnode
    exact isPlain_numaMethod hnode
  · rename_i hnode
    -- Without a node the method is one of the three names.
    unfold attempts at h
    split at h
    · split at h
      · rename_i hnuma
        rw [List.mem_singleton] at h
        subst h
        exact absurd hnuma hnode
      · simp only [List.mem_cons, List.not_mem_nil, or_false] at h
        rcases h with rfl | rfl | rfl
        · exact hplain _ (by simp)
        · exact hplain _ (by simp)
        · exact hplain _ (by simp)
    · exact absurd h List.not_mem_nil

theorem isPlain_allocator {m : Machine abi} {s : Settings abi} :
    ∀ result ∈ measureBandwidth m s, IsPlain (lit result.allocator) := by
  intro result hresult
  have hname : result.allocator ∈ (attempts s).map attemptName :=
    (bandwidth_names m s).subset (List.mem_map_of_mem hresult)
  obtain ⟨attempt, hattempt, heq⟩ := List.mem_map.1 hname
  rw [← heq]
  exact isPlain_attemptName hattempt

/-- The labels of the first stage. -/
def analysisLabels : List String :=
  ["Cache Hit (L1 pointer-chasing latency)", "Forced Cache Miss (random pointer chase + CLFLUSH)",
    "Store (hot lines; issue throughput per store)"] ++ strideLabels

theorem plannedLatency_labels (s : Settings abi) (o : Latency.LatencyMeasurer abi) :
    (plannedLatency s o).map (·.label) = analysisLabels := rfl

theorem isPlain_label (s : Settings abi) (o : Latency.LatencyMeasurer abi) :
    ∀ result ∈ plannedLatency s o, IsPlain (lit result.label) := by
  have hlabels : analysisLabels.all (fun label => decide (IsPlain (lit label))) = true := by
    decide +kernel
  intro result hresult
  have hmem : result.label ∈ analysisLabels := by
    rw [← plannedLatency_labels s o]
    exact List.mem_map_of_mem hresult
  exact of_decide_eq_true (List.all_eq_true.1 hlabels _ hmem)

/-- The records of the CSV file of an analysis. -/
def analysisTable (m : Machine abi) (s : Settings abi) (o : Latency.LatencyMeasurer abi)
    (tscHz : ℚ) (sharedMemory : SharedMemory.SharedMemoryResult) : List (List Text) :=
  Column.header ::
    ((plannedLatency s o).map (fun result =>
        Column.all.map (latencyEntry streamFormat tscHz result)) ++
      (measureBandwidth m s).map (fun result =>
        Column.all.map (bandwidthEntry streamFormat result)) ++
      if s.runSharedMemory && sharedMemory.success then
        [Column.all.map (sharedMemoryEntry streamFormat tscHz sharedMemory)]
      else
        [])

/-- The text of the CSV file. -/
def analysisText (m : Machine abi) (s : Settings abi) (o : Latency.LatencyMeasurer abi)
    (tscHz : ℚ) (sharedMemory : SharedMemory.SharedMemoryResult) : Text :=
  (csvPieces streamFormat (plannedLatency s o) (measureBandwidth m s)
    (if s.runSharedMemory then some sharedMemory else none) tscHz).flatten

theorem readCsv_analysisText (m : Machine abi) (s : Settings abi)
    (o : Latency.LatencyMeasurer abi) (tscHz : ℚ)
    (sharedMemory : SharedMemory.SharedMemoryResult) :
    readCsv (analysisText m s o tscHz sharedMemory) =
      some (analysisTable m s o tscHz sharedMemory) := by
  unfold analysisText
  rw [flatten_csvPieces tscHz streamFormat_plain _
      (fun result hresult hquote => (isPlain_label s o result hresult _ hquote).2.1 rfl)
      (fun result hresult hquote => (isPlain_allocator result hresult _ hquote).2.1 rfl),
    readCsv_flatMap_renderRecord .lf _ (csvRows_ne_nil tscHz streamFormat_plain _ _ _),
    csvRows_contents]
  unfold analysisTable
  -- A failed test has no record.
  cases s.runSharedMemory with
  | false => rfl
  | true =>
      cases hsuccess : sharedMemory.success with
      | false => simp [Option.filter, hsuccess]
      | true => simp [Option.filter, hsuccess]

end Outcome

/-! ## A machine that cannot share memory -/

theorem two_inInt : InInt 2 := by decide

/-- Two CPUs, ordinary memory, and a first measurement of the bandwidth that throws. -/
def plainMachine : Machine .x8664 :=
  { affinity := some fun cpu => cpu < 2
    host := { online := 2, online_inInt := two_inInt, edx := none, files := fun _ => none }
    lineSize := 64
    timer :=
      { reserve := fun _ => true
        round := fun i =>
          { nsStart := some 0
            tscStart := 0
            auxStart := 0
            tscEnd := UInt64.ofNat (150000000 + i)
            auxEnd := 0
            nsEnd := some 50000000 } }
    reserveCycles := fun _ => true
    stamps := fun _ => (0, 24)
    latency := Latency.plainSystem 4096
    library := Latency.plainLibrary
    bandwidth := fun k => Bandwidth.meteredWorld (30 * k)
    sharedMemory :=
      { nameClock := some 1
        shmOpen := -1
        ftruncate := 0
        mmap := none
        fork := none
        waits := fun _ => { flag := fun _ => 0, stop := fun _ => 0, clock := fun _ => none }
        reserve := fun _ => true
        summarize := fun _ => true
        ticks := fun _ => (0, 0)
        waitpidPoll := fun _ => 0
        kill := 0
        waitpid := 0 }
    timestamp := "2024-01-01 00:00:00".toList }

theorem plainMachine_ticks : plainMachine.Ticks 0 := by
  intro k start now hstart
  cases hstart

theorem plainMachine_topology : plainMachine.host.topology ≠ none := by decide

theorem plainMachine_serves {s : Settings .x8664} (hnode : s.numaNode = -1)
    (hfits : Fits plainMachine.library s = true) (fuel : Nat) : plainMachine.Serves s fuel where
  cpus := List.ne_nil_of_mem (List.mem_map.2
    ⟨0, List.mem_filter.2 ⟨List.mem_range.2 (by decide), rfl⟩, rfl⟩)
  estimates := rfl
  readings := fun _ _ => ⟨Option.some_ne_none _, Option.some_ne_none _⟩
  kept := by decide +kernel
  overhead := ⟨rfl, rfl⟩
  buffer := by
    rw [hnode, if_neg (by decide)]
    exact Option.some_ne_none _
  vectors := hfits
  sharedMemory := by
    rintro ⟨_, _, hname | ⟨hforks, _⟩⟩
    · cases hname
    · exact absurd hforks.shmOpen (by decide)

def withCsvFile : List Text :=
  ["latency_analyzer", "--csv", "out.csv"].map String.toList

theorem configure_withCsvFile :
    configure .x8664 withCsvFile = .parsed { csvFile := "out.csv".toList } := by
  have hparses : Parses (withCsvFile.drop 1) ({} : Settings .x8664)
      { csvFile := "out.csv".toList } := by
    have hargs : withCsvFile.drop 1 = [OptionName.arg .csv, "out.csv".toList] := rfl
    rw [hargs]
    exact .value .file .nil
  have hloop := optionLoop_of_parses hparses rfl
  rw [configure, hloop]
  rfl

/-- A file that cannot be opened. -/
def noFile : Destination :=
  { opens := false, sink := { limit := 0, drain := fun _ _ => 0 } }

end CommandLine
end LatencyAnalyzer
