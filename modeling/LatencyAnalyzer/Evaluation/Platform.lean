import LatencyAnalyzer.CpuCapability
import LatencyAnalyzer.CpuInfo.Topology
import LatencyAnalyzer.Evaluation.Alignment
import LatencyAnalyzer.Report.Torn

/-!
# Platform — from the registers of the processor to the report

The evaluation lab writes into its report what machine it ran on: the identity of the processor,
its topology and the names that `uname` gives.  Whoever reads the report finds the processor that
the registers describe.
-/

namespace LatencyAnalyzer
namespace EvaluationLab

open Cxx
open CpuCapability (Processor)
open Evaluation
open Lib (Json)
open Report (ControlFree Destination EvaluationLabResult Format IsFixedText PlatformSignature lit)

/-! ## `platform_signature` -/

/-- `release` and `machine` of a `utsname`. -/
structure SystemName where
  release : Text
  machine : Text

/-- The two strings stay empty when `uname` fails. -/
def platformSignature (leaves : CpuCapability.Leaves) (host : CpuInfo.Host)
    (uname : Option SystemName) : Option PlatformSignature :=
  let capability := CpuCapability.detect leaves
  host.topology.map fun topology =>
    { vendor := String.ofList capability.vendor
      brand := String.ofList capability.brand
      osRelease := String.ofList ((uname.map SystemName.release).getD [])
      machine := String.ofList ((uname.map SystemName.machine).getD [])
      physicalCores := topology.physicalCores
      logicalCpus := topology.logicalCpus
      packages := topology.packages
      smtActive := topology.smtActive }

/-! ## The platform in the report -/

/-- The object that stands for a processor in its machine. -/
def platformValue (p : Processor) (topology : CpuInfo.CpuTopologyInfo)
    (uname : Option SystemName) : Json :=
  .object
    [(lit "vendor", .string p.vendor), (lit "brand", .string p.identity.brand),
      (lit "os_release", .string ((uname.map SystemName.release).getD [])),
      (lit "machine", .string ((uname.map SystemName.machine).getD [])),
      (lit "physical_cores", .number (Text.integer topology.physicalCores)),
      (lit "logical_cpus", .number (Text.integer topology.logicalCpus)),
      (lit "packages", .number (Text.integer topology.packages)),
      (lit "smt_active", .bool topology.smtActive)]

/-- The texts that the machine contributes hold no control characters that `json_escape` lets
through. -/
structure Readable (p : Processor) (uname : Option SystemName) : Prop where
  vendor : ControlFree p.vendor
  brand : ControlFree p.brand.text
  release : ∀ name ∈ uname, ControlFree name.release
  machine : ∀ name ∈ uname, ControlFree name.machine

section Report

variable {p : Processor} {host : CpuInfo.Host} {uname : Option SystemName}
  {platform : PlatformSignature}

theorem platformSignature_inversion (h : platformSignature p.leaves host uname = some platform) :
    ∃ topology, host.topology = some topology ∧ platform =
      { vendor := String.ofList p.vendor
        brand := String.ofList p.identity.brand
        osRelease := String.ofList ((uname.map SystemName.release).getD [])
        machine := String.ofList ((uname.map SystemName.machine).getD [])
        physicalCores := topology.physicalCores
        logicalCpus := topology.logicalCpus
        packages := topology.packages
        smtActive := topology.smtActive } := by
  unfold platformSignature at h
  rw [CpuCapability.detect_leaves] at h
  obtain ⟨topology, htopology, hplatform⟩ := Option.map_eq_some_iff.1 h
  exact ⟨topology, htopology, hplatform.symm⟩

theorem Readable.controlFree (h : Readable p uname)
    (hplatform : platformSignature p.leaves host uname = some platform) :
    ∀ s ∈ [platform.vendor, platform.brand, platform.osRelease, platform.machine],
      ControlFree s.toList := by
  have hoption : ∀ {f : SystemName → Text}, (∀ name ∈ uname, ControlFree (f name)) →
      ControlFree ((uname.map f).getD []) := by
    intro f hf
    cases uname with
    | none => exact fun _ hc => absurd hc List.not_mem_nil
    | some name => exact hf name rfl
  have hbrand : ControlFree p.identity.brand := by
    unfold Processor.identity
    dsimp only
    split
    · unfold CpuCapability.Brand.shown
      split
      · decide
      · exact h.brand
    · decide
  obtain ⟨topology, _, rfl⟩ := platformSignature_inversion hplatform
  intro s hs
  simp only [List.mem_cons, List.not_mem_nil, or_false] at hs
  rcases hs with rfl | rfl | rfl | rfl
  · rw [String.toList_ofList]
    exact h.vendor
  · rw [String.toList_ofList]
    exact hbrand
  · rw [String.toList_ofList]
    exact hoption h.release
  · rw [String.toList_ofList]
    exact hoption h.machine

end Report

/-! ## The report of a run -/

section Run

variable {abi : Abi} {K : Type*} [Field K] [LinearOrder K]

theorem controlFree_controlMatrix :
    ∀ s ∈ controlMatrix.flatMap Report.EvaluationLab.controlStrings, ControlFree s.toList := by
  have hall : (controlMatrix.flatMap Report.EvaluationLab.controlStrings).all
      (fun s => decide (ControlFree s.toList)) = true := by decide +kernel
  exact fun s hs => of_decide_eq_true (List.all_eq_true.1 hall s hs)

/-- A lab whose vectors find room and whose clock can be read writes a report of the processor that
its registers describe, next to the medians of its runs; cut off before its end, the report is no
JSON text. -/
theorem platform_report (sqrt log10 : K → K) {fmt : Format K}
    (hfmt : ∀ v, IsFixedText (fmt.fixed 4 v)) (d : Destination) (hopens : d.opens = true)
    {p : Processor} {host : CpuInfo.Host} {uname : Option SystemName}
    {platform : PlatformSignature}
    (hplatform : platformSignature p.leaves host uname = some platform)
    (hreadable : Readable p uname) (sources : Sources) {runs traceSamples : Int}
    {averagingWindow : SizeT abi} {reportPath : String} (hruns : 0 < runs)
    (htrace : 0 < traceSamples) (hwindow : averagingWindow ≠ 0) (hpath : reportPath ≠ "")
    (hroom : FindsRoom abi sources.room runs.toNat traceSamples.toNat averagingWindow.toNat)
    (hclock : ReadsClock sources runs.toNat traceSamples.toNat) :
    ∃ session : Session K,
      collectRuns sources traceSamples.toNat averagingWindow.toNat runs.toNat = .ok session ∧
      let lab : Handed K :=
        evaluate sqrt log10 platform runs traceSamples averagingWindow reportPath session
      let attempt :=
        Report.EvaluationLab.writeReport fmt d lab.result lab.tvlaClean lab.runMedians
      run sqrt log10 fmt d platform sources runs traceSamples averagingWindow reportPath =
        .ok { lab.result with reportWritten := attempt.returned } ∧
      ∃ topology, host.topology = some topology ∧ ∃ text members,
        attempt.file = text.take d.sink.limit ∧
        Report.EvaluationLab.IsReport fmt lab.result lab.runMedians text members ∧
        (lit "platform", platformValue p topology uname) ∈ members ∧
        ∀ n v, Lib.Json.readJson (text.take n) = some v ↔
          v = .object members ∧ text.length ≤ n + 1 := by
  obtain ⟨_, hrun, session, hok, _, rfl⟩ := (run_settles sqrt log10 fmt d platform sources hruns
    htrace hwindow hpath).returns ⟨hroom, hclock⟩
  refine ⟨session, hok, ?_⟩
  intro lab attempt
  refine ⟨hrun, ?_⟩
  -- The platform and the controls are set before anything is measured.
  have hplaced : lab.result.platform = platform := rfl
  have hcontrols : lab.result.controls = controlMatrix := rfl
  have hprintable : Report.EvaluationLab.Printable fmt lab.result lab.tvlaClean lab.runMedians := by
    refine ⟨fun v _ => hfmt v, fun s hs => ?_⟩
    rcases List.mem_append.1 hs with hs | hs
    · rw [hplaced] at hs
      exact hreadable.controlFree hplatform s hs
    · rw [hcontrols] at hs
      exact controlFree_controlMatrix s hs
  have hdocument := Report.EvaluationLab.isDocument hprintable
  obtain ⟨members, hreport⟩ := Report.EvaluationLab.isReport_reportPieces hprintable
  obtain ⟨topology, htopology, hsignature⟩ := platformSignature_inversion hplatform
  -- The two lemmas read the same text.
  cases hreport.read.symm.trans hdocument.read
  refine ⟨topology, htopology, _, _, ?_, hreport, ?_, hdocument.take_iff⟩
  · change (Report.writeChecked d _).file = _
    unfold Report.writeChecked
    rw [if_pos hopens]
    exact Lib.Sink.close_putAll d.sink _
  · refine List.mem_append_left _ (List.mem_map.2
      ⟨Report.EvaluationLab.platformEntry hprintable, by simp [Report.EvaluationLab.entries], ?_⟩)
    have hvalue : (Report.EvaluationLab.platformEntry hprintable).named =
        (lit "platform", .object
          [(lit "vendor", .string lab.result.platform.vendor.toList),
            (lit "brand", .string lab.result.platform.brand.toList),
            (lit "os_release", .string lab.result.platform.osRelease.toList),
            (lit "machine", .string lab.result.platform.machine.toList),
            (lit "physical_cores", .number (Text.integer lab.result.platform.physicalCores)),
            (lit "logical_cpus", .number (Text.integer lab.result.platform.logicalCpus)),
            (lit "packages", .number (Text.integer lab.result.platform.packages)),
            (lit "smt_active", .bool lab.result.platform.smtActive)]) := rfl
    rw [hvalue, hplaced, hsignature]
    simp [platformValue]

end Run

/-! ### A laptop -/

/-- Two CPUs, and no files that tell their cores. -/
def twoCpus : CpuInfo.Host :=
  { online := 2, online_inInt := by decide, edx := none, files := fun _ => none }

def linuxName : SystemName :=
  { release := "6.8.0-45-generic".toList, machine := "x86_64".toList }

/-- Sections that take no time, and a generator that is stuck. -/
def stillSources : Sources :=
  { reads := fun _ => true, elapsed := fun _ _ _ => 0, byte := fun _ => 0, room := 2 ^ 60 - 1 }

theorem platform_report_skylake :
    ∃ topology, twoCpus.topology = some topology ∧ ∃ (text : Text) (members : _),
      (lit "platform", platformValue CpuCapability.skylake topology (some linuxName)) ∈ members ∧
      Lib.Json.readJson (text.take text.length) = some (.object members) := by
  have htopology : twoCpus.topology ≠ none := by decide
  obtain ⟨topology, htopology⟩ := Option.ne_none_iff_exists'.1 htopology
  have hplatform : ∃ platform, platformSignature CpuCapability.skylake.leaves twoCpus
      (some linuxName) = some platform := by
    unfold platformSignature
    rw [htopology]
    exact ⟨_, rfl⟩
  obtain ⟨platform, hplatform⟩ := hplatform
  have hname : ∀ name ∈ some linuxName, name = linuxName := fun _ h => (Option.some.inj h).symm
  have hreadable : Readable CpuCapability.skylake (some linuxName) :=
    { vendor := by decide
      brand := by decide
      release := fun name h => by rw [hname name h]; decide
      machine := fun name h => by rw [hname name h]; decide }
  have hfmt : ∀ v : ℚ, IsFixedText (Report.streamFormat.fixed 4 v) :=
    fun v => Report.isFixedText_fixed (by decide) v
  have hwindow : (8 : SizeT .x8664) ≠ 0 := by decide
  have hroom : FindsRoom .x8664 stillSources.room 1 64 8 := by decide
  obtain ⟨_, _, _, topology, htopology, text, members, _, _, hmember, hread⟩ :=
    platform_report Rat.sqrt id hfmt Report.page rfl hplatform hreadable stillSources
      (by decide : (0 : Int) < 1) (by decide : (0 : Int) < 64) hwindow
      (by decide : "report.json" ≠ "") hroom fun _ _ => rfl
  exact ⟨topology, htopology, text, members, hmember,
    (hread text.length _).2 ⟨rfl, Nat.le_succ _⟩⟩

end EvaluationLab
end LatencyAnalyzer
