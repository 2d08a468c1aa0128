import LatencyAnalyzer.CommandLine.Permutations

/-!
# Sizes — buffers of a size that the command line asks for

A size in MiB is read as an `int` and multiplied in `size_t`, and the modes of `main` hand it on to
the objects that allocate.  A `size_t` of 32 bits does not hold the product of every `int`.
-/

namespace LatencyAnalyzer
namespace CommandLine

open Cxx
open Lib

section Sizes

variable {abi : Abi}

/-! ## The product -/

theorem mibToBytes_toNat (abi : Abi) (n : Nat) :
    (mibToBytes abi n).toNat = n * 2 ^ 20 % 2 ^ abi.sizeBits := by
  have hmul : n * 1024 * 1024 = n * 2 ^ 20 := by omega
  rw [mibToBytes, Int.toNat_natCast, BitVec.toNat_mul, BitVec.toNat_mul, BitVec.toNat_ofNat,
    BitVec.toNat_ofNat, ← hmul, Nat.mul_mod (n * 1024), Nat.mul_mod n]

/-- The product is exact with 64 bits, and up to 4095 MiB with 32. -/
theorem mibToBytes_exact_iff {n : Nat} (hmax : (n : Int) ≤ intMax) :
    (mibToBytes abi n).toNat = n * 2 ^ 20 ↔ (abi = .i386 → n ≤ 4095) := by
  rw [intMax_eq] at hmax
  rw [mibToBytes_toNat]
  cases abi with
  | i386 =>
      have hbits : 2 ^ Abi.i386.sizeBits = 4294967296 := rfl
      rw [hbits]
      constructor
      · intro hexact _
        omega
      · intro hsmall
        have hn := hsmall rfl
        omega
  | x8664 =>
      have hbits : 2 ^ Abi.x8664.sizeBits = 18446744073709551616 := rfl
      rw [hbits]
      constructor
      · intro _ habi
        cases habi
      · intro _
        omega

/-- A whole number of MiB is neither rounded nor the size that asks for the default. -/
theorem bufferSizeFor_mib {n : Nat} (hpos : 1 ≤ n) :
    Latency.bufferSizeFor (n * 2 ^ 20) = max n 32 * 2 ^ 20 := by
  have hne : n * 2 ^ 20 ≠ 0 := by omega
  have hminimum : Config.minBufferSize = 32 * 2 ^ 20 := rfl
  have hline : Latency.nodeSize = 64 := rfl
  have hlines : max (n * 2 ^ 20) (32 * 2 ^ 20) / 64 * 64 = max n 32 * 2 ^ 20 := by omega
  unfold Latency.bufferSizeFor
  dsimp only
  rw [if_neg hne, hminimum, hline, hlines]
  exact if_neg (by omega)

/-! ## The last size on the command line -/

/-- The last group with this option asks for this many MiB. -/
def AsksFor (name : OptionName) (mib : Int) (groups : List (Group abi)) : Prop :=
  ∃ before g after text, groups = before ++ g :: after ∧ g.name = name ∧ g.value = some text ∧
    parseInt text = some mib ∧ ∀ x ∈ after, x.name ≠ name

theorem get_of_asksFor {name : OptionName} {set : SizeT abi → Settings abi → Settings abi}
    (hkind : name.kind = .sizeMib set) {mib : Int} {groups : List (Group abi)}
    (haccepted : ∀ g ∈ groups, g.Accepted) (h : AsksFor name mib groups) :
    ((optionRegisters abi).run groups {}).get name = (set (mibToBytes abi mib) {}).get name := by
  rcases h with ⟨before, g, after, text, rfl, rfl, hvalue, hparse, hlast⟩
  have happly : g.apply {} = set (mibToBytes abi mib) {} := by
    simp only [Group.apply, hkind, hvalue, hparse, Option.elim_some]
  have hg : g.Accepted := haccepted g (by simp)
  have hafter : ∀ x ∈ after, x.Accepted := fun x hx => haccepted x (by simp [hx])
  calc
    ((optionRegisters abi).run (before ++ g :: after) {}).get g.name
        = (g.apply {}).get g.name :=
      Registers.get_run_last (r := optionRegisters abi) hg hafter hlast {}
    _ = (set (mibToBytes abi mib) {}).get g.name := by rw [happly]

theorem bufferSize_of_asksFor {mib : Int} {groups : List (Group abi)}
    (haccepted : ∀ g ∈ groups, g.Accepted) (h : AsksFor .bufferMib mib groups) :
    ((optionRegisters abi).run groups {}).bufferSize = mibToBytes abi mib := by
  have hkind : OptionName.bufferMib.kind =
      .sizeMib fun (size : SizeT abi) s => { s with bufferSize := size } := rfl
  exact Slot.size.inj (get_of_asksFor hkind haccepted h)

theorem bandwidthSize_of_asksFor {mib : Int} {groups : List (Group abi)}
    (haccepted : ∀ g ∈ groups, g.Accepted) (h : AsksFor .bandwidthMib mib groups) :
    ((optionRegisters abi).run groups {}).bandwidthSize = mibToBytes abi mib := by
  have hkind : OptionName.bandwidthMib.kind =
      .sizeMib fun (size : SizeT abi) s => { s with bandwidthSize := size } := rfl
  exact Slot.size.inj (get_of_asksFor hkind haccepted h)

/-! ## The sizes of the calls -/

/-- The call gets the size of its variable. -/
def BenchmarkCall.Sized (s : Settings abi) : BenchmarkCall abi → Prop
  | .latency size _ _ => size = s.bufferSize
  | .bandwidth size _ _ _ => size = s.bandwidthSize
  | _ => True

theorem matrixCalls_sized (env : Environment) (s : Settings abi) :
    ∀ call ∈ matrixCalls env s, call.Sized s := by
  intro call hcall
  rcases List.mem_flatMap.1 hcall with ⟨_, _, hcall⟩
  rcases List.mem_flatMap.1 hcall with ⟨node, _, hcall⟩
  rcases List.mem_pair.1 hcall with rfl | rfl <;> rfl

theorem latencyCalls_sized (s : Settings abi) : ∀ call ∈ latencyCalls s, call.Sized s := by
  intro call hcall
  rcases List.mem_map.1 hcall with ⟨_, _, rfl⟩
  rfl

theorem bandwidthCalls_sized (s : Settings abi) : ∀ call ∈ bandwidthCalls s, call.Sized s := by
  intro call hcall
  unfold bandwidthCalls at hcall
  split at hcall
  · split at hcall
    · rw [List.mem_singleton.1 hcall]
      rfl
    · rcases List.mem_map.1 hcall with ⟨_, _, rfl⟩
      rfl
  · cases hcall

theorem sharedMemoryCalls_sized (env : Environment) (primaryCpu : Int) (s : Settings abi) :
    ∀ call ∈ sharedMemoryCalls env primaryCpu s, call.Sized s := by
  intro call hcall
  unfold sharedMemoryCalls at hcall
  split at hcall
  · rw [List.mem_singleton.1 hcall]
    trivial
  · cases hcall

/-- Every mode hands the two sizes on as they are. -/
theorem runModes_sized {env : Environment} {s : Settings abi} {calls : List (BenchmarkCall abi)}
    (h : runModes env s = .runs calls) : ∀ call ∈ calls, call.Sized s := by
  unfold runModes at h
  split at h
  · split at h
    · cases h
      exact matrixCalls_sized env s
    · cases h
  split at h
  · cases h
  repeat
    split at h
    · cases h
      exact fun call hcall => by rw [List.mem_singleton.1 hcall]; trivial
  split at h
  · cases h
  · cases h
    intro call hcall
    rcases List.mem_append.1 hcall with hcall | hcall
    · rcases List.mem_append.1 hcall with hcall | hcall
      · exact latencyCalls_sized s call hcall
      · exact bandwidthCalls_sized s call hcall
    · exact sharedMemoryCalls_sized env _ s call hcall

/-- The benchmarks run with what the groups leave in the variables. -/
theorem main_runs {env : Environment} {program : Text} {groups : List (Group abi)}
    {calls : List (BenchmarkCall abi)}
    (h : main env (commandLine program groups) = .runs calls) :
    (∀ g ∈ groups, g.Accepted) ∧
      runModes env ((optionRegisters abi).run groups {}) = .runs calls := by
  unfold main at h
  rcases accepted_or_refused groups with haccepted | hrefused
  · refine ⟨haccepted, ?_⟩
    unfold configure at h
    rw [configure_of_accepted program haccepted] at h
    dsimp only at h
    split at h
    · cases h
    · cases h
    · cases h
    · rename_i s hconfigured
      split at hconfigured
      · cases hconfigured
      · split at hconfigured
        · cases hconfigured
        · cases hconfigured
          exact h
  · rcases configure_of_refused program hrefused with ⟨message, hrejected⟩
    rw [hrejected] at h
    cases h

/-! ## Requested and allocated sizes -/

/-- The latency benchmarks work on a buffer of the size that was asked for last. -/
def BufferHonoured (abi : Abi) (n : Nat) : Prop :=
  ∀ (env : Environment) (program : Text) (groups : List (Group abi))
    (calls : List (BenchmarkCall abi)), AsksFor .bufferMib n groups →
    main env (commandLine program groups) = .runs calls →
    ∀ size numaNode call, .latency size numaNode call ∈ calls →
      size.toNat = n * 2 ^ 20 ∧
        ∀ (sys : Latency.System) (lineSize : SizeT abi) (o : Latency.LatencyMeasurer abi),
          Latency.construct sys size lineSize numaNode = .ok o →
            o.bufferSize = max n 32 * 2 ^ 20 ∧ 64 ∣ o.bufferSize ∧
              o.nodeCount * 64 = o.bufferSize

/-- The bandwidth benchmarks are called with the size that was asked for last. -/
def BandwidthHonoured (abi : Abi) (n : Nat) : Prop :=
  ∀ (env : Environment) (program : Text) (groups : List (Group abi))
    (calls : List (BenchmarkCall abi)), AsksFor .bandwidthMib n groups →
    main env (commandLine program groups) = .runs calls →
    ∀ size method repeats numaNode, .bandwidth size method repeats numaNode ∈ calls →
      size.toNat = n * 2 ^ 20

theorem bufferHonoured_of_exact {n : Nat} (hpos : 1 ≤ n)
    (hexact : (mibToBytes abi n).toNat = n * 2 ^ 20) : BufferHonoured abi n := by
  intro env program groups calls hasks hmain size numaNode call hcall
  rcases main_runs hmain with ⟨haccepted, hruns⟩
  have hsize : size = mibToBytes abi n :=
    (runModes_sized hruns _ hcall).trans (bufferSize_of_asksFor haccepted hasks)
  subst hsize
  refine ⟨hexact, fun sys lineSize o hconstruct => ?_⟩
  have hconstructed := Latency.constructed_construct hconstruct
  rw [hexact, bufferSizeFor_mib hpos] at hconstructed
  have hcount := hconstructed.nodeCount
  have hline : Latency.nodeSize = 64 := rfl
  rw [hline] at hcount
  refine ⟨hconstructed.bufferSize, ?_, ?_⟩
  · rw [hconstructed.bufferSize]
    exact Dvd.dvd.mul_left (by decide) _
  · rw [hcount, hconstructed.bufferSize]
    omega

theorem bandwidthHonoured_of_exact {n : Nat}
    (hexact : (mibToBytes abi n).toNat = n * 2 ^ 20) : BandwidthHonoured abi n := by
  intro env program groups calls hasks hmain size method repeats numaNode hcall
  rcases main_runs hmain with ⟨haccepted, hruns⟩
  have hsize : size = mibToBytes abi n :=
    (runModes_sized hruns _ hcall).trans (bandwidthSize_of_asksFor haccepted hasks)
  rw [hsize, hexact]

/-! ## A command line for every size -/

/-- `--buffer-mib n`. -/
def bufferGroup (abi : Abi) (n : Nat) : Group abi :=
  { name := .bufferMib, value := some (Text.decimal n), name_ne := by decide, shape := rfl }

/-- `--bandwidth-mib n`. -/
def bandwidthGroup (abi : Abi) (n : Nat) : Group abi :=
  { name := .bandwidthMib, value := some (Text.decimal n), name_ne := by decide, shape := rfl }

def oneCpu : Environment :=
  { numaAvailable := false
    nodes := []
    initiators := []
    allowedCpus := [0]
    secondaryCpu := 0 }

theorem intText_decimal {n : Nat} (hmax : (n : Int) ≤ intMax) :
    Text.IntText (Text.decimal n) n :=
  ⟨Text.decimal n, Text.decimal_ne_nil n, fun _ hc => Text.isDigit_of_mem_decimal hc,
    inInt_of_nonneg_le (Int.natCast_nonneg n) hmax,
    Or.inl ⟨rfl, by rw [Text.decimalValue_decimal]⟩⟩

theorem asksFor_single {g : Group abi} {n : Nat} (hvalue : g.value = some (Text.decimal n))
    (hmax : (n : Int) ≤ intMax) : AsksFor g.name n [g] :=
  ⟨[], g, [], Text.decimal n, rfl, rfl, hvalue, parseInt_eq_some_iff.2 (intText_decimal hmax),
    fun _ hx => absurd hx List.not_mem_nil⟩

theorem optionLoop_of_size {g : Group abi} {set : SizeT abi → Settings abi → Settings abi} {n : Nat}
    (hkind : g.name.kind = .sizeMib set) (hvalue : g.value = some (Text.decimal n)) (hpos : 1 ≤ n)
    (hmax : (n : Int) ≤ intMax) (program : Text) :
    optionLoop (commandLine program [g]) 1 ({} : Settings abi) =
      .parsed (set (mibToBytes abi n) {}) := by
  have htext := intText_decimal hmax
  have haccepted : ∀ x ∈ [g], x.Accepted := by
    intro x hx text hread
    rw [List.mem_singleton.1 hx] at hread ⊢
    rw [hvalue] at hread
    cases hread
    unfold checkedAtOption
    rw [hkind]
    exact ⟨n, htext, Int.natCast_pos.2 hpos⟩
  have hrun : (optionRegisters abi).run [g] {} = set (mibToBytes abi n) {} := by
    change g.apply {} = _
    simp only [Group.apply, hkind, hvalue, parseInt_eq_some_iff.2 htext, Option.elim_some]
  rw [configure_of_accepted program haccepted, hrun]

theorem main_bufferGroup {n : Nat} (hpos : 1 ≤ n) (hmax : (n : Int) ≤ intMax) (program : Text) :
    main oneCpu (commandLine program [bufferGroup abi n]) =
      .runs (latencyCalls { bufferSize := mibToBytes abi n } ++
        bandwidthCalls { bufferSize := mibToBytes abi n }) := by
  have hkind : (bufferGroup abi n).name.kind =
      .sizeMib fun (size : SizeT abi) s => { s with bufferSize := size } := rfl
  unfold main configure
  rw [optionLoop_of_size hkind rfl hpos hmax program]
  rfl

theorem main_bandwidthGroup {n : Nat} (hpos : 1 ≤ n) (hmax : (n : Int) ≤ intMax)
    (program : Text) :
    main oneCpu (commandLine program [bandwidthGroup abi n]) =
      .runs (latencyCalls { bandwidthSize := mibToBytes abi n } ++
        bandwidthCalls { bandwidthSize := mibToBytes abi n }) := by
  have hkind : (bandwidthGroup abi n).name.kind =
      .sizeMib fun (size : SizeT abi) s => { s with bandwidthSize := size } := rfl
  unfold main configure
  rw [optionLoop_of_size hkind rfl hpos hmax program]
  rfl

/-- A size is honoured if and only if `size_t` can count its bytes. -/
theorem sizes_honoured_iff {n : Nat} (hpos : 1 ≤ n) (hmax : (n : Int) ≤ intMax) :
    (BufferHonoured abi n ↔ (abi = .i386 → n ≤ 4095)) ∧
      (BandwidthHonoured abi n ↔ (abi = .i386 → n ≤ 4095)) := by
  have hexact := @mibToBytes_exact_iff abi n hmax
  refine ⟨⟨fun h => ?_, fun h => bufferHonoured_of_exact hpos (hexact.2 h)⟩,
    ⟨fun h => ?_, fun h => bandwidthHonoured_of_exact (hexact.2 h)⟩⟩
  · -- The first latency benchmark of a command line with this option alone.
    have hfirst := h oneCpu [] [bufferGroup abi n] _ (asksFor_single rfl hmax)
      (main_bufferGroup hpos hmax []) _ _ _ List.mem_cons_self
    exact hexact.1 hfirst.1
  · have hcall : BenchmarkCall.bandwidth (mibToBytes abi n) "mmap" Config.bandwidthRepeats (-1) ∈
        latencyCalls { bandwidthSize := mibToBytes abi n } ++
          bandwidthCalls { bandwidthSize := mibToBytes abi n } :=
      List.mem_append_right _ List.mem_cons_self
    have hfirst := h oneCpu [] [bandwidthGroup abi n] _ (asksFor_single rfl hmax)
      (main_bandwidthGroup hpos hmax []) _ _ _ _ hcall
    exact hexact.1 hfirst

theorem sizes_honoured_4095 : BufferHonoured .i386 4095 ∧ BandwidthHonoured .i386 4095 := by
  have hiff := @sizes_honoured_iff .i386 4095 (by decide) (by decide)
  exact ⟨hiff.1.2 fun _ => le_rfl, hiff.2.2 fun _ => le_rfl⟩

/-- With 32 bits, 4096 MiB are no bytes, and the benchmarks run on the default buffer. -/
theorem size_4096_lost :
    ∃ calls, main oneCpu (["latency_analyzer", "--buffer-mib", "4096"].map String.toList) =
        (.runs calls : MainResult .i386) ∧
      (∃ call, .latency 0 (-1) call ∈ calls) ∧
      ∀ (sys : Latency.System) (lineSize : SizeT .i386) (o : Latency.LatencyMeasurer .i386),
        Latency.construct sys 0 lineSize (-1) = .ok o → o.bufferSize = 32 * 2 ^ 20 := by
  have hargv : ["latency_analyzer", "--buffer-mib", "4096"].map String.toList =
      commandLine "latency_analyzer".toList [bufferGroup .i386 4096] := by decide +kernel
  have hzero : mibToBytes .i386 (4096 : Nat) = 0 := by decide
  have hmain := @main_bufferGroup .i386 4096 (by decide) (by decide) "latency_analyzer".toList
  rw [← hargv, hzero] at hmain
  refine ⟨_, hmain, ⟨_, List.mem_cons_self⟩, fun sys lineSize o hconstruct => ?_⟩
  exact (Latency.constructed_construct hconstruct).bufferSize

end Sizes

end CommandLine
end LatencyAnalyzer
