import LatencyAnalyzer.CommandLine.Outcome
import LatencyAnalyzer.Lib.Journal

/-!
# History — `history.csv` over many runs of the analysis

Every run that has written its CSV file appends a block to the history: a time stamp, one line for
each result and a line of dashes.  The writer does not look at its stream, so a full disk cuts a
block anywhere, and the next run that finds room goes on from there.  Each block that arrived whole
comes back, behind what was torn in front of it, and nothing else does.
-/

namespace LatencyAnalyzer
namespace CommandLine

open Cxx Report Lib

section History

variable {abi : Abi}

/-! ## Blocks -/

/-- The line that ends a block. -/
def historyMarker : Text :=
  lit "----"

def latencyLine (result : Latency.MeasurementResult abi) : Text :=
  lit "latency,\"" ++ lit result.label ++ lit "\"," ++ streamFormat.general result.stats.median

def bandwidthLine (result : BandwidthResult abi ℚ) : Text :=
  lit "bandwidth," ++ lit result.allocator ++ lit "," ++ streamFormat.general result.readGbS ++
    lit "," ++ streamFormat.general result.writeGbS ++ lit "," ++
    streamFormat.general result.copyGbS

/-- The lines of a block in front of its marker. -/
def historyBlock (r : Results abi) : List Text :=
  r.timestamp :: (r.latencyResults.map latencyLine ++ r.bandwidthResults.map bandwidthLine)

theorem lit_newline : lit "\n" = ['\n'] := lit_ofList _

/-- Pieces that make up one line for every result. -/
theorem flatten_flatMap_lines {α : Type*} {pieces : α → List Text} {line : α → Text}
    (h : ∀ a, (pieces a).flatten = line a ++ ['\n']) (results : List α) :
    (results.flatMap pieces).flatten = Journal.body '\n' (results.map line) := by
  induction results with
  | nil => rfl
  | cons a results ih =>
      rw [List.flatMap_cons, List.flatten_append, h, ih]
      rfl

/-- What `append_history` inserts is one block. -/
theorem flatten_historyPieces (r : Results abi) :
    (historyPieces streamFormat r.timestamp r.latencyResults r.bandwidthResults).flatten =
      Journal.render '\n' historyMarker (historyBlock r) := by
  have hlatency : ∀ result : Latency.MeasurementResult abi,
      [lit "latency,\"", lit result.label, lit "\",", streamFormat.general result.stats.median,
        lit "\n"].flatten = latencyLine result ++ ['\n'] := by
    intro result
    simp [latencyLine, lit_newline]
  have hbandwidth : ∀ result : BandwidthResult abi ℚ,
      [lit "bandwidth,", lit result.allocator, lit ",", streamFormat.general result.readGbS,
        lit ",", streamFormat.general result.writeGbS, lit ",",
        streamFormat.general result.copyGbS, lit "\n"].flatten =
      bandwidthLine result ++ ['\n'] := by
    intro result
    simp [bandwidthLine, lit_newline]
  have hmarker : lit "----\n" = historyMarker ++ ['\n'] := rfl
  unfold historyPieces
  rw [List.flatten_append, List.flatten_append, List.flatten_append,
    flatten_flatMap_lines hlatency, flatten_flatMap_lines hbandwidth, List.flatten_singleton,
    hmarker, List.flatten_cons, List.flatten_singleton, lit_newline]
  unfold Journal.render historyBlock Journal.body
  rw [List.flatMap_cons, List.flatMap_append]
  simp only [List.append_assoc]

/-! ### Lines that are no markers -/

/-- The format `%Y-%m-%d %H:%M:%S` prints numbers, and nothing that ends a line. -/
structure IsTimestamp (text : Text) : Prop where
  digit : ∃ c ∈ text, c.isDigit = true
  line : '\n' ∉ text

theorem not_mem_historyMarker {c : Char} (h : c.isDigit = true) : c ∉ historyMarker := by
  intro hc
  have hdashes : historyMarker = List.replicate 4 '-' := rfl
  rw [hdashes] at hc
  rw [List.eq_of_mem_replicate hc] at h
  exact absurd h (by decide)

theorem isLine_timestamp {text : Text} (h : IsTimestamp text) :
    '\n' ∉ text ∧ text ≠ historyMarker := by
  refine ⟨h.line, ?_⟩
  rintro rfl
  obtain ⟨c, hc, hdigit⟩ := h.digit
  exact not_mem_historyMarker hdigit hc

theorem newline_not_mem_general (v : ℚ) : '\n' ∉ streamFormat.general v :=
  fun hc => (streamFormat_plain v _ hc).2.2.1 rfl

theorem isLine_latencyLine {result : Latency.MeasurementResult abi}
    (h : IsPlain (lit result.label)) :
    '\n' ∉ latencyLine result ∧ latencyLine result ≠ historyMarker := by
  have hopen : '\n' ∉ lit "latency,\"" := by decide
  have hclose : '\n' ∉ lit "\"," := by decide
  have hlabel : '\n' ∉ lit result.label := fun hc => (h _ hc).2.2.1 rfl
  constructor
  · unfold latencyLine
    simp [hopen, hclose, hlabel, newline_not_mem_general]
  · intro heq
    cases congrArg List.head? heq

theorem isLine_bandwidthLine {result : BandwidthResult abi ℚ}
    (h : IsPlain (lit result.allocator)) :
    '\n' ∉ bandwidthLine result ∧ bandwidthLine result ≠ historyMarker := by
  have hopen : '\n' ∉ lit "bandwidth," := by decide
  have hcomma : '\n' ∉ lit "," := by decide
  have hallocator : '\n' ∉ lit result.allocator := fun hc => (h _ hc).2.2.1 rfl
  constructor
  · unfold bandwidthLine
    simp [hopen, hcomma, hallocator, newline_not_mem_general]
  · intro heq
    cases congrArg List.head? heq

theorem isBlock_resultsOf {m : Machine abi} (hstamp : IsTimestamp m.timestamp) (s : Settings abi)
    (o : Latency.LatencyMeasurer abi) (tscHz : ℚ)
    (sharedMemory : SharedMemory.SharedMemoryResult) :
    Journal.IsBlock '\n' historyMarker (historyBlock (resultsOf m s o tscHz sharedMemory)) where
  lines := by
    unfold historyBlock
    refine List.forall_mem_cons.2 ⟨isLine_timestamp hstamp, ?_⟩
    intro line hline
    rcases List.mem_append.1 hline with hline | hline
    · obtain ⟨result, hresult, rfl⟩ := List.mem_map.1 hline
      exact isLine_latencyLine (isPlain_label s o result hresult)
    · obtain ⟨result, hresult, rfl⟩ := List.mem_map.1 hline
      exact isLine_bandwidthLine (isPlain_allocator result hresult)
  stamp := by
    obtain ⟨c, hc, hdigit⟩ := hstamp.digit
    exact ⟨_, _, rfl, c, hc, not_mem_historyMarker hdigit⟩

/-! ## Runs -/

/-- A run of the analysis, with the command line that it was started by and what it finds when it
opens its two files. -/
structure Run (abi : Abi) where
  argv : List Text
  settings : Settings abi
  configured : configure abi argv = .parsed settings
  machine : Machine abi
  timestamp : IsTimestamp machine.timestamp
  fuel : Nat
  csvAt : Destination
  historyOpens : Bool
  /-- The number of bytes that the history can still grow by when the run appends to it. -/
  room : Nat
  /-- How the stream hands its bytes on to the history. -/
  drain : Nat → Nat → Nat

/-- The block that a run appends, if it comes to that and the history can be opened. -/
def Run.block (run : Run abi) : Option (List Text) :=
  match analyze run.machine run.settings run.fuel with
  | some (.ok r) =>
      if r.csvFile ≠ [] ∧ run.csvAt.opens = true ∧ run.historyOpens = true then
        some (historyBlock r)
      else
        none
  | _ => none

/-- The history after a run. -/
def appendRun (file : Text) (run : Run abi) : Text :=
  let historyAt : Destination :=
    { opens := run.historyOpens, sink := { limit := run.room, drain := run.drain } }
  match runAnalysis streamFormat run.csvAt historyAt run.machine run.settings run.fuel with
  | some e => file ++ e.history.file
  | none => file

/-- The history after some runs, from no history on. -/
def historyAfter (runs : List (Run abi)) : Text :=
  runs.foldl appendRun []

/-- The block of a run, and the room that it finds. -/
def Run.piece (run : Run abi) : Option (Journal.Piece Char) :=
  run.block.map fun block => { block := block, room := run.room }

theorem block_of_analyze {run : Run abi} {r : Results abi}
    (h : analyze run.machine run.settings run.fuel = some (.ok r)) (hfile : r.csvFile ≠ [])
    (hcsv : run.csvAt.opens = true) (hhistory : run.historyOpens = true) :
    run.block = some (historyBlock r) := by
  unfold Run.block
  rw [h]
  exact if_pos ⟨hfile, hcsv, hhistory⟩

theorem isBlock_block {run : Run abi} {block : List Text} (h : run.block = some block) :
    Journal.IsBlock '\n' historyMarker block := by
  unfold Run.block at h
  split at h
  · rename_i r hanalyze
    split at h
    · cases h
      obtain ⟨o, tscHz, sharedMemory, rfl⟩ :=
        analyze_inversion (legal_of_configure run.configured) hanalyze
      exact isBlock_resultsOf run.timestamp run.settings o tscHz sharedMemory
    · cases h
  · cases h

theorem isBlock_piece {run : Run abi} {piece : Journal.Piece Char} (h : run.piece = some piece) :
    Journal.IsBlock '\n' historyMarker piece.block := by
  obtain ⟨block, hblock, rfl⟩ := Option.map_eq_some_iff.1 h
  exact isBlock_block hblock

/-- A run adds what there is room for of its block. -/
theorem appendRun_eq (file : Text) (run : Run abi) :
    appendRun file run = file ++ run.piece.elim [] (Journal.Piece.text '\n' historyMarker) := by
  unfold appendRun runAnalysis Run.piece Run.block
  dsimp only
  cases analyze run.machine run.settings run.fuel with
  | none => simp
  | some outcome =>
      cases outcome with
      | error failure => simp [finish]
      | ok r =>
          dsimp only [Option.map, finish, reportResults]
          by_cases hfile : r.csvFile = []
          · rw [if_pos hfile, if_neg (fun h => h.1 hfile)]
            simp
          · rw [if_neg hfile]
            -- The history is reached only if the CSV file could be opened.
            cases hcsv : run.csvAt.opens with
            | false =>
                simp [writeCsv, writeUnchecked, hcsv]
            | true =>
                have hreturned : ∀ pieces, (writeUnchecked run.csvAt pieces).returned = true := by
                  intro pieces
                  unfold writeUnchecked
                  rw [if_pos hcsv]
                unfold writeCsv appendHistory
                rw [if_pos (hreturned _), file_writeUnchecked, flatten_historyPieces]
                cases run.historyOpens with
                | false => simp
                | true => simp [hfile, Journal.Piece.text]

theorem historyAfter_eq (runs : List (Run abi)) :
    historyAfter runs =
      (runs.filterMap Run.piece).flatMap (Journal.Piece.text '\n' historyMarker) := by
  induction runs using List.reverseRecOn with
  | nil => rfl
  | append_singleton runs run ih =>
      have hstep : historyAfter (runs ++ [run]) = appendRun (historyAfter runs) run :=
        List.foldl_append
      rw [hstep, appendRun_eq, ih, List.filterMap_append, List.flatMap_append]
      congr 1
      cases hpiece : run.piece <;> simp [hpiece]

end History

/-! ### A run on the plain machine -/

/-- The analysis with a CSV file, and files that open. -/
def plainRun : Run .x8664 :=
  { argv := withCsvFile
    settings := { csvFile := "out.csv".toList }
    configured := configure_withCsvFile
    machine := plainMachine
    timestamp := ⟨⟨'2', by decide, by decide⟩, by decide⟩
    fuel := 1
    csvAt := page
    historyOpens := true
    room := 4096
    drain := fun _ _ => 0 }

/-- This run appends its block. -/
example : plainRun.block ≠ none := by
  have hserves : plainMachine.Serves { csvFile := "out.csv".toList } 1 :=
    plainMachine_serves rfl (by decide +kernel) 1
  rcases analyze_spec (legal_of_configure configure_withCsvFile) plainMachine_ticks one_pos
      plainMachine_topology with ⟨_, o, tscHz, sharedMemory, _, _, _, hanalyze⟩ | ⟨hfails, _⟩
  · have hfile : ("out.csv".toList : Text) ≠ [] := by decide
    have hblock : plainRun.block = some _ := block_of_analyze hanalyze hfile rfl rfl
    rw [hblock]
    exact Option.some_ne_none _
  · exact absurd hserves hfails

end CommandLine
end LatencyAnalyzer
