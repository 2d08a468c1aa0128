import LatencyAnalyzer.Cxx.Double
import LatencyAnalyzer.Lib.CsvReader
import LatencyAnalyzer.Report.Honesty

/-!
# Layout — what a reader finds in the file of `Reporter::write_csv`

The header and the three kinds of rows are written apart from each other.  A reader that takes
the fields by their place finds each of them under the name that it belongs to.
-/

namespace LatencyAnalyzer
namespace Report

open Cxx
open Lib
open Lib.Csv

/-! ## Columns -/

inductive Column
  | type
  | label
  | samples
  | meanCycles
  | medianCycles
  | p95Cycles
  | p99Cycles
  | stdDevCycles
  | minCycles
  | maxCycles
  | meanNanoseconds
  | readGiBps
  | writeGiBps
  | copyGiBps
  | allocator
  | bytes
  deriving DecidableEq, Repr

namespace Column

def name : Column → Text
  | .type => lit "Type"
  | .label => lit "Label"
  | .samples => lit "Samples"
  | .meanCycles => lit "MeanCycles"
  | .medianCycles => lit "MedianCycles"
  | .p95Cycles => lit "P95Cycles"
  | .p99Cycles => lit "P99Cycles"
  | .stdDevCycles => lit "StdDevCycles"
  | .minCycles => lit "MinCycles"
  | .maxCycles => lit "MaxCycles"
  | .meanNanoseconds => lit "MeanNanoseconds"
  | .readGiBps => lit "ReadGiBps"
  | .writeGiBps => lit "WriteGiBps"
  | .copyGiBps => lit "CopyGiBps"
  | .allocator => lit "Allocator"
  | .bytes => lit "Bytes"

/-- The columns from left to right. -/
def all : List Column :=
  [.type, .label, .samples, .meanCycles, .medianCycles, .p95Cycles, .p99Cycles, .stdDevCycles,
    .minCycles, .maxCycles, .meanNanoseconds, .readGiBps, .writeGiBps, .copyGiBps, .allocator,
    .bytes]

def header : List Text :=
  all.map name

theorem mem_all (column : Column) : column ∈ all := by
  cases column <;> decide

theorem name_injective : Function.Injective name := by
  have hnames : ∀ a ∈ all, ∀ b ∈ all, a.name = b.name → a = b := by decide +kernel
  exact fun a b h => hnames a (mem_all a) b (mem_all b) h

theorem isPlain_name (column : Column) : IsPlain column.name := by
  have hnames : ∀ a ∈ all, IsPlain a.name := by decide +kernel
  exact hnames column (mem_all column)

end Column

/-! ## What belongs into the columns -/

section Entries

variable {abi : Abi} (fmt : Format ℚ) (tscHz : ℚ)

/-- The columns of a summary; the others are `rest`. -/
def summaryEntry (s : Statistics.Summary ℚ) (rest : Column → Text) : Column → Text
  | .samples => Text.decimal s.count
  | .meanCycles => fmt.general s.mean
  | .medianCycles => fmt.general s.median
  | .p95Cycles => fmt.general s.p95
  | .p99Cycles => fmt.general s.p99
  | .stdDevCycles => fmt.general s.stddev
  | .minCycles => fmt.general s.min
  | .maxCycles => fmt.general s.max
  | .meanNanoseconds => fmt.general (cyclesToNs s.mean tscHz)
  | column => rest column

/-- The columns that every row has. -/
def rowEntry (type label : Text) : Column → Text
  | .type => type
  | .label => label
  | _ => []

def latencyEntry (result : Latency.MeasurementResult abi) : Column → Text :=
  summaryEntry fmt tscHz result.stats (rowEntry (lit "latency") (lit result.label))

def bandwidthEntry (result : BandwidthResult abi ℚ) : Column → Text
  | .readGiBps => fmt.general result.readGbS
  | .writeGiBps => fmt.general result.writeGbS
  | .copyGiBps => fmt.general result.copyGbS
  | .allocator => lit result.allocator
  | .bytes => Text.decimal result.sizeBytes.toNat
  | column => rowEntry (lit "bandwidth") (lit result.allocator) column

def sharedMemoryEntry (result : SharedMemory.SharedMemoryResult) : Column → Text :=
  summaryEntry fmt tscHz result.stats
    (rowEntry (lit "shared_memory") (lit "Cross-process round trip"))

/-! ## Rows as cells -/

/-- No text of a number has a character with a meaning in it. -/
def Format.Plain (fmt : Format ℚ) : Prop :=
  ∀ v, IsPlain (fmt.general v)

theorem isFieldText_of_isDigit {c : Char} (h : c.isDigit = true) : IsFieldText c := by
  refine ⟨?_, ?_, ?_, ?_⟩ <;>
  · rintro rfl
    exact absurd h (by decide)

/-- The format of the streams. -/
def streamFormat : Format ℚ :=
  { general := Double.general
    fixed := Double.fixed }

theorem streamFormat_plain : streamFormat.Plain := by
  intro v c hc
  have hsigns : IsPlain ['.', '-', '+', 'e'] := by decide
  rcases Double.isNumberText_general v c hc with hdigit | hother
  · exact isFieldText_of_isDigit hdigit
  · exact hsigns c (by simpa using hother)

theorem isPlain_decimal (n : Nat) : IsPlain (Text.decimal n) :=
  fun _ hc => isFieldText_of_isDigit (Text.isDigit_of_mem_decimal hc)

variable {fmt} (hfmt : fmt.Plain)

def blankCell : Cell :=
  .plain [] (by decide)

def countCell (n : Nat) : Cell :=
  .plain (Text.decimal n) (isPlain_decimal n)

def numberCell (v : ℚ) : Cell :=
  .plain (fmt.general v) (hfmt v)

def headerCells : List Cell :=
  Column.all.map fun column => .plain column.name column.isPlain_name

/-- The cells of a summary, and those to the right of it. -/
def summaryCells (s : Statistics.Summary ℚ) : List Cell :=
  [countCell s.count, numberCell hfmt s.mean, numberCell hfmt s.median, numberCell hfmt s.p95,
    numberCell hfmt s.p99, numberCell hfmt s.stddev, numberCell hfmt s.min, numberCell hfmt s.max,
    numberCell hfmt (cyclesToNs s.mean tscHz)] ++ List.replicate 5 blankCell

def latencyCells (result : Latency.MeasurementResult abi) : List Cell :=
  .plain (lit "latency") (by decide) :: .quoted (lit result.label) ::
    summaryCells tscHz hfmt result.stats

def bandwidthCells (result : BandwidthResult abi ℚ) : List Cell :=
  .plain (lit "bandwidth") (by decide) :: .quoted (lit result.allocator) ::
    List.replicate 9 blankCell ++
      [numberCell hfmt result.readGbS, numberCell hfmt result.writeGbS,
        numberCell hfmt result.copyGbS, .quoted (lit result.allocator),
        countCell result.sizeBytes.toNat]

def sharedMemoryCells (result : SharedMemory.SharedMemoryResult) : List Cell :=
  .plain (lit "shared_memory") (by decide) :: .quoted (lit "Cross-process round trip") ::
    summaryCells tscHz hfmt result.stats

theorem latencyCells_contents (result : Latency.MeasurementResult abi) :
    (latencyCells tscHz hfmt result).map Cell.contents =
      Column.all.map (latencyEntry fmt tscHz result) := rfl

theorem bandwidthCells_contents (result : BandwidthResult abi ℚ) :
    (bandwidthCells hfmt result).map Cell.contents =
      Column.all.map (bandwidthEntry fmt result) := rfl

theorem sharedMemoryCells_contents (result : SharedMemory.SharedMemoryResult) :
    (sharedMemoryCells tscHz hfmt result).map Cell.contents =
      Column.all.map (sharedMemoryEntry fmt tscHz result) := rfl

/-! ## The text of the rows -/

theorem csvHeader_eq : csvHeader = renderRecord .lf headerCells := by
  unfold csvHeader lit
  rw [String.toList_append, String.toList_append]
  decide +kernel

theorem lit_comma : lit "," = [','] := lit_ofList _

/-- The end of a field in quotes. -/
theorem lit_quote_comma : lit "\"," = ['"', ','] := lit_ofList _

theorem flatten_summaryFields (s : Statistics.Summary ℚ) :
    (summaryFields fmt s tscHz).flatten = renderRecord .lf (summaryCells tscHz hfmt s) := by
  have hend : lit ",,,,,\n" = [',', ',', ',', ',', ',', '\n'] := lit_ofList _
  simp [summaryFields, summaryCells, renderRecord, Cell.render, countCell, numberCell, blankCell,
    LineBreak.chars, List.replicate, lit_comma, hend]

theorem flatten_latencyRow (result : Latency.MeasurementResult abi)
    (hlabel : '"' ∉ lit result.label) :
    (latencyRow fmt tscHz result).flatten = renderRecord .lf (latencyCells tscHz hfmt result) := by
  have hopen : lit "latency,\"" = lit "latency" ++ [',', '"'] := rfl
  rw [latencyRow, List.flatten_cons, List.flatten_cons, List.flatten_cons,
    flatten_summaryFields tscHz hfmt]
  simp [latencyCells, summaryCells, renderRecord, Cell.render, flatMap_escapeQuote hlabel, hopen,
    lit_quote_comma]

theorem flatten_bandwidthRow (result : BandwidthResult abi ℚ)
    (hallocator : '"' ∉ lit result.allocator) :
    (bandwidthRow fmt result).flatten = renderRecord .lf (bandwidthCells hfmt result) := by
  have hopen : lit "bandwidth,\"" = lit "bandwidth" ++ [',', '"'] := rfl
  have hskip : lit "\",,,,,,,,,," = '"' :: List.replicate 10 ',' := rfl
  have hquote : lit ",\"" = [',', '"'] := lit_ofList _
  have hend : lit "\n" = ['\n'] := lit_ofList _
  simp [bandwidthRow, bandwidthCells, renderRecord, Cell.render, countCell, numberCell, blankCell,
    LineBreak.chars, List.replicate, flatMap_escapeQuote hallocator, hopen, hskip, hquote, hend,
    lit_comma, lit_quote_comma]

theorem flatten_sharedMemoryRow (result : SharedMemory.SharedMemoryResult) :
    (sharedMemoryRow fmt tscHz result).flatten =
      renderRecord .lf (sharedMemoryCells tscHz hfmt result) := by
  have hopen : lit "shared_memory,\"Cross-process round trip\"," =
      lit "shared_memory" ++ [',', '"'] ++ lit "Cross-process round trip" ++ ['"', ','] := rfl
  have hlabel : '"' ∉ lit "Cross-process round trip" := by decide
  rw [sharedMemoryRow, List.flatten_cons, flatten_summaryFields tscHz hfmt]
  simp [sharedMemoryCells, summaryCells, renderRecord, Cell.render, flatMap_escapeQuote hlabel,
    hopen]

/-- The rows of a list of results, one after the other. -/
theorem flatten_flatMap_rows {α : Type*} {row : α → List Text} {cells : α → List Cell}
    {results : List α} (h : ∀ result ∈ results, (row result).flatten =
      renderRecord .lf (cells result)) :
    (results.flatMap row).flatten = (results.map cells).flatMap (renderRecord .lf) := by
  induction results with
  | nil => rfl
  | cons result results ih =>
      rw [List.flatMap_cons, List.flatten_append, h result List.mem_cons_self,
        ih fun x hx => h x (List.mem_cons_of_mem result hx), List.map_cons, List.flatMap_cons]

/-- The records of the file. -/
def csvRows (latency : List (Latency.MeasurementResult abi))
    (bandwidth : List (BandwidthResult abi ℚ))
    (sharedMemory : Option SharedMemory.SharedMemoryResult) : List (List Cell) :=
  headerCells :: (latency.map (latencyCells tscHz hfmt) ++ bandwidth.map (bandwidthCells hfmt) ++
    (sharedMemory.filter (·.success)).toList.map (sharedMemoryCells tscHz hfmt))

/-- A failed measurement has no row and no record. -/
theorem csvPieces_eq (latency : List (Latency.MeasurementResult abi))
    (bandwidth : List (BandwidthResult abi ℚ))
    (sharedMemory : Option SharedMemory.SharedMemoryResult) :
    csvPieces fmt latency bandwidth sharedMemory tscHz =
      csvHeader :: latency.flatMap (latencyRow fmt tscHz) ++
        bandwidth.flatMap (bandwidthRow fmt) ++
        (sharedMemory.filter (·.success)).toList.flatMap (sharedMemoryRow fmt tscHz) := by
  cases sharedMemory with
  | none => rfl
  | some result =>
      cases hsuccess : result.success <;> simp [csvPieces, Option.filter, hsuccess]

theorem flatten_csvPieces {latency : List (Latency.MeasurementResult abi)}
    {bandwidth : List (BandwidthResult abi ℚ)}
    (sharedMemory : Option SharedMemory.SharedMemoryResult)
    (hlabels : ∀ result ∈ latency, '"' ∉ lit result.label)
    (hallocators : ∀ result ∈ bandwidth, '"' ∉ lit result.allocator) :
    (csvPieces fmt latency bandwidth sharedMemory tscHz).flatten =
      (csvRows tscHz hfmt latency bandwidth sharedMemory).flatMap (renderRecord .lf) := by
  have hlatency := flatten_flatMap_rows fun result hmem =>
    flatten_latencyRow tscHz hfmt result (hlabels result hmem)
  have hbandwidth := flatten_flatMap_rows fun result hmem =>
    flatten_bandwidthRow hfmt result (hallocators result hmem)
  have hshared := flatten_flatMap_rows fun result (_ : result ∈
      (sharedMemory.filter (·.success)).toList) => flatten_sharedMemoryRow tscHz hfmt result
  rw [csvPieces_eq, csvRows, List.flatten_append, List.flatten_append, List.flatten_cons,
    hlatency, hbandwidth, hshared, csvHeader_eq, List.flatMap_cons, List.flatMap_append,
    List.flatMap_append, List.append_assoc, List.append_assoc, List.append_assoc]

theorem csvRows_ne_nil (latency : List (Latency.MeasurementResult abi))
    (bandwidth : List (BandwidthResult abi ℚ))
    (sharedMemory : Option SharedMemory.SharedMemoryResult) :
    ∀ row ∈ csvRows tscHz hfmt latency bandwidth sharedMemory, row ≠ [] := by
  intro row hrow
  simp only [csvRows, List.mem_cons, List.mem_append, List.mem_map] at hrow
  rcases hrow with rfl | (⟨result, _, rfl⟩ | ⟨result, _, rfl⟩) | ⟨result, _, rfl⟩
  · exact List.cons_ne_nil _ _
  · exact List.cons_ne_nil _ _
  · exact List.cons_ne_nil _ _
  · exact List.cons_ne_nil _ _

theorem headerCells_contents : headerCells.map Cell.contents = Column.header := rfl

theorem csvRows_contents (latency : List (Latency.MeasurementResult abi))
    (bandwidth : List (BandwidthResult abi ℚ))
    (sharedMemory : Option SharedMemory.SharedMemoryResult) :
    (csvRows tscHz hfmt latency bandwidth sharedMemory).map (List.map Cell.contents) =
      Column.header ::
        (latency.map (fun result => Column.all.map (latencyEntry fmt tscHz result)) ++
          bandwidth.map (fun result => Column.all.map (bandwidthEntry fmt result)) ++
          (sharedMemory.filter (·.success)).toList.map fun result =>
            Column.all.map (sharedMemoryEntry fmt tscHz result)) := by
  simp only [csvRows, List.map_cons, List.map_append, List.map_map, Function.comp_def,
    headerCells_contents, latencyCells_contents, bandwidthCells_contents,
    sharedMemoryCells_contents]

/-! ## What is read -/

variable (fmt)

/-- The record has a field for each name of the header, and each is what belongs under it. -/
structure Reads (entry : Column → Text) (record : List Text) : Prop where
  length : record.length = 16
  field : ∀ column : Column, fieldUnder Column.header record column.name = some (entry column)

/-- The record of a latency result, with its label and its count. -/
structure IsLatencyRecord (result : Latency.MeasurementResult abi) (record : List Text) :
    Prop where
  reads : Reads (latencyEntry fmt tscHz result) record
  label : (fieldUnder Column.header record (lit "Label")).map String.ofList = some result.label
  samples : (fieldUnder Column.header record (lit "Samples")).map Text.decimalValue =
    some result.stats.count

structure IsBandwidthRecord (result : BandwidthResult abi ℚ) (record : List Text) : Prop where
  reads : Reads (bandwidthEntry fmt result) record
  label : (fieldUnder Column.header record (lit "Label")).map String.ofList =
    some result.allocator
  allocator : (fieldUnder Column.header record (lit "Allocator")).map String.ofList =
    some result.allocator
  bytes : (fieldUnder Column.header record (lit "Bytes")).map Text.decimalValue =
    some result.sizeBytes.toNat

structure IsSharedMemoryRecord (result : SharedMemory.SharedMemoryResult) (record : List Text) :
    Prop where
  reads : Reads (sharedMemoryEntry fmt tscHz result) record
  samples : (fieldUnder Column.header record (lit "Samples")).map Text.decimalValue =
    some result.stats.count

theorem reads_map (entry : Column → Text) : Reads entry (Column.all.map entry) :=
  { length := rfl
    field := fun column => fieldUnder_map Column.name_injective column.mem_all }

theorem Reads.value {α : Type*} {entry : Column → Text} {record : List Text}
    (h : Reads entry record) (column : Column) {f : Text → α} {value : α}
    (hvalue : f (entry column) = value) :
    (fieldUnder Column.header record column.name).map f = some value := by
  rw [h.field, Option.map_some, hvalue]

theorem ofList_lit (s : String) : String.ofList (lit s) = s :=
  String.ofList_toList

theorem isLatencyRecord_map (result : Latency.MeasurementResult abi) :
    IsLatencyRecord fmt tscHz result (Column.all.map (latencyEntry fmt tscHz result)) := by
  have hreads := reads_map (latencyEntry fmt tscHz result)
  exact
    { reads := hreads
      label := hreads.value .label (ofList_lit result.label)
      samples := hreads.value .samples (Text.decimalValue_decimal result.stats.count) }

theorem isBandwidthRecord_map (result : BandwidthResult abi ℚ) :
    IsBandwidthRecord fmt result (Column.all.map (bandwidthEntry fmt result)) := by
  have hreads := reads_map (bandwidthEntry fmt result)
  exact
    { reads := hreads
      label := hreads.value .label (ofList_lit result.allocator)
      allocator := hreads.value .allocator (ofList_lit result.allocator)
      bytes := hreads.value .bytes (Text.decimalValue_decimal result.sizeBytes.toNat) }

theorem isSharedMemoryRecord_map (result : SharedMemory.SharedMemoryResult) :
    IsSharedMemoryRecord fmt tscHz result
      (Column.all.map (sharedMemoryEntry fmt tscHz result)) := by
  have hreads := reads_map (sharedMemoryEntry fmt tscHz result)
  exact
    { reads := hreads
      samples := hreads.value .samples (Text.decimalValue_decimal result.stats.count) }

/-- The file can be opened and takes the whole text. -/
def Destination.Takes (d : Destination) (text : Text) : Prop :=
  d.opens = true ∧ text.length ≤ d.sink.limit

theorem file_writeUnchecked_of_takes {d : Destination} {pieces : List Text}
    (h : d.Takes pieces.flatten) : (writeUnchecked d pieces).file = pieces.flatten := by
  rw [file_writeUnchecked, if_pos h.1, List.take_of_length_le h.2]

/-- The header is followed by a record for each latency result, each bandwidth result and the
shared-memory result, if that has succeeded. -/
theorem csv_layout (latency : List (Latency.MeasurementResult abi))
    (bandwidth : List (BandwidthResult abi ℚ))
    (sharedMemory : Option SharedMemory.SharedMemoryResult) (d : Destination)
    (hfmt : fmt.Plain)
    (hlabels : ∀ result ∈ latency, '"' ∉ result.label.toList)
    (hallocators : ∀ result ∈ bandwidth, '"' ∉ result.allocator.toList)
    (hd : d.Takes (csvPieces fmt latency bandwidth sharedMemory tscHz).flatten) :
    ∃ latencyRecords bandwidthRecords sharedMemoryRecords : List (List Text),
      readCsv (writeCsv fmt d latency bandwidth sharedMemory tscHz).file =
        some (Column.header :: (latencyRecords ++ bandwidthRecords ++ sharedMemoryRecords)) ∧
      Column.header.length = 16 ∧
      List.Forall₂ (IsLatencyRecord fmt tscHz) latency latencyRecords ∧
      List.Forall₂ (IsBandwidthRecord fmt) bandwidth bandwidthRecords ∧
      List.Forall₂ (IsSharedMemoryRecord fmt tscHz) (sharedMemory.filter (·.success)).toList
        sharedMemoryRecords := by
  refine ⟨latency.map fun result => Column.all.map (latencyEntry fmt tscHz result),
    bandwidth.map fun result => Column.all.map (bandwidthEntry fmt result),
    (sharedMemory.filter (·.success)).toList.map fun result =>
      Column.all.map (sharedMemoryEntry fmt tscHz result), ?_, rfl, ?_, ?_, ?_⟩
  · have hrows := flatten_csvPieces tscHz hfmt sharedMemory hlabels hallocators
    calc
      readCsv (writeCsv fmt d latency bandwidth sharedMemory tscHz).file
          = readCsv (csvPieces fmt latency bandwidth sharedMemory tscHz).flatten := by
            rw [writeCsv, file_writeUnchecked_of_takes hd]
      _ = readCsv ((csvRows tscHz hfmt latency bandwidth sharedMemory).flatMap
            (renderRecord .lf)) := by rw [hrows]
      _ = some ((csvRows tscHz hfmt latency bandwidth sharedMemory).map
            (List.map Cell.contents)) :=
            readCsv_flatMap_renderRecord .lf _ (csvRows_ne_nil tscHz hfmt _ _ _)
      _ = _ := by rw [csvRows_contents]
  · exact List.forall₂_map_right_iff.2 (List.forall₂_same.2 fun result _ =>
      isLatencyRecord_map fmt tscHz result)
  · exact List.forall₂_map_right_iff.2 (List.forall₂_same.2 fun result _ =>
      isBandwidthRecord_map fmt result)
  · exact List.forall₂_map_right_iff.2 (List.forall₂_same.2 fun result _ =>
      isSharedMemoryRecord_map fmt tscHz result)

end Entries

/-! ## One row of each kind -/

def strideResult : Latency.MeasurementResult .x8664 :=
  { label := "Stride 64 B (dependent pointer chase)"
    stats :=
      { count := 3
        mean := 13 / 3
        median := 4
        p95 := 49 / 10
        p99 := 249 / 50
        stddev := 11 / 20
        min := 4
        max := 5 }
    timerOverheadCycles := 24 }

def mallocResult : BandwidthResult .x8664 ℚ :=
  { allocator := "malloc"
    sizeBytes := 67108864
    readGbS := 25 / 2
    writeGbS := 31 / 4
    copyGbS := 123456789 / 10 }

def pingPongResult : SharedMemory.SharedMemoryResult :=
  { stats := strideResult.stats
    iterations := 3
    producerCpu := 0
    consumerCpu := 1
    success := true
    errorMessage := "" }

/-- A file of a page at most. -/
def page : Destination :=
  { opens := true, sink := { limit := 4096, drain := fun _ _ => 0 } }

theorem csv_layout_three :
    ∃ record₁ record₂ record₃ : List Text,
      readCsv (writeCsv streamFormat page [strideResult] [mallocResult] (some pingPongResult)
        3000000000).file = some [Column.header, record₁, record₂, record₃] ∧
      IsLatencyRecord streamFormat 3000000000 strideResult record₁ ∧
      IsBandwidthRecord streamFormat mallocResult record₂ ∧
      IsSharedMemoryRecord streamFormat 3000000000 pingPongResult record₃ := by
  rcases csv_layout streamFormat 3000000000 [strideResult] [mallocResult] (some pingPongResult)
    page streamFormat_plain (by decide) (by decide) ⟨rfl, by decide +kernel⟩
    with ⟨latencyRecords, bandwidthRecords, sharedMemoryRecords, hread, _, hlatency, hbandwidth,
      hshared⟩
  have hsucceeded : ((some pingPongResult).filter (·.success)).toList = [pingPongResult] := rfl
  rw [hsucceeded] at hshared
  rcases List.forall₂_cons_left_iff.1 hlatency with ⟨record₁, rest₁, hrecord₁, hrest₁, rfl⟩
  rcases List.forall₂_cons_left_iff.1 hbandwidth with ⟨record₂, rest₂, hrecord₂, hrest₂, rfl⟩
  rcases List.forall₂_cons_left_iff.1 hshared with ⟨record₃, rest₃, hrecord₃, hrest₃, rfl⟩
  cases hrest₁
  cases hrest₂
  cases hrest₃
  exact ⟨record₁, record₂, record₃, hread, hrecord₁, hrecord₂, hrecord₃⟩

end Report
end LatencyAnalyzer
