import LatencyAnalyzer.Latency.Measurer
import LatencyAnalyzer.Lib.OutputStream
import LatencyAnalyzer.Report.Records
import LatencyAnalyzer.SharedMemory.Measurer

/-!
# Csv — `Reporter::write_csv` and `Reporter::append_history`

A writer is the list of texts it inserts into its stream, one for each `<<`, and what it does
with the stream after the last one.  These two return `true` without a look at the stream.
-/

namespace LatencyAnalyzer
namespace Report

open Cxx
open Lib

/-! ## Files -/

/-- A file name, as the writer finds it: whether it can be opened, and how the file takes bytes. -/
structure Destination where
  opens : Bool
  sink : Sink

/-- What a writer returns, and the bytes that it leaves in the file once the stream is closed. -/
structure Attempt where
  returned : Bool
  file : Text
  deriving DecidableEq, Repr

/-- `return true;` after the last insertion; the destructor of the stream closes the file. -/
def writeUnchecked (d : Destination) (pieces : List Text) : Attempt :=
  if d.opens then { returned := true, file := d.sink.close (d.sink.putAll pieces) }
  else { returned := false, file := [] }

/-- `return static_cast<bool>(out);` after the last insertion, before the destructor closes the
file. -/
def writeChecked (d : Destination) (pieces : List Text) : Attempt :=
  if d.opens then
    let out := d.sink.putAll pieces
    { returned := !out.failed, file := d.sink.close out }
  else
    { returned := false, file := [] }

def lit (s : String) : Text :=
  s.toList

/-- The characters of a literal are those that it is made of. -/
theorem lit_ofList (text : Text) : lit (String.ofList text) = text :=
  String.toList_ofList

/-! ## The rows -/

def cyclesToNs {K : Type*} [Field K] [LinearOrder K] (cycles tscHz : K) : K :=
  if tscHz ≤ 0 then 0 else cycles * 1000000000 / tscHz

/-- The fields that a latency row and the shared-memory row have in common. -/
def summaryFields (fmt : Format ℚ) (s : Statistics.Summary ℚ) (tscHz : ℚ) : List Text :=
  [Text.decimal s.count, lit ",", fmt.general s.mean, lit ",", fmt.general s.median, lit ",",
    fmt.general s.p95, lit ",", fmt.general s.p99, lit ",", fmt.general s.stddev, lit ",",
    fmt.general s.min, lit ",", fmt.general s.max, lit ",",
    fmt.general (cyclesToNs s.mean tscHz), lit ",,,,,\n"]

section Writers

variable {abi : Abi}

def csvHeader : Text :=
  lit ("Type,Label,Samples,MeanCycles,MedianCycles,P95Cycles," ++
    "P99Cycles,StdDevCycles,MinCycles,MaxCycles,MeanNanoseconds," ++
    "ReadGiBps,WriteGiBps,CopyGiBps,Allocator,Bytes\n")

def latencyRow (fmt : Format ℚ) (tscHz : ℚ) (result : Latency.MeasurementResult abi) :
    List Text :=
  lit "latency,\"" :: lit result.label :: lit "\"," :: summaryFields fmt result.stats tscHz

def bandwidthRow (fmt : Format ℚ) (result : BandwidthResult abi ℚ) : List Text :=
  [lit "bandwidth,\"", lit result.allocator, lit "\",,,,,,,,,,", fmt.general result.readGbS,
    lit ",", fmt.general result.writeGbS, lit ",", fmt.general result.copyGbS, lit ",\"",
    lit result.allocator, lit "\",", Text.decimal result.sizeBytes.toNat, lit "\n"]

def sharedMemoryRow (fmt : Format ℚ) (tscHz : ℚ) (result : SharedMemory.SharedMemoryResult) :
    List Text :=
  lit "shared_memory,\"Cross-process round trip\"," :: summaryFields fmt result.stats tscHz

/-- The insertions of `write_csv`; without the shared-memory test the pointer is null. -/
def csvPieces (fmt : Format ℚ) (latency : List (Latency.MeasurementResult abi))
    (bandwidth : List (BandwidthResult abi ℚ))
    (sharedMemory : Option SharedMemory.SharedMemoryResult) (tscHz : ℚ) : List Text :=
  csvHeader :: latency.flatMap (latencyRow fmt tscHz) ++ bandwidth.flatMap (bandwidthRow fmt) ++
    match sharedMemory with
    -- A failed measurement has no row.
    | some result => if result.success then sharedMemoryRow fmt tscHz result else []
    | none => []

def writeCsv (fmt : Format ℚ) (d : Destination) (latency : List (Latency.MeasurementResult abi))
    (bandwidth : List (BandwidthResult abi ℚ))
    (sharedMemory : Option SharedMemory.SharedMemoryResult) (tscHz : ℚ) : Attempt :=
  writeUnchecked d (csvPieces fmt latency bandwidth sharedMemory tscHz)

/-! ## The history -/

/-- The insertions of `append_history`, with the text of `timestamp()`. -/
def historyPieces (fmt : Format ℚ) (timestamp : Text)
    (latency : List (Latency.MeasurementResult abi)) (bandwidth : List (BandwidthResult abi ℚ)) :
    List Text :=
  [timestamp, lit "\n"] ++
    latency.flatMap (fun result =>
      [lit "latency,\"", lit result.label, lit "\",", fmt.general result.stats.median, lit "\n"]) ++
    bandwidth.flatMap (fun result =>
      [lit "bandwidth,", lit result.allocator, lit ",", fmt.general result.readGbS, lit ",",
        fmt.general result.writeGbS, lit ",", fmt.general result.copyGbS, lit "\n"]) ++
    [lit "----\n"]

/-- The file is opened at its end, and `Attempt.file` is what is added to it. -/
def appendHistory (fmt : Format ℚ) (timestamp : Text) (d : Destination)
    (latency : List (Latency.MeasurementResult abi)) (bandwidth : List (BandwidthResult abi ℚ)) :
    Attempt :=
  writeUnchecked d (historyPieces fmt timestamp latency bandwidth)

/-! ## The end of `main` -/

/-- The variables of `main` when it comes to the files. -/
structure Results (abi : Abi) where
  /-- The text of `timestamp()`. -/
  timestamp : Text
  csvFile : Text
  quiet : Bool
  runSharedMemory : Bool
  latencyResults : List (Latency.MeasurementResult abi)
  bandwidthResults : List (BandwidthResult abi ℚ)
  sharedMemory : SharedMemory.SharedMemoryResult
  tscHz : ℚ

/-- How `main` ends: its status, whether it prints that results were written to both files, and
what the two writers did. -/
structure ReportEnd where
  status : Int
  announced : Bool
  csv : Attempt
  history : Attempt

/-- The part of `main` that writes the files. -/
def reportResults (fmt : Format ℚ) (csvAt historyAt : Destination) (r : Results abi) : ReportEnd :=
  let untouched : Attempt := { returned := false, file := [] }
  if r.csvFile = [] then
    { status := 0, announced := false, csv := untouched, history := untouched }
  else
    -- The CSV file is closed before the history is opened.
    let csv := writeCsv fmt csvAt r.latencyResults r.bandwidthResults
      (if r.runSharedMemory then some r.sharedMemory else none) r.tscHz
    if csv.returned then
      -- The result of append_history is cast to void.
      { status := 0
        announced := !r.quiet
        csv := csv
        history := appendHistory fmt r.timestamp historyAt r.latencyResults r.bandwidthResults }
    else
      { status := 1, announced := false, csv := csv, history := untouched }

end Writers

end Report
end LatencyAnalyzer
