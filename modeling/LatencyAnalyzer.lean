import LatencyAnalyzer.Config
import LatencyAnalyzer.Cxx.Machine
import LatencyAnalyzer.Cxx.Text
import LatencyAnalyzer.Cxx.Extract
import LatencyAnalyzer.Cxx.Stream
import LatencyAnalyzer.Cxx.Double
import LatencyAnalyzer.Lib.BitField
import LatencyAnalyzer.Lib.Chunks
import LatencyAnalyzer.Lib.CsvReader
import LatencyAnalyzer.Lib.Fairness
import LatencyAnalyzer.Lib.Items
import LatencyAnalyzer.Lib.Journal
import LatencyAnalyzer.Lib.JsonReader
import LatencyAnalyzer.Lib.JsonPrefix
import LatencyAnalyzer.Lib.Ledger
import LatencyAnalyzer.Lib.OrderStatistics
import LatencyAnalyzer.Lib.OutputStream
import LatencyAnalyzer.Lib.Quantile
import LatencyAnalyzer.Lib.Ram
import LatencyAnalyzer.Lib.Registers
import LatencyAnalyzer.Lib.Replacement
import LatencyAnalyzer.Lib.Ring
import LatencyAnalyzer.Lib.Rotation
import LatencyAnalyzer.Lib.RunnerUp
import LatencyAnalyzer.Lib.Runs
import LatencyAnalyzer.Lib.Sample
import LatencyAnalyzer.Lib.Settles
import LatencyAnalyzer.Lib.Speculation
import LatencyAnalyzer.Lib.StoreBuffer
import LatencyAnalyzer.Timer
import LatencyAnalyzer.Timer.Overhead
import LatencyAnalyzer.Statistics
import LatencyAnalyzer.Statistics.Order
import LatencyAnalyzer.Statistics.Bounds
import LatencyAnalyzer.Latency.Measurer
import LatencyAnalyzer.Latency.Walks
import LatencyAnalyzer.Latency.Samples
import LatencyAnalyzer.Latency.Plans
import LatencyAnalyzer.Latency.History
import LatencyAnalyzer.Latency.Strides
import LatencyAnalyzer.Latency.Flush
import LatencyAnalyzer.Latency.Hardware
import LatencyAnalyzer.Latency.Readings
import LatencyAnalyzer.Latency.Interrupts
import LatencyAnalyzer.SharedMemory.Measurer
import LatencyAnalyzer.SharedMemory.Cleanup
import LatencyAnalyzer.SharedMemory.Waiting
import LatencyAnalyzer.SharedMemory.Exclusive
import LatencyAnalyzer.SharedMemory.PingPong
import LatencyAnalyzer.SharedMemory.RoundTrips
import LatencyAnalyzer.SharedMemory.Progress
import LatencyAnalyzer.Spectre.Fixture
import LatencyAnalyzer.Spectre.Scores
import LatencyAnalyzer.Spectre.Confinement
import LatencyAnalyzer.Spectre.Probes
import LatencyAnalyzer.Spectre.Calibration
import LatencyAnalyzer.Spectre.Retry
import LatencyAnalyzer.Spectre.Accounting
import LatencyAnalyzer.Spectre.Counters
import LatencyAnalyzer.Spectre.Reliability
import LatencyAnalyzer.Spectre.Channel
import LatencyAnalyzer.Spectre.Recovery
import LatencyAnalyzer.Spectre.Extraction
import LatencyAnalyzer.Numa.CpuList
import LatencyAnalyzer.Numa.Support
import LatencyAnalyzer.Numa.Matrix
import LatencyAnalyzer.Numa.Distance
import LatencyAnalyzer.CpuInfo.CpuList
import LatencyAnalyzer.CpuInfo.Grammar
import LatencyAnalyzer.CpuInfo.Topology
import LatencyAnalyzer.CpuInfo.Caches
import LatencyAnalyzer.CpuCapability
import LatencyAnalyzer.CommandLine.Options
import LatencyAnalyzer.CommandLine.Grammar
import LatencyAnalyzer.CommandLine.Benchmarks
import LatencyAnalyzer.CommandLine.Safety
import LatencyAnalyzer.CommandLine.Permutations
import LatencyAnalyzer.CommandLine.Sizes
import LatencyAnalyzer.Report.Records
import LatencyAnalyzer.Report.Csv
import LatencyAnalyzer.Report.Json
import LatencyAnalyzer.Report.Honesty
import LatencyAnalyzer.Report.Layout
import LatencyAnalyzer.Report.Escape
import LatencyAnalyzer.Report.WellFormed
import LatencyAnalyzer.Report.Torn
import LatencyAnalyzer.Statistics.Units
import LatencyAnalyzer.Bandwidth.Measurer
import LatencyAnalyzer.Bandwidth.Release
import LatencyAnalyzer.Bandwidth.Buffers
import LatencyAnalyzer.CommandLine.Analysis
import LatencyAnalyzer.CommandLine.Outcome
import LatencyAnalyzer.CommandLine.History
import LatencyAnalyzer.Statistics.Medians
import LatencyAnalyzer.Evaluation.Metrics
import LatencyAnalyzer.Evaluation.Outliers
import LatencyAnalyzer.Evaluation.Separation
import LatencyAnalyzer.Evaluation.Blocks
import LatencyAnalyzer.Evaluation.Classification
import LatencyAnalyzer.Evaluation.Agreement
import LatencyAnalyzer.Evaluation.Lab
import LatencyAnalyzer.Evaluation.Platform
import LatencyAnalyzer.Evaluation.Alignment
import LatencyAnalyzer.Labs.Operational
import LatencyAnalyzer.Labs.Defensive
import LatencyAnalyzer.Labs.DefensiveReport
