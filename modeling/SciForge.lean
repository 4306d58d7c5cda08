import SciForge.Corpus.Enumeration
import SciForge.Corpus.CorpusRuns
import SciForge.Corpus.RustToml
import SciForge.Corpus.Fowler
import SciForge.Corpus.ExpectationOrder
import SciForge.Corpus.NormalForm
import SciForge.Corpus.Authority
import SciForge.Corpus.EmptyIteration
import SciForge.Corpus.Inputs
import SciForge.Corpus.FowlerOutcome
import SciForge.Corpus.FowlerEscapes
import SciForge.Corpus.RustOffsets
import SciForge.Corpus.FowlerLines
import SciForge.Lib.Sample
import SciForge.Bench.Stats
import SciForge.Bench.Compare
import SciForge.Bench.Exact
import SciForge.Bench.Mirror
import SciForge.Bench.Mismatch
import SciForge.Bench.Percentiles
import SciForge.Python.JsonNumbers
import SciForge.Bench.Exchange
import SciForge.Bench.RoundTrip
import SciForge.Binding.Error
import SciForge.Binding.Statics
import SciForge.Binding.Class
import SciForge.Binding.Module
import SciForge.Binding.PyInitReports
import SciForge.Binding.Frames
import SciForge.Binding.Chains
import SciForge.Binding.ClassComplete
import SciForge.Binding.Table
import SciForge.Binding.Types
import SciForge.Binding.KwSpecs
import SciForge.Binding.ImportRuns
import SciForge.Binding.LaterImports
import SciForge.Binding.Calls
import SciForge.Binding.KwCall
import SciForge.Lib.Ownership
import SciForge.Binding.Instance
import SciForge.Lib.Machine
import SciForge.Tools.GateLock
import SciForge.Test.Framework
import SciForge.Test.RunAll
import SciForge.Binding.Returns
import SciForge.Binding.ReturnSafety
import SciForge.Binding.Casters
import SciForge.Binding.EntryPoints
import SciForge.Binding.Conversions
import SciForge.Binding.Arguments
import SciForge.Binding.EntryErrors
import SciForge.Binding.Sentinels
import SciForge.Binding.Integers
import SciForge.Binding.Builders
import SciForge.Bench.Quartiles
import SciForge.Bench.Scaling
import SciForge.Bench.PairedTiming
import SciForge.Bench.Runner
import SciForge.Lib.Git
import SciForge.Lib.Sections
import SciForge.Tools.StillTree
import SciForge.Tools.Release
import SciForge.Tools.ReleaseSteps
import SciForge.Tools.Rollback
import SciForge.Tools.Publish
import SciForge.Tools.PinScan
import SciForge.Tools.Workflow
import SciForge.Tools.PinLines
import SciForge.Tools.CheckoutPins
import SciForge.Tools.Versions
import SciForge.Tools.Notes
import SciForge.Lib.Glob
import SciForge.Tools.Published
import SciForge.Tools.CiGate
import SciForge.Tools.Pins
import SciForge.Tools.PinVerdict
import SciForge.Corpus.Sweep
import SciForge.Test.Crash
import SciForge.Lib.HashDict
import SciForge.Binding.DictKeys
import SciForge.Tools.GateRecovery
import SciForge.Binding.Gil
import SciForge.Python.JsonDump
import SciForge.Bench.Files
import SciForge.Corpus.Report
import SciForge.Bench.Intervals
import SciForge.Lib.Bisect
import SciForge.Tools.DepsText
import SciForge.Tools.DepsList
import SciForge.Tools.Siblings
import SciForge.Bench.Collector
import SciForge.Bench.Plots
import SciForge.Lib.Flags
import SciForge.Corpus.NativeToml
import SciForge.Bench.Boxplot
