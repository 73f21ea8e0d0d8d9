import Nvscope.Lib.Layout
import Nvscope.Lib.Runs
import Nvscope.Lib.Loops
import Nvscope.Lib.Memory
import Nvscope.Lib.FirstSeen
import Nvscope.Lib.Decimal
import Nvscope.Model.Env
import Nvscope.Model.FdMap
import Nvscope.Model.ProcFilter
import Nvscope.Model.NvidiaRm
import Nvscope.Model.IoctlFilter
import Nvscope.Model.Preload
import Nvscope.System.Kernel
import Nvscope.System.World
import Nvscope.System.Libc
import Nvscope.Lemmas.Paths
import Nvscope.Lemmas.Steps
import Nvscope.Theorems.Transparency
import Nvscope.Lemmas.Streams
import Nvscope.Theorems.Readdir
import Nvscope.Lemmas.Requests
import Nvscope.Theorems.RemovesOnly
import Nvscope.Theorems.Learning
import Nvscope.Lemmas.Dirents
import Nvscope.Lemmas.FilterLoop
import Nvscope.Theorems.Enumeration
import Nvscope.Lemmas.Selection
import Nvscope.Theorems.Restriction
import Nvscope.Theorems.Topology
import Nvscope.System.Threads
import Nvscope.Theorems.Tracking
import Nvscope.Theorems.PassThrough
import Nvscope.Theorems.Hidden
import Nvscope.Theorems.DirentFilter
import Nvscope.Lemmas.Normalize
import Nvscope.Theorems.Spelling
import Nvscope.Theorems.Reach
import Nvscope.Theorems.Agreement
import Nvscope.Lib.Lines
import Nvscope.Lib.Slots
import Nvscope.Model.Detection
import Nvscope.Lemmas.Information
import Nvscope.Theorems.Information
import Nvscope.Theorems.Detection
import Nvscope.Theorems.Decision
import Nvscope.Model.InPlace
import Nvscope.Theorems.Minors
import Nvscope.Theorems.Responses
import Nvscope.Theorems.RelativeOpens
import Nvscope.Theorems.Truncation
import Nvscope.Lib.Mutex
import Nvscope.System.FdTable
import Nvscope.Theorems.FdTable
import Nvscope.System.IoctlSections
import Nvscope.Theorems.FixedHost
import Nvscope.Theorems.Mediation
import Nvscope.Model.Launcher
import Nvscope.Theorems.Launcher
import Nvscope.Theorems.Launched
import Nvscope.Theorems.Pipeline
import Nvscope.Lib.Chars
import Nvscope.Lib.Scans
import Nvscope.Model.DetectionBytes
import Nvscope.Lemmas.DetectionBytes
import Nvscope.Theorems.DetectionBytes
import Nvscope.Lib.Codes
import Nvscope.Lib.Numerals
import Nvscope.Model.Trace
import Nvscope.System.Traced
import Nvscope.Theorems.Trace
import Nvscope.Model.PreloadBytes
import Nvscope.System.InMemory
import Nvscope.Lemmas.PreloadBytes
import Nvscope.Theorems.InMemory
