import StreamWeb.Lib.Machine
import StreamWeb.Lib.Utf8
import StreamWeb.Lib.Windows
import StreamWeb.Lib.PeakHold
import StreamWeb.Lib.PosixFiles
import StreamWeb.Lib.Changes
import StreamWeb.Lib.PwFilter
import StreamWeb.Lib.SlidingWindow
import StreamWeb.Lib.Interleave
import StreamWeb.Lib.Greedy
import StreamWeb.Lib.Dict
import StreamWeb.Lib.GroupBy
import StreamWeb.Lib.Numeral
import StreamWeb.Lib.PosixPath
import StreamWeb.Lib.Runs
import StreamWeb.Config
import StreamWeb.Np
import StreamWeb.Py.Base64
import StreamWeb.Py.Double
import StreamWeb.Timing
import StreamWeb.Timing.EdgeOrder
import StreamWeb.Timing.Tracking
import StreamWeb.App.SharedState
import StreamWeb.App.PacketFeed
import StreamWeb.App.DeviceRows
import StreamWeb.App.TargetCell
import StreamWeb.App.TargetRequests
import StreamWeb.App.Watchdog
import StreamWeb.Rx.BufferSink
import StreamWeb.Rx.Invariant
import StreamWeb.Rx.Gain
import StreamWeb.Rx.PeakMeter
import StreamWeb.Processor.ExtractLast
import StreamWeb.Processor.Coverage
import StreamWeb.Processor.SampleDrop
import StreamWeb.Processor.DropRuns
import StreamWeb.Processor.DetectionHistory
import StreamWeb.Processor.HistoryDrift
import StreamWeb.App.CaptureIq
import StreamWeb.App.CaptureExact
import StreamWeb.App.CaptureGuard
import StreamWeb.Processor.Dedup
import StreamWeb.App.ChipsetStats
import StreamWeb.Hitl.Annotator
import StreamWeb.Hitl.Annotation
import StreamWeb.Tx.Flowgraph
import StreamWeb.Tx.Files
import StreamWeb.Td.Capture
import StreamWeb.Td.Invariant
import StreamWeb.Td.Position
import StreamWeb.Td.Confirm
import StreamWeb.Td.Phantom
import StreamWeb.Td.Truncation
import StreamWeb.Td.Backlog
import StreamWeb.App.Pipeline
import StreamWeb.App.Captures
import StreamWeb.App.TargetChange
import StreamWeb.Analysis.DecodePackets
import StreamWeb.Analysis.ExactlyOnce
import StreamWeb.Analysis.Agreement
import StreamWeb.Spectrum.FindPeaks
import StreamWeb.Spectrum.Fcc
import StreamWeb.Spectrum.Verdict
import StreamWeb.Spectrum.Segments
import StreamWeb.Spectrum.Notch
import StreamWeb.Spectrum.FccCheck
import StreamWeb.Lib.TryLock
import StreamWeb.Py.IntText
import StreamWeb.App.CaptureRequests
import StreamWeb.Lib.Conveyor
import StreamWeb.App.RenderOrder
import StreamWeb.App.MainView
import StreamWeb.Rx.Tuning
import StreamWeb.Rx.Restart
import StreamWeb.Rx.WorkerExit
import StreamWeb.Lib.Plateaus
import StreamWeb.Spectrum.HopOverlay
import StreamWeb.Py.Rounding
import StreamWeb.Spectrum.TdPlot
import StreamWeb.Timing.Transition
import StreamWeb.Spectrum.SymbolZoom
import StreamWeb.Tx.Requests
import StreamWeb.Tx.Silence
import StreamWeb.Tx.FileStore
import StreamWeb.Analysis.Report
import StreamWeb.Processor.DecodeEntries
import StreamWeb.App.PacketPath
import StreamWeb.App.Delivery
import StreamWeb.Spectrum.SpecImage
import StreamWeb.App.StatusRates
