import MisrcGui.Ring.Grants
import MisrcGui.Record.SpillOrder
import MisrcGui.Record.DirectStream
import MisrcGui.Record.DirectTail
import MisrcGui.Record.TapHandshake
import MisrcGui.Record.LegacyConservation
import MisrcGui.Record.PairedBlocks
import MisrcGui.Ddd.AsyncStop
import MisrcGui.Marks.Completeness
import MisrcGui.Capture.LostFrames
import MisrcGui.Capture.PayloadCopy
import MisrcGui.Video.Reader
import MisrcGui.Video.FrameBox
import MisrcGui.LocalSave.Transaction
import MisrcGui.LocalSave.Completion
import MisrcGui.LocalSave.Proxy
import MisrcGui.Cli.ConversionLoop
import MisrcGui.Upstream.Pairing
import MisrcGui.Playback.Delivery
import MisrcGui.Playback.SeekRequests
import MisrcGui.Playback.Extraction
import MisrcGui.Cxadc.Taps
import MisrcGui.Ddd.SafetyLock
import MisrcGui.Ddd.LegacyCapture
import MisrcGui.Playback.OggLoss
import MisrcGui.Net.ModeTransition
import MisrcGui.Net.RecordCommands
import MisrcGui.Net.SyncRecovery
import MisrcGui.Net.LocalProfile
import MisrcGui.Net.IngestAlignment
import MisrcGui.Audio.WavStretch
import MisrcGui.Audio.WavHeaders
import MisrcGui.Audio.MonitorFreshness
import MisrcGui.Update.InstallRuns
import MisrcGui.Update.CommandWords
import MisrcGui.Playback.RawNames
import MisrcGui.Ring.FileWriter
import MisrcGui.Extract.Dispatch
import MisrcGui.Audio.MonitorSplices
import MisrcGui.Record.OverwriteConsent
import MisrcGui.RfPreview.AudioCuts
import MisrcGui.Playback.DecoderIo
import MisrcGui.Signal.Halfband
import MisrcGui.RfPreview.Polling
import MisrcGui.RfPreview.InputAccounting
import MisrcGui.Net.DeviceMirror
import MisrcGui.Net.CutListing
import MisrcGui.Settings.RoundTrip
import MisrcGui.Cxadc.SyncStart
import MisrcGui.Playback.TotalCheck
import MisrcGui.Playback.HeaderGrammar
import MisrcGui.Playback.OggTail
import MisrcGui.Playback.AudioSpans
import MisrcGui.Playback.AnalysisColumns
import MisrcGui.Cli.AudioWriter
import MisrcGui.Capture.LineTrailer
import MisrcGui.Capture.Suppression
import MisrcGui.Ddd.FifoTotals
import MisrcGui.RfPreview.Pressure
import MisrcGui.Ring.Counters
import MisrcGui.Fx3.WholeImage
import MisrcGui.Record.AffinityExact
import MisrcGui.Playback.LengthCacheRuns
import MisrcGui.Ui.TextEdit
import MisrcGui.Signal.Trigger
