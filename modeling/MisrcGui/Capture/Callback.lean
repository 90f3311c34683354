import MisrcGui.Capture.FrameParser
import MisrcGui.Marks.Soundness

/-! The hsdaoh capture callback, `gui_capture.c`, with the observer of its RF writes from
`gui_extract.c`, feeding the stream marks. Frames are told apart by their 16-bit counters. -/
namespace MisrcGui.Capture
open Library

def gapResyncThresholdMs : Nat := 1000
def missedStreakReportThreshold : Nat := 3

/-- A committed frame. `passed` counts the frames without RF between it and the one before, and
`changed` says whether the observer saw one of its four counters changed. -/
structure Commit where
  counter : UInt16
  passed : Nat
  changed : Bool
  write : Marks.Write

/-- The parser, the callback's statics, the counters and rates of the application, and the
statics of the observer. The last four fields are ghost. -/
structure App where
  parser : ParserState
  missedStreak : Nat
  missedBurstReported : Bool
  previousCallbackTime : Nat
  stopOnDropout : Bool
  parserErrorCount : Nat
  missedFrameCount : Nat
  writeDrops : Nat
  rfStreamEpoch : Nat
  sampleRate : Nat
  rfSourceRateHz : Nat × Nat
  hasChannelB : Bool
  bytesWritten : Nat
  observerSeen : Bool
  seenB : Bool
  seenParser : Nat
  seenMissed : Nat
  seenDrops : Nat
  seenEpoch : Nat
  passed : Nat
  committedErrors : Nat
  committedDrops : Nat
  commits : List Commit

def initialApp (epoch sampleRate : Nat) : App :=
  ⟨frameParserInit, 0, false, 0, false, 0, 0, 0, epoch, sampleRate, (0, 0), true, 0, false, false,
    0, 0, 0, 0, 0, 0, 0, []⟩

/-- One call of the callback: the frame, the time in milliseconds, and whether
`bufmgr_write_begin` finds room. -/
structure Delivery where
  frame : Frame
  now : Nat
  room : Bool

def elapsed (previous now : Nat) : Nat :=
  if now < previous then Marks.wordMax - previous + now + 1 else now - previous

def callbackGap (app : App) (now : Nat) : Bool :=
  app.previousCallbackTime != 0 &&
    decide (elapsed app.previousCallbackTime now > gapResyncThresholdMs)

def normalizeSampleRateHz (srate : Nat) : Nat :=
  let hz := if srate ≤ 100000 then srate * 1000 else srate
  if srate = 0 ∨ hz < 1000000 ∨ hz > 200000000 then 0 else hz

def syncEvent (app : App) : SyncResult → App
  | .lost =>
    { app with
      rfStreamEpoch := app.rfStreamEpoch + 1
      missedStreak := 0
      missedBurstReported := false }
  | .missed =>
    let streak := app.missedStreak + 1
    let report := decide (streak ≥ missedStreakReportThreshold) && !app.missedBurstReported
    { app with
      rfStreamEpoch := app.rfStreamEpoch + 1
      missedStreak := streak
      missedFrameCount := app.missedFrameCount + report.toNat
      missedBurstReported := app.missedBurstReported || report }
  | .acquired | .duplicate | .ok =>
    { app with missedStreak := 0, missedBurstReported := false }

/-- The callback behind the parser; the bytes are those of a write that goes ahead. -/
def handleResult (app : App) (delivery : Delivery) (result : ProcessResult) :
    App × Option Nat :=
  if result.syncResult = .lost ∨ result.syncResult = .duplicate then (app, none)
  else if !app.parser.streamSynced then (app, none)
  else if decide (result.errorCount > 0) && result.reportErrors then
    ({ app with parserErrorCount := app.parserErrorCount + result.errorCount }, none)
  else if !result.valid || result.stream0Bytes == 0 then (app, none)
  else
    let rate := normalizeSampleRateHz delivery.frame.metadata.srate.toNat
    let app := { app with sampleRate := if rate > 0 then rate else app.sampleRate }
    if delivery.room then (app, some result.stream0Bytes)
    else ({ app with writeDrops := app.writeDrops + 1 }, none)

def turnedAway (app : App) (delivery : Delivery) : Bool :=
  callbackGap app delivery.now && app.stopOnDropout ||
    delivery.frame.width == 0 || delivery.frame.height == 0 || delivery.frame.deviceError

/-- `gui_capture_callback` up to its write. -/
def guiCaptureCallback (tolerance : Tolerance) (app : App) (delivery : Delivery) :
    App × Option Nat :=
  let app' := { app with previousCallbackTime := delivery.now }
  if callbackGap app delivery.now && app.stopOnDropout then (app', none)
  else if delivery.frame.width == 0 || delivery.frame.height == 0 then (app', none)
  else if delivery.frame.deviceError then
    ({ app' with missedStreak := 0, missedBurstReported := false }, none)
  else
    let (parser, result) := frameProcess tolerance app.parser delivery.frame
    handleResult (syncEvent { app' with parser } result.syncResult) delivery result

/-- One of the four counters, read as 32 and 64 bits, differs from the last observed one. -/
def App.changed (app : App) : Bool :=
  app.parserErrorCount % 2 ^ 32 != app.seenParser ||
    app.missedFrameCount % 2 ^ 32 != app.seenMissed ||
      app.writeDrops % 2 ^ 32 != app.seenDrops || app.rfStreamEpoch != app.seenEpoch

/-- `observe_rf_write`, with the arguments it hands to the stream marks. -/
def observeRfWrite (app : App) (bytes : Nat) : App × Marks.Write :=
  let gap := !app.observerSeen || app.hasChannelB != app.seenB || app.changed
  let bump := gap && app.rfStreamEpoch == app.seenEpoch
  let epoch := if bump then app.rfStreamEpoch + 1 else app.rfStreamEpoch
  let rate (source : Nat) : Nat := if source = 0 then app.sampleRate else source
  let rateB := if app.hasChannelB then rate app.rfSourceRateHz.2 else 0
  ({ app with
      rfStreamEpoch := epoch
      observerSeen := true
      seenB := app.hasChannelB
      seenParser := app.parserErrorCount % 2 ^ 32
      seenMissed := app.missedFrameCount % 2 ^ 32
      seenDrops := app.writeDrops % 2 ^ 32
      seenEpoch := epoch },
    { position := app.bytesWritten
      bytes
      info := (⟨rate app.rfSourceRateHz.1, 0, epoch, false⟩, ⟨rateB, 0, epoch, false⟩)
      ambiguousGap := gap })

/-- The counter after the last committed frame and the frames without RF since. -/
def App.due (app : App) : Option UInt16 :=
  app.commits.head?.map fun last => last.counter + UInt16.ofNat app.passed + 1

/-- A parsed frame without RF that is the next one due loses nothing. -/
def passes (app : App) (delivery : Delivery) : Bool :=
  !turnedAway app delivery && delivery.frame.metadata.magic == hsdaohMagic &&
    !carriesRf delivery.frame && app.due == some delivery.frame.metadata.framecounter

/-- One call of the callback, with `bufmgr_write_end` up to the observer's return. -/
def receive (tolerance : Tolerance) (app : App) (delivery : Delivery) :
    App × Option Marks.Write :=
  match guiCaptureCallback tolerance app delivery with
  | (app', none) =>
    ({ app' with passed := app.passed + (passes app delivery).toNat }, none)
  | (app', some bytes) =>
    let (observed, write) := observeRfWrite app' bytes
    ({ observed with
        bytesWritten := observed.bytesWritten + bytes
        passed := 0
        committedErrors := observed.parserErrorCount
        committedDrops := observed.writeDrops
        commits :=
          ⟨delivery.frame.metadata.framecounter, app.passed, app'.changed, write⟩ ::
            observed.commits }, some write)

structure System where
  app : App
  marks : Marks.System

def initial (epoch sampleRate : Nat) : System :=
  ⟨initialApp epoch sampleRate, Marks.initial 0⟩

/-- Rates, the presence of channel B and the dropout setting may change at any moment; the
stream marks take their own steps. -/
inductive Action where
  | frame (delivery : Delivery)
  | environment (sampleRate : Nat) (rfSourceRateHz : Nat × Nat) (hasChannelB stopOnDropout : Bool)
  | marks (action : Marks.Action)

/-- A frame is delivered when the call for the one before has returned. -/
def step (tolerance : Tolerance) (system : System) : Action → Option System
  | .frame delivery =>
    match system.marks.producer with
    | .idle =>
      let (app, write) := receive tolerance system.app delivery
      some ⟨app, write.elim system.marks (Marks.observe system.marks)⟩
    | _ => none
  | .environment sampleRate rfSourceRateHz hasChannelB stopOnDropout =>
    some { system with
      app := { system.app with sampleRate, rfSourceRateHz, hasChannelB, stopOnDropout } }
  | .marks (.observe _) => none
  | .marks action => (Marks.step 0 system.marks action).map fun marks => { system with marks }

/-- An RF frame that the synchronised parser takes for the next one and then drops without a
count: a line with an invalid payload length, or a burst of idle errors. -/
def droppedUncounted (tolerance : Tolerance) (app : App) (delivery : Delivery) : Bool :=
  let frame := delivery.frame
  let state := app.parser
  let ordered := (orderFrame state frame.metadata.framecounter).1
  let (scan, complete) := scanFrame ordered frame
  !turnedAway app delivery && state.streamSynced && carriesRf frame &&
    frame.metadata.magic == hsdaohMagic &&
      frame.metadata.framecounter == state.lastFrameCnt + 1 &&
        (!complete || idleDesyncBurst tolerance frame.height scan)

/-- No frame is dropped uncounted, and no counter has wrapped since the last commit. -/
def counted (tolerance : Tolerance) (system : System) : Action → Bool
  | .frame delivery =>
    let app := system.app
    !droppedUncounted tolerance app delivery &&
      decide (app.parserErrorCount < app.committedErrors + 2 ^ 32) &&
        decide (app.writeDrops < app.committedDrops + 2 ^ 32)
  | .environment _ _ _ _ | .marks _ => true

end MisrcGui.Capture
