import Mathlib.Data.UInt

/-! The hsdaoh frame parser, `frame_parser.c`: sync tracking, line parsing, and the judgement of
a frame by its idle and CRC errors. -/
namespace MisrcGui.Capture

def hsdaohMagic : UInt32 := 0xda7acab1
def crcNone : UInt8 := 0
def crc16OneLine : UInt8 := 1
def flagStreamIdPresent : UInt32 := 1
def syncThreshold : Nat := 4

/-- The fields of `metadata_t` that the parser and the callback read. -/
structure Metadata where
  magic : UInt32
  framecounter : UInt16
  crcConfig : UInt8
  flags : UInt32
  srate : UInt32

/-- A frame buffer: `words` are its 16-bit words, line after line. -/
structure Frame where
  width : Nat
  height : Nat
  words : Nat → UInt16
  metadata : Metadata
  deviceError : Bool

def Frame.line (frame : Frame) (index word : Nat) : UInt16 :=
  frame.words (frame.width * index + word)

def Frame.hasStreamId (frame : Frame) : Bool :=
  frame.metadata.flags &&& flagStreamIdPresent != 0

def Frame.hasCrc (frame : Frame) : Bool := frame.metadata.crcConfig != crcNone

structure ParsedLine where
  payloadLen : Nat
  crc : UInt16
  streamId : UInt16
  valid : Bool

def trailerWords (hasStreamId hasCrc : Bool) : Nat :=
  1 + hasStreamId.toNat + hasCrc.toNat

def parseLine (line : Nat → UInt16) (width : Nat) (hasStreamId hasCrc : Bool) : ParsedLine :=
  let trailer := trailerWords hasStreamId hasCrc
  if width ≤ trailer then ⟨0, 0, 0, false⟩
  else
    let payloadLen := (line (width - 1) &&& 0x0FFF).toNat
    ⟨payloadLen,
      if hasCrc then line (width - 2) else 0,
      if hasStreamId then line (width - 3) &&& 0x0FFF else 0,
      decide (payloadLen ≤ (width - trailer) % 2 ^ 16)⟩

/-- An entry of the `ccitt_hash` table. -/
def ccittHash (index : UInt16) : UInt16 :=
  (List.range 8).foldl
    (fun value _ => if value &&& 0x8000 != 0 then value <<< 1 ^^^ 0x1021 else value <<< 1)
    (index <<< 8)

def crc16Ccitt (bytes : List UInt8) : UInt16 :=
  bytes.foldl
    (fun crc byte => crc <<< 8 ^^^ ccittHash ((crc >>> 8 ^^^ byte.toUInt16) &&& 0x00ff)) 0xffff

def frameComputeLineCrc (line : Nat → UInt16) (width : Nat) : UInt16 :=
  if width = 0 then 0
  else crc16Ccitt ((List.range width).flatMap fun word =>
    [(line word).toUInt8, (line word >>> 8).toUInt8])

/-- `hsdaoh_check_idle_cnt`: the errors and the last word. -/
def checkIdleCnt : List UInt16 → UInt16 → Nat × UInt16
  | [], idleCnt => (0, idleCnt)
  | word :: rest, idleCnt =>
    let (errors, last) := checkIdleCnt rest word
    ((if word ≠ idleCnt + 1 then 1 else 0) + errors, last)

def frameCheckIdle (idleCnt : UInt16) (line : Nat → UInt16) (payloadLen width : Nat)
    (hasStreamId hasCrc : Bool) : Nat × UInt16 :=
  let used := payloadLen + trailerWords hasStreamId hasCrc
  if width < used then (1, idleCnt)
  else
    checkIdleCnt
      ((List.range ((width - used) % 2 ^ 16)).map fun word => line (payloadLen + word)) idleCnt

inductive SyncResult where
  | ok
  | duplicate
  | missed
  | lost
  | acquired
deriving DecidableEq

structure ParserState where
  lastFrameCnt : UInt16
  inOrderCnt : Nat
  streamSynced : Bool
  nonSyncCnt : Nat
  lastCrc : UInt16 × UInt16
  idleCnt : UInt16
  framesSinceError : Nat
  reprimeFrames : Nat

def frameParserInit : ParserState := ⟨0, 0, false, 0, (0, 0), 0, 0, 0⟩

structure ProcessResult where
  syncResult : SyncResult
  stream0Bytes : Nat
  stream1Bytes : Nat
  errorCount : Nat
  valid : Bool
  reportErrors : Bool

/-- The tolerances, 24 unless the environment sets them. -/
structure Tolerance where
  crc : Nat
  idle : Nat

def defaultTolerance : Tolerance := ⟨24, 24⟩

structure Scan where
  lastCrc : UInt16 × UInt16
  idleCnt : UInt16
  idleErrors : Nat
  crcErrors : Nat
  stream0Bytes : Nat
  stream1Bytes : Nat

def Scan.errorCount (scan : Scan) : Nat := scan.idleErrors + scan.crcErrors

def scanLine (frame : Frame) (synced suppress : Bool) (line : Nat → UInt16) (parsed : ParsedLine)
    (scan : Scan) : Scan :=
  let (idleError, idleCnt) :=
    frameCheckIdle scan.idleCnt line parsed.payloadLen frame.width frame.hasStreamId frame.hasCrc
  let expectedCrc :=
    if frame.metadata.crcConfig = crc16OneLine then scan.lastCrc.1 else scan.lastCrc.2
  let crcError := frame.hasCrc && !suppress && parsed.crc != expectedCrc && synced
  let bytes := if parsed.payloadLen > 0 && synced then parsed.payloadLen * 2 else 0
  { lastCrc :=
      if frame.hasCrc then (frameComputeLineCrc line frame.width, scan.lastCrc.1)
      else scan.lastCrc
    idleCnt
    idleErrors := scan.idleErrors + if suppress then 0 else idleError
    crcErrors := scan.crcErrors + crcError.toNat
    stream0Bytes := scan.stream0Bytes + if parsed.streamId = 0 then bytes else 0
    stream1Bytes := scan.stream1Bytes + if parsed.streamId = 1 then bytes else 0 }

def Frame.parsed (frame : Frame) (index : Nat) : ParsedLine :=
  parseLine (frame.line index) frame.width frame.hasStreamId frame.hasCrc

/-- The lines from `index` on; an invalid payload length ends the pass. -/
def scanLines (frame : Frame) (synced suppress : Bool) : Nat → Nat → Scan → Scan × Bool
  | 0, _, scan => (scan, true)
  | remaining + 1, index, scan =>
    let parsed := frame.parsed index
    if parsed.valid then
      scanLines frame synced suppress remaining (index + 1)
        (scanLine frame synced suppress (frame.line index) parsed scan)
    else (scan, false)

def scanFrame (state : ParserState) (frame : Frame) : Scan × Bool :=
  scanLines frame state.streamSynced (decide (state.reprimeFrames > 0)) frame.height 0
    ⟨state.lastCrc, state.idleCnt, 0, 0, 0, 0⟩

def idleDesyncThreshold (height : Nat) : Nat := max (height / 4) 64

def tolerated (tolerance : Tolerance) (scan : Scan) : Bool :=
  let crcOnly := scan.idleErrors == 0 && decide (tolerance.crc > 0) &&
    decide (scan.crcErrors ≤ tolerance.crc)
  let idleOnly := scan.crcErrors == 0 && decide (tolerance.idle > 0) &&
    decide (scan.idleErrors ≤ tolerance.idle)
  let mixedLow := decide (scan.idleErrors > 0) && decide (scan.crcErrors > 0) &&
    decide (tolerance.idle > 0) && decide (tolerance.crc > 0) &&
    decide (scan.idleErrors ≤ tolerance.idle) && decide (scan.crcErrors ≤ tolerance.crc) &&
    decide (scan.errorCount ≤ tolerance.idle + tolerance.crc)
  crcOnly || idleOnly || mixedLow

def idleDesyncBurst (tolerance : Tolerance) (height : Nat) (scan : Scan) : Bool :=
  decide (scan.idleErrors > 0) && decide (scan.idleErrors ≥ idleDesyncThreshold height) &&
    decide (scan.crcErrors ≤ tolerance.crc)

/-- The frame counter is taken over; a gap while synced primes the line validators anew. -/
def orderFrame (state : ParserState) (framecounter : UInt16) : ParserState × SyncResult :=
  let inOrder := framecounter == state.lastFrameCnt + 1
  if inOrder then
    ({ state with inOrderCnt := state.inOrderCnt + 1, lastFrameCnt := framecounter }, .ok)
  else if state.streamSynced then
    ({ state with
        inOrderCnt := 0
        lastFrameCnt := framecounter
        lastCrc := (0, 0)
        idleCnt := 0
        reprimeFrames := 1 }, .missed)
  else ({ state with inOrderCnt := 0, lastFrameCnt := framecounter }, .ok)

def judgeFrame (tolerance : Tolerance) (state : ParserState) (syncResult : SyncResult)
    (height : Nat) (scan : Scan) : ParserState × ProcessResult :=
  let state := { state with reprimeFrames := state.reprimeFrames - 1 }
  let result : ProcessResult :=
    ⟨syncResult, scan.stream0Bytes, scan.stream1Bytes, scan.errorCount, false, false⟩
  let errors := decide (scan.errorCount > 0) && state.streamSynced
  if errors && idleDesyncBurst tolerance height scan then
    ({ state with lastCrc := (0, 0), idleCnt := 0, reprimeFrames := 2, framesSinceError := 0 },
      { result with errorCount := 0 })
  else if errors && !tolerated tolerance scan then
    ({ state with framesSinceError := 0 }, { result with reportErrors := true })
  else
    let state := { state with framesSinceError := state.framesSinceError + 1 }
    if !state.streamSynced && scan.errorCount == 0 && decide (state.inOrderCnt > syncThreshold)
    then
      ({ state with streamSynced := true, nonSyncCnt := 0 },
        { result with syncResult := .acquired })
    else (state, { result with valid := state.streamSynced })

def frameProcess (tolerance : Tolerance) (state : ParserState) (frame : Frame) :
    ParserState × ProcessResult :=
  if frame.metadata.magic ≠ hsdaohMagic then
    ({ state with
        streamSynced := false
        inOrderCnt := 0
        nonSyncCnt := state.nonSyncCnt + 1
        reprimeFrames := 0 }, ⟨.lost, 0, 0, 0, false, false⟩)
  else if frame.metadata.framecounter = state.lastFrameCnt then
    (state, ⟨.duplicate, 0, 0, 0, false, false⟩)
  else
    let (state, syncResult) := orderFrame state frame.metadata.framecounter
    let (scan, complete) := scanFrame state frame
    let state := { state with lastCrc := scan.lastCrc, idleCnt := scan.idleCnt }
    if complete then judgeFrame tolerance state syncResult frame.height scan
    else
      -- an invalid payload length: the counter has moved on, the result says nothing
      ({ state with
          nonSyncCnt := if state.streamSynced then state.nonSyncCnt else state.nonSyncCnt + 1 },
        ⟨syncResult, scan.stream0Bytes, scan.stream1Bytes, scan.errorCount, false, false⟩)

def carriesRf (frame : Frame) : Bool :=
  (List.range frame.height).any fun index =>
    let parsed := frame.parsed index
    parsed.valid && decide (parsed.payloadLen > 0) && parsed.streamId == 0

example : ccittHash 0x01 = 0x1021 ∧ ccittHash 0xff = 0x1ef0 := by decide

end MisrcGui.Capture
