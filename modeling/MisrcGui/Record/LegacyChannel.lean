import MisrcGui.Library.Machine
import MisrcGui.Ring.RingBuffer

/-! The legacy record path of one channel: the record step of `extraction_thread` and the writer
thread of `gui_record.c`. The unit is the block that extraction hands over: every access to a record
ring or its spill, and the ring's size, is a whole number of them. Each operation of the ring or the
spill is a step. Conversion, resampling and the byte counters are left out. -/
namespace MisrcGui.Record.LegacyChannel
open MisrcGui.Ring

variable {Block : Type}

/-- `GUI_RECORD_WRITER_BLOCK_BYTES` over the bytes of an extraction block. -/
def writerBlock : Nat := 16

/-- `max_wait_attempts` of `s_record_write_policy`. -/
def maxWaitAttempts : Nat := 2

/-- A record ring of 128 MB, the smallest that the memory budget gives. -/
def smallestRing : Geometry := ⟨1024, by decide, by decide⟩

inductive Format where
  | flac
  | raw
deriving DecidableEq

/-- `app` says whether the writer's context holds the application: the FLAC branch
of `gui_record_start_confirmed` stores it, the RAW branch does not. -/
structure Config where
  geometry : Geometry
  format : Format
  app : Bool

inductive Extraction (Block : Type) where
  | idle
  | writeBegin (block : Block) (attempts : Nat)
  | copy (block : Block) (pointer : Nat)
  | writeEnd (block : Block)
  | spillEnqueue (block : Block)

/-- Where `in` points: into the ring, or at the thread's own spill buffer. -/
inductive Source (Block : Type) where
  | ring (pointer : Nat)
  | spill (blocks : List Block)

def Source.blocks (geometry : Geometry) (ring : RingBuffer Block) :
    Source Block → List Block
  | .ring pointer => copyOut geometry ring pointer writerBlock
  | .spill blocks => blocks

inductive Next where
  | loop
  | leave
  | spill
deriving DecidableEq

/-- The next statement of the writer thread. `errorReadBegin` and `retry` belong to
the write-error branch of `raw_writer_thread`. -/
inductive Writer (Block : Type) where
  | loopHead
  | readBegin (stopping : Bool)
  | spillRead (stopping : Bool)
  | write (source : Source Block)
  | errorReadBegin (stopping : Bool)
  | retry (pointer : Nat)
  | spillEnqueue (pointer : Nat) (released : Bool)
  | readEnd (pointer : Nat) (next : Next)
  | exited

/-- The last five fields are ghost: the blocks that extraction put into the ring or
the spill, and for the writer the blocks it took, those it put back, and whether
the block in its hand is in the file although its write failed. -/
structure State (Block : Type) where
  ring : RingBuffer Block
  spill : List Block
  file : List (List Block)
  isRecording : Bool
  doExit : Bool
  extraction : Extraction Block
  writer : Writer Block
  writeError : Bool
  lastRetryMs : Nat
  writeDrops : Nat
  accepted : List Block
  taken : List (List Block)
  stored : List (List Block)
  inFile : Bool

def initial (buffer : Nat → Block) : State Block where
  ring := ⟨buffer, 0, 0⟩
  spill := []
  file := []
  isRecording := true
  doExit := false
  extraction := .idle
  writer := .loopHead
  writeError := false
  lastRetryMs := 0
  writeDrops := 0
  accepted := []
  taken := []
  stored := []
  inFile := false

/-- The wanted channel's part of a record step, from `bufmgr_write_begin` on. -/
def recordStep (geometry : Geometry) (state : State Block) (enqueued : Bool) :
    Option (State Block) :=
  match state.extraction with
  | .idle => none
  | .writeBegin block attempts =>
    match rbWritePtr geometry state.ring 1 with
    | some pointer => some { state with extraction := .copy block pointer }
    | none =>
      if maxWaitAttempts < attempts + 1 then
        some { state with
          writeDrops := state.writeDrops + 1
          extraction := .spillEnqueue block }
      else some { state with extraction := .writeBegin block (attempts + 1) }
  | .spillEnqueue block =>
    if enqueued then
      some { state with
        spill := state.spill ++ [block]
        accepted := state.accepted ++ [block]
        writeDrops := state.writeDrops - 1
        extraction := .idle }
    else some { state with extraction := .idle }
  | .copy block pointer =>
    some { state with
      ring := copyIn geometry state.ring pointer [block]
      extraction := .writeEnd block }
  | .writeEnd block =>
    some { state with
      ring := bufmgrWriteEnd geometry state.ring 1
      accepted := state.accepted ++ [block]
      extraction := .idle }

/-- What the system decides in a step of the writer: whether the write put the whole
block into the output and whether it left an error, the results of reading and
appending to the spill file, whether Local Save is recording, and the clock. -/
structure Io where
  written : Bool
  error : Bool
  spillRead : Bool
  enqueued : Bool
  localSave : Bool
  nowMs : Nat
deriving DecidableEq

def Io.complete (io : Io) : Bool := io.written && !io.error

def stopping (state : State Block) : Bool := !state.isRecording || state.doExit

def endRound (stopping : Bool) : Writer Block := if stopping then .exited else .loopHead

/-- After the block in the ring or the spill buffer has been dealt with. -/
def Source.release (next : Next) : Source Block → Writer Block
  | .ring pointer => .readEnd pointer next
  | .spill _ =>
    match next with
    | .leave => .exited
    | _ => .loopHead

def takeFromRing (geometry : Geometry) (state : State Block) (pointer : Nat)
    (writer : Writer Block) : State Block :=
  { state with
    taken := state.taken ++ [copyOut geometry state.ring pointer writerBlock]
    writer := writer }

/-- `gui_record_get_next_block`. The one wait of ten milliseconds in
`bufmgr_read_begin` discards what it finds, so only the first look decides. -/
def getNextBlock (geometry : Geometry) (state : State Block) (io : Io) :
    Writer Block → Option (State Block)
  | .readBegin stopping =>
    match rbReadPtr geometry state.ring writerBlock with
    | some pointer =>
      some (takeFromRing geometry state pointer (.write (.ring pointer)))
    | none => some { state with writer := .spillRead stopping }
  | .spillRead stopping =>
    if io.spillRead && decide (writerBlock ≤ state.spill.length) then
      some { state with
        spill := state.spill.drop writerBlock
        taken := state.taken ++ [state.spill.take writerBlock]
        writer := .write (.spill (state.spill.take writerBlock)) }
    else some { state with writer := endRound stopping }
  | _ => none

/-- The block is read from wherever `in` points now. -/
def spillEnqueue (geometry : Geometry) (state : State Block) (io : Io) (pointer : Nat)
    (released : Bool) : State Block :=
  let next : Writer Block := if released then .loopHead else .readEnd pointer .loop
  if io.enqueued then
    { state with
      spill := state.spill ++ copyOut geometry state.ring pointer writerBlock
      stored := state.stored ++ [copyOut geometry state.ring pointer writerBlock]
      writer := next }
  else { state with writer := next }

def readEnd (geometry : Geometry) (state : State Block) (pointer : Nat) (next : Next) :
    State Block :=
  let following : Writer Block :=
    match next with
    | .loop => .loopHead
    | .leave => .exited
    | .spill => .spillEnqueue pointer true
  { state with
    ring := bufmgrReadEnd geometry state.ring writerBlock
    writer := following }

def failedWrite (geometry : Geometry) (state : State Block) (source : Source Block)
    (whole : Bool) : State Block :=
  { state with
    file := if whole then state.file ++ [source.blocks geometry state.ring] else state.file
    writeError := true
    inFile := whole }

def completeWrite (geometry : Geometry) (state : State Block) (source : Source Block) :
    State Block :=
  { state with
    file := state.file ++ [source.blocks geometry state.ring]
    writeError := false
    writer := source.release .loop }

def flacWriterThread (config : Config) (state : State Block) (io : Io) :
    Option (State Block) :=
  match state.writer with
  | .exited => none
  | .loopHead => some { state with writer := .readBegin (stopping state) }
  | .write source =>
    if io.complete then some (completeWrite config.geometry state source)
    else
      let next : Writer Block :=
        if io.localSave then source.release .leave
        else match source with
          | .ring pointer =>
            if config.app then .spillEnqueue pointer false else .readEnd pointer .loop
          | .spill _ => .loopHead
      some { failedWrite config.geometry state source false with writer := next }
  | .spillEnqueue pointer released =>
    some (spillEnqueue config.geometry state io pointer released)
  | .readEnd pointer next => some (readEnd config.geometry state pointer next)
  | pc => getNextBlock config.geometry state io pc

def retryDue (state : State Block) (nowMs : Nat) : Bool :=
  state.lastRetryMs == 0 || decide (2000 ≤ nowMs - state.lastRetryMs)

/-- The ring is released before the result of the write is looked at. -/
def rawWriterThread (config : Config) (state : State Block) (io : Io) :
    Option (State Block) :=
  match state.writer with
  | .exited => none
  | .loopHead =>
    if state.writeError && io.localSave then some { state with writer := .exited }
    else if state.writeError then
      some { state with writer := .errorReadBegin (stopping state) }
    else some { state with writer := .readBegin (stopping state) }
  | .errorReadBegin stopping =>
    match rbReadPtr config.geometry state.ring writerBlock with
    | none => some { state with writer := endRound stopping }
    | some pointer =>
      if retryDue state io.nowMs then
        some { takeFromRing config.geometry state pointer (.retry pointer) with
          lastRetryMs := io.nowMs }
      else
        some { takeFromRing config.geometry state pointer (.spillEnqueue pointer false) with
          inFile := false }
  | .retry pointer =>
    if io.complete then some (completeWrite config.geometry state (.ring pointer))
    else
      some { failedWrite config.geometry state (.ring pointer) io.written with
        writer := .spillEnqueue pointer false }
  | .write source =>
    if io.complete then some (completeWrite config.geometry state source)
    else
      some { failedWrite config.geometry state source io.written with
        writer := source.release (if config.app then .spill else .loop) }
  | .spillEnqueue pointer released =>
    some (spillEnqueue config.geometry state io pointer released)
  | .readEnd pointer next => some (readEnd config.geometry state pointer next)
  | pc => getNextBlock config.geometry state io pc

def writerThread (config : Config) (state : State Block) (io : Io) :
    Option (State Block) :=
  match config.format with
  | .flac => flacWriterThread config state io
  | .raw => rawWriterThread config state io

inductive Action (Block : Type) where
  | block (block : Block)
  | record (enqueued : Bool)
  | write (io : Io)
  | stop
  | exit

def step (config : Config) (state : State Block) : Action Block → Option (State Block)
  | .block block =>
    match state.extraction with
    | .idle => some { state with extraction := .writeBegin block 0 }
    | _ => none
  | .record enqueued => recordStep config.geometry state enqueued
  | .write io => writerThread config state io
  | .stop => some { state with isRecording := false }
  | .exit => some { state with doExit := true }

def everyWriteComplete (state : State Block) : Action Block → Bool
  | .write io =>
    match state.writer with
    | .write _ => io.complete
    | _ => true
  | _ => true

/-- Extraction commits to the ring only while the spill is empty, and the writer
takes a block from the spill only while the ring is empty. -/
def oneQueueAtATime (state : State Block) : Action Block → Bool
  | .record _ =>
    match state.extraction with
    | .writeEnd _ => state.spill.isEmpty
    | _ => true
  | .write io =>
    match state.writer with
    | .spillRead _ => !io.spillRead || decide (state.spill.length < writerBlock) ||
        fillLevel state.ring == 0
    | _ => true
  | _ => true

/-- The output is a prefix of the accepted blocks, in the order of extraction. -/
def PrefixKept (state : State Block) : Prop :=
  state.file.flatten <+: state.accepted

end MisrcGui.Record.LegacyChannel
