import MisrcGui.Library.Machine
import MisrcGui.Ring.RingBuffer

/-! The direct RAW record path of `gui_record_direct.c`: one capture thread that
pushes and one writer thread. Ring operations and spill callbacks are steps of
their own; the copies into and out of the ring are separate from the calls that
grant and release its space. -/
namespace MisrcGui.Record.DirectPath
open MisrcGui.Ring

variable {Cell : Type}

def maxBlockBytes : Nat := 65536 * 32

/-- `max_wait_attempts` of `s_direct_write_policy`. -/
def maxWaitAttempts : Nat := 2

/-- The next statement of `gui_record_direct_push_inner`. -/
inductive Producer (Cell : Type) where
  | idle
  | spillBacklog (data : List Cell)
  | spillBehind (data : List Cell)
  | writeBegin (data : List Cell) (attempts : Nat)
  | copy (data : List Cell) (pointer : Nat)
  | writeEnd (data : List Cell)
  | spillInstead (data : List Cell)

/-- The next statement of `gui_record_direct_writer_thread`. A branch that tests
`stopping` again carries the value sampled at the head of the loop. -/
inductive Writer (Cell : Type) where
  | loopHead
  | pending (stopping : Bool)
  | fillLevel (stopping : Bool)
  | readBegin (want : Nat) (stopping : Bool)
  | spillBacklog (stopping : Bool)
  | spillRead (want : Nat) (stopping : Bool)
  | fwriteRing (pointer len : Nat)
  | readEnd (pointer len : Nat) (complete : Bool)
  | copyRing (pointer len : Nat)
  | fwriteSpill (data : List Cell)
  | exited
deriving DecidableEq

/-- `pending` is the block held after a failed write, if there is one. The last
three fields are ghost: the payloads of the pushes that returned RING or SPILL,
how many bytes the failed attempts at the current block have put into the file,
and whether the writer's last `fwrite` failed. -/
structure State (Cell : Type) where
  ring : RingBuffer Cell
  spill : List Cell
  file : List Cell
  tapOpen : Bool
  recordingActive : Bool
  exitFlag : Bool
  producer : Producer Cell
  writer : Writer Cell
  pending : Option (List Cell)
  lastRetryMs : Nat
  writeDrops : Nat
  bytesRead : Nat
  bytesWritten : Nat
  writeError : Bool
  accepted : List (List Cell)
  partialBytes : Nat
  lastFailed : Bool

def initial (buffer : Nat → Cell) : State Cell where
  ring := ⟨buffer, 0, 0⟩
  spill := []
  file := []
  tapOpen := true
  recordingActive := true
  exitFlag := false
  producer := .idle
  writer := .loopHead
  pending := none
  lastRetryMs := 0
  writeDrops := 0
  bytesRead := 0
  bytesWritten := 0
  writeError := false
  accepted := []
  partialBytes := 0
  lastFailed := false

/-- `spill_enqueue` fails or appends all bytes. -/
def spillEnqueue (state : State Cell) (data : List Cell) : State Cell :=
  { state with
    spill := state.spill ++ data
    accepted := state.accepted ++ [data]
    producer := .idle }

def pushInner (geometry : Geometry) (state : State Cell) (enqueued : Bool) :
    Option (State Cell) :=
  match state.producer with
  | .idle => none
  | .spillBacklog data =>
    let next : Producer Cell :=
      if 0 < state.spill.length then .spillBehind data else .writeBegin data 0
    some { state with producer := next }
  | .spillBehind data =>
    if enqueued then some (spillEnqueue state data)
    else some { state with producer := .idle }
  | .writeBegin data attempts =>
    match rbWritePtr geometry state.ring data.length with
    | some pointer => some { state with producer := .copy data pointer }
    | none =>
      if maxWaitAttempts < attempts + 1 then
        some { state with
          writeDrops := state.writeDrops + 1
          producer := .spillInstead data }
      else some { state with producer := .writeBegin data (attempts + 1) }
  | .copy data pointer =>
    some { state with
      ring := copyIn geometry state.ring pointer data
      producer := .writeEnd data }
  | .writeEnd data =>
    some { state with
      ring := bufmgrWriteEnd geometry state.ring data.length
      accepted := state.accepted ++ [data]
      producer := .idle }
  | .spillInstead data =>
    if enqueued then
      some { spillEnqueue state data with writeDrops := state.writeDrops - 1 }
    else some { state with producer := .idle }

/-- What the system decides in a step of the writer: the clock, how much an
`fwrite` puts into the file and whether `ferror` is set after it, and whether
`spill_read` succeeds. -/
structure Io where
  nowMs : Nat
  written : Nat
  error : Bool
  spillRead : Bool
deriving DecidableEq

def Io.complete (io : Io) (len : Nat) : Bool := io.written == len && !io.error

/-- `retry_due`, which a stop forces for one last attempt. -/
def retryDue (state : State Cell) (nowMs : Nat) (stopping : Bool) : Bool :=
  state.lastRetryMs == 0 || decide (nowMs < state.lastRetryMs) ||
    decide (2000 ≤ nowMs - state.lastRetryMs) || stopping

def held (state : State Cell) : List Cell := state.pending.getD []

def retry (state : State Cell) (io : Io) : State Cell :=
  let attempted :=
    { state with
      lastRetryMs := io.nowMs
      file := state.file ++ (held state).take io.written
      lastFailed := !io.complete (held state).length }
  if io.complete (held state).length then
    { attempted with
      pending := none
      writeError := false
      bytesWritten := state.bytesWritten + (held state).length
      partialBytes := 0 }
  else { attempted with partialBytes := state.partialBytes + io.written }

/-- With nothing left to do in a round the thread exits if it is stopping. -/
def endRound (stopping : Bool) : Writer Cell := if stopping then .exited else .loopHead

def writerThread (geometry : Geometry) (state : State Cell) (io : Io) :
    Option (State Cell) :=
  match state.writer with
  | .exited => none
  | .loopHead =>
    let stopping := !state.recordingActive || state.exitFlag
    let next : Writer Cell :=
      if state.pending.isSome then .pending stopping else .fillLevel stopping
    some { state with writer := next }
  | .pending stopping =>
    if retryDue state io.nowMs stopping then
      if io.written ≤ (held state).length then
        some { retry state io with writer := endRound stopping }
      else none
    else some { state with writer := endRound stopping }
  | .fillLevel stopping =>
    let fill := fillLevel state.ring
    let next : Writer Cell :=
      if 0 < fill then .readBegin (min fill maxBlockBytes) stopping
      else .spillBacklog stopping
    some { state with writer := next }
  | .readBegin want stopping =>
    match rbReadPtr geometry state.ring want with
    | some pointer => some { state with writer := .fwriteRing pointer want }
    | none => some { state with writer := .spillBacklog stopping }
  | .spillBacklog stopping =>
    let backlog := state.spill.length
    let next : Writer Cell :=
      if 0 < backlog then .spillRead (min maxBlockBytes backlog) stopping
      else endRound stopping
    some { state with writer := next }
  | .spillRead want stopping =>
    if io.spillRead then
      some { state with
        spill := state.spill.drop want
        writer := .fwriteSpill (state.spill.take want) }
    else some { state with writer := endRound stopping }
  | .fwriteRing pointer len =>
    if io.written ≤ len then
      some { state with
        file := state.file ++ (copyOut geometry state.ring pointer len).take io.written
        partialBytes := if io.complete len then 0 else io.written
        lastFailed := !io.complete len
        writer := .readEnd pointer len (io.complete len) }
    else none
  | .readEnd pointer len complete =>
    let released := { state with ring := bufmgrReadEnd geometry state.ring len }
    if complete then
      some { released with
        bytesWritten := state.bytesWritten + len
        writer := .loopHead }
    else some { released with writer := .copyRing pointer len }
  | .copyRing pointer len =>
    some { state with
      pending := some (copyOut geometry state.ring pointer len)
      writeError := true
      writer := .loopHead }
  | .fwriteSpill data =>
    if io.written ≤ data.length then
      let attempted :=
        { state with
          file := state.file ++ data.take io.written
          partialBytes := if io.complete data.length then 0 else io.written
          lastFailed := !io.complete data.length
          writer := .loopHead }
      if io.complete data.length then
        some { attempted with bytesWritten := state.bytesWritten + data.length }
      else some { attempted with pending := some data, writeError := true }
    else none

inductive Action (Cell : Type) where
  | push (data : List Cell)
  | produce (enqueued : Bool)
  | write (io : Io)
  | closeTap
  | stop
  | exit

/-- `closeTap` is the whole stop handshake of the tap: it waits until no push is
in progress. An empty push is refused before anything else. -/
def step (geometry : Geometry) (state : State Cell) : Action Cell → Option (State Cell)
  | .push data =>
    match state.producer with
    | .idle =>
      if state.tapOpen && !data.isEmpty then
        some { state with
          bytesRead := state.bytesRead + data.length
          producer := .spillBacklog data }
      else some state
    | _ => none
  | .produce enqueued => pushInner geometry state enqueued
  | .write io => writerThread geometry state io
  | .closeTap =>
    match state.producer with
    | .idle => some { state with tapOpen := false }
    | _ => none
  | .stop => some { state with recordingActive := false }
  | .exit => some { state with exitFlag := true }

/-- Every `fwrite` is complete. -/
def everyWriteComplete (state : State Cell) : Action Cell → Bool
  | .write io =>
    match state.writer with
    | .pending _ => io.complete (held state).length
    | .fwriteRing _ len => io.complete len
    | .fwriteSpill data => io.complete data.length
    | _ => true
  | _ => true

/-- The writer takes bytes from the spill only while the ring is empty. -/
def spillAfterRing (state : State Cell) : Action Cell → Bool
  | .write io =>
    match state.writer with
    | .spillRead _ _ => !io.spillRead || fillLevel state.ring == 0
    | _ => true
  | _ => true

/-- A held block is written again only while no part of it is in the file. -/
def repeatsNothing (state : State Cell) : Action Cell → Bool
  | .write io =>
    match state.writer with
    | .pending stopping => !retryDue state io.nowMs stopping ||
        state.partialBytes == 0 || io.written == 0
    | _ => true
  | _ => true

/-- A push stays out of the space of a failed block that is released and not yet
copied aside: the unread bytes, the push and that block fit into the ring. -/
def sparesFailedBlock (geometry : Geometry) (state : State Cell) : Action Cell → Bool
  | .produce _ =>
    match state.producer, state.writer with
    | .copy data _, .copyRing _ len =>
      decide (fillLevel state.ring + data.length + len ≤ geometry.size)
    | _, _ => true
  | _ => true

def stopsIdle (state : State Cell) : Action Cell → Bool
  | .stop | .exit => !state.tapOpen
  | _ => true

/-- A stop seen with a held block finds the ring and the spill empty, or the last
write fails; and no spill read fails after the stop was seen. -/
def drainedAtStop (state : State Cell) : Action Cell → Bool
  | .write io =>
    match state.writer with
    | .pending true => !io.complete (held state).length ||
        (fillLevel state.ring == 0 && state.spill.isEmpty)
    | .spillRead _ true => io.spillRead
    | _ => true
  | _ => true

/-- The output is a prefix of the accepted payloads, in push order. -/
def PrefixKept (state : State Cell) : Prop :=
  state.file <+: state.accepted.flatten

/-- When the writer has exited and its last `fwrite` was complete, nothing is
left in the ring or the spill. -/
def TailDrained (geometry : Geometry) (state : State Cell) : Prop :=
  state.writer = .exited → state.lastFailed = false →
    contents geometry state.ring = [] ∧ state.spill = []

end MisrcGui.Record.DirectPath
