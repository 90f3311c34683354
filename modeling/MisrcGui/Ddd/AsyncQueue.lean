import Mathlib.Data.Fin.Basic
import MisrcGui.Library.Machine

/-! The asynchronous transfer queue of `gui_ddd_async.c`. One step is one callback, one
submission, one block handed on, or one pass of a test in the run loop; the capture flag
may fall between any two of them. -/
namespace MisrcGui.Ddd.Async
open Library

def transferBytes : Nat := 128 * 1024
def transferCount : Nat := 96

inductive TransferStatus where
  | completed
  | error
  | timedOut
  | cancelled
  | stall
  | noDevice
  | overflow
deriving DecidableEq

def errorInterrupted : Int := -10
def errorNotFound : Int := -5
def errorOther : Int := -99

inductive SlotState where
  | unused
  | submitted
  | complete
  | cancelled
  | failed
  | retired
deriving DecidableEq

inductive NextState where
  | wait
  | ready
  | stale
deriving DecidableEq

/-- The codes that a run may end with once its queue is allocated. -/
inductive ResultCode where
  | success
  | submitFailure
  | transferFailure
  | shortTransfer
  | eventFailure
  | drainTimeout
  | orderFailure
  | consumerFailure
deriving DecidableEq

structure Slot (Block : Type) where
  submissionId : Nat
  state : SlotState
  actualLength : Nat
  cancelRequested : Bool
  buffer : Option Block

/-- One call of `consume`. -/
structure Delivery (Block : Type) where
  submissionId : Nat
  size : Nat
  block : Option Block

/-- `pending` marks the transfers that libusb holds. `completed` records the transfers
that came back whole, in the order of their callbacks, and `handed` the calls of
`consume`. -/
structure Queue (Block : Type) where
  slots : Fin transferCount → Slot Block
  nextSubmitId : Nat
  nextConsumeId : Nat
  submittedCount : Nat
  inFlight : Nat
  completedTransfers : Nat
  consumedTransfers : Nat
  pending : Fin transferCount → Bool
  completed : List (Nat × Block)
  handed : List (Delivery Block)

structure AsyncResult where
  code : ResultCode
  libusbError : Int
  transferStatus : TransferStatus
  actualLength : Nat
  submissionId : Nat
  readySignalled : Bool

/-- `consumeTop` starts an iteration of `consume_ready`, and `resubmit` follows the block
of a slot; `check` is the rest of the run loop up to the event pump. -/
inductive Point where
  | submitting (index : Nat)
  | loopTop
  | consumeTop
  | resubmit (slot : Fin transferCount)
  | check
  | pump
  | finished
deriving DecidableEq

/-- `captureRunning` is the shared flag and `running` the copy that the run loop took. -/
structure Engine (Block : Type) where
  queue : Queue Block
  result : AsyncResult
  failed : Bool
  acceptingSubmissions : Bool
  stopping : Bool
  cancelIssued : Bool
  telemetryInFlight : Bool
  transferReady : Bool
  startupFailed : Bool
  captureRunning : Bool
  running : Bool
  point : Point

variable {Block : Type}

def start : Engine Block where
  queue :=
    { slots := fun _ => ⟨0, .unused, 0, false, none⟩
      nextSubmitId := 0
      nextConsumeId := 0
      submittedCount := 0
      inFlight := 0
      completedTransfers := 0
      consumedTransfers := 0
      pending := fun _ => false
      completed := []
      handed := [] }
  result := ⟨.success, 0, .completed, 0, 0, false⟩
  failed := false
  acceptingSubmissions := true
  stopping := false
  cancelIssued := false
  telemetryInFlight := false
  transferReady := false
  startupFailed := false
  captureRunning := true
  running := false
  point := .submitting 0

def latchFailure (engine : Engine Block) (code : ResultCode) (libusbError : Int)
    (transferStatus : TransferStatus) (actualLength submissionId : Nat) : Engine Block :=
  if engine.failed then engine
  else
    { engine with
      failed := true
      acceptingSubmissions := false
      result := { engine.result with code, libusbError, transferStatus, actualLength, submissionId }
      transferReady := false
      startupFailed := true }

def Queue.reap (queue : Queue Block) (index : Fin transferCount) (state : SlotState)
    (actualLength : Nat) (block : Block) : Queue Block :=
  { queue with
    slots := Function.update queue.slots index
      { queue.slots index with state, actualLength, buffer := some block }
    inFlight := queue.inFlight - 1
    completedTransfers := queue.completedTransfers + 1
    pending := Function.update queue.pending index false
    completed :=
      if state = .complete then
        queue.completed ++ [((queue.slots index).submissionId, block)]
      else queue.completed }

def Queue.stray (queue : Queue Block) (index : Fin transferCount) : Queue Block :=
  { queue with
    slots := Function.update queue.slots index { queue.slots index with state := .failed }
    pending := Function.update queue.pending index false }

def transferCallback (engine : Engine Block) (index : Fin transferCount)
    (status : TransferStatus) (actualLength : Nat) (block : Block) : Engine Block :=
  let queue := engine.queue
  let slot := queue.slots index
  if slot.state ≠ .submitted ∨ queue.inFlight = 0 then
    latchFailure { engine with queue := queue.stray index } .orderFailure 0 status
      actualLength slot.submissionId
  else if status = .completed then
    if actualLength ≠ transferBytes then
      latchFailure { engine with queue := queue.reap index .failed actualLength block }
        .shortTransfer 0 status actualLength slot.submissionId
    else { engine with queue := queue.reap index .complete actualLength block }
  else if status = .cancelled ∧ (slot.cancelRequested ∨ engine.failed) then
    { engine with queue := queue.reap index .cancelled actualLength block }
  else
    latchFailure { engine with queue := queue.reap index .failed actualLength block }
      .transferFailure 0 status actualLength slot.submissionId

def Queue.assign (queue : Queue Block) (index : Fin transferCount) (state : SlotState) :
    Queue Block :=
  { queue with
    slots := Function.update queue.slots index
      { queue.slots index with
        submissionId := queue.nextSubmitId
        state
        actualLength := 0
        cancelRequested := false }
    nextSubmitId := queue.nextSubmitId + 1 }

def Queue.launch (queue : Queue Block) (index : Fin transferCount) : Queue Block :=
  { queue.assign index .submitted with
    submittedCount := queue.submittedCount + 1
    inFlight := queue.inFlight + 1
    pending := Function.update queue.pending index true }

def submitSlot (engine : Engine Block) (index : Fin transferCount) (rc : Int) :
    Engine Block :=
  if rc < 0 then
    latchFailure { engine with queue := engine.queue.assign index .failed } .submitFailure rc
      .completed 0 engine.queue.nextSubmitId
  else { engine with queue := engine.queue.launch index }

def slotOf (submissionId : Nat) : Fin transferCount :=
  ⟨submissionId % transferCount, Nat.mod_lt _ (by decide)⟩

def orderPolicyPeek (queue : Queue Block) : NextState :=
  let slot := queue.slots (slotOf queue.nextConsumeId)
  if slot.submissionId ≠ queue.nextConsumeId then .stale
  else if slot.state ≠ .complete then .wait
  else .ready

def stopDrainComplete (captureRunning : Bool) (queue : Queue Block) : Bool :=
  !captureRunning && queue.inFlight == 0 &&
    queue.completedTransfers == queue.consumedTransfers

def shouldResubmit (engine : Engine Block) : Bool :=
  engine.acceptingSubmissions && engine.captureRunning && !engine.failed

/-- The result of cancelling each transfer; cancellation is issued once a run. -/
abbrev CancelResults := Fin transferCount → Int

def Queue.request (queue : Queue Block) : Queue Block :=
  { queue with
    slots := fun index =>
      if (queue.slots index).state = .submitted then
        { queue.slots index with cancelRequested := true }
      else queue.slots index }

def cancelInFlight (cancelResults : CancelResults) (engine : Engine Block) : Engine Block :=
  if engine.cancelIssued then engine
  else
    let requested := { engine with
      cancelIssued := true
      acceptingSubmissions := false
      queue := engine.queue.request }
    let refused := (List.finRange transferCount).find? fun index =>
      decide ((engine.queue.slots index).state = .submitted) &&
        decide (cancelResults index < 0) && cancelResults index != errorNotFound
    match refused with
    | some index =>
      latchFailure requested .eventFailure (cancelResults index) .completed 0
        (engine.queue.slots index).submissionId
    | none => requested

def Queue.hand (queue : Queue Block) (index : Fin transferCount) (state : SlotState) :
    Queue Block :=
  let slot := queue.slots index
  { queue with
    slots := Function.update queue.slots index { slot with state }
    handed := queue.handed ++ [⟨slot.submissionId, slot.actualLength, slot.buffer⟩] }

def Queue.retire (queue : Queue Block) (index : Fin transferCount) : Queue Block :=
  { queue.hand index .retired with
    consumedTransfers := queue.consumedTransfers + 1
    nextConsumeId := queue.nextConsumeId + 1 }

/-- One iteration of `consume_ready`, up to its second look at the flag. -/
def consumeReady (cancelResults : CancelResults) (engine : Engine Block) (accepted : Bool) :
    Engine Block :=
  let queue := engine.queue
  let index := slotOf queue.nextConsumeId
  if stopDrainComplete engine.captureRunning queue then { engine with point := .check }
  else
    match orderPolicyPeek queue with
    | .wait => { engine with point := .check }
    | .stale =>
      cancelInFlight cancelResults
        { latchFailure engine .orderFailure 0 .completed 0 queue.nextConsumeId with
          point := .check }
    | .ready =>
      let slot := queue.slots index
      if accepted then { engine with queue := queue.retire index, point := .resubmit index }
      else
        cancelInFlight cancelResults
          { latchFailure { engine with queue := queue.hand index .failed } .consumerFailure 0
              .completed slot.actualLength slot.submissionId with
            point := .check }

def resubmit (cancelResults : CancelResults) (engine : Engine Block)
    (index : Fin transferCount) (rc : Int) : Engine Block :=
  if shouldResubmit engine then
    let submitted := submitSlot engine index rc
    if rc < 0 then cancelInFlight cancelResults { submitted with point := .check }
    else { submitted with point := .consumeTop }
  else { engine with point := .consumeTop }

def queueReady (cancelResults : CancelResults) (engine : Engine Block) : Engine Block :=
  if !engine.failed && engine.queue.submittedCount == transferCount then
    { engine with
      result := { engine.result with readySignalled := true }
      transferReady := true
      point := .loopTop }
  else if !engine.failed then
    cancelInFlight cancelResults
      { latchFailure engine .submitFailure errorOther .completed 0 engine.queue.nextSubmitId with
        point := .loopTop }
  else cancelInFlight cancelResults { engine with point := .loopTop }

def submitInitial (cancelResults : CancelResults) (engine : Engine Block) (next : Nat)
    (rc : Int) : Engine Block :=
  if inside : next < transferCount then
    let submitted := submitSlot engine ⟨next, inside⟩ rc
    if rc < 0 then queueReady cancelResults submitted
    else { submitted with point := .submitting (next + 1) }
  else queueReady cancelResults engine

/-- The head of the run loop. `telemetryDue` says that a telemetry read is submitted. -/
def loopTop (engine : Engine Block) (telemetryDue : Bool) : Engine Block :=
  let running := engine.captureRunning
  let stops := !running && !engine.stopping
  { engine with
    running
    stopping := engine.stopping || stops
    acceptingSubmissions := engine.acceptingSubmissions && !stops
    telemetryInFlight := engine.telemetryInFlight ||
      (running && telemetryDue && !engine.stopping && !engine.failed)
    point := if engine.failed then .check else .consumeTop }

/-- `now_ms >= stop_deadline_ms` and `now_ms >= cancel_deadline_ms`. -/
structure Clock where
  drainLate : Bool
  reapLate : Bool

def finish (engine : Engine Block) : Engine Block :=
  { engine with transferReady := false, point := .finished }

def checkLoop (cancelResults : CancelResults) (engine : Engine Block) (clock : Clock) :
    Engine Block :=
  let anyInFlight := engine.queue.inFlight != 0 || engine.telemetryInFlight
  let engine :=
    if engine.failed then cancelInFlight cancelResults engine
    else if engine.stopping && anyInFlight && clock.drainLate then
      cancelInFlight cancelResults
        (latchFailure engine .drainTimeout 0 .completed 0 engine.queue.nextConsumeId)
    else engine
  if engine.failed && !anyInFlight then finish engine
  else if !engine.failed && stopDrainComplete engine.running engine.queue &&
      !engine.telemetryInFlight then
    finish engine
  else if anyInFlight && engine.cancelIssued && clock.reapLate then finish engine
  else if !engine.failed && engine.running && engine.queue.inFlight == 0 then
    cancelInFlight cancelResults
      { latchFailure engine .orderFailure 0 .completed 0 engine.queue.nextConsumeId with
        point := .loopTop }
  else { engine with point := .pump }

def pumpReturns (cancelResults : CancelResults) (engine : Engine Block) (rc : Int) :
    Engine Block :=
  if rc < 0 ∧ rc ≠ errorInterrupted then
    cancelInFlight cancelResults
      { latchFailure engine .eventFailure rc .completed 0 engine.queue.nextConsumeId with
        point := .loopTop }
  else { engine with point := .loopTop }

inductive Action (Block : Type) where
  | submitInitial (rc : Int)
  | loopTop (telemetryDue : Bool)
  | consumeReady (accepted : Bool)
  | resubmit (rc : Int)
  | check (clock : Clock)
  | pumpReturns (rc : Int)
  | callback (index : Fin transferCount) (status : TransferStatus) (actualLength : Nat)
      (block : Block)
  | telemetryCallback
  | stop

/-- The thread's own actions are taken in program order. libusb calls back for what it
holds, at any time. -/
def step (cancelResults : CancelResults) (engine : Engine Block) :
    Action Block → Option (Engine Block)
  | .submitInitial rc =>
    match engine.point with
    | .submitting next => some (submitInitial cancelResults engine next rc)
    | _ => none
  | .loopTop telemetryDue =>
    match engine.point with
    | .loopTop => some (loopTop engine telemetryDue)
    | _ => none
  | .consumeReady accepted =>
    match engine.point with
    | .consumeTop => some (consumeReady cancelResults engine accepted)
    | _ => none
  | .resubmit rc =>
    match engine.point with
    | .resubmit index => some (resubmit cancelResults engine index rc)
    | _ => none
  | .check clock =>
    match engine.point with
    | .check => some (checkLoop cancelResults engine clock)
    | _ => none
  | .pumpReturns rc =>
    match engine.point with
    | .pump => some (pumpReturns cancelResults engine rc)
    | _ => none
  | .callback index status actualLength block =>
    if engine.queue.pending index then
      some (transferCallback engine index status actualLength block)
    else none
  | .telemetryCallback =>
    if engine.telemetryInFlight then some { engine with telemetryInFlight := false } else none
  | .stop => if engine.captureRunning then some { engine with captureRunning := false } else none

end MisrcGui.Ddd.Async
