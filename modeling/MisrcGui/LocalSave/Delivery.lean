import MisrcGui.Library.Machine
import MisrcGui.LocalSave.Receiver

/-! A local save from the encoders to the client, `gui_monitor_local_save.c` with the jobs of
`monitor_local_save_proxy.c`: the file proxies put jobs into the send queue, the sender worker
takes them over the socket, and the client's receiver loop applies and acknowledges them. Every
call on the socket or on the client's files may fail, and so may every allocation. -/
namespace MisrcGui.LocalSave.Delivery
open Library

def queueMaxBytes : Nat := 64 * 1024 * 1024

def streamWindow : Nat := 8

structure Job where
  type : FrameType
  id : Fin maxFiles
  offset : Nat
  payload : Bytes

def syncId : Fin maxFiles := ⟨0, by decide⟩

def syncFrame : Frame := ⟨.sync, syncId, 0, [], 0⟩

def Job.frame (job : Job) : Frame :=
  ⟨if job.type = .write then .writeStream else job.type, job.id, job.offset, job.payload,
    if job.payload = [] then 0 else crc32 job.payload⟩

structure Ack where
  fileId : Nat
  good : Bool

/-- A file proxy in the hands of its encoder: before OPEN, waiting for it, open, waiting for
CLOSE, about to give up, waiting for ABORT, and gone. -/
inductive Encoder where
  | absent
  | opening
  | ready (bad : Bool)
  | closing
  | failing
  | aborting
  | gone

inductive Worker where
  | idle
  | streaming (job : Job)
  | syncSend (job : Job)
  | syncAwait (job : Job)
  | controlSend (job : Job)
  | controlAwait (job : Job)
  | finishing (job : Job) (result : Bool)

/-- `gui_monitor_local_save_end(true)`. -/
inductive Ending where
  | running
  | committing
  | returned (complete : Bool)
deriving DecidableEq

/-- What the client had applied when it performed the renames of a COMMIT, which files had
unflushed bytes, and whether a step had failed. -/
structure Snapshot where
  applied : List Frame
  unflushed : Fin maxFiles → Bool
  stepFailed : Bool

/-- `failed` is `s_mls_failed`, which clears `s_mls_active` with it. From `enqueued` on the
fields are ghost: the jobs that the queue took, whether it refused a job (other than an OPEN) or
an OPEN, what the client has applied and not flushed, whether a step failed, and the COMMIT. -/
structure State where
  failed : Bool
  queue : List Job
  queuedBytes : Nat
  worker : Worker
  outstanding : Nat
  encoder : Fin maxFiles → Encoder
  ending : Ending
  linked : Bool
  toClient : List Frame
  toServer : List Ack
  alive : Bool
  session : Session
  enqueued : List Job
  refused : Bool
  openRefused : Bool
  applied : List Frame
  unflushed : Fin maxFiles → Bool
  stepFailed : Bool
  snapshot : Option Snapshot

/-- A recording behind `gui_monitor_local_save_begin`; the client does not overwrite. -/
def begin (directory : Path) (disk : Disk) : State :=
  { failed := false
    queue := []
    queuedBytes := 0
    worker := .idle
    outstanding := 0
    encoder := fun _ => .absent
    ending := .running
    linked := true
    toClient := []
    toServer := []
    alive := true
    session := ⟨receiverInit directory false, disk⟩
    enqueued := []
    refused := false
    openRefused := false
    applied := []
    unflushed := fun _ => false
    stepFailed := false
    snapshot := none }

def State.withEncoder (state : State) (id : Fin maxFiles) (encoder : Encoder) : State :=
  { state with encoder := Function.update state.encoder id encoder }

def State.enqueue (state : State) (job : Job) : State :=
  { state with
    queue := state.queue ++ [job]
    queuedBytes := state.queuedBytes + job.payload.length
    enqueued := state.enqueued ++ [job] }

def State.markFailed (state : State) : State :=
  { state with failed := true, stepFailed := true }

/-- `gui_monitor_local_save_send` refuses a job without memory for it, and when the session has
failed. -/
def State.refuses (state : State) (noMemory : Bool) : Bool := noMemory || state.failed

/-- `mls_proxy_open` with a safe name, up to the wait for its OPEN. -/
def openProxy (state : State) (id : Fin maxFiles) (name : Bytes) (noMemory : Bool) :
    Option State :=
  match state.encoder id, state.ending with
  | .absent, .running =>
    if !safeFilename name then none
    else if state.refuses noMemory then
      some { state.withEncoder id .gone with openRefused := true }
    else some ((state.withEncoder id .opening).enqueue ⟨.open, id, 0, name⟩)
  | _, _ => none

/-- `flush_proxy` with buffered bytes: a write waits for room, and a refused one spoils the
proxy. -/
def writeProxy (state : State) (id : Fin maxFiles) (offset : Nat) (data : Bytes)
    (noMemory : Bool) : Option State :=
  match state.encoder id with
  | .ready false =>
    if data = [] ∨ data.length > maxPayload then none
    else if state.refuses noMemory then
      some { state.withEncoder id (.ready true) with refused := true }
    else if state.queuedBytes + data.length > queueMaxBytes then none
    else some (state.enqueue ⟨.write, id, offset, data⟩)
  | _ => none

/-- `mls_proxy_close` behind its flush. -/
def closeProxy (state : State) (id : Fin maxFiles) (noMemory : Bool) : Option State :=
  match state.encoder id with
  | .ready bad =>
    if bad || state.failed then some (state.withEncoder id .failing)
    else if noMemory then some { state.withEncoder id .failing with refused := true }
    else some ((state.withEncoder id .closing).enqueue ⟨.close, id, 0, []⟩)
  | _ => none

def abortProxy (state : State) (id : Fin maxFiles) (noMemory : Bool) : Option State :=
  match state.encoder id with
  | .failing =>
    if state.refuses noMemory then some { state.withEncoder id .gone with refused := true }
    else some ((state.withEncoder id .aborting).enqueue ⟨.abort, id, 0, []⟩)
  | _ => none

def Encoder.unused : Encoder → Bool
  | .absent | .gone => true
  | _ => false

def endRecording (state : State) (noMemory : Bool) : Option State :=
  if state.ending = .running ∧ ∀ id, (state.encoder id).unused = true then
    if state.failed then some { state with ending := .returned false }
    else if noMemory then some { state with ending := .returned false, refused := true }
    else some ({ state with ending := .committing }.enqueue ⟨.commit, syncId, 0, []⟩)
  else none

def settle (state : State) (job : Job) (result : Bool) : State :=
  match job.type with
  | .open => state.withEncoder job.id (if result then .ready false else .gone)
  | .close => state.withEncoder job.id (if result then .gone else .failing)
  | .abort => state.withEncoder job.id .gone
  | .commit => { state with ending := .returned result }
  | _ => state

/-- The step of the worker; `good` tells whether its call on the socket succeeds. -/
def workerStep (state : State) (good : Bool) : Option State :=
  match state.worker with
  | .idle =>
    match state.queue with
    | [] => none
    | job :: rest =>
      let worker : Worker :=
        if job.type = .write then .streaming job
        else if state.outstanding > 0 then .syncSend job
        else .controlSend job
      some { state with queue := rest, worker }
  | .streaming job =>
    if state.failed then some { state with worker := .finishing job false }
    else if good && state.linked then
      let outstanding := state.outstanding + 1
      some { state with
        toClient := state.toClient ++ [job.frame]
        outstanding
        worker := if outstanding ≥ streamWindow then .syncSend job else .finishing job true }
    else some { state.markFailed with worker := .finishing job false }
  | .syncSend job =>
    if state.failed then some { state with outstanding := 0, worker := .finishing job false }
    else if good && state.linked then
      some { state with toClient := state.toClient ++ [syncFrame], worker := .syncAwait job }
    else some { state.markFailed with outstanding := 0, worker := .finishing job false }
  | .syncAwait job =>
    match state.toServer with
    | [] =>
      if good then none
      else some { state.markFailed with outstanding := 0, worker := .finishing job false }
    | ack :: rest =>
      if good && ack.good && ack.fileId == syncFrame.fileId then
        some { state with
          toServer := rest
          outstanding := 0
          worker := if job.type = .write then .finishing job true else .controlSend job }
      else some { state.markFailed with outstanding := 0, worker := .finishing job false }
  | .controlSend job =>
    if state.failed then some { state with worker := .finishing job false }
    else if good && state.linked then
      some { state with toClient := state.toClient ++ [job.frame], worker := .controlAwait job }
    else some { state.markFailed with worker := .finishing job false }
  | .controlAwait job =>
    match state.toServer with
    | [] =>
      if good then none else some { state.markFailed with worker := .finishing job false }
    | ack :: rest =>
      if good && ack.good && ack.fileId == job.frame.fileId then
        some { state with toServer := rest, worker := .finishing job true }
      else some { state.markFailed with worker := .finishing job false }
  | .finishing job result =>
    some (settle
      { state with
        worker := .idle
        queuedBytes := state.queuedBytes - job.payload.length } job result)

/-- `mls_receiver_apply` on a frame; a damaged payload fails its CRC. -/
def applyFrame (faults : Faults) (session : Session) (frame : Frame) (damaged : Bool) :
    Session × Bool :=
  if damaged && !frame.payload.isEmpty then (session.fail, false)
  else receiverApply faults session frame

/-- Which files have unflushed bytes behind a frame that was applied. -/
def flushed (unflushed : Fin maxFiles → Bool) (frame : Frame) (id : Fin maxFiles) : Bool :=
  match frame.type with
  | .writeStream => unflushed id || decide (frame.fileId = id)
  | .sync => false
  | .close => unflushed id && decide (frame.fileId ≠ id)
  | _ => unflushed id

def receiveFrame (state : State) (faults : Faults) (damaged ackSent : Bool) : Option State :=
  match state.alive, state.toClient with
  | true, frame :: rest =>
    let (session, good) := applyFrame faults state.session frame damaged
    let silent := decide (frame.type = .writeStream) && good
    let sent := ackSent && state.linked
    let committed := good && decide (frame.type = .commit)
    let alive := silent || sent && good && decide (frame.type ≠ .abort)
    let session :=
      if committed then
        { session with receiver := receiverInit session.receiver.directory false }
      else session
    some { state with
      toClient := rest
      toServer :=
        if !silent && sent then state.toServer ++ [⟨frame.fileId, good⟩] else state.toServer
      alive
      session := if alive then session else abortFiles session
      applied := if good then state.applied ++ [frame] else state.applied
      unflushed := if good then flushed state.unflushed frame else state.unflushed
      stepFailed := state.stepFailed || !good || !silent && !sent
      snapshot :=
        if committed then some ⟨state.applied, state.unflushed, state.stepFailed⟩
        else state.snapshot }
  | _, _ => none

/-- The worker holds the lock of the socket while it sends and waits. -/
def Worker.awaits : Worker → Option Frame
  | .syncAwait _ => some syncFrame
  | .controlAwait job => some job.frame
  | _ => none

inductive Action where
  | open (id : Fin maxFiles) (name : Bytes) (noMemory : Bool)
  | write (id : Fin maxFiles) (offset : Nat) (data : Bytes) (noMemory : Bool)
  | close (id : Fin maxFiles) (noMemory : Bool)
  | abort (id : Fin maxFiles) (noMemory : Bool)
  | finish (noMemory : Bool)
  | worker (good : Bool)
  | receive (faults : Faults) (damaged ackSent : Bool)
  | disconnect
  | detach
  | clientStops

/-- The connection may break, the attached thread of the server may give the session up, and the
client may stop. -/
def step (state : State) : Action → Option State
  | .open id name noMemory => openProxy state id name noMemory
  | .write id offset data noMemory => writeProxy state id offset data noMemory
  | .close id noMemory => closeProxy state id noMemory
  | .abort id noMemory => abortProxy state id noMemory
  | .finish noMemory => endRecording state noMemory
  | .worker good => workerStep state good
  | .receive faults damaged ackSent => receiveFrame state faults damaged ackSent
  | .disconnect => some { state with linked := false, stepFailed := true }
  | .detach => if state.worker.awaits.isSome then none else some state.markFailed
  | .clientStops =>
    some { state with
      alive := false
      session := abortFiles state.session
      stepFailed := true }

end MisrcGui.LocalSave.Delivery
