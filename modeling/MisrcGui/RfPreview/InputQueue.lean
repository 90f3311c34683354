import MisrcGui.Library.Machine
import MisrcGui.RfPreview.Worker

/-! The input queue of the RF preview worker and what becomes of every block: any number of
threads in `gui_rf_preview_worker_submit`, the requests of the UI and the video worker, atomic
access by atomic access. The clock, the budget, the resamplers and the decoder are choices of the
steps; the samples and the gaps between blocks are left out. -/
namespace MisrcGui.RfPreview.InputQueue
open Worker (Info queueSlots blockSamples minRate)

def queueMaxUs : Nat := 200000

/-- `rf_input_slot_t`. Ghost: the call that has filled it, and its own duration. -/
structure Slot where
  durationEndUs : Nat
  control : Nat
  pauseControl : Nat
  call : Nat
  durationUs : Nat
deriving DecidableEq

/-- The arguments of a submission; `samples` says that the pointer is not null. -/
structure Request where
  samples : Bool
  count : Nat
  info : Option Info

def Request.malformed (r : Request) : Bool :=
  !r.samples || r.info.isNone || r.count = 0 || blockSamples < r.count ||
    r.info.any fun info => 2 ^ 64 - 1 - r.count < info.startSample

def Request.durationUs (r : Request) : Nat :=
  let rate := max (r.info.elim 0 Info.sampleRateHz) minRate
  (r.count * 1000000 + rate - 1) / rate

/-- What becomes of a block. One whose rate has no resampler, or whose resampling fails, is
`unfit`. -/
inductive Fate where
  | decoded
  | unfit
  | dropped
  | paused
deriving DecidableEq

/-- Where a call of `gui_rf_preview_worker_submit` is, with what it has loaded. -/
inductive Call where
  | idle
  | loadPause (r : Request)
  | check (r : Request) (pauseControl : Nat)
  | acquire (r : Request) (pauseControl : Nat)
  | recheckPause (r : Request) (pauseControl : Nat)
  | loadWrite (r : Request) (pauseControl : Nat)
  | loadRead (r : Request) (pauseControl write : Nat)
  | loadFreed (r : Request) (pauseControl write read : Nat)
  | room (r : Request) (pauseControl write read freed : Nat)
  | fill (r : Request) (pauseControl write : Nat)
  | storeDuration (slot : Slot) (write : Nat)
  | storeWrite (slot : Slot) (write : Nat)
  | release
  | refuse (paused : Bool)
  | countPaused
  | countDropped (flush : Bool)
  | storeFlush
  | ended (accepted : Bool)

/-- Where `rf_worker_thread` is. -/
inductive WorkerPc where
  | loadStop
  | loadControl
  | loadPause
  | scanWrite (applying : Bool)
  | scan (applying : Bool) (next target : Nat)
  | countPaused (applying : Bool) (next : Nat)
  | storePaused (applying : Bool) (next : Nat)
  | storeFlush
  | storePause
  | exchangeFlush
  | discard
  | countDiscard (target : Nat)
  | freeDiscard (target : Nat)
  | loadWrite
  | look
  | countDropped
  | countPause
  | budget
  | recheckPause
  | recheckControl
  | recheckStop
  | abandon
  | process
  | free
  | storeRead (target : Nat)
  | finished
deriving DecidableEq

structure Video where
  pc : WorkerPc
  control : Nat
  pauseControl : Nat
  appliedPauseControl : Nat

/-- The counters have 64 bits and do not wrap. `producerBusy` has the call that has set the flag.
Ghost: the blocks in the order in which they were published, and what became of which call. -/
structure State where
  control : Nat
  pauseControl : Nat
  stop : Bool
  flushRequested : Bool
  producerBusy : Option Nat
  readIndex : Nat
  writeIndex : Nat
  freedDurationUs : Nat
  producerDurationUs : Nat
  dropped : Nat
  pauseDrops : Nat
  slots : Nat → Slot
  worker : Video
  calls : Nat → Call
  log : List Slot
  outcomes : List (Nat × Fate)

def init : State where
  control := 1
  pauseControl := 0
  stop := false
  flushRequested := false
  producerBusy := none
  readIndex := 0
  writeIndex := 0
  freedDurationUs := 0
  producerDurationUs := 0
  dropped := 0
  pauseDrops := 0
  slots := fun _ => ⟨0, 0, 0, 0, 0⟩
  worker := ⟨.loadStop, 1, 0, 0⟩
  calls := fun _ => .idle
  log := []
  outcomes := []

def slot (s : State) (index : Nat) : Slot := s.slots (index % queueSlots)

/-! `gui_rf_preview_worker_submit`. -/

def moved (s : State) (id : Nat) (call : Call) : State :=
  { s with calls := Function.update s.calls id call }

def callStep (s : State) (id : Nat) : Option State :=
  match s.calls id with
  | .idle => none
  | .loadPause r =>
    some (moved s id (if s.pauseControl % 2 = 1 then .countPaused else .check r s.pauseControl))
  | .check r pause =>
    some (moved s id (if r.malformed || s.stop then .countDropped false else .acquire r pause))
  | .acquire r pause =>
    -- accidental concurrent producers fail immediately
    if s.producerBusy.isSome then some (moved s id (.countDropped false))
    else some { moved s id (.recheckPause r pause) with producerBusy := some id }
  | .recheckPause r pause =>
    some (moved s id (if s.pauseControl = pause then .loadWrite r pause else .refuse true))
  | .loadWrite r pause => some (moved s id (.loadRead r pause s.writeIndex))
  | .loadRead r pause write => some (moved s id (.loadFreed r pause write s.readIndex))
  | .loadFreed r pause write read => some (moved s id (.room r pause write read s.freedDurationUs))
  | .room r pause write read freed =>
    let full := queueSlots ≤ write - read ∨
      queueMaxUs < s.producerDurationUs + r.durationUs - freed ∨ s.flushRequested
    some (moved s id (if full then .refuse false else .fill r pause write))
  | .fill r pause write =>
    let filled : Slot :=
      ⟨s.producerDurationUs + r.durationUs, s.control, pause, id, r.durationUs⟩
    some { moved s id (.storeDuration filled write) with
      slots := Function.update s.slots (write % queueSlots) filled }
  | .storeDuration filled write =>
    some { moved s id (.storeWrite filled write) with producerDurationUs := filled.durationEndUs }
  | .storeWrite filled write =>
    some { moved s id .release with writeIndex := write + 1, log := s.log ++ [filled] }
  | .release => some { moved s id (.ended true) with producerBusy := none }
  | .refuse paused =>
    some { moved s id (if paused then .countPaused else .countDropped true) with
      producerBusy := none }
  | .countPaused =>
    some { moved s id (.ended false) with
      pauseDrops := s.pauseDrops + 1
      outcomes := s.outcomes ++ [(id, .paused)] }
  | .countDropped flush =>
    some { moved s id (if flush then .storeFlush else .ended false) with
      dropped := s.dropped + 1
      outcomes := s.outcomes ++ [(id, .dropped)] }
  | .storeFlush => some { moved s id (.ended false) with flushRequested := true }
  | .ended _ => none

/-! `rf_worker_thread`. -/

def goes (s : State) (pc : WorkerPc) : State := { s with worker := { s.worker with pc := pc } }

/-- Behind `rf_release_pause_queue`. -/
def afterScan (applying : Bool) : WorkerPc := if applying then .storeFlush else .loadStop

def settle (s : State) (target : Nat) (fate : Fate) : List (Nat × Fate) :=
  s.outcomes ++ ((s.log.take target).drop s.readIndex).map fun block => (block.call, fate)

/-- The next atomic access of the worker; `yes` answers what is asked of the clock, the budget or
the resampler. -/
def workerStep (s : State) (yes : Bool) : Option State :=
  match s.worker.pc with
  | .loadStop => some (goes s (if s.stop then .finished else .loadControl))
  | .loadControl =>
    some { s with worker := { s.worker with pc := .loadPause, control := s.control } }
  | .loadPause =>
    let pc : WorkerPc := if s.pauseControl ≠ s.worker.appliedPauseControl then .scanWrite true
      else if s.pauseControl % 2 = 1 then .scanWrite false else .exchangeFlush
    some { s with worker := { s.worker with pc := pc, pauseControl := s.pauseControl } }
  | .scanWrite applying => some (goes s (.scan applying s.readIndex s.writeIndex))
  | .scan applying next target =>
    -- resume can race a new submission, which is kept
    let kept := s.worker.pauseControl % 2 = 0 ∧ (slot s next).pauseControl = s.worker.pauseControl
    if next < target ∧ ¬kept then
      some { goes s (.scan applying (next + 1) target) with
        freedDurationUs := (slot s next).durationEndUs }
    else if next ≠ s.readIndex then some (goes s (.countPaused applying next))
    else some (goes s (afterScan applying))
  | .countPaused applying next =>
    some { goes s (.storePaused applying next) with
      pauseDrops := s.pauseDrops + (next - s.readIndex)
      outcomes := settle s next .paused }
  | .storePaused applying next => some { goes s (afterScan applying) with readIndex := next }
  | .storeFlush => some { goes s .storePause with flushRequested := false }
  | .storePause =>
    some { s with worker := { s.worker with
      pc := .loadStop
      appliedPauseControl := s.worker.pauseControl } }
  | .exchangeFlush =>
    some { goes s (if s.flushRequested then .discard else .loadWrite) with flushRequested := false }
  | .discard =>
    some (goes s (if s.writeIndex = s.readIndex then .loadStop else .countDiscard s.writeIndex))
  | .countDiscard target =>
    some { goes s (.freeDiscard target) with
      dropped := s.dropped + (target - s.readIndex)
      outcomes := settle s target .dropped }
  | .freeDiscard target =>
    some { goes s (.storeRead target) with
      freedDurationUs := (slot s (target - 1)).durationEndUs }
  | .loadWrite => some (goes s (if s.readIndex = s.writeIndex then .loadStop else .look))
  | .look =>
    let block := slot s s.readIndex
    some (goes s (if yes then .discard
      else if block.control ≠ s.worker.control then .countDropped
      else if block.pauseControl ≠ s.worker.pauseControl then .countPause
      else .budget))
  | .countDropped =>
    some { goes s .free with
      dropped := s.dropped + 1
      outcomes := settle s (s.readIndex + 1) .dropped }
  | .countPause =>
    some { goes s .free with
      pauseDrops := s.pauseDrops + 1
      outcomes := settle s (s.readIndex + 1) .paused }
  | .budget => some (goes s (if yes then .recheckPause else .loadStop))
  | .recheckPause =>
    some (goes s (if s.pauseControl = s.worker.pauseControl then .recheckControl else .abandon))
  | .recheckControl =>
    some (goes s (if s.control = s.worker.control then .recheckStop else .abandon))
  | .recheckStop => some (goes s (if s.stop || yes then .abandon else .process))
  | .abandon => some (goes s (if yes then .discard else .loadStop))
  | .process =>
    some { goes s .free with
      outcomes := settle s (s.readIndex + 1) (if yes then .decoded else .unfit) }
  | .free =>
    some { goes s (.storeRead (s.readIndex + 1)) with
      freedDurationUs := (slot s s.readIndex).durationEndUs }
  | .storeRead target => some { goes s .loadStop with readIndex := target }
  | .finished => none

/-- `set_profile` and `reset` count `control` up. -/
inductive Action where
  | control
  | pause (paused : Bool)
  | stop
  | submit (id : Nat) (r : Request)
  | call (id : Nat)
  | worker (yes : Bool)

def step (s : State) : Action → Option State
  | .control => some { s with control := s.control + 1 }
  | .pause paused =>
    if (s.pauseControl % 2 = 1) = paused then some s
    else some { s with pauseControl := s.pauseControl / 2 * 2 + 2 + if paused then 1 else 0 }
  | .stop => some { s with stop := true }
  | .submit id r =>
    match s.calls id with
    | .idle => some (moved s id (.loadPause r))
    | _ => none
  | .call id => callStep s id
  | .worker yes => workerStep s yes

/-- Up to which block the durations are freed: a release under way frees before it moves the read
index. -/
def freedTo (read : Nat) : WorkerPc → Nat
  | .scan _ next _ | .countPaused _ next | .storePaused _ next => next
  | .storeRead target => target
  | _ => read

def freedUpTo (s : State) : Nat := freedTo s.readIndex s.worker.pc

def settledTo (read : Nat) : WorkerPc → Nat
  | .storePaused _ next => next
  | .freeDiscard target | .storeRead target => target
  | .free => read + 1
  | _ => read

def settledUpTo (s : State) : Nat := settledTo s.readIndex s.worker.pc

/-- The block whose duration is counted, while its call has not moved the write index yet. -/
def pendingOf : Call → List Slot
  | .storeWrite filled _ => [filled]
  | _ => []

def pending (s : State) : List Slot := s.producerBusy.elim [] fun id => pendingOf (s.calls id)

def total (blocks : List Slot) : Nat := (blocks.map Slot.durationUs).sum

def counted (s : State) : List Slot := s.log.drop (freedUpTo s) ++ pending s

def waiting (s : State) : List Slot := s.log.drop (settledUpTo s)

def between (s : State) : List Slot :=
  (List.range' s.readIndex (s.writeIndex - s.readIndex)).map (slot s)

def reading (read : Nat) : WorkerPc → List Nat
  | .scan _ next target => if next < target then [next] else []
  | .countDiscard target | .freeDiscard target => [target - 1]
  | .look | .budget | .recheckPause | .recheckControl | .recheckStop | .process | .free => [read]
  | _ => []

def writing : Call → List Nat
  | .fill _ _ write | .storeDuration _ write | .storeWrite _ write => [write]
  | _ => []

end MisrcGui.RfPreview.InputQueue
