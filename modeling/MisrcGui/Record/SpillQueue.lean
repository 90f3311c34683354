import MisrcGui.Library.Fifo
import MisrcGui.Library.SparseFile

/-! The temporary spill file of one record channel in `gui_record.c`. Each
atomic access of an offset or a flag and each file section under `io_lock` is a
step; a thread is at the next statement it runs. Offsets are file positions,
which end long before `uint64_t` wraps. The log mark is left out. -/
namespace MisrcGui.Record.SpillQueue
open Library Library.SparseFile

variable {Cell : Type}

/-- The capture or extraction thread only enqueues. The writer reads, and
enqueues what it could not write. -/
inductive Thread where
  | capture
  | writer
deriving DecidableEq

def Thread.other : Thread → Thread
  | .capture => .writer
  | .writer => .capture

/-- `gui_record_spill_open_channel`. -/
inductive OpenPc where
  | test
  | create
  | zeroWrite
  | zeroRead
  | setOpened
deriving DecidableEq

/-- `gui_record_spill_enqueue` after the channel is open. -/
inductive EnqueuePc where
  | force
  | loadWrite
  | fileSection (writeOff : Nat)
  | storeWrite (writeOff : Nat)
deriving DecidableEq

/-- `gui_record_spill_read_block`. -/
inductive ReadPc (Cell : Type) where
  | test
  | loadWrite
  | loadRead (writeOff : Nat)
  | fileSection (readOff : Nat)
  | storeRead (block : List Cell) (readOff : Nat)

/-- `gui_record_spill_recycle_if_drained`. -/
inductive RecyclePc where
  | test
  | loadWrite
  | loadRead (writeOff : Nat)
  | lock
  | lockedWrite
  | lockedRead (writeOff : Nat)
  | truncate
  | zeroWrite
  | zeroRead
  | clearForced
  | unlock
deriving DecidableEq

inductive Pc (Cell : Type) where
  | idle
  | opening (pc : OpenPc) (data : List Cell)
  | enqueue (pc : EnqueuePc) (data : List Cell)
  | read (pc : ReadPc Cell) (bytes : Nat)
  | recycle (pc : RecyclePc)

/-- `accepted` and `returned` are ghost: the enqueued blocks with their threads
in the order in which they were committed, and the blocks that reads returned. -/
structure State (Cell : Type) where
  fp : Option (List Cell)
  writeOffset : Nat
  readOffset : Nat
  forcedMode : Bool
  opened : Bool
  ioLock : Bool
  pcs : Thread → Pc Cell
  accepted : List (Thread × List Cell)
  returned : List (List Cell)

def initial : State Cell := ⟨none, 0, 0, false, false, false, fun _ => .idle, [], []⟩

def State.file (state : State Cell) : List Cell := state.fp.getD []

def State.goto (state : State Cell) (thread : Thread) (pc : Pc Cell) : State Cell :=
  { state with pcs := Function.update state.pcs thread pc }

def State.fwrite [Zero Cell] (state : State Cell) (offset : Nat) (data : List Cell) :
    State Cell :=
  { state with fp := state.fp.map fun file => pwrite 0 file offset data }

/-- The outcome of a system call. A failed `fwrite` may have put some leading
bytes into the file. Local Save refuses to spill as a failed open does. -/
inductive Io where
  | succeeds
  | fails (written : Nat)
deriving DecidableEq

def spillOpenChannel (state : State Cell) (thread : Thread) (io : Io) (data : List Cell) :
    OpenPc → State Cell
  | .test =>
    match io with
    | .fails _ => state.goto thread .idle
    | .succeeds =>
      if state.opened then state.goto thread (.enqueue .force data)
      else state.goto thread (.opening .create data)
  | .create =>
    match io with
    | .fails _ => state.goto thread .idle
    | .succeeds => { state with fp := some [] }.goto thread (.opening .zeroWrite data)
  | .zeroWrite => { state with writeOffset := 0 }.goto thread (.opening .zeroRead data)
  | .zeroRead => { state with readOffset := 0 }.goto thread (.opening .setOpened data)
  | .setOpened => { state with opened := true }.goto thread (.enqueue .force data)

def spillEnqueue [Zero Cell] (state : State Cell) (thread : Thread) (io : Io)
    (data : List Cell) : EnqueuePc → Option (State Cell)
  | .force => some ({ state with forcedMode := true }.goto thread (.enqueue .loadWrite data))
  | .loadWrite => some (state.goto thread (.enqueue (.fileSection state.writeOffset) data))
  | .fileSection writeOff =>
    if state.ioLock then none
    else match io with
    | .succeeds =>
      some ((state.fwrite writeOff data).goto thread (.enqueue (.storeWrite writeOff) data))
    | .fails written =>
      if written < data.length then
        some ((state.fwrite writeOff (data.take written)).goto thread .idle)
      else none
  | .storeWrite writeOff =>
    some ({ state with
      writeOffset := writeOff + data.length
      accepted := state.accepted ++ [(thread, data)] }.goto thread .idle)

def spillReadBlock (state : State Cell) (thread : Thread) (io : Io) (bytes : Nat) :
    ReadPc Cell → Option (State Cell)
  | .test =>
    if state.opened && state.fp.isSome then some (state.goto thread (.read .loadWrite bytes))
    else some (state.goto thread .idle)
  | .loadWrite => some (state.goto thread (.read (.loadRead state.writeOffset) bytes))
  | .loadRead writeOff =>
    if writeOff < state.readOffset ∨ writeOff - state.readOffset < bytes then
      some (state.goto thread .idle)
    else some (state.goto thread (.read (.fileSection state.readOffset) bytes))
  | .fileSection readOff =>
    if state.ioLock then none
    else if io = .succeeds ∧ (pread state.file readOff bytes).length = bytes then
      some (state.goto thread (.read (.storeRead (pread state.file readOff bytes) readOff) bytes))
    else some (state.goto thread .idle)
  | .storeRead block readOff =>
    some ({ state with
      readOffset := readOff + bytes
      returned := state.returned ++ [block] }.goto thread (.recycle .test))

def spillRecycleIfDrained (state : State Cell) (thread : Thread) (io : Io) :
    RecyclePc → Option (State Cell)
  | .test =>
    if state.opened && state.fp.isSome then some (state.goto thread (.recycle .loadWrite))
    else some (state.goto thread .idle)
  | .loadWrite => some (state.goto thread (.recycle (.loadRead state.writeOffset)))
  | .loadRead writeOff =>
    if writeOff = state.readOffset then some (state.goto thread (.recycle .lock))
    else some (state.goto thread .idle)
  | .lock =>
    if state.ioLock then none
    else some ({ state with ioLock := true }.goto thread (.recycle .lockedWrite))
  | .lockedWrite => some (state.goto thread (.recycle (.lockedRead state.writeOffset)))
  | .lockedRead writeOff =>
    if writeOff = state.readOffset then some (state.goto thread (.recycle .truncate))
    else some (state.goto thread (.recycle .unlock))
  | .truncate =>
    match io with
    | .succeeds => some ({ state with fp := some [] }.goto thread (.recycle .zeroWrite))
    | .fails _ => some (state.goto thread (.recycle .zeroWrite))
  | .zeroWrite => some ({ state with writeOffset := 0 }.goto thread (.recycle .zeroRead))
  | .zeroRead => some ({ state with readOffset := 0 }.goto thread (.recycle .clearForced))
  | .clearForced => some ({ state with forcedMode := false }.goto thread (.recycle .unlock))
  | .unlock => some ({ state with ioLock := false }.goto thread .idle)

inductive Action (Cell : Type) where
  | enqueue (thread : Thread) (data : List Cell)
  | readBlock (bytes : Nat)
  | advance (thread : Thread) (io : Io)

def step [Zero Cell] (state : State Cell) : Action Cell → Option (State Cell)
  | .enqueue thread data =>
    match state.pcs thread with
    | .idle => if data.isEmpty then some state else some (state.goto thread (.opening .test data))
    | _ => none
  | .readBlock bytes =>
    match state.pcs .writer with
    | .idle => if bytes = 0 then some state else some (state.goto .writer (.read .test bytes))
    | _ => none
  | .advance thread io =>
    match state.pcs thread with
    | .idle => none
    | .opening pc data => some (spillOpenChannel state thread io data pc)
    | .enqueue pc data => spillEnqueue state thread io data pc
    | .read pc bytes => spillReadBlock state thread io bytes pc
    | .recycle pc => spillRecycleIfDrained state thread io pc

def Pc.storing : Pc Cell → Bool
  | .enqueue (.storeWrite _) _ => true
  | _ => false

/-- The spill file is created once, a block is written at the current offset
with no other block waiting to be committed, and the file is truncated only
while nothing is stored behind the read offset. -/
def steady (state : State Cell) : Action Cell → Bool
  | .advance thread io =>
    match state.pcs thread with
    | .opening .create _ => io != .succeeds || state.fp.isNone
    | .enqueue (.fileSection writeOff) _ =>
      writeOff == state.writeOffset && !(state.pcs thread.other).storing
    | .recycle .truncate =>
      state.writeOffset == state.readOffset && !(state.pcs thread.other).storing
    | _ => true
  | _ => true

/-- Some order of the enqueued blocks that keeps each thread's own order has
the returned bytes as a prefix. -/
def InOrder (state : State Cell) : Prop :=
  ∃ order, Fifo.Merges order (fun thread => Fifo.own thread state.accepted) ∧
    state.returned.flatten <+: (order.map Prod.snd).flatten

end MisrcGui.Record.SpillQueue
