import Mathlib.Data.UInt
import MisrcGui.Library.Boundaries
import MisrcGui.Library.Machine

/-! The sparse boundaries of the raw RF stream, `gui_rf_stream_marks.c`. The producer queues a
mark wherever rate, epoch or safety change; a mark that finds the queue full goes to a recovery
snapshot behind a sequence counter. Each atomic access is a step. The counters do not wrap:
that would take 2^63 marks. -/
namespace MisrcGui.Marks
open Library
open Boundaries (Piece)

def markCapacity : Nat := 4096
def pairBytes : Nat := 4
def wordMax : Nat := 2 ^ 64 - 1

/-- `gui_rf_block_info_t`; a pair of them stands for the two channels. -/
structure BlockInfo where
  sampleRateHz : Nat
  startSample : Nat
  epoch : Nat
  discontinuity : Bool
deriving DecidableEq

/-- `rf_mark_t` without its position. -/
structure Content where
  rates : Nat × Nat
  epochs : Nat × Nat
  isUnsafe : Bool
deriving DecidableEq

abbrev Mark := Boundaries.Mark Content

def emptyMark : Mark := ⟨0, (0, 0), (0, 0), false⟩

structure StreamMarks where
  queue : Nat → Mark
  writeIndex : Nat
  readIndex : Nat
  recoverySequence : Nat
  recovery : Mark
  producer : Mark
  producerEnd : Nat
  producerValid : Bool
  consumer : Mark
  consumedEnd : Nat
  minimumSafePosition : Nat
  seenRecoverySequence : Nat
  consumerValid : Bool
  consumedAny : Bool
  gapPending : Bool

def reset : StreamMarks :=
  ⟨fun _ => emptyMark, 0, 0, 0, emptyMark, emptyMark, 0, false, emptyMark, 0, 0, 0, false, false,
    true⟩

def StreamMarks.slot (marks : StreamMarks) (index : Nat) : Mark :=
  marks.queue (index % markCapacity)

def rfMarkChanged (left right : Content) : Bool :=
  left.isUnsafe != right.isUnsafe || left.rates.1 != right.rates.1 ||
    left.rates.2 != right.rates.2 || left.epochs.1 != right.epochs.1 ||
      left.epochs.2 != right.epochs.2

/-- The arguments of `gui_rf_stream_marks_observe`. -/
structure Write where
  position : Nat
  bytes : Nat
  info : BlockInfo × BlockInfo
  ambiguousGap : Bool

def Write.rates (write : Write) : Nat × Nat :=
  (write.info.1.sampleRateHz, write.info.2.sampleRateHz)

def Write.epochs (write : Write) : Nat × Nat := (write.info.1.epoch, write.info.2.epoch)

def Write.invalid (write : Write) : Bool :=
  write.position % pairBytes != 0 || write.bytes % pairBytes != 0 ||
    decide (write.bytes > wordMax - write.position)

def StreamMarks.unexpectedPosition (marks : StreamMarks) (write : Write) : Bool :=
  marks.producerValid && write.position != marks.producerEnd

def StreamMarks.content (marks : StreamMarks) (write : Write) : Content where
  rates := write.rates
  epochs := write.epochs
  isUnsafe := write.ambiguousGap || write.invalid || marks.unexpectedPosition write

def StreamMarks.changed (marks : StreamMarks) (write : Write) : Bool :=
  !marks.producerValid || rfMarkChanged marks.producer.label (marks.content write) ||
    marks.unexpectedPosition write

def StreamMarks.note (marks : StreamMarks) (write : Write) : StreamMarks :=
  { marks with
    producer := ⟨write.position, marks.content write⟩
    producerValid := true
    producerEnd := if write.invalid then wordMax else write.position + write.bytes }

/-- The fields of the recovery snapshot, each an atomic of its own. -/
inductive Field where
  | position
  | rateA
  | rateB
  | epochA
  | epochB
  | isUnsafe
deriving DecidableEq

def storeOrder : List Field := [.position, .rateA, .epochA, .rateB, .epochB, .isUnsafe]

def loadOrder : List Field := [.position, .isUnsafe, .rateA, .epochA, .rateB, .epochB]

def Field.copy (source target : Mark) : Field → Mark
  | .position => { target with position := source.position }
  | .rateA => ⟨target.position, (source.label.rates.1, target.label.rates.2),
      target.label.epochs, target.label.isUnsafe⟩
  | .rateB => ⟨target.position, (target.label.rates.1, source.label.rates.2),
      target.label.epochs, target.label.isUnsafe⟩
  | .epochA => ⟨target.position, target.label.rates,
      (source.label.epochs.1, target.label.epochs.2), target.label.isUnsafe⟩
  | .epochB => ⟨target.position, target.label.rates,
      (target.label.epochs.1, source.label.epochs.2), target.label.isUnsafe⟩
  | .isUnsafe => ⟨target.position, target.label.rates, target.label.epochs,
      source.label.isUnsafe⟩

/-- Where the producer stands: inside `gui_rf_stream_marks_observe`, or behind it with the
bytes of the write still to be published. -/
inductive Producer where
  | idle
  | testing (mark : Mark)
  | pushing (mark : Mark)
  | advancing (mark : Mark)
  | opening (mark : Mark)
  | storing (mark : Mark) (remaining : List Field)
  | observed

/-- A block under read; `opened` is ghost, the recovery sequence at the call. -/
structure Block where
  position : Nat
  bytes : Nat
  opened : Nat

def Block.last (block : Block) : Nat := block.position + block.bytes

/-- Where the consumer stands inside `gui_rf_stream_marks_read`, up to `confirming` inside
`rf_recover`. The local `read` is `readIndex`, which only the consumer moves. -/
inductive Consumer where
  | idle
  | recovering (block : Block)
  | loading (block : Block) (sequence : Nat) (mark : Mark) (remaining : List Field)
  | locating (block : Block) (sequence : Nat) (mark : Mark)
  | dropping (block : Block) (sequence : Nat) (mark : Mark) (write : Nat)
  | releasing (block : Block) (sequence : Nat) (mark : Mark) (write : Nat)
  | confirming (block : Block) (sequence : Nat)
  | preparing (block : Block) (recovered : Bool)
  | taking (block : Block) (safe : Bool) (write : Nat)
  | advancing (block : Block) (safe : Bool) (write : Nat)
  | finishing (block : Block) (safe : Bool)

structure Observation where
  write : Write
  content : Content
  marked : Bool

def Observation.piece (observation : Observation) : Piece Content :=
  ⟨observation.write.position, observation.write.bytes, observation.content,
    observation.marked⟩

/-- A mark that found the queue full, and the sequence its snapshot is complete at. -/
structure Lost where
  sequence : Nat
  mark : Mark

/-- What a read has returned. The last three fields are ghost: no snapshot was under way or
begun during the read, the position of the last one, and the mark the consumer held. -/
structure Result where
  position : Nat
  bytes : Nat
  safe : Bool
  info : BlockInfo × BlockInfo
  quiet : Bool
  floor : Nat
  mark : Mark

/-- The four lists and `publishedEnd` are ghost; the lists are newest first. -/
structure System where
  marks : StreamMarks
  producer : Producer
  consumer : Consumer
  publishedEnd : Nat
  observed : List Observation
  lost : List Lost
  results : List Result

def initial (origin : Nat) : System := ⟨reset, .idle, .idle, origin, [], [], []⟩

def System.pieces (system : System) : List (Piece Content) :=
  system.observed.map Observation.piece

inductive Action where
  | observe (write : Write)
  | produce
  | publish
  | read (position bytes : Nat)
  | consume

def observe (system : System) (write : Write) : System :=
  let marks := system.marks
  let content := marks.content write
  let changed := marks.changed write
  { system with
    marks := marks.note write
    producer := if changed then .testing ⟨write.position, content⟩ else .observed
    observed := ⟨write, content, changed⟩ :: system.observed }

def produce (system : System) : Option System :=
  let marks := system.marks
  match system.producer with
  | .idle | .observed => none
  | .testing mark =>
    if marks.writeIndex - marks.readIndex ≥ markCapacity then
      some { system with producer := .opening mark }
    else some { system with producer := .pushing mark }
  | .pushing mark =>
    let queue := Function.update marks.queue (marks.writeIndex % markCapacity) mark
    some { system with marks := { marks with queue }, producer := .advancing mark }
  | .advancing _ =>
    some { system with
      marks := { marks with writeIndex := marks.writeIndex + 1 }
      producer := .observed }
  -- `rf_publish_recovery`: the sequence is odd while the fields are stored
  | .opening mark =>
    some { system with
      marks := { marks with recoverySequence := marks.recoverySequence + 1 }
      producer := .storing mark storeOrder
      lost := ⟨marks.recoverySequence + 2, mark⟩ :: system.lost }
  | .storing mark (field :: remaining) =>
    some { system with
      marks := { marks with recovery := field.copy mark marks.recovery }
      producer := .storing mark remaining }
  | .storing _ [] =>
    some { system with
      marks := { marks with recoverySequence := marks.recoverySequence + 1 }
      producer := .observed }

/-- The end of a read: its result, and the consumer's fields for the next one. -/
def finish (system : System) (block : Block) (safe : Bool) : System :=
  let marks := system.marks
  let safe := safe && marks.consumerValid && !marks.consumer.label.isUnsafe &&
    marks.seenRecoverySequence == marks.recoverySequence
  let info (rate epoch : Nat) : BlockInfo :=
    ⟨rate, block.position / pairBytes, epoch, marks.gapPending || !safe⟩
  let label := marks.consumer.label
  { system with
    marks := { marks with
      consumedEnd := block.last
      consumedAny := true
      gapPending := !safe }
    consumer := .idle
    results :=
      { position := block.position
        bytes := block.bytes
        safe
        info := (info label.rates.1 label.epochs.1, info label.rates.2 label.epochs.2)
        quiet := block.opened % 2 == 0 && block.opened == marks.recoverySequence
        floor := (system.lost.head?.map fun lost => lost.mark.position).getD 0
        mark := marks.consumer } :: system.results }

def consume (system : System) : Option System :=
  let marks := system.marks
  match system.consumer with
  | .idle => none
  | .recovering block =>
    let sequence := marks.recoverySequence
    let next :=
      if sequence = marks.seenRecoverySequence then Consumer.preparing block true
      else if sequence % 2 = 1 then .preparing block false
      else .loading block sequence emptyMark loadOrder
    some { system with consumer := next }
  | .loading block sequence mark (field :: remaining) =>
    some { system with
      consumer := .loading block sequence (field.copy marks.recovery mark) remaining }
  | .loading block sequence mark [] =>
    let next :=
      if sequence = marks.recoverySequence then Consumer.locating block sequence mark
      else .preparing block false
    some { system with consumer := next }
  | .locating block sequence mark =>
    some { system with consumer := .dropping block sequence mark marks.writeIndex }
  | .dropping block sequence mark write =>
    if marks.readIndex ≠ write ∧ (marks.slot marks.readIndex).position ≤ mark.position then
      some { system with consumer := .releasing block sequence mark write }
    else
      some { system with
        marks := { marks with
          consumer := mark
          consumerValid := true
          minimumSafePosition := mark.position
          seenRecoverySequence := sequence
          gapPending := true }
        consumer := .confirming block sequence }
  | .releasing block sequence mark write =>
    some { system with
      marks := { marks with readIndex := marks.readIndex + 1 }
      consumer := .dropping block sequence mark write }
  | .confirming block sequence =>
    some { system with consumer := .preparing block (sequence == marks.recoverySequence) }
  | .preparing block recovered =>
    let safe := recovered && decide (block.position ≥ marks.minimumSafePosition) &&
      !(marks.consumedAny && decide (block.position < marks.consumedEnd))
    some { system with
      marks := { marks with
        gapPending := marks.gapPending || marks.consumedAny && marks.consumedEnd != block.position }
      consumer := .taking block safe marks.writeIndex }
  | .taking block safe write =>
    let mark := marks.slot marks.readIndex
    if marks.readIndex = write ∨ mark.position ≥ block.last then
      some { system with consumer := .finishing block safe }
    else
      some { system with
        marks := { marks with consumer := mark, consumerValid := true, gapPending := true }
        consumer := .advancing block (safe && !decide (mark.position > block.position)) write }
  | .advancing block safe write =>
    some { system with
      marks := { marks with readIndex := marks.readIndex + 1 }
      consumer := .taking block safe write }
  | .finishing block safe => some (finish system block safe)

/-- `gui_rf_stream_marks_read` refuses such arguments at once. -/
def refused (position bytes : Nat) : Bool :=
  bytes == 0 || position % pairBytes != 0 || bytes % pairBytes != 0 ||
    decide (bytes > wordMax - position)

/-- Writes are contiguous and not empty, one at a time, and observed before their bytes are
published. Reads go forward over published bytes. -/
def step (origin : Nat) (system : System) : Action → Option System
  | .observe write =>
    match system.producer with
    | .idle =>
      if 0 < write.bytes ∧ write.position = Boundaries.frontier origin system.pieces then
        some (observe system write)
      else none
    | _ => none
  | .produce => produce system
  | .publish =>
    match system.producer with
    | .observed =>
      some { system with
        producer := .idle
        publishedEnd := Boundaries.frontier origin system.pieces }
    | _ => none
  | .read position bytes =>
    match system.consumer with
    | .idle =>
      if origin ≤ position ∧ position + bytes ≤ system.publishedEnd ∧
          system.marks.consumedEnd ≤ position then
        if refused position bytes then some system
        else
          some { system with
            consumer := .recovering ⟨position, bytes, system.marks.recoverySequence⟩ }
      else none
    | _ => none
  | .consume => consume system

end MisrcGui.Marks
