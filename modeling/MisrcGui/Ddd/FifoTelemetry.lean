import MisrcGui.Library.SeqLock

/-! The FIFO telemetry store of `gui_ddd_v1.c`. The USB loop publishes and any number of
readers take snapshots; each atomic access is a step. -/
namespace MisrcGui.Ddd
open Library Library.SeqLock

structure FifoTelemetry where
  present : Bool
  format : UInt8
  overflowSeen : Bool
  saturated : Bool
  latchCount : UInt8
  usedNow : UInt16
  peak : UInt16
  peakSinceOpen : UInt16
  overflowEvents : UInt16
  droppedWords : UInt16
  packetsRead : UInt16
  nearFullUnits : UInt16
  depthWords : UInt16
  packetWords : UInt16
  nearFullWords : UInt16
deriving DecidableEq

structure FifoTelemetryTotals where
  latchSeen : Bool
  lastLatchCount : UInt8
  intervalCoverageComplete : Bool
  saturated : Bool
  overflowEvents : UInt64
  droppedWords : UInt64
  nearFullUnits : UInt64
  peakWords : UInt16
  peakBackpressurePercent : Int32
deriving DecidableEq

structure FifoSnapshot where
  latest : FifoTelemetry
  totals : FifoTelemetryTotals
deriving DecidableEq

def fifoTelemetryInit : FifoTelemetry :=
  ⟨false, 0, false, false, 0, 0, 0, 0, 0, 0, 0, 0, 0, 0, 0⟩

/-- The atomics of `ddd_v1_fifo_store_t` other than `revision`. -/
inductive FifoCell where
  | present
  | format
  | overflowSeen
  | saturated
  | latchCount
  | usedNow
  | peak
  | peakSinceOpen
  | overflowEvents
  | droppedWords
  | packetsRead
  | nearFullUnits
  | depthWords
  | packetWords
  | nearFullWords
  | totalsLatchSeen
  | totalsLastLatchCount
  | intervalCoverageComplete
  | totalsSaturated
  | totalOverflowEvents
  | totalDroppedWords
  | totalNearFullUnits
  | runPeakWords
  | peakBackpressurePercent
deriving DecidableEq

/-- `ddd_v1_fifo_publish` stores and `gui_ddd_v1_get_fifo_snapshot` loads in this order. -/
def fifoCells : List FifoCell :=
  [.present, .format, .overflowSeen, .saturated, .latchCount, .usedNow, .peak,
    .peakSinceOpen, .overflowEvents, .droppedWords, .packetsRead, .nearFullUnits,
    .depthWords, .packetWords, .nearFullWords, .totalsLatchSeen, .totalsLastLatchCount,
    .intervalCoverageComplete, .totalsSaturated, .totalOverflowEvents, .totalDroppedWords,
    .totalNearFullUnits, .runPeakWords, .peakBackpressurePercent]

theorem mem_fifoCells (cell : FifoCell) : cell ∈ fifoCells := by
  cases cell <;> decide

/-- `revision` is an `atomic_uint`. -/
def fifoLayout : Layout FifoCell where
  modulus := 2 ^ 32
  stores := fifoCells
  loads := fifoCells
  even := by decide
  stored := mem_fifoCells
  loaded := mem_fifoCells

/-- What `ddd_v1_fifo_publish` stores. -/
def FifoSnapshot.cells (snapshot : FifoSnapshot) : FifoCell → Int
  | .present => snapshot.latest.present.toInt
  | .format => snapshot.latest.format.toNat
  | .overflowSeen => snapshot.latest.overflowSeen.toInt
  | .saturated => snapshot.latest.saturated.toInt
  | .latchCount => snapshot.latest.latchCount.toNat
  | .usedNow => snapshot.latest.usedNow.toNat
  | .peak => snapshot.latest.peak.toNat
  | .peakSinceOpen => snapshot.latest.peakSinceOpen.toNat
  | .overflowEvents => snapshot.latest.overflowEvents.toNat
  | .droppedWords => snapshot.latest.droppedWords.toNat
  | .packetsRead => snapshot.latest.packetsRead.toNat
  | .nearFullUnits => snapshot.latest.nearFullUnits.toNat
  | .depthWords => snapshot.latest.depthWords.toNat
  | .packetWords => snapshot.latest.packetWords.toNat
  | .nearFullWords => snapshot.latest.nearFullWords.toNat
  | .totalsLatchSeen => snapshot.totals.latchSeen.toInt
  | .totalsLastLatchCount => snapshot.totals.lastLatchCount.toNat
  | .intervalCoverageComplete => snapshot.totals.intervalCoverageComplete.toInt
  | .totalsSaturated => snapshot.totals.saturated.toInt
  | .totalOverflowEvents => snapshot.totals.overflowEvents.toNat
  | .totalDroppedWords => snapshot.totals.droppedWords.toNat
  | .totalNearFullUnits => snapshot.totals.nearFullUnits.toNat
  | .runPeakWords => snapshot.totals.peakWords.toNat
  | .peakBackpressurePercent => snapshot.totals.peakBackpressurePercent.toInt

/-- What `gui_ddd_v1_get_fifo_snapshot` makes of its loads, with its casts. -/
def FifoSnapshot.ofCells (cells : FifoCell → Int) : FifoSnapshot where
  latest := {
    present := cells .present != 0
    format := .ofNat (cells .format).toNat
    overflowSeen := cells .overflowSeen != 0
    saturated := cells .saturated != 0
    latchCount := .ofNat (cells .latchCount).toNat
    usedNow := .ofNat (cells .usedNow).toNat
    peak := .ofNat (cells .peak).toNat
    peakSinceOpen := .ofNat (cells .peakSinceOpen).toNat
    overflowEvents := .ofNat (cells .overflowEvents).toNat
    droppedWords := .ofNat (cells .droppedWords).toNat
    packetsRead := .ofNat (cells .packetsRead).toNat
    nearFullUnits := .ofNat (cells .nearFullUnits).toNat
    depthWords := .ofNat (cells .depthWords).toNat
    packetWords := .ofNat (cells .packetWords).toNat
    nearFullWords := .ofNat (cells .nearFullWords).toNat }
  totals := {
    latchSeen := cells .totalsLatchSeen != 0
    lastLatchCount := .ofNat (cells .totalsLastLatchCount).toNat
    intervalCoverageComplete := cells .intervalCoverageComplete != 0
    saturated := cells .totalsSaturated != 0
    overflowEvents := .ofNat (cells .totalOverflowEvents).toNat
    droppedWords := .ofNat (cells .totalDroppedWords).toNat
    nearFullUnits := .ofNat (cells .totalNearFullUnits).toNat
    peakWords := .ofNat (cells .runPeakWords).toNat
    peakBackpressurePercent := .ofInt (cells .peakBackpressurePercent) }

theorem bool_cell (flag : Bool) : (flag.toInt != 0) = flag := by
  cases flag <;> rfl

theorem FifoSnapshot.ofCells_cells (snapshot : FifoSnapshot) :
    ofCells snapshot.cells = snapshot := by
  obtain ⟨latest, totals⟩ := snapshot
  simp [ofCells, cells, bool_cell]

abbrev FifoState (Reader : Type*) := State Reader FifoCell Int

/-- A call finds its caller's snapshot and an uninitialised `after`. -/
inductive FifoAction (Reader : Type*) where
  | publish (latest : FifoTelemetry) (totals : FifoTelemetryTotals)
  | store
  | call (reader : Reader) (after : Nat) (snapshot : FifoSnapshot)
  | load (reader : Reader)

variable {Reader : Type*}

def FifoAction.access : FifoAction Reader → Action Reader FifoCell Int
  | .publish latest totals => .publish (FifoSnapshot.cells ⟨latest, totals⟩)
  | .store => .store
  | .call reader after snapshot => .call reader after snapshot.cells
  | .load reader => .load reader

def fifoInitial : FifoState Reader := initial fun _ => 0

def fifoStep [DecidableEq Reader] (state : FifoState Reader) (action : FifoAction Reader) :
    Option (FifoState Reader) :=
  step fifoLayout state action.access

/-- Fewer than 2^31 publications begin during one read. -/
def fifoUnlapped (state : FifoState Reader) (action : FifoAction Reader) : Bool :=
  unlapped fifoLayout state action.access

/-- The snapshot of a reader that has returned, and its return value. -/
def fifoResult : Place FifoCell Int → Option (FifoSnapshot × Bool)
  | .returned values =>
    let snapshot := FifoSnapshot.ofCells values
    some (snapshot, snapshot.latest.present)
  | _ => none

def Whole (state : FifoState Reader) : Prop :=
  ∀ record ∈ state.published, ∃ snapshot : FifoSnapshot, record = snapshot.cells

theorem Whole.step [DecidableEq Reader] {state next : FifoState Reader}
    (whole : Whole state) {action : FifoAction Reader}
    (taken : fifoStep state action = some next) : Whole next := by
  unfold fifoStep SeqLock.step at taken
  cases action with
  | publish latest totals =>
    dsimp only [FifoAction.access] at taken
    split at taken <;> cases taken
    intro record member
    rcases List.mem_cons.mp member with newest | older
    · exact ⟨⟨latest, totals⟩, newest⟩
    · exact whole record older
  | store | call =>
    dsimp only [FifoAction.access] at taken
    split at taken <;> cases taken
    all_goals exact whole
  | load reader =>
    dsimp only [FifoAction.access] at taken
    unfold loadStep at taken
    split at taken
    · split at taken <;> cases taken
      all_goals exact whole
    · cases taken
      exact whole
    · cases taken
      exact whole
    · cases taken

/-- A snapshot returned with `true` is one publication, field for field. -/
theorem fifo_snapshot_untorn [DecidableEq Reader] {schedule : List (FifoAction Reader)}
    {last : FifoState Reader}
    (h : Machine.run (Machine.guarded fifoUnlapped fifoStep) fifoInitial schedule = some last)
    {reader : Reader} {snapshot : FifoSnapshot}
    (returned : fifoResult (last.reader reader) = some (snapshot, true)) :
    snapshot.cells ∈ last.published := by
  have kept := Machine.run_invariant
    (fun state => Inv fifoLayout (fun _ => 0) state ∧ Whole state)
    (fun _ _ _ inv taken =>
      ⟨step_inv inv.1 (Machine.guarded_eq_some.mp taken).1 (Machine.guarded_eq_some.mp taken).2,
        inv.2.step (Machine.guarded_eq_some.mp taken).2⟩)
    ⟨initial_inv, fun _ member => absurd member List.not_mem_nil⟩ h
  cases place : last.reader reader with
  | returned values =>
    rw [place] at returned
    obtain ⟨rfl, present⟩ := Prod.mk.inj (Option.some.inj returned)
    rcases kept.1.returned place with origin | member
    · subst origin
      cases present
    · obtain ⟨published, rfl⟩ := kept.2 values member
      rw [FifoSnapshot.ofCells_cells]
      exact member
  | _ =>
    rw [place] at returned
    cases returned

/-- The second of two publications, the first with every field zero but `present`. -/
def fifoSecond : FifoSnapshot where
  latest := { fifoTelemetryInit with present := true, format := 1, peak := 65535 }
  totals := ⟨true, 255, true, false, 7, 0, 0, 65535, -1⟩

/-- A reader that loads the first cell of one publication and the others of the next
tries again. -/
def fifoRetry : List (FifoAction Unit) :=
  [.publish { fifoTelemetryInit with present := true } fifoSecond.totals]
    ++ List.replicate 25 .store
    ++ [.call () 3 fifoSecond, .load (), .load ()]
    ++ [.publish fifoSecond.latest fifoSecond.totals]
    ++ List.replicate 25 .store
    ++ List.replicate 50 (.load ())

theorem fifo_snapshot_untorn_retry :
    ∃ last, Machine.run (Machine.guarded fifoUnlapped fifoStep) fifoInitial fifoRetry =
        some last ∧
      fifoResult (last.reader ()) = some (fifoSecond, true) ∧
      fifoSecond.cells ∈ last.published := by
  have runs : (Machine.run (Machine.guarded fifoUnlapped fifoStep) fifoInitial fifoRetry).any
      (fun last => decide (fifoResult (last.reader ()) = some (fifoSecond, true))) = true := by
    decide +kernel
  obtain ⟨last, ran, result⟩ := (Option.any_eq_true _ _).mp runs
  have returned := of_decide_eq_true result
  exact ⟨last, ran, returned, fifo_snapshot_untorn ran returned⟩

end MisrcGui.Ddd
