import MisrcGui.Cxadc.RateProbe

/-! `cxadc_sync_card_starts`: the reads that bring the streams of all cards to a common instant
before a capture. -/
namespace MisrcGui.Cxadc.SyncStart
open RateProbe (CardRead bytesOf)

def chunkBytes : Nat := 64 * 1024

def releaseBytes : Nat := 2 * 1024 * 1024

/-- A turn of a loop: the time up to its look at the clock, and its read. -/
structure Turn where
  check : Nat
  read : CardRead

/-- `cxadc_sync_read_card`. -/
def Turn.got (want : Nat) (turn : Turn) : Option Nat := turn.read.got true want

/-- The entry of `consumed_total` for a card. `reads` is ghost: what the reads of the card have
returned since it was opened. -/
structure Stream where
  consumed : Nat
  reads : List Nat
deriving DecidableEq

def Stream.receive (stream : Stream) (got : Nat) : Stream :=
  ⟨stream.consumed + got, stream.reads ++ [got]⟩

/-- A card's stream within a loop, the clock and the turns to come. -/
structure Place where
  stream : Stream
  now : Nat
  turns : List Turn

/-- A card when the call begins: its mode, `card_sample_rate_hz` and what the reads of its rate
probe returned. -/
structure Opened where
  tenbit : Bool
  rateHz : Nat
  probed : List Nat

def Opened.bytesPerSample (opened : Opened) : Nat := if opened.tenbit then 2 else 1

/-- `s_cxadc_probe_consumed_bytes` counts the rate probe. -/
def Opened.stream (opened : Opened) : Stream := ⟨opened.probed.sum, opened.probed⟩

/-- A card behind phase 3. `aligned` is ghost: its total where phase 2 was completed. -/
structure Synced where
  opened : Opened
  stream : Stream
  aligned : Option Nat
  crossing : Option Nat

def remainder (consumed : Nat) : Nat :=
  (releaseBytes - consumed % releaseBytes) % releaseBytes

def Stream.After (stream later : Stream) : Prop :=
  ∃ more : List Nat, later = more.foldl Stream.receive stream

namespace Stream.After
variable {stream later last : Stream}

theorem refl (stream : Stream) : stream.After stream := ⟨[], rfl⟩

theorem receive {got : Nat} (after : (stream.receive got).After later) : stream.After later := by
  obtain ⟨more, rfl⟩ := after
  exact ⟨got :: more, rfl⟩

theorem trans (first : stream.After later) (second : later.After last) : stream.After last := by
  obtain ⟨more, rfl⟩ := first
  obtain ⟨others, rfl⟩ := second
  exact ⟨more ++ others, (List.foldl_append ..).symm⟩

theorem counted (after : stream.After later) (start : stream.consumed = stream.reads.sum) :
    later.consumed = later.reads.sum := by
  obtain ⟨more, rfl⟩ := after
  induction more generalizing stream with
  | nil => exact start
  | cons got more ih =>
    apply ih
    unfold Stream.receive
    rw [start, List.sum_append, List.sum_singleton]

end Stream.After

section loops
variable {deadline syncStart now : Nat} {stream : Stream} {turns : List Turn} {place : Place}

theorem got_le {turn : Turn} {want got : Nat} (result : turn.got want = some got) : got ≤ want :=
  RateProbe.got_le result

end loops

structure Kept (card : Synced) : Prop where
  counted : card.stream.consumed = card.stream.reads.sum
  grid : ∀ total, card.aligned = some total → releaseBytes ∣ total

section cards
variable {deadline syncStart now : Nat} {turns rest : List Turn} {cards : List Opened}
  {synced last : List Synced}

end cards

def filled (took : Nat) : Turn := ⟨0, ⟨0, some releaseBytes, took, 0⟩⟩

end MisrcGui.Cxadc.SyncStart
