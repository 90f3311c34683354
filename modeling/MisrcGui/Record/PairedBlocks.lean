import Mathlib.Data.List.Basic

/-! The record step of `extraction_thread` for both channels, block by block: which blocks each
record output gets, and where a block counts as dropped. -/
namespace MisrcGui.Record.PairedBlocks

variable {Block Samples : Type}

/-- `max_wait_attempts` of `s_record_write_policy`. -/
def maxWaitAttempts : Nat := 2

/-- The settings that do not change in a session; `directA` and `directB` are the channels that
the capture side records. -/
structure Settings where
  captureA : Bool
  captureB : Bool
  directA : Bool
  directB : Bool
  captureModeRuntimeMisrc : Bool
  userCaptureModeMisrc : Bool
  abSwap : Bool

/-- What comes with a block: the stamp of a playback, or what `gui_rf_stream_marks_read` tells
of the live stream. -/
inductive Metadata where
  | stamp (counts : Option (Nat × Nat))
  | marks (safe : Bool) (rates : Nat × Nat)

/-- What extraction finds when it works on a block: the flag of the producer, the state of the
recording, the verdict of the disk guard, whether a look at a record ring finds space, and
whether the spill takes a block. -/
structure Moment where
  metadata : Metadata
  captureHasChannelB : Bool
  isRecording : Bool
  recordingEnabled : Bool
  diskGuard : Bool
  spaceA : Nat → Bool
  spaceB : Nat → Bool
  spillA : Bool
  spillB : Bool

/-- A block in a record output, with the capture block that it comes from. -/
structure Cell (Block Samples : Type) where
  source : Block
  samples : Samples
deriving DecidableEq

/-- The record path of a channel: the blocks that its ring and its spill took, in order. -/
structure Channel (Block Samples : Type) where
  written : List (Cell Block Samples)
  writeDrops : Nat

structure State (Block Samples : Type) where
  a : Channel Block Samples
  b : Channel Block Samples

def initial : State Block Samples := ⟨⟨[], 0⟩, ⟨[], 0⟩⟩

def Channel.total (channel : Channel Block Samples) : Nat :=
  channel.written.length + channel.writeDrops

/-- `block_has_b`: what the block says of itself comes before the newest flag. -/
def Moment.blockHasB (moment : Moment) : Bool :=
  match moment.metadata with
  | .stamp none => moment.captureHasChannelB
  | .stamp (some counts) => counts.2 != 0
  | .marks _ rates =>
    if rates.1 != 0 || rates.2 != 0 then rates.2 != 0 else moment.captureHasChannelB

def swapChannels (settings : Settings) (moment : Moment) : Bool :=
  let swap :=
    if moment.isRecording then settings.captureModeRuntimeMisrc
    else settings.userCaptureModeMisrc
  swap && !settings.abSwap

/-- `mapped_a` and `mapped_b`. -/
def mapped (settings : Settings) (moment : Moment) (samples : Samples × Samples) :
    Samples × Samples :=
  if moment.blockHasB && swapChannels settings moment then samples.swap else samples

/-- `bufmgr_write_begin`: a look at the ring, and one more after each wait. -/
def writeBegin (space : Nat → Bool) : Bool := (List.range (maxWaitAttempts + 1)).any space

def Channel.spillEnqueue (channel : Channel Block Samples) (cell : Cell Block Samples)
    (enqueued : Bool) : Channel Block Samples :=
  let writeDrops := channel.writeDrops + 1
  if enqueued then
    { written := channel.written ++ [cell]
      writeDrops := if writeDrops > 0 then writeDrops - 1 else writeDrops }
  else { channel with writeDrops }

def Channel.record (channel : Channel Block Samples) (cell : Cell Block Samples)
    (space : Nat → Bool) (enqueued : Bool) : Channel Block Samples :=
  if writeBegin space then { channel with written := channel.written ++ [cell] }
  else channel.spillEnqueue cell enqueued

def Moment.records (moment : Moment) : Bool := moment.recordingEnabled && !moment.diskGuard

/-- A turn of `extraction_thread`; `extract` unpacks the words of a block. -/
def extractBlock (settings : Settings) (extract : Block → Samples × Samples)
    (state : State Block Samples) (block : Block) (moment : Moment) : State Block Samples :=
  if moment.records then
    let samples := mapped settings moment (extract block)
    let wantA := settings.captureA && !settings.directA
    let wantB := moment.blockHasB && settings.captureB && !settings.directB
    { a :=
        if wantA then state.a.record ⟨block, samples.1⟩ moment.spaceA moment.spillA
        else state.a
      b :=
        if wantB then state.b.record ⟨block, samples.2⟩ moment.spaceB moment.spillB
        else state.b }
  else state

def extractAll (settings : Settings) (extract : Block → Samples × Samples)
    (state : State Block Samples) (blocks : List (Block × Moment)) : State Block Samples :=
  blocks.foldl (fun state turn => extractBlock settings extract state turn.1 turn.2) state

variable {channel : Channel Block Samples} {cell : Cell Block Samples} {space : Nat → Bool}
  {enqueued : Bool}

theorem record_cases :
    (channel.record cell space enqueued = { channel with written := channel.written ++ [cell] }) ∨
      channel.record cell space enqueued =
        { channel with writeDrops := channel.writeDrops + 1 } := by
  simp only [Channel.record, Channel.spillEnqueue]
  split
  · exact .inl rfl
  · split
    · rw [if_pos (Nat.succ_pos _), Nat.add_sub_cancel]
      exact .inl rfl
    · exact .inr rfl

theorem record_total : (channel.record cell space enqueued).total = channel.total + 1 := by
  rcases record_cases with written | dropped
  · rw [written, Channel.total, List.length_append]
    exact Nat.add_right_comm ..
  · rw [dropped]
    rfl

/-- What a channel wrote since an earlier moment, when it dropped nothing in between. -/
structure Since (before after : Channel Block Samples) (cells : List (Cell Block Samples)) :
    Prop where
  total : after.total = before.total + cells.length
  drops : before.writeDrops ≤ after.writeDrops
  written : after.writeDrops = before.writeDrops → after.written = before.written ++ cells

theorem Since.refl (channel : Channel Block Samples) : Since channel channel [] :=
  ⟨rfl, Nat.le_refl _, fun _ => (List.append_nil _).symm⟩

theorem since_record : Since channel (channel.record cell space enqueued) [cell] := by
  refine ⟨record_total, ?_, ?_⟩
  · rcases record_cases with written | dropped
    · exact Nat.le_of_eq (by rw [written])
    · rw [dropped]
      exact Nat.le_succ _
  · rcases record_cases with written | dropped
    · rw [written]
      exact fun _ => rfl
    · rw [dropped]
      intro same
      exact absurd same (Nat.succ_ne_self _)

theorem Since.trans {before middle after : Channel Block Samples}
    {first rest : List (Cell Block Samples)} (early : Since before middle first)
    (late : Since middle after rest) : Since before after (first ++ rest) := by
  constructor
  · rw [late.total, early.total, List.length_append, Nat.add_assoc]
  · exact Nat.le_trans early.drops late.drops
  · intro same
    have low := early.drops
    have high := late.drops
    have middle : middle.writeDrops = before.writeDrops := by omega
    rw [late.written (same.trans middle.symm), early.written middle, List.append_assoc]

def recorded (blocks : List (Block × Moment)) : List (Block × Moment) :=
  blocks.filter fun turn => turn.2.records

def withB (blocks : List (Block × Moment)) : List (Block × Moment) :=
  (recorded blocks).filter fun turn => turn.2.blockHasB

def cellA (settings : Settings) (extract : Block → Samples × Samples)
    (turn : Block × Moment) : Cell Block Samples :=
  ⟨turn.1, (mapped settings turn.2 (extract turn.1)).1⟩

def cellB (settings : Settings) (extract : Block → Samples × Samples)
    (turn : Block × Moment) : Cell Block Samples :=
  ⟨turn.1, (mapped settings turn.2 (extract turn.1)).2⟩

def Settings.paired (settings : Settings) : Bool :=
  settings.captureA && settings.captureB && !settings.directA && !settings.directB

variable {settings : Settings} {extract : Block → Samples × Samples}

theorem extractBlock_since (both : settings.paired = true) (state : State Block Samples)
    (turn : Block × Moment) :
    Since state.a (extractBlock settings extract state turn.1 turn.2).a
        ((recorded [turn]).map (cellA settings extract)) ∧
      Since state.b (extractBlock settings extract state turn.1 turn.2).b
        ((withB [turn]).map (cellB settings extract)) := by
  simp only [Settings.paired, Bool.and_eq_true, Bool.not_eq_true'] at both
  obtain ⟨⟨⟨captureA, captureB⟩, directA⟩, directB⟩ := both
  cases records : turn.2.records with
  | false =>
    simp only [extractBlock, withB, recorded, records, Bool.false_eq_true, if_false,
      List.filter_cons, List.filter_nil, List.map_nil]
    exact ⟨.refl _, .refl _⟩
  | true =>
    simp only [extractBlock, withB, recorded, records, captureA, captureB, directA, directB,
      Bool.not_false, Bool.and_true, if_true, List.filter_cons, List.filter_nil, List.map_cons,
      List.map_nil]
    refine ⟨since_record, ?_⟩
    split
    · exact since_record
    · exact .refl _

theorem extractAll_since (both : settings.paired = true) (state : State Block Samples)
    (blocks : List (Block × Moment)) :
    Since state.a (extractAll settings extract state blocks).a
        ((recorded blocks).map (cellA settings extract)) ∧
      Since state.b (extractAll settings extract state blocks).b
        ((withB blocks).map (cellB settings extract)) := by
  induction blocks generalizing state with
  | nil => exact ⟨.refl _, .refl _⟩
  | cons turn rest ih =>
    have first := @extractBlock_since _ _ settings extract both state turn
    have later := ih (extractBlock settings extract state turn.1 turn.2)
    have splitA : recorded (turn :: rest) = recorded [turn] ++ recorded rest :=
      List.filter_append [turn] rest
    have splitB : withB (turn :: rest) = withB [turn] ++ withB rest := by
      rw [withB, splitA, List.filter_append]
      rfl
    rw [splitA, splitB, List.map_append, List.map_append]
    exact ⟨first.1.trans later.1, first.2.trans later.2⟩

/-- Each recorded block adds one block to A, and one to B when B is judged present in it. When
nothing is dropped, A has the recorded blocks and B those with B; with B present in every recorded
block, the blocks of A and of B come from the same capture blocks. -/
theorem record_paired (both : settings.paired = true) (state : State Block Samples)
    (blocks : List (Block × Moment)) :
    let last := extractAll settings extract state blocks
    last.a.total = state.a.total + (recorded blocks).length ∧
      last.b.total = state.b.total + (withB blocks).length ∧
      (state = initial → last.a.writeDrops = 0 → last.b.writeDrops = 0 →
        last.a.written.map Cell.source = (recorded blocks).map Prod.fst ∧
        last.b.written.map Cell.source = (withB blocks).map Prod.fst ∧
        ((∀ turn ∈ recorded blocks, turn.2.blockHasB = true) →
          last.a.written.map Cell.source = last.b.written.map Cell.source)) := by
  intro last
  obtain ⟨sinceA, sinceB⟩ := @extractAll_since _ _ settings extract both state blocks
  have totalA := sinceA.total
  have totalB := sinceB.total
  rw [List.length_map] at totalA totalB
  refine ⟨totalA, totalB, ?_⟩
  rintro rfl cleanA cleanB
  have sourcesA : last.a.written.map Cell.source = (recorded blocks).map Prod.fst := by
    rw [sinceA.written cleanA, List.map_append, List.map_map]
    rfl
  have sourcesB : last.b.written.map Cell.source = (withB blocks).map Prod.fst := by
    rw [sinceB.written cleanB, List.map_append, List.map_map]
    rfl
  refine ⟨sourcesA, sourcesB, fun present => ?_⟩
  rw [sourcesA, sourcesB, withB, List.filter_eq_self.mpr present]

def bothChannels : Settings := ⟨true, true, false, false, false, false, false⟩

def liveMoment (rates : Nat × Nat) : Moment :=
  ⟨.marks true rates, true, true, true, false, fun _ => true, fun _ => true, true, true⟩

theorem record_paired_live :
    bothChannels.paired = true ∧
      (extractAll bothChannels (fun block : Nat => (block, block)) initial
        [(7, liveMoment (20000000, 20000000))]).b.total = 1 :=
  ⟨rfl, (@record_paired _ _ bothChannels (fun block : Nat => (block, block)) rfl initial
    [(7, liveMoment (20000000, 20000000))]).2.1⟩

/-- A first block whose mark has no rate for B shifts B against A. -/
theorem blocks_shifted :
    let last := extractAll bothChannels (fun block : Nat => (block, block)) initial
      [(7, liveMoment (20000000, 0)), (8, liveMoment (20000000, 20000000))]
    last.a.total = 2 ∧ last.b.total = 1 ∧ last.a.writeDrops = 0 ∧ last.b.writeDrops = 0 ∧
      (last.a.written.map Cell.source).head? = some 7 ∧
      (last.b.written.map Cell.source).head? = some 8 := by
  decide

end MisrcGui.Record.PairedBlocks
