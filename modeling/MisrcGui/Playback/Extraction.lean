import MisrcGui.Playback.Stamps

/-! The independent extraction of `gui_extract.c`. The playback thread commits blocks to a
FIFO of samples for each channel and their stamps to a queue beside it; the extraction
thread reads the FIFOs in chunks of one size and takes a stamp for each. -/
namespace MisrcGui.Playback.Extraction
open Library

variable {Sample : Type}

def bufferReadSize : Nat := 65536
def stampCapacity : Nat := 8192

structure Block (Sample : Type) extends ChannelBlock Sample where
  nonempty : 0 < samples.length
  fits : samples.length ≤ rawBufferSamples

theorem independentOutput_block (config : Config) (state : Playback.State Sample) (side : Side)
    (turn : Turn Sample) :
    (independentOutput config state side turn).channelFifo side = state.channelFifo side ∨
      ∃ block : Block Sample, (independentOutput config state side turn).channelFifo side =
        state.channelFifo side ++ [block.toChannelBlock] := by
  unfold independentOutput
  dsimp only
  generalize owed config side (state.channel side).consumeRem = due
  split
  · exact .inl rfl
  · rename_i some
    split
    · right
      have length : ((state.channel side).buffer.pending.take
          (min (min due.1 rawBufferSamples) (state.channel side).buffer.left)).length =
          min (min due.1 rawBufferSamples) (state.channel side).buffer.left := by
        rw [List.length_take, DecodeBuffer.pending_length]
        omega
      refine ⟨⟨_, ?_, ?_⟩, Function.update_self ..⟩
      · rw [length]
        exact Nat.pos_of_ne_zero some
      · rw [length]
        omega
    · exact .inl rfl

/-- What `gui_video_submit_rf` is passed for a channel. -/
structure Run (Sample : Type) where
  samples : List Sample
  stamp : Stamp
  discontinuity : Bool

/-- The queues of a channel; `committed` and `runs` are ghost. -/
structure Lane (Sample : Type) where
  fifo : List Sample
  stamps : List (Stamp × Nat)
  committed : List (Block Sample)
  runs : List (Run Sample)

/-- `stamped` is between `gui_extract_stamp_playback_channel` and `bufmgr_write_end`. -/
inductive Producer (Sample : Type) where
  | idle
  | stamped (side : Side) (block : Block Sample)

/-- Places of `extraction_thread_independent`: before `bufmgr_read_begin`, and before and
after the stamp is read and the samples are passed on. -/
inductive Reader where
  | opening (side : Side)
  | held (side : Side)
  | submitted (side : Side)
deriving DecidableEq

structure State (Sample : Type) where
  lane : Side → Lane Sample
  producer : Producer Sample
  reader : Reader

/-- `accepted` is false when the FIFO has no room or the input is not tagged. -/
inductive Action (Sample : Type) where
  | stamp (side : Side) (block : Block Sample) (accepted : Bool)
  | writeEnd
  | readBegin
  | submit
  | readEnd

def initial : State Sample := ⟨fun _ => ⟨[], [], [], []⟩, .idle, .opening .a⟩

def State.set (state : State Sample) (side : Side) (lane : Lane Sample) : State Sample :=
  { state with lane := Function.update state.lane side lane }

def following : Side → Side
  | .a => .b
  | .b => .a

/-- What is passed on of a chunk: nothing when its stamp is missing. -/
def submission (chunk : List Sample) : List (Stamp × Nat) → Run Sample
  | [] => ⟨[], ⟨0, 0, 0⟩, true⟩
  | (stamp, count) :: _ => ⟨chunk.take count, stamp, false⟩

def step (state : State Sample) : Action Sample → Option (State Sample)
  | .stamp side block accepted =>
    match state.producer with
    | .idle =>
      let lane := state.lane side
      if accepted && decide (lane.stamps.length < stampCapacity) then
        some { state.set side
            { lane with stamps := lane.stamps ++ [(block.stamp, block.samples.length)] } with
          producer := .stamped side block }
      else some state
    | _ => none
  | .writeEnd =>
    match state.producer with
    | .stamped side block =>
      let lane := state.lane side
      some { state.set side
          { lane with
            fifo := lane.fifo ++ block.samples
            committed := lane.committed ++ [block] } with
        producer := .idle }
    | _ => none
  | .readBegin =>
    match state.reader with
    | .opening side =>
      if bufferReadSize ≤ (state.lane side).fifo.length then
        some { state with reader := .held side }
      else some { state with reader := .opening (following side) }
    | _ => none
  | .submit =>
    match state.reader with
    | .held side =>
      let lane := state.lane side
      some { state.set side
          { lane with
            stamps := lane.stamps.tail
            runs := lane.runs ++ [submission (lane.fifo.take bufferReadSize) lane.stamps] } with
        reader := .submitted side }
    | _ => none
  | .readEnd =>
    match state.reader with
    | .submitted side =>
      let lane := state.lane side
      some { state.set side { lane with fifo := lane.fifo.drop bufferReadSize } with
        reader := .opening (following side) }
    | _ => none

def committedSamples (blocks : List (Block Sample)) : List Sample :=
  blocks.flatMap fun block => block.samples

def passedSamples (runs : List (Run Sample)) : List Sample := runs.flatMap Run.samples

/-- The runs are the committed samples from the first one on, none skipped and none passed
on twice, and the stamp of a run is that of the block that contains its first sample, with
the file index of that sample. -/
structure Honest (committed : List (Block Sample)) (runs : List (Run Sample)) : Prop where
  whole : passedSamples runs <+: committedSamples committed
  stamped : ∀ earlier run later, runs = earlier ++ run :: later → run.samples ≠ [] →
    ∃ before block after offset, committed = before ++ block :: after ∧
      (passedSamples earlier).length = (committedSamples before).length + offset ∧
      offset < block.samples.length ∧ run.stamp = block.stamp ∧
      run.stamp.startSample = block.stamp.startSample + offset

def Block.full (block : Block Sample) : Bool := block.samples.length == bufferReadSize

def behindFull (state : State Sample) : Action Sample → Bool
  | .writeEnd =>
    match state.producer with
    | .stamped side _ => (state.lane side).committed.all Block.full
    | _ => true
  | _ => true

inductive View where
  | away
  | held
  | submitted
deriving DecidableEq

def Reader.view : Reader → Side → View
  | .opening _, _ => .away
  | .held own, side => if side = own then .held else .away
  | .submitted own, side => if side = own then .submitted else .away

/-- The block of a channel that is stamped and not yet committed. -/
def Producer.writing : Producer Sample → Side → List (Block Sample)
  | .idle, _ => []
  | .stamped own block, side => if side = own then [block] else []

def Block.entry (block : Block Sample) : Stamp × Nat := (block.stamp, block.samples.length)

def Block.run (block : Block Sample) : Run Sample := ⟨block.samples, block.stamp, false⟩

/-- The committed blocks are those passed on and those waiting; `pending` is the chunk that
has been passed on and not yet released. -/
structure Split (lane : Lane Sample) (writing : List (Block Sample)) (view : View)
    (done waiting : List (Block Sample)) (pending : List Sample) : Prop where
  committed : lane.committed = done ++ waiting
  runs : lane.runs = done.map Block.run
  stamps : lane.stamps = (waiting ++ writing).map Block.entry
  fifo : lane.fifo = pending ++ committedSamples waiting
  released : pending.length = if view = .submitted then bufferReadSize else 0
  available : view = .held → bufferReadSize ≤ lane.fifo.length
  full : ∀ block ∈ lane.committed.dropLast, block.full = true

def Inv (lane : Lane Sample) (writing : List (Block Sample)) (view : View) : Prop :=
  ∃ done waiting pending, Split lane writing view done waiting pending

variable {lane : Lane Sample} {writing : List (Block Sample)} {view : View}

theorem initial_inv : Inv (⟨[], [], [], []⟩ : Lane Sample) [] .away :=
  ⟨[], [], [], rfl, rfl, rfl, rfl, rfl, nofun, nofun⟩

theorem committedSamples_append (first second : List (Block Sample)) :
    committedSamples (first ++ second) = committedSamples first ++ committedSamples second :=
  List.flatMap_append

theorem passedSamples_map (blocks : List (Block Sample)) :
    passedSamples (blocks.map Block.run) = committedSamples blocks :=
  List.flatMap_map ..

theorem Inv.honest (inv : Inv lane writing view) : Honest lane.committed lane.runs := by
  obtain ⟨done, waiting, pending, split⟩ := inv
  constructor
  · rw [split.runs, split.committed, passedSamples_map, committedSamples_append]
    exact List.prefix_append ..
  · intro earlier run later runs _
    rw [split.runs, List.map_eq_append_iff] at runs
    obtain ⟨before, rest, blocks, rfl, tail⟩ := runs
    obtain ⟨block, after, rfl, rfl, rfl⟩ := List.map_eq_cons_iff.mp tail
    refine ⟨before, block, after ++ waiting, 0, ?_, ?_, block.nonempty, rfl, rfl⟩
    · rw [split.committed, blocks, List.append_assoc, List.cons_append]
    · rw [passedSamples_map, Nat.add_zero]

theorem Inv.stamp (inv : Inv lane [] view) (block : Block Sample) :
    Inv { lane with stamps := lane.stamps ++ [block.entry] } [block] view := by
  obtain ⟨done, waiting, pending, split⟩ := inv
  refine ⟨done, waiting, pending, { split with stamps := ?_ }⟩
  dsimp only
  rw [split.stamps, List.append_nil, List.map_append, List.map_singleton]

theorem Inv.writeEnd {block : Block Sample} (inv : Inv lane [block] view)
    (full : lane.committed.all Block.full = true) :
    Inv { lane with fifo := lane.fifo ++ block.samples, committed := lane.committed ++ [block] }
      [] view := by
  obtain ⟨done, waiting, pending, split⟩ := inv
  refine ⟨done, waiting ++ [block], pending, ?_⟩
  constructor
  · rw [split.committed, List.append_assoc]
  · exact split.runs
  · rw [split.stamps, List.append_nil]
  · dsimp only
    rw [split.fifo, committedSamples_append, List.append_assoc]
    simp [committedSamples]
  · exact split.released
  · intro held
    have enough := split.available held
    rw [List.length_append]
    omega
  · dsimp only
    rw [List.dropLast_concat]
    exact List.all_eq_true.mp full

theorem Inv.readBegin (inv : Inv lane writing .away)
    (enough : bufferReadSize ≤ lane.fifo.length) : Inv lane writing .held := by
  obtain ⟨done, waiting, pending, split⟩ := inv
  exact ⟨done, waiting, pending, { split with
    released := split.released
    available := fun _ => enough }⟩

theorem Split.chunk {done waiting : List (Block Sample)} {pending : List Sample}
    (split : Split lane writing .held done waiting pending) :
    ∃ block rest, waiting = block :: rest ∧ block.samples.length = bufferReadSize ∧
      lane.fifo = block.samples ++ committedSamples rest := by
  have enough := split.available rfl
  have none : pending = [] := List.eq_nil_of_length_eq_zero split.released
  have fifo := split.fifo
  rw [none, List.nil_append] at fifo
  rw [fifo] at enough
  cases waiting with
  | nil => simp [committedSamples, bufferReadSize] at enough
  | cons block rest =>
    refine ⟨block, rest, rfl, ?_, ?_⟩
    · cases rest with
      | nil =>
        have alone : committedSamples [block] = block.samples := by simp [committedSamples]
        rw [alone] at enough
        exact Nat.le_antisymm block.fits enough
      | cons later rest =>
        have full := split.full block
        rw [split.committed, List.dropLast_append_of_ne_nil (List.cons_ne_nil _ _)] at full
        exact eq_of_beq (full (by simp))
    · rw [fifo]
      rfl

theorem Inv.submit (inv : Inv lane writing .held) :
    Inv { lane with
        stamps := lane.stamps.tail
        runs := lane.runs ++ [submission (lane.fifo.take bufferReadSize) lane.stamps] }
      writing .submitted := by
  obtain ⟨done, waiting, pending, split⟩ := inv
  obtain ⟨block, rest, rfl, size, fifo⟩ := split.chunk
  have stamps := split.stamps
  rw [List.cons_append, List.map_cons] at stamps
  have passed : submission (lane.fifo.take bufferReadSize) lane.stamps = block.run := by
    rw [stamps, fifo, ← size, List.take_left]
    simp [submission, Block.entry, Block.run]
  refine ⟨done ++ [block], rest, block.samples, ?_⟩
  constructor
  · rw [split.committed, List.append_assoc]
    rfl
  · dsimp only
    rw [passed, split.runs, List.map_append, List.map_singleton]
  · dsimp only
    rw [stamps, List.tail_cons]
  · exact fifo
  · exact size
  · nofun
  · exact split.full

theorem Inv.readEnd (inv : Inv lane writing .submitted) :
    Inv { lane with fifo := lane.fifo.drop bufferReadSize } writing .away := by
  obtain ⟨done, waiting, pending, split⟩ := inv
  refine ⟨done, waiting, [], { split with fifo := ?_, released := rfl, available := nofun }⟩
  have size : pending.length = bufferReadSize := split.released
  dsimp only
  rw [split.fifo, ← size, List.drop_left, List.nil_append]

def Invariant (state : State Sample) : Prop :=
  ∀ side, Inv (state.lane side) (state.producer.writing side) (state.reader.view side)

variable {state next : State Sample}

@[simp] theorem set_self (state : State Sample) (side : Side) (lane : Lane Sample) :
    (state.set side lane).lane side = lane :=
  Function.update_self ..

theorem set_of_ne (state : State Sample) {own side : Side} (apart : side ≠ own)
    (lane : Lane Sample) : (state.set own lane).lane side = state.lane side :=
  Function.update_of_ne apart ..

theorem Invariant.step_side (inv : Invariant state) (own : Side) {lane : Lane Sample}
    {producer : Producer Sample} {reader : Reader}
    (own_inv : Inv lane (producer.writing own) (reader.view own))
    (writing : ∀ side, side ≠ own → producer.writing side = state.producer.writing side)
    (view : ∀ side, side ≠ own → reader.view side = state.reader.view side) :
    Invariant { state.set own lane with producer := producer, reader := reader } := by
  intro side
  by_cases same : side = own
  · subst same
    dsimp only
    rw [set_self]
    exact own_inv
  · dsimp only
    rw [set_of_ne state same, writing side same, view side same]
    exact inv side

theorem Invariant.move (inv : Invariant state) (own : Side) {reader : Reader}
    (own_inv : Inv (state.lane own) (state.producer.writing own) (reader.view own))
    (view : ∀ side, side ≠ own → reader.view side = state.reader.view side) :
    Invariant { state with reader := reader } := by
  intro side
  by_cases same : side = own
  · subst same
    exact own_inv
  · dsimp only
    rw [view side same]
    exact inv side

theorem writing_other {own side : Side} (apart : side ≠ own) (block : Block Sample) :
    (Producer.stamped own block).writing side = [] :=
  if_neg apart

theorem Invariant.step (inv : Invariant state) {action : Action Sample}
    (full : behindFull state action = true) (taken : step state action = some next) :
    Invariant next := by
  unfold Extraction.step at taken
  cases action with
  | stamp side block accepted =>
    dsimp only at taken
    split at taken
    · rename_i idle
      have own := inv side
      rw [idle] at own
      split at taken <;> cases taken
      · apply inv.step_side side
        · rw [Producer.writing, if_pos rfl]
          exact own.stamp block
        · intro other apart
          rw [writing_other apart, idle]
          rfl
        · exact fun _ _ => rfl
      · exact inv
    · cases taken
  | writeEnd =>
    dsimp only at taken
    split at taken
    · rename_i side block stamped
      cases taken
      have own := inv side
      rw [stamped, Producer.writing, if_pos rfl] at own
      rw [behindFull, stamped] at full
      apply inv.step_side side
      · exact own.writeEnd full
      · intro other apart
        rw [stamped, writing_other apart]
        rfl
      · exact fun _ _ => rfl
    · cases taken
  | readBegin =>
    dsimp only at taken
    split at taken
    · rename_i side opening
      have own := inv side
      rw [opening] at own
      split at taken <;> cases taken
      · rename_i enough
        apply inv.move side
        · rw [Reader.view, if_pos rfl]
          exact own.readBegin enough
        · intro other apart
          rw [opening]
          exact if_neg apart
      · apply inv.move side
        · exact own
        · intro other apart
          rw [opening]
          rfl
    · cases taken
  | submit =>
    dsimp only at taken
    split at taken
    · rename_i side held
      cases taken
      have own := inv side
      rw [held, Reader.view, if_pos rfl] at own
      apply inv.step_side side
      · rw [Reader.view, if_pos rfl]
        exact own.submit
      · exact fun _ _ => rfl
      · intro other apart
        rw [held, Reader.view, Reader.view, if_neg apart, if_neg apart]
    · cases taken
  | readEnd =>
    dsimp only at taken
    split at taken
    · rename_i side submitted
      cases taken
      have own := inv side
      rw [submitted, Reader.view, if_pos rfl] at own
      apply inv.step_side side
      · exact own.readEnd
      · exact fun _ _ => rfl
      · intro other apart
        rw [submitted, Reader.view, Reader.view, if_neg apart]
    · cases taken

/-- In a run that commits no block behind a shorter one of its channel, both channels reach
their consumers whole and truthfully stamped. -/
theorem independent_honest {schedule : List (Action Sample)} {last : State Sample}
    (h : Machine.run (Machine.guarded behindFull step) initial schedule = some last)
    (side : Side) : Honest (last.lane side).committed (last.lane side).runs := by
  apply Inv.honest
  refine Machine.run_invariant Invariant ?_ ?_ h side
  · intro state action next inv taken
    obtain ⟨full, moved⟩ := Machine.guarded_eq_some.mp taken
    exact inv.step full moved
  · intro side
    exact initial_inv

def alone (lane : Lane Sample) : State Sample := initial.set .b lane

def commit (block : Block Sample) : List (Action Sample) := [.stamp .b block true, .writeEnd]

def chunk : List (Action Sample) := [.readBegin, .readBegin, .submit, .readEnd]

def Lane.commit (lane : Lane Sample) (block : Block Sample) : Lane Sample where
  fifo := lane.fifo ++ block.samples
  stamps := lane.stamps ++ [block.entry]
  committed := lane.committed ++ [block]
  runs := lane.runs

def Lane.chunk (lane : Lane Sample) : Lane Sample where
  fifo := lane.fifo.drop bufferReadSize
  stamps := lane.stamps.tail
  committed := lane.committed
  runs := lane.runs ++ [submission (lane.fifo.take bufferReadSize) lane.stamps]

@[simp] theorem alone_set (lane other : Lane Sample) :
    (alone lane).set .b other = alone other := by
  simp [alone, State.set]

@[simp] theorem alone_lane (lane : Lane Sample) : (alone lane).lane .b = lane := set_self ..

theorem step_stamp {lane : Lane Sample} (block : Block Sample)
    (room : lane.stamps.length < stampCapacity) :
    step (alone lane) (.stamp .b block true) =
      some { alone { lane with stamps := lane.stamps ++ [block.entry] } with
        producer := .stamped .b block } := by
  rw [step, show (alone lane).producer = .idle from rfl]
  simp [room, Block.entry]

theorem run_commit {lane : Lane Sample} (block : Block Sample)
    (room : lane.stamps.length < stampCapacity) :
    Machine.run step (alone lane) (commit block) = some (alone (lane.commit block)) := by
  rw [commit, Machine.run_cons, step_stamp block room, Option.bind_some, Machine.run_cons, step]
  simp [alone, State.set, Lane.commit, initial]

theorem guarded_commit {lane : Lane Sample} (block : Block Sample)
    (room : lane.stamps.length < stampCapacity)
    (full : lane.committed.all Block.full = true) :
    Machine.run (Machine.guarded behindFull step) (alone lane) (commit block) =
      some (alone (lane.commit block)) := by
  have allowed : behindFull { alone { lane with stamps := lane.stamps ++ [block.entry] } with
      producer := .stamped .b block } .writeEnd = true := by
    rw [behindFull]
    dsimp only
    rw [alone_lane]
    exact full
  have quiet : behindFull (alone lane) (.stamp .b block true) = true := rfl
  rw [← run_commit block room, commit, Machine.run_cons, Machine.run_cons, Machine.guarded,
    if_pos quiet, step_stamp block room, Option.bind_some, Option.bind_some,
    Machine.run_cons, Machine.guarded, if_pos allowed]
  rfl

theorem guarded_chunk (state : State Sample) :
    Machine.run (Machine.guarded behindFull step) state chunk = Machine.run step state chunk :=
  rfl

theorem run_chunk {lane : Lane Sample} (enough : bufferReadSize ≤ lane.fifo.length) :
    Machine.run step (alone lane) chunk = some (alone lane.chunk) := by
  have silent : step (alone lane) .readBegin =
      some { alone lane with reader := .opening .b } := by
    rw [step, show (alone lane).reader = .opening .a from rfl]
    dsimp only
    rw [if_neg (by simp [alone, State.set, initial, bufferReadSize])]
    rfl
  have held : step { alone lane with reader := .opening .b } .readBegin =
      some { alone lane with reader := .held .b } := by
    rw [step]
    dsimp only
    rw [alone_lane, if_pos enough]
  rw [chunk, Machine.run_cons, silent, Option.bind_some, Machine.run_cons, held,
    Option.bind_some]
  simp [step, alone, State.set, initial, Lane.chunk, following]

def ramp (start count : Nat) (nonempty : 0 < count) (fits : count ≤ rawBufferSamples) :
    Block Nat :=
  ⟨⟨List.range' start count, ⟨20000000, start, 1⟩, false⟩,
    by rwa [List.length_range'], by rwa [List.length_range']⟩

def quarter (number : Nat) : Block Nat :=
  ramp (32768 * number) 32768 (by decide) (by decide)

def quarters : Lane Nat :=
  ((((⟨[], [], [], []⟩ : Lane Nat).commit (quarter 0)).commit (quarter 1)).commit
    (quarter 2)).commit (quarter 3)

/-- Four batches of a channel at half the rate of the other, then two chunks. -/
def halfRate : List (Action Nat) :=
  (commit (quarter 0) ++ commit (quarter 1) ++ commit (quarter 2) ++ commit (quarter 3)) ++
    (chunk ++ chunk)

theorem quarters_fifo : quarters.fifo = List.range' 0 131072 := by
  have twice (start count : Nat) : List.range' start count ++ List.range' (start + count) count =
      List.range' start (count + count) := List.range'_append_1
  change (([] ++ List.range' 0 32768) ++ List.range' 32768 32768) ++ List.range' 65536 32768 ++
    List.range' 98304 32768 = _
  rw [List.nil_append, twice 0 32768, List.append_assoc, twice 65536 32768]
  exact twice 0 65536

theorem initial_alone : (initial : State Sample) = alone ⟨[], [], [], []⟩ := by
  rw [alone, State.set, initial]
  congr 1
  exact (Function.update_eq_self _ _).symm

theorem half_rate_run :
    Machine.run step initial halfRate = some (alone quarters.chunk.chunk) := by
  rw [initial_alone, halfRate, Machine.run_append, Machine.run_append, Machine.run_append,
    Machine.run_append, run_commit _ (by decide), Option.bind_some,
    run_commit _ (by decide), Option.bind_some, run_commit _ (by decide), Option.bind_some,
    run_commit _ (by decide), Option.bind_some, Machine.run_append]
  change (Machine.run step (alone quarters) chunk).bind _ = _
  have first : bufferReadSize ≤ quarters.fifo.length := by
    rw [quarters_fifo, List.length_range']
    decide
  have second : bufferReadSize ≤ quarters.chunk.fifo.length := by
    rw [Lane.chunk, List.length_drop, quarters_fifo, List.length_range']
    decide
  rw [run_chunk first, Option.bind_some, run_chunk second]

theorem ramp_entry (start count : Nat) (nonempty : 0 < count)
    (fits : count ≤ rawBufferSamples) :
    (ramp start count nonempty fits).entry = (⟨20000000, start, 1⟩, count) := by
  simp only [Block.entry, ramp, List.length_range']

/-- What is passed on behind the first 32768 samples is a chunk further on. -/
theorem half_rate_passed :
    passedSamples quarters.chunk.chunk.runs =
      List.range' 0 32768 ++ List.range' 65536 32768 := by
  have stamps : quarters.stamps = [(quarter 0).entry, (quarter 1).entry, (quarter 2).entry,
      (quarter 3).entry] := rfl
  have none : quarters.runs = [] := rfl
  simp only [Lane.chunk, none, stamps, quarters_fifo, quarter, ramp_entry, List.tail_cons,
    submission, List.drop_range', List.nil_append, List.singleton_append]
  rw [List.take_range'_of_length_ge (by decide), List.take_range'_of_length_ge (by decide),
    List.take_range'_of_length_ge (by decide), List.take_range'_of_length_ge (by decide)]
  simp only [passedSamples, List.flatMap_cons, List.flatMap_nil, List.append_nil]
  rw [show 0 + bufferReadSize * 1 = 65536 from rfl]

theorem commit_fifo {lane : Lane Sample} (block : Block Sample)
    (same : lane.fifo = committedSamples lane.committed) :
    (lane.commit block).fifo = committedSamples (lane.commit block).committed := by
  rw [Lane.commit, same, committedSamples_append]
  simp [committedSamples]

theorem half_rate_committed :
    committedSamples quarters.chunk.chunk.committed = List.range' 0 131072 := by
  have same : quarters.fifo = committedSamples quarters.committed := by
    unfold quarters
    repeat' apply commit_fifo
    rfl
  rw [← quarters_fifo, same]
  simp only [Lane.chunk]

theorem half_rate_skips :
    ∃ last, Machine.run step initial halfRate = some last ∧
      ¬Honest (last.lane .b).committed (last.lane .b).runs := by
  refine ⟨_, half_rate_run, ?_⟩
  intro honest
  have whole := honest.whole
  rw [alone_lane, half_rate_passed, half_rate_committed] at whole
  have inside : 32768 < (List.range' 0 32768 ++ List.range' 65536 32768).length := by
    rw [List.length_append, List.length_range', List.length_range']
    decide
  have same := List.IsPrefix.getElem whole inside
  rw [List.getElem_append_right (Nat.le_of_eq List.length_range'), List.getElem_range',
    List.getElem_range', List.length_range'] at same
  exact absurd same (by decide)

def batch : Block Nat := ramp 7 65536 (by decide) (by decide)

theorem batch_run :
    Machine.run (Machine.guarded behindFull step) initial (commit batch ++ chunk) =
      some (alone ((⟨[], [], [], []⟩ : Lane Nat).commit batch).chunk) := by
  have enough : bufferReadSize ≤ ((⟨[], [], [], []⟩ : Lane Nat).commit batch).fifo.length := by
    rw [Lane.commit, List.nil_append, batch, ramp, List.length_range']
    decide
  rw [initial_alone, Machine.run_append, guarded_commit batch (by decide) rfl,
    Option.bind_some, guarded_chunk, run_chunk enough]

theorem independent_honest_batch :
    ∃ last, Machine.run (Machine.guarded behindFull step) initial (commit batch ++ chunk) =
        some last ∧
      passedSamples (last.lane .b).runs = List.range' 7 65536 ∧
      Honest (last.lane .b).committed (last.lane .b).runs := by
  refine ⟨_, batch_run, ?_, independent_honest batch_run .b⟩
  rw [alone_lane]
  simp only [Lane.chunk, Lane.commit, List.nil_append, batch, ramp_entry, submission,
    List.take_take, passedSamples, List.flatMap_cons, List.flatMap_nil, List.append_nil]
  exact List.take_of_length_le (Nat.le_of_eq List.length_range')

end MisrcGui.Playback.Extraction
