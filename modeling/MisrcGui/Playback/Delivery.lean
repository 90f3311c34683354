import MisrcGui.Playback.Refill

/-! Playback of whole files: what a turn without a seek, a pause or a loop does to a channel, and
when every file is delivered to its end. In the independent mode the decode buffers are not
compacted, so that only files that fit into them are. -/
namespace MisrcGui.Playback
open Library

variable {Sample : Type}

def State.committed (state : State Sample) (side : Side) : List Sample :=
  (state.blocks side).flatMap (·.samples)

/-! A session. -/

structure Session (Sample : Type) where
  files : Side → File Sample
  blocks : ∀ side frames, files side = .flac frames →
    ∀ frame ∈ frames, frame.length ≤ flacMaxBlockSize
  rate : Side → Option Nat
  window : Side → Nat
  streamEpoch : Nat

def Session.file (session : Session Sample) (side : Side) : List Sample :=
  (session.files side).samples

def playbackSampleRate : Nat := 40000

/-- The mode that `gui_playback_commit` chooses, and the rates that the thread loads. -/
def Session.config (session : Session Sample) : Config :=
  let loaded (side : Side) : Bool := (session.files side).source.loaded
  let rateHz (side : Side) : Nat := (session.rate side).getD 0
  let runtime := max (rateHz .a) (rateHz .b) % 2 ^ 32
  { independent :=
      loaded .a && loaded .b && (session.rate .a).isSome && (session.rate .b).isSome &&
        decide (rateHz .a ≠ rateHz .b)
    maxRateHz := if runtime = 0 then playbackSampleRate * 1000 else runtime
    rateHz
    window := session.window }

def Session.after [Zero Sample] (session : Session Sample) (turns : Nat) : Option (State Sample) :=
  Machine.run (step session.config) (start session.files session.streamEpoch)
    (List.replicate turns quiet)

/-- No refill hangs or overflows a decode buffer, and in the end every channel has paused behind
the last sample of its file, with all of them committed. -/
structure Session.Delivers [Zero Sample] (session : Session Sample) : Prop where
  runs : ∀ turns, ∃ state, session.after turns = some state ∧
    ∀ side, (state.channel side).source.aborted = false
  whole : ∃ turns state, session.after turns = some state ∧
    ∀ side, (state.channel side).active false = false ∧
      state.committed side = session.file side

/-- The files that the independent mode gets through: both fit into a decode buffer, and a rate
yields samples. -/
def Session.Manageable (session : Session Sample) : Prop :=
  session.config.independent = true → ∀ side, (session.file side).length ≤ decodeBufSize ∧
    (session.file side = [] ∨ session.config.rateHz side % 2 ^ 48 ≠ 0)

/-! The moves of a channel. -/

variable {config : Config} {state next : State Sample}
  {channel filled : Channel Sample} {side : Side}

def Channel.independently (config : Config) (side : Side) (channel : Channel Sample) (out : Nat) :
    Channel Sample :=
  { (channel.take out).advance out with
    consumeRem := (owed config side channel.consumeRem).2 }

/-- What a turn without a request does to a channel behind its refill. A channel keeps still when
it is not active or when an active one is empty. -/
inductive Moved (config : Config) (active : Side → Bool) (before after : State Sample)
    (side : Side) : Prop
  | still (channel : after.channel side = before.channel side)
      (committed : after.committed side = before.committed side)
      (on : active side = true → (before.channel side).eof = false)
      (waits : active side = true →
        ∃ other, active other = true ∧ (before.channel other).buffer.left = 0)
  | ended (on : active side = true) (eof : (before.channel side).eof = true)
      (channel : after.channel side =
        { before.channel side with backfillActive := false, paused := true })
      (committed : after.committed side = before.committed side)
  | independent (mode : config.independent = true) (on : active side = true)
      (some : 0 < (before.channel side).buffer.left) (out : Nat)
      (amount : out = min (min (owed config side (before.channel side).consumeRem).1
        rawBufferSamples) (before.channel side).buffer.left)
      (channel : after.channel side = (before.channel side).independently config side out)
      (committed : after.committed side =
        before.committed side ++ (before.channel side).buffer.pending.take out)
  | paired (mode : config.independent = false) (on : active side = true) (out : Nat)
      (some : 0 < out) (enough : out ≤ (before.channel side).buffer.left)
      (channel : after.channel side = (before.channel side).consume true out)
      (committed : after.committed side =
        before.committed side ++ (before.channel side).buffer.pending.take out)

/-! The independent mode. -/

theorem committed_commit (state : State Sample) (side : Side) (block : ChannelBlock Sample) :
    ({ state with
      channelFifo := Function.update state.channelFifo side
        (state.channelFifo side ++ [block]) } : State Sample).committed side =
      state.committed side ++ block.samples := by
  simp only [State.committed, State.blocks, Function.update_self]
  rw [← List.append_assoc, List.flatMap_append, List.flatMap_singleton]

theorem independentOutput_self (config : Config) (state : State Sample) (side : Side) :
    ∃ out, out = min (min (owed config side (state.channel side).consumeRem).1
        rawBufferSamples) (state.channel side).buffer.left ∧
      (independentOutput config state side quiet).channel side =
        (state.channel side).independently config side out ∧
      (independentOutput config state side quiet).committed side =
        state.committed side ++ (state.channel side).buffer.pending.take out := by
  refine ⟨_, rfl, ?_⟩
  simp only [independentOutput]
  generalize min (min (owed config side (state.channel side).consumeRem).1 rawBufferSamples)
    (state.channel side).buffer.left = out
  split
  · next none =>
    subst none
    refine ⟨Function.update_self .., ?_⟩
    rw [List.take_zero, List.append_nil]
    rfl
  · refine ⟨Function.update_self .., ?_⟩
    exact committed_commit ..

theorem independentOutput_other {other : Side} (different : other ≠ side) :
    (independentOutput config state side quiet).channel other = state.channel other ∧
      (independentOutput config state side quiet).committed other = state.committed other := by
  simp only [independentOutput]
  split
  · exact ⟨Function.update_of_ne different .., rfl⟩
  · refine ⟨Function.update_of_ne different .., ?_⟩
    exact congrArg (fun fifo => (state.pairedFifo.map (·.channelBlock other) ++ fifo).flatMap _)
      (Function.update_of_ne different ..)

def independentPart (config : Config) (active : Side → Bool) (side : Side) (state : State Sample) :
    State Sample :=
  if active side then independentOutput config state side quiet else state

theorem independentPart_other {active : Side → Bool} {other : Side} (different : other ≠ side) :
    (independentPart config active side state).channel other = state.channel other ∧
      (independentPart config active side state).committed other = state.committed other := by
  unfold independentPart
  split
  · exact independentOutput_other different
  · exact ⟨rfl, rfl⟩

theorem independentPart_moved (mode : config.independent = true) {active : Side → Bool}
    {before after : State Sample}
    (full : active side = true → 0 < (before.channel side).buffer.left)
    (going : active side = true → (before.channel side).eof = false)
    (same : state.channel side = before.channel side ∧
      state.committed side = before.committed side)
    (last : after.channel side = (independentPart config active side state).channel side ∧
      after.committed side = (independentPart config active side state).committed side) :
    Moved config active before after side := by
  unfold independentPart at last
  split at last
  · next on =>
    obtain ⟨out, amount, channel, committed⟩ := independentOutput_self config state side
    rw [same.1] at amount channel committed
    rw [same.2] at committed
    exact .independent mode on (full on) out amount (last.1.trans channel)
      (last.2.trans committed)
  · next off =>
    exact .still (last.1.trans same.1) (last.2.trans same.2) going fun on => absurd on off

theorem independent_moved (mode : config.independent = true) {active : Side → Bool}
    (full : ∀ side, active side = true → 0 < (state.channel side).buffer.left)
    (going : ∀ side, active side = true → (state.channel side).eof = false) (side : Side) :
    Moved config active state
      (independentPart config active .b (independentPart config active .a state)) side := by
  have apart : Side.a ≠ Side.b := nofun
  cases side with
  | a =>
    exact independentPart_moved mode (full .a) (going .a) ⟨rfl, rfl⟩ (independentPart_other apart)
  | b =>
    exact independentPart_moved mode (full .b) (going .b) (independentPart_other apart.symm)
      ⟨rfl, rfl⟩

/-! The paired mode. -/

theorem pairedOutput_committed [Zero Sample] (config : Config) (state : State Sample)
    {active : Side → Bool}
    {count : Nat}
    (enough : ∀ side, active side = true → count ≤ (state.channel side).buffer.left)
    (side : Side) (apart : state.channelFifo side = []) :
    (pairedOutput config state active count quiet).committed side = state.committed side ++
      if active side then (state.channel side).buffer.pending.take count else [] := by
  rw [← pairedBlock_samples config state enough side]
  simp only [State.committed, State.blocks, pairedOutput, quiet, Bool.and_self, if_true, apart,
    List.append_nil, List.map_append, List.map_cons, List.map_nil, List.flatMap_append,
    List.flatMap_cons, List.flatMap_nil]

theorem paired_moved [Zero Sample] (mode : config.independent = false) {active : Side → Bool}
    {count : Nat} (some : 0 < count)
    (enough : ∀ side, active side = true → count ≤ (state.channel side).buffer.left)
    (going : ∀ side, active side = true → (state.channel side).eof = false)
    (apart : ∀ side, state.channelFifo side = []) (side : Side) :
    Moved config active state (pairedOutput config state active count quiet) side := by
  have committed := pairedOutput_committed config state enough side (apart side)
  cases on : active side with
  | false =>
    rw [on, if_neg Bool.false_ne_true, List.append_nil] at committed
    refine .still ?_ committed (going side) fun off => ?_
    · simp only [pairedOutput, Channel.consume, on, Bool.false_eq_true, if_false]
    · rw [on] at off
      cases off
  | true =>
    rw [if_pos on] at committed
    refine .paired mode on count some (enough side on) ?_ committed
    simp only [pairedOutput, on]

/-! A turn. -/

structure Calm (config : Config) (state : State Sample) : Prop where
  playing : state.paused = false
  apart : config.independent = false → ∀ side, state.channelFifo side = []

theorem independentOutput_paused (config : Config) (state : State Sample) (side : Side) :
    (independentOutput config state side quiet).paused = state.paused := by
  simp only [independentOutput]
  split
  · rfl
  · rfl

theorem output_calm [Zero Sample] (calm : Calm config state) (active : Side → Bool) :
    Calm config (output config state active quiet) := by
  have part (state : State Sample) (side : Side) :
      (if active side then independentOutput config state side quiet else state).paused =
        state.paused := by
    split
    · exact independentOutput_paused ..
    · rfl
  simp only [output]
  generalize (if active .b = true then _ else _) = count
  split
  · exact calm
  · split
    · next mode =>
      refine ⟨?_, fun other => ?_⟩
      · rw [part, part, calm.playing]
      · rw [mode] at other
        cases other
    · exact ⟨calm.playing, calm.apart⟩

theorem endOfFile_calm (calm : Calm config state) (eof : Side → Bool) (some : eof .a || eof .b) :
    Calm config (endOfFile state eof false quiet) := by
  simp only [endOfFile, quiet, Bool.false_eq_true, if_false, Bool.not_false, Bool.and_true, some,
    if_true]
  exact ⟨calm.playing, calm.apart⟩

theorem output_moved [Zero Sample] {active : Side → Bool}
    (apart : config.independent = false → ∀ side, state.channelFifo side = [])
    (going : ∀ side, active side = true → (state.channel side).eof = false) (side : Side) :
    Moved config active state (output config state active quiet) side := by
  simp only [output]
  generalize counted : (if active .b = true then _ else _) = count
  have enough : ∀ side, active side = true → count ≤ (state.channel side).buffer.left := by
    intro side on
    cases side with
    | a =>
      rw [if_pos on] at counted
      split at counted <;> omega
    | b =>
      rw [if_pos on] at counted
      omega
  split
  · next none =>
    refine .still rfl rfl (going side) fun _ => ?_
    by_contra nowhere
    have left (side : Side) (on : active side = true) :
        0 < (state.channel side).buffer.left := by
      apply Nat.pos_of_ne_zero
      intro empty
      exact nowhere ⟨side, on, empty⟩
    have batch : 0 < rawBufferSamples := Nat.zero_lt_succ _
    subst none
    split at counted
    · next onB =>
      have leftB := left .b onB
      split at counted
      · next onA =>
        have leftA := left .a onA
        omega
      · omega
    · split at counted
      · next onA =>
        have leftA := left .a onA
        omega
      · omega
  · next some =>
    have some := Nat.pos_of_ne_zero some
    split
    · next mode =>
      have full (side : Side) (on : active side = true) :
          0 < (state.channel side).buffer.left :=
        Nat.lt_of_lt_of_le some (enough side on)
      exact independent_moved mode full going side
    · next mode =>
      rw [Bool.not_eq_true] at mode
      exact paired_moved mode some enough going (apart mode) side

theorem endOfFile_moved {active : Side → Bool}
    (some : (active .a && (state.channel .a).eof || active .b && (state.channel .b).eof) = true)
    (side : Side) :
    Moved config active state
      (endOfFile state (fun side => active side && (state.channel side).eof) false quiet) side := by
  have at_end : ∃ other, active other = true ∧ (state.channel other).eof = true := by
    simp only [Bool.or_eq_true, Bool.and_eq_true] at some
    rcases some with a | b
    · exact ⟨.a, a⟩
    · exact ⟨.b, b⟩
  simp only [endOfFile, quiet, Bool.false_eq_true, if_false, Bool.not_false, Bool.and_true, some,
    if_true]
  cases here : active side && (state.channel side).eof with
  | true =>
    obtain ⟨on, eof⟩ := Bool.and_eq_true_iff.mp here
    refine .ended on eof ?_ rfl
    simp only [here, if_true, Bool.true_or]
  | false =>
    refine .still ?_ rfl ?_ ?_
    · simp only [here, Bool.false_eq_true, if_false]
    · intro on
      rw [on, Bool.true_and] at here
      exact here
    · intro _
      obtain ⟨other, on, eof⟩ := at_end
      simp only [Channel.eof, Bool.and_eq_true, decide_eq_true_eq] at eof
      exact ⟨other, on, eof.1⟩

theorem withChannel_both (state : State Sample) (filled : Side → Channel Sample) :
    (state.withChannel .a (filled .a)).withChannel .b (filled .b) =
      { state with channel := filled } := by
  simp only [State.withChannel]
  congr 1
  funext side
  cases side with
  | a =>
    have apart : Side.a ≠ Side.b := nofun
    rw [Function.update_of_ne apart, Function.update_self]
  | b => exact Function.update_self ..

theorem produce_moved [Zero Sample] (calm : Calm config state) {active : Side → Bool}
    {filled : Side → Channel Sample}
    (decoded : ∀ side, (state.channel side).decode (active side) = some (filled side)) :
    ∃ next, produce config state active quiet = some next ∧ Calm config next ∧
      ∀ side, Moved config active { state with channel := filled } next side := by
  simp only [produce, Option.bind_eq_bind, decoded, Option.bind_some, withChannel_both]
  split
  · next eof =>
    rw [calm.playing]
    refine ⟨_, rfl, endOfFile_calm ?_ _ eof, endOfFile_moved eof⟩
    exact ⟨rfl, calm.apart⟩
  · next noEof =>
    refine ⟨_, rfl, output_calm ?_ active, output_moved calm.apart fun side on => ?_⟩
    · exact ⟨calm.playing, calm.apart⟩
    rw [Bool.not_eq_true, Bool.or_eq_false_iff] at noEof
    cases side with
    | a =>
      rw [on, Bool.true_and] at noEof
      exact noEof.1
    | b =>
      rw [on, Bool.true_and] at noEof
      exact noEof.2

def State.rolling (state : State Sample) (side : Side) : Bool :=
  (state.channel side).active false

theorem step_quiet [Zero Sample] (playing : state.paused = false) :
    step config state quiet =
      if !state.rolling .a && !state.rolling .b then some state
      else produce config state state.rolling quiet := by
  obtain ⟨channel, paused, streamEpoch, pairedFifo, channelFifo, seeks⟩ := state
  dsimp only at playing
  subst playing
  rfl

/-! The invariant of every run. -/

/-- A channel has committed its file up to the current sample. In the independent mode the
position in the buffer is that in the file. -/
structure Channel.Playing (config : Config) (side : Side) (file committed : List Sample)
    (channel : Channel Sample) : Prop where
  good : channel.recoveryFailed = false
  stored : channel.buffer.stored.length ≤ decodeBufSize
  committed : committed = file.take channel.current
  position : config.independent = true → channel.buffer.pos = channel.current
  stopped : config.independent = true → config.rateHz side % 2 ^ 48 = 0 →
    channel.current = 0 ∧ channel.consumeRem = 0

structure Playing (session : Session Sample) (state : State Sample) : Prop where
  calm : Calm session.config state
  truthful : Truthful session.file state
  channel : ∀ side, (state.channel side).Playing session.config side (session.file side)
    (state.committed side)

theorem owed_stopped {remainder : Nat} (stopped : config.rateHz side % 2 ^ 48 = 0)
    (none : remainder = 0) : owed config side remainder = (0, 0) := by
  have zero : (rawBufferSamples * config.rateHz side + remainder) % 2 ^ 64 = 0 := by
    simp only [rawBufferSamples]
    omega
  simp only [owed, zero, Nat.zero_div, Nat.zero_mod]

theorem take_drop_append (file : List Sample) (current count : Nat) :
    file.take current ++ (file.drop current).take count = file.take (current + count) :=
  List.take_add.symm

theorem compact_stored (buffer : DecodeBuffer Sample) :
    buffer.compact.stored.length ≤ buffer.stored.length := by
  unfold DecodeBuffer.compact
  split
  · rw [DecodeBuffer.pending_length]
    exact Nat.sub_le ..
  · exact Nat.le_refl _

theorem compact_pos (buffer : DecodeBuffer Sample) : buffer.compact.pos ≤ decodeBufSize / 2 := by
  unfold DecodeBuffer.compact
  split
  · exact Nat.zero_le _
  · next first => exact Nat.le_of_not_gt first

theorem Moved.playing {active : Side → Bool} {file : List Sample}
    (moved : Moved config active state next side)
    (sound : (state.channel side).Sound file)
    (playing : (state.channel side).Playing config side file (state.committed side)) :
    (next.channel side).Playing config side file (next.committed side) := by
  have taken {out : Nat} (enough : out ≤ (state.channel side).buffer.left) :
      state.committed side ++ (state.channel side).buffer.pending.take out =
        file.take ((state.channel side).current + out) := by
    rw [playing.committed, sound.pending_take playing.good enough, take_drop_append]
  cases moved with
  | still channel committed =>
    rw [channel, committed]
    exact playing
  | ended _ _ channel committed =>
    rw [channel, committed]
    exact { playing with }
  | independent mode _ _ out amount channel committed =>
    have enough : out ≤ (state.channel side).buffer.left := by omega
    rw [channel, committed, taken enough]
    refine ⟨playing.good, playing.stored, rfl, fun _ => ?_, fun _ stopped => ?_⟩
    · exact congrArg (· + out) (playing.position mode)
    · obtain ⟨current, consumeRem⟩ := playing.stopped mode stopped
      have none := owed_stopped stopped consumeRem
      rw [none, Nat.zero_min, Nat.zero_min] at amount
      subst amount
      simp only [Channel.independently, Channel.take, Channel.advance, none, current]
      trivial
  | paired mode _ out _ enough channel committed =>
    rw [channel, committed, taken enough]
    refine ⟨playing.good, ?_, rfl, fun other => ?_, fun other => ?_⟩
    · exact Nat.le_trans (compact_stored _) playing.stored
    · rw [mode] at other
      cases other
    · rw [mode] at other
      cases other

theorem Refilled.playing {file committed : List Sample} (refilled : Refilled channel filled)
    (playing : channel.Playing config side file committed) :
    filled.Playing config side file committed where
  good := refilled.recoveryFailed.trans playing.good
  stored := refilled.stored
  committed := by
    rw [refilled.current]
    exact playing.committed
  position mode := by
    rw [refilled.pos, refilled.current]
    exact playing.position mode
  stopped mode stopped := by
    rw [refilled.current, refilled.consumeRem]
    exact playing.stopped mode stopped

/-- A turn without a request moves every channel, or none is left to roll. -/
inductive Quiet (config : Config) (state : State Sample) (next : State Sample) : Prop
  | idle (none : ∀ side, state.rolling side = false) (same : next = state)
  | rolled (filled : Side → Channel Sample)
      (decoded : ∀ side, (state.channel side).decode (state.rolling side) = some (filled side))
      (moved : ∀ side, Moved config state.rolling { state with channel := filled } next side)

theorem rolling_none (h : (!state.rolling .a && !state.rolling .b) = true) (side : Side) :
    state.rolling side = false := by
  rw [Bool.and_eq_true, Bool.not_eq_true', Bool.not_eq_true'] at h
  cases side with
  | a => exact h.1
  | b => exact h.2

theorem step_quiet_rolls [Zero Sample] (calm : Calm config state)
    {filled : Side → Channel Sample}
    (decoded : ∀ side, (state.channel side).decode (state.rolling side) = some (filled side)) :
    ∃ next, step config state quiet = some next ∧ Calm config next ∧ Quiet config state next := by
  rw [step_quiet calm.playing]
  split
  · next none => exact ⟨state, rfl, calm, .idle (rolling_none none) rfl⟩
  · obtain ⟨next, ran, after, moved⟩ := produce_moved calm decoded
    exact ⟨next, ran, after, .rolled filled decoded moved⟩

theorem step_quiet_moves [Zero Sample] (calm : Calm config state)
    (h : step config state quiet = some next) : Calm config next ∧ Quiet config state next := by
  by_cases idle : (!state.rolling .a && !state.rolling .b) = true
  · rw [step_quiet calm.playing, if_pos idle] at h
    cases h
    exact ⟨calm, .idle (rolling_none idle) rfl⟩
  · have started := h
    rw [step_quiet calm.playing, if_neg idle] at started
    simp only [produce, Option.bind_eq_bind, Option.bind_eq_some_iff] at started
    obtain ⟨a, decodedA, b, decodedB, _⟩ := started
    have decoded (side : Side) : (state.channel side).decode (state.rolling side) =
        some (Side.rec a b side) := by
      cases side with
      | a => exact decodedA
      | b => exact decodedB
    obtain ⟨other, ran, moves⟩ := step_quiet_rolls calm decoded
    rw [h] at ran
    cases ran
    exact moves

variable {session : Session Sample}

theorem Playing.step [Zero Sample] (playing : Playing session state)
    (h : step session.config state quiet = some next) : Playing session next := by
  obtain ⟨calm, moves⟩ := step_quiet_moves playing.calm h
  have truthful := step_truthful playing.truthful rfl h
  refine ⟨calm, truthful, fun side => ?_⟩
  cases moves with
  | idle _ same =>
    rw [same]
    exact playing.channel side
  | rolled filled decoded moved =>
    have sound := playing.truthful.sound side
    have refilled := decode_refilled sound (playing.channel side).stored (decoded side)
    exact (moved side).playing (sound.decoded (decoded side)) (refilled.playing (playing.channel side))

theorem start_playing (session : Session Sample) :
    Playing session (start session.files session.streamEpoch) where
  calm := ⟨rfl, fun _ _ => rfl⟩
  truthful := start_truthful session.files session.streamEpoch
  channel _ := ⟨rfl, Nat.zero_le _, List.take_zero.symm, fun _ => rfl, fun _ _ => ⟨rfl, rfl⟩⟩

theorem after_playing [Zero Sample] {turns : Nat} (h : session.after turns = some state) :
    Playing session state :=
  Machine.replicate_invariant (Playing session) (fun _ _ playing taken => playing.step taken)
    (start_playing session) h

theorem Playing.bounded (playing : Playing session state)
    (mode : session.config.independent = true) (side : Side) :
    (state.channel side).current ≤ decodeBufSize := by
  have channel := playing.channel side
  have inside := (playing.truthful.sound side).inside channel.good
  rw [← channel.position mode]
  exact Nat.le_trans inside channel.stored

theorem Session.Delivers.manageable [Zero Sample] (delivers : session.Delivers) :
    session.Manageable := by
  intro mode side
  obtain ⟨turns, state, after, whole⟩ := delivers.whole
  have playing := after_playing after
  have channel := playing.channel side
  have bounded := playing.bounded mode side
  have committed := channel.committed
  rw [(whole side).2] at committed
  have length := congrArg List.length committed
  rw [List.length_take] at length
  refine ⟨by omega, ?_⟩
  by_cases stopped : session.config.rateHz side % 2 ^ 48 = 0
  · rw [(channel.stopped mode stopped).1, List.take_zero] at committed
    exact .inl committed
  · exact .inr stopped

/-! Progress. -/

def stride (config : Config) (side : Side) : Nat :=
  rawBufferSamples * config.rateHz side % 2 ^ 64

/-- How long a channel can be owed nothing: the remainder falls where the clock wraps, and rises
to the faster rate where a batch adds less than that. -/
def Channel.phase (config : Config) (side : Side) (channel : Channel Sample) : Nat :=
  if config.maxRateHz ≤ stride config side then channel.consumeRem
  else config.maxRateHz - channel.consumeRem

/-- The samples that an active channel has not output, and the time to the next one. -/
def Channel.rank (config : Config) (side : Side) (file : List Sample) (channel : Channel Sample) :
    Nat :=
  if channel.active false then
    (file.length - channel.current) * (config.maxRateHz + 1) + channel.phase config side + 1
  else 0

structure Clocked (config : Config) : Prop where
  positive : 0 < config.maxRateHz
  small : config.maxRateHz ≤ 2 ^ 32

theorem config_clocked (session : Session Sample) : Clocked session.config := by
  simp only [Session.config]
  constructor
  · split
    · exact Nat.zero_lt_succ _
    · next some => exact Nat.pos_of_ne_zero some
  · split
    · dsimp only
      decide
    · exact Nat.le_of_lt (Nat.mod_lt _ (Nat.two_pow_pos 32))

theorem owed_lt (clocked : Clocked config) (side : Side) (remainder : Nat) :
    (owed config side remainder).2 < config.maxRateHz :=
  Nat.mod_lt _ clocked.positive

theorem owed_none (clocked : Clocked config) (rate : config.rateHz side % 2 ^ 48 ≠ 0)
    {remainder : Nat} (few : remainder < config.maxRateHz)
    (none : (owed config side remainder).1 = 0) :
    if config.maxRateHz ≤ stride config side then (owed config side remainder).2 < remainder
    else remainder < (owed config side remainder).2 := by
  have small := clocked.small
  simp only [owed] at none ⊢
  have num := (Nat.div_eq_zero_iff_lt clocked.positive).mp none
  rw [Nat.mod_eq_of_lt num]
  by_cases fast : config.maxRateHz ≤ stride config side
  · rw [if_pos fast]
    simp only [stride, rawBufferSamples] at num fast ⊢
    omega
  · rw [if_neg fast]
    simp only [stride, rawBufferSamples] at num fast ⊢
    omega

theorem phase_le (channel : Channel Sample) (few : channel.consumeRem < config.maxRateHz) :
    channel.phase config side ≤ config.maxRateHz := by
  unfold Channel.phase
  split
  · exact Nat.le_of_lt few
  · exact Nat.sub_le ..

structure Channel.Healthy (config : Config) (file : List Sample) (channel : Channel Sample) :
    Prop where
  live : channel.source.aborted = false
  sized : channel.source.Sized
  half : config.independent = false → channel.buffer.pos ≤ decodeBufSize / 2
  remainder : channel.consumeRem < config.maxRateHz
  ended : channel.paused = true → file.length ≤ channel.current

theorem Channel.Healthy.roomy {file committed : List Sample} (healthy : channel.Healthy config file)
    (playing : channel.Playing config side file committed) (sound : channel.Sound file)
    (fits : config.independent = true → file.length ≤ decodeBufSize) : channel.Roomy := by
  cases mode : config.independent with
  | false => exact .inl ⟨healthy.half mode, healthy.sized⟩
  | true =>
    refine .inr ?_
    have left := sound.left_le playing.good
    have inside := sound.inside playing.good
    have position := playing.position mode
    have stored := playing.stored
    have whole := fits mode
    simp only [DecodeBuffer.left] at left
    omega

theorem Moved.healthy {active : Side → Bool} {file committed : List Sample}
    (moved : Moved config active state next side) (clocked : Clocked config)
    (sound : (state.channel side).Sound file)
    (playing : (state.channel side).Playing config side file committed)
    (healthy : (state.channel side).Healthy config file) :
    (next.channel side).Healthy config file := by
  cases moved with
  | still channel =>
    rw [channel]
    exact healthy
  | ended _ eof channel =>
    rw [channel]
    exact { healthy with ended := fun _ => sound.eof_current playing.good eof }
  | independent mode _ _ out _ channel =>
    rw [channel]
    refine ⟨healthy.live, healthy.sized, fun other => ?_, owed_lt clocked side _, fun paused => ?_⟩
    · rw [mode] at other
      cases other
    · exact Nat.le_add_right_of_le (healthy.ended paused)
  | paired mode _ out _ _ channel =>
    rw [channel]
    refine ⟨healthy.live, healthy.sized, fun _ => compact_pos _, healthy.remainder, fun paused => ?_⟩
    exact Nat.le_add_right_of_le (healthy.ended paused)

theorem rank_output {length current out most before after : Nat} (some : 0 < out)
    (inside : out ≤ length - current) (bound : after ≤ most) :
    (length - (current + out)) * (most + 1) + after + 1 <
      (length - current) * (most + 1) + before + 1 := by
  have less : length - (current + out) + 1 ≤ length - current := by omega
  have scaled := Nat.mul_le_mul_right (most + 1) less
  rw [Nat.succ_mul] at scaled
  omega

theorem independently_phase (clocked : Clocked config)
    (rate : config.rateHz side % 2 ^ 48 ≠ 0) (few : channel.consumeRem < config.maxRateHz)
    (none : (owed config side channel.consumeRem).1 = 0) (out : Nat) :
    (channel.independently config side out).phase config side < channel.phase config side := by
  have phase := owed_none clocked rate few none
  have next := owed_lt clocked side channel.consumeRem
  simp only [Channel.phase, Channel.independently]
  split at phase
  · next fast =>
    rw [if_pos fast, if_pos fast]
    exact phase
  · next slow =>
    rw [if_neg slow, if_neg slow]
    omega

theorem Moved.rank {active : Side → Bool} {file committed : List Sample}
    (moved : Moved config active state next side) (clocked : Clocked config)
    (sound : (state.channel side).Sound file)
    (playing : (state.channel side).Playing config side file committed)
    (healthy : (state.channel side).Healthy config file)
    (rate : config.independent = true → file = [] ∨ config.rateHz side % 2 ^ 48 ≠ 0)
    (rolling : active side = true → (state.channel side).active false = true) :
    next.channel side = state.channel side ∧
        (active side = true → (state.channel side).eof = false ∧
          ∃ other, active other = true ∧ (state.channel other).buffer.left = 0) ∨
      (next.channel side).rank config side file < (state.channel side).rank config side file := by
  have left := sound.left_le playing.good
  cases moved with
  | still channel committed on waits =>
    exact .inl ⟨channel, fun rolls => ⟨on rolls, waits rolls⟩⟩
  | ended on eof channel =>
    refine .inr ?_
    have stopped : (next.channel side).active false = false := by
      rw [channel]
      exact Bool.and_false _
    rw [Channel.rank, Channel.rank, if_pos (rolling on), stopped, if_neg Bool.false_ne_true]
    exact Nat.zero_lt_succ _
  | independent mode on some out amount channel =>
    refine .inr ?_
    have rate : config.rateHz side % 2 ^ 48 ≠ 0 := by
      refine (rate mode).resolve_left fun empty => ?_
      rw [empty, List.length_nil] at left
      omega
    have rolls : (next.channel side).active false = true := by
      rw [channel]
      exact rolling on
    rw [Channel.rank, Channel.rank, if_pos (rolling on), if_pos rolls, channel]
    by_cases none : out = 0
    · have batch : 0 < rawBufferSamples := Nat.zero_lt_succ _
      have due : (owed config side (state.channel side).consumeRem).1 = 0 := by omega
      have phase := independently_phase clocked rate healthy.remainder due out
      have stays : ((state.channel side).independently config side out).current =
          (state.channel side).current := by
        rw [none]
        rfl
      rw [stays]
      omega
    · have inside : out ≤ file.length - (state.channel side).current := by omega
      exact rank_output (Nat.pos_of_ne_zero none) inside (phase_le _ (owed_lt clocked side _))
  | paired mode on out some enough channel =>
    refine .inr ?_
    have rolls : (next.channel side).active false = true := by
      rw [channel]
      exact rolling on
    rw [Channel.rank, Channel.rank, if_pos (rolling on), if_pos rolls, channel]
    have inside : out ≤ file.length - (state.channel side).current := by omega
    exact rank_output some inside (phase_le _ healthy.remainder)

/-! Every run of a manageable session. -/

structure Healthy (session : Session Sample) (state : State Sample) : Prop where
  playing : Playing session state
  channel : ∀ side, (state.channel side).Healthy session.config (session.file side)

def State.rank (session : Session Sample) (state : State Sample) : Nat :=
  (state.channel .a).rank session.config .a (session.file .a) +
    (state.channel .b).rank session.config .b (session.file .b)

theorem start_healthy (session : Session Sample) :
    Healthy session (start session.files session.streamEpoch) := by
  refine ⟨start_playing session, fun side => ?_⟩
  have clocked := (config_clocked session).positive
  simp only [start]
  have blocks := session.blocks side
  cases kind : session.files side with
  | none | raw => exact ⟨rfl, trivial, fun _ => Nat.zero_le _, clocked, by simp⟩
  | flac frames => exact ⟨rfl, blocks frames kind, fun _ => Nat.zero_le _, clocked, by simp⟩

theorem Refilled.healthy {file : List Sample} {active : Bool}
    (refilled : Refilled channel filled) (filling : Filled active channel filled)
    (healthy : channel.Healthy config file) : filled.Healthy config file where
  live := filling.live
  sized := filling.sized healthy.sized
  half mode := by
    rw [refilled.pos]
    exact healthy.half mode
  remainder := by
    rw [refilled.consumeRem]
    exact healthy.remainder
  ended paused := by
    rw [refilled.current]
    exact healthy.ended (refilled.paused ▸ paused)

theorem Refilled.active (refilled : Refilled channel filled) :
    filled.active false = channel.active false := by
  simp only [Channel.active, refilled.loaded, refilled.paused, Bool.not_false, Bool.true_or]

theorem Refilled.rank (refilled : Refilled channel filled) (file : List Sample) :
    filled.rank config side file = channel.rank config side file := by
  simp only [Channel.rank, Channel.phase, refilled.active, refilled.current, refilled.consumeRem]

theorem rank_lower {filled : Side → Channel Sample} {active : Side → Bool}
    (moved : ∀ side, next.channel side = filled side ∧ (active side = true →
        (filled side).eof = false ∧ ∃ other, active other = true ∧ (filled other).buffer.left = 0) ∨
      (next.channel side).rank session.config side (session.file side) <
        (filled side).rank session.config side (session.file side))
    (full : ∀ side, active side = true → (filled side).buffer.left = 0 → (filled side).eof = true)
    (some : ∃ side, active side = true) :
    next.rank session <
      (filled .a).rank session.config .a (session.file .a) +
        (filled .b).rank session.config .b (session.file .b) := by
  have waiting (side : Side) (on : active side = true)
      (still : ∀ side, active side = true → (filled side).eof = false ∧
        ∃ other, active other = true ∧ (filled other).buffer.left = 0) : False := by
    obtain ⟨_, other, onOther, empty⟩ := still side on
    have eof := full other onOther empty
    rw [(still other onOther).1] at eof
    cases eof
  obtain ⟨side, on⟩ := some
  simp only [State.rank]
  rcases moved .a with ⟨sameA, stillA⟩ | lowerA
  · rcases moved .b with ⟨sameB, stillB⟩ | lowerB
    · refine (waiting side on fun side => ?_).elim
      cases side with
      | a => exact stillA
      | b => exact stillB
    · rw [sameA]
      omega
  · rcases moved .b with ⟨sameB, _⟩ | lowerB
    · rw [sameB]
      omega
    · omega

/-- A turn of a manageable session goes through; it takes rolling channels nearer to the end. -/
theorem Healthy.step [Zero Sample] (healthy : Healthy session state)
    (manageable : session.Manageable) :
    ∃ next, step session.config state quiet = some next ∧ Healthy session next ∧
      ((∀ side, state.rolling side = false) ∨ next.rank session < state.rank session) := by
  have playing := healthy.playing
  have filling (side : Side) := decode_filled (playing.truthful.sound side)
    (playing.channel side).good (healthy.channel side).live
    ((healthy.channel side).roomy (playing.channel side) (playing.truthful.sound side)
      fun mode => (manageable mode side).1) (state.rolling side)
  choose filled decoded filling using filling
  have sound (side : Side) := (playing.truthful.sound side).decoded (decoded side)
  have refilled (side : Side) := decode_refilled (playing.truthful.sound side)
    (playing.channel side).stored (decoded side)
  have plays (side : Side) := (refilled side).playing (playing.channel side)
  have heals (side : Side) := (refilled side).healthy (filling side) (healthy.channel side)
  obtain ⟨next, ran, _, moves⟩ := step_quiet_rolls playing.calm decoded
  have after := playing.step ran
  have clocked := config_clocked session
  refine ⟨next, ran, ?_⟩
  cases moves with
  | idle none same =>
    rw [same]
    exact ⟨healthy, .inl none⟩
  | rolled others decodedToo moved =>
    obtain rfl : others = filled := by
      funext side
      exact Option.some.inj ((decodedToo side).symm.trans (decoded side))
    have health (side : Side) :=
      (moved side).healthy clocked (sound side) (plays side) (heals side)
    refine ⟨⟨after, health⟩, ?_⟩
    by_cases some : ∃ side, state.rolling side = true
    · refine .inr ?_
      have full (side : Side) (on : state.rolling side = true)
          (empty : (others side).buffer.left = 0) : (others side).eof = true := by
        have loaded : (state.channel side).source.loaded = true := by
          simp only [State.rolling, Channel.active, Bool.and_eq_true] at on
          exact on.1.1
        simp only [Channel.eof, empty, decide_true, Bool.true_and]
        exact (filling side).ended on loaded empty
      have steps (side : Side) := (moved side).rank clocked (sound side) (plays side) (heals side)
        (fun mode => (manageable mode side).2) fun on => (refilled side).active.trans on
      have lower := rank_lower steps full some
      rw [(refilled .a).rank, (refilled .b).rank] at lower
      exact lower
    · refine .inl fun side => ?_
      rw [← Bool.not_eq_true]
      intro on
      exact some ⟨side, on⟩

theorem Healthy.whole (healthy : Healthy session state) (side : Side)
    (stopped : state.rolling side = false) : state.committed side = session.file side := by
  have sound := healthy.playing.truthful.sound side
  have reached : (session.file side).length ≤ (state.channel side).current := by
    simp only [State.rolling, Channel.active, Bool.not_false, Bool.true_or, Bool.and_true,
      Bool.and_eq_false_iff, Bool.not_eq_false'] at stopped
    rcases stopped with absent | paused
    · have none : (state.channel side).source = .none := by
        cases source : (state.channel side).source with
        | none => rfl
        | flac | raw =>
          rw [source] at absent
          cases absent
      simp only [Channel.Sound, none] at sound
      rw [sound.2]
      exact Nat.zero_le _
    · exact (healthy.channel side).ended paused
  rw [(healthy.playing.channel side).committed, List.take_of_length_le reached]

/-- The session delivers both files, exactly when they are manageable. -/
theorem playback_delivers_iff [Zero Sample] (session : Session Sample) :
    session.Delivers ↔ session.Manageable := by
  constructor
  · exact Session.Delivers.manageable
  · intro manageable
    have start := start_healthy session
    constructor
    · intro turns
      obtain ⟨last, ran, healthy⟩ := Machine.replicate_total (Healthy session)
        (fun state healthy => by
          obtain ⟨next, taken, kept, _⟩ := healthy.step manageable
          exact ⟨next, taken, kept⟩) turns start
      exact ⟨last, ran, fun side => (healthy.channel side).live⟩
    · obtain ⟨turns, last, ran, healthy, stopped⟩ := Machine.replicate_reaches (Healthy session)
        (fun state => ∀ side, state.rolling side = false) (State.rank session)
        (fun state healthy => by
          obtain ⟨next, taken, kept, stopped | lower⟩ := healthy.step manageable
          · exact .inl stopped
          · exact .inr ⟨next, taken, kept, lower⟩) start
      exact ⟨turns, last, ran, fun side => ⟨stopped side, healthy.whole side (stopped side)⟩⟩

/-- Two raw files with rates of 40 and 20 MHz, the first a sample longer than a decode buffer. -/
def longPair : Session Nat where
  files side :=
    match side with
    | .a => .raw (List.replicate (decodeBufSize + 1) 0) false nofun
    | .b => .raw [0] false nofun
  blocks side frames flac := by
    cases side with
    | a => cases flac
    | b => cases flac
  rate side :=
    match side with
    | .a => some 40000000
    | .b => some 20000000
  window _ := 0
  streamEpoch := 0

theorem long_file_undelivered : ¬∀ session : Session Nat, session.Delivers := by
  intro claim
  have fits := ((claim longPair).manageable rfl .a).1
  have length : (longPair.file .a).length = decodeBufSize + 1 := List.length_replicate
  rw [length] at fits
  exact absurd fits (Nat.not_succ_le_self _)

end MisrcGui.Playback
