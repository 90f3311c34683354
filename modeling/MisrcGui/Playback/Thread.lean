import MisrcGui.Playback.Source

/-! The producer thread of file playback, `playback_thread_func` of `gui_playback.c`: a turn of
its loop with the seek requests, the pauses, the refill of the decode buffers, the end of a file
and the output in both modes. Pacing, the monitor audio, the position on the display and the
packing of a pair of samples are left out. -/
namespace MisrcGui.Playback

variable {Sample : Type}

inductive Side where
  | a
  | b
deriving DecidableEq

inductive Source (Sample : Type) where
  | none
  | flac (frames : List (List Sample)) (decoder : Decoder Sample)
  | raw (samples : List Sample) (reader : RawReader Sample)

def Source.loaded : Source Sample → Bool
  | .none => false
  | _ => true

def Source.file : Source Sample → List Sample
  | .none => []
  | .flac frames _ => frames.flatten
  | .raw samples _ => samples

/-- `paused` is `playback_channel_paused`. -/
structure Channel (Sample : Type) where
  source : Source Sample
  buffer : DecodeBuffer Sample
  recoveryFailed : Bool
  current : Nat
  backfillActive : Bool
  backfillTarget : Nat
  paused : Bool
  consumeRem : Nat
  epoch : Nat

/-- The mode of a session with its rates in Hz; `window` is what a backfill takes in, before it
is limited. -/
structure Config where
  independent : Bool
  maxRateHz : Nat
  rateHz : Side → Nat
  window : Side → Nat

/-- `gui_rf_block_info_t`. -/
structure Stamp where
  sampleRateHz : Nat
  startSample : Nat
  epoch : Nat
deriving DecidableEq

/-- A block of `BUF_CAPTURE_RF` with its stamps; `recoveryFailed` is ghost. -/
structure PairedBlock (Sample : Type) where
  words : List (Sample × Sample)
  stamp : Side → Stamp
  count : Side → Nat
  recoveryFailed : Side → Bool

/-- A block of `BUF_CAPTURE_RF_A` or `BUF_CAPTURE_RF_B` with its stamp. -/
structure ChannelBlock (Sample : Type) where
  samples : List Sample
  stamp : Stamp
  recoveryFailed : Bool

/-- A seek that the thread made, for a request or for a loop, and the channel around it. -/
structure SeekRecord (Sample : Type) where
  side : Side
  good : Bool
  before : Channel Sample
  after : Channel Sample

/-- `paused` is `PLAYBACK_STATE_PAUSED`; `seeks` is ghost. -/
structure State (Sample : Type) where
  channel : Side → Channel Sample
  paused : Bool
  streamEpoch : Nat
  pairedFifo : List (PairedBlock Sample)
  channelFifo : Side → List (ChannelBlock Sample)
  seeks : List (SeekRecord Sample)

/-- What a turn of the loop meets: the requests and the stores of the user interface before the
loads of the thread, the outcome of its calls, and room in the FIFOs and their stamp queues.
`play` holds the stores before the three loads of the state. -/
structure Turn (Sample : Type) where
  seek : Side → Option Nat
  total : Side → Nat
  play : Fin 3 → Option Bool
  pause : Side → Option Bool
  loop : Side → Bool
  validate : Side → SeekCalls Sample
  calls : Side → SeekCalls Sample
  fseek : Side → Bool
  room : Side → Bool
  stamped : Side → Bool

def State.withChannel (state : State Sample) (side : Side) (channel : Channel Sample) :
    State Sample :=
  { state with channel := Function.update state.channel side channel }

def State.load (state : State Sample) (store : Option Bool) : State Sample :=
  { state with paused := store.getD state.paused }

def Channel.seekDecoder (channel : Channel Sample) (target : Nat) (calls : SeekCalls Sample) :
    Channel Sample × Bool :=
  match channel.source with
  | .flac frames decoder =>
    let (flac, good) := Playback.seekDecoder frames
      ⟨decoder, channel.buffer, channel.recoveryFailed⟩ channel.current target calls
    ({ channel with
        source := .flac frames flac.decoder
        buffer := flac.buffer
        recoveryFailed := flac.recoveryFailed }, good)
  | _ => (channel, false)

/-- The seek of a channel's source. A backfill validates its target before it seeks to the start
of its window. -/
def Channel.seekSource (channel : Channel Sample) (target seekTarget : Nat)
    (validate calls : SeekCalls Sample) (fseek : Bool) : Channel Sample × Bool :=
  match channel.source with
  | .raw samples reader =>
    let (reader, good) := rawSeek samples reader seekTarget fseek
    ({ channel with
        source := .raw samples reader
        buffer := if good then emptyBuffer else channel.buffer }, good)
  | _ =>
    if seekTarget ≠ target then
      let (channel, valid) := channel.seekDecoder target validate
      if valid then channel.seekDecoder seekTarget calls else (channel, false)
    else channel.seekDecoder seekTarget calls

/-- `channel_total_samples`; for a raw file it is the exact total. -/
def Channel.total (channel : Channel Sample) (published : Nat) : Nat :=
  match channel.source with
  | .raw samples _ => samples.length
  | _ => published

/-- The window of a paused seek: at least a batch, at most 256 of them. -/
def backfillWindow (window : Nat) : Nat :=
  max rawBufferSamples (min window (256 * rawBufferSamples))

def clampTarget (total target : Nat) : Nat :=
  if total > 0 ∧ target ≥ total then total - 1 else target

def seekStart (config : Config) (side : Side) (paused : Bool) (target : Nat) : Nat :=
  if paused then target - backfillWindow (config.window side) else target

def State.seek (state : State Sample) (side : Side) (target seekTarget : Nat)
    (turn : Turn Sample) : State Sample × Bool :=
  let before := state.channel side
  let (after, good) := before.seekSource target seekTarget (turn.validate side)
    (turn.calls side) (turn.fseek side)
  let after :=
    if good then { after with current := seekTarget, epoch := state.streamEpoch + 1 } else after
  ({ state.withChannel side after with
      streamEpoch := if good then state.streamEpoch + 1 else state.streamEpoch
      seeks := state.seeks ++ [⟨side, good, before, after⟩] }, good)

def requestSeek (config : Config) (state : State Sample) (side : Side) (requested : Nat)
    (turn : Turn Sample) : State Sample :=
  let state := state.load (turn.play 0)
  let target := clampTarget ((state.channel side).total (turn.total side)) requested
  let (next, good) := state.seek side target (seekStart config side state.paused target) turn
  if good then
    next.withChannel side
      { next.channel side with backfillActive := state.paused, backfillTarget := target }
  else { next with paused := state.paused || (next.channel side).recoveryFailed }

def Channel.hold (channel : Channel Sample) : Channel Sample :=
  if channel.source.loaded && decide (channel.current > channel.backfillTarget) then
    { channel with backfillActive := false }
  else channel

def Channel.active (channel : Channel Sample) (pausedOutput : Bool) : Bool :=
  channel.source.loaded && (!pausedOutput || channel.backfillActive) && !channel.paused

/-- The refill of an active channel; `none` when it does not end. -/
def Channel.refill (channel : Channel Sample) : Option (Channel Sample) :=
  match channel.source with
  | .none => some channel
  | .flac frames decoder =>
    (refillDecoder decoder channel.buffer).map fun filled =>
      { channel with source := .flac frames filled.1, buffer := filled.2 }
  | .raw samples reader =>
    let (reader, buffer) := refillReader samples reader channel.buffer
    some { channel with source := .raw samples reader, buffer }

def Channel.decode (channel : Channel Sample) (active : Bool) : Option (Channel Sample) :=
  if active then channel.refill else some channel

def Source.ended : Source Sample → Bool
  | .none => false
  | .flac _ decoder => decide (decoder.state = .endOfStream)
  | .raw samples reader => rawEof samples reader

def Channel.eof (channel : Channel Sample) : Bool :=
  decide (channel.buffer.left = 0) && channel.source.ended

def Channel.take (channel : Channel Sample) (count : Nat) : Channel Sample :=
  { channel with buffer := { channel.buffer with pos := channel.buffer.pos + count } }

def Channel.advance (channel : Channel Sample) (count : Nat) : Channel Sample :=
  { channel with current := channel.current + count }

def DecodeBuffer.compact (buffer : DecodeBuffer Sample) : DecodeBuffer Sample :=
  if buffer.pos > decodeBufSize / 2 then ⟨buffer.pending, 0⟩ else buffer

def Channel.stamp (config : Config) (side : Side) (channel : Channel Sample) : Stamp :=
  ⟨config.rateHz side, channel.current, channel.epoch⟩

/-- The samples that a channel owes on a batch of the faster clock, and the fraction carried
over, in 64-bit arithmetic. -/
def owed (config : Config) (side : Side) (remainder : Nat) : Nat × Nat :=
  let num := (rawBufferSamples * config.rateHz side + remainder) % 2 ^ 64
  (num / config.maxRateHz, num % config.maxRateHz)

def independentOutput (config : Config) (state : State Sample) (side : Side)
    (turn : Turn Sample) : State Sample :=
  let channel := state.channel side
  let (due, remainder) := owed config side channel.consumeRem
  let out := min (min due rawBufferSamples) channel.buffer.left
  let channel := { channel with consumeRem := remainder }
  if out = 0 then state.withChannel side channel
  else
    let block : ChannelBlock Sample :=
      ⟨channel.buffer.pending.take out, channel.stamp config side, channel.recoveryFailed⟩
    let state := state.withChannel side ((channel.take out).advance out)
    if turn.room side && turn.stamped side then
      { state with
        channelFifo := Function.update state.channelFifo side (state.channelFifo side ++ [block]) }
    else state

def Channel.batch [Zero Sample] (channel : Channel Sample) (active : Bool) (count : Nat) :
    List Sample :=
  if active then channel.buffer.pending.take count else List.replicate count 0

def Channel.consume (channel : Channel Sample) (active : Bool) (count : Nat) : Channel Sample :=
  if active then
    { (channel.take count).advance count with buffer := (channel.take count).buffer.compact }
  else channel

def pairedBlock [Zero Sample] (config : Config) (state : State Sample) (active : Side → Bool)
    (count : Nat) : PairedBlock Sample where
  words :=
    ((state.channel .a).batch (active .a) count).zip ((state.channel .b).batch (active .b) count) ++
      List.replicate (rawBufferSamples - count) (0, 0)
  stamp side := (state.channel side).stamp config side
  count side := if active side then count else 0
  recoveryFailed side := (state.channel side).recoveryFailed

def pairedOutput [Zero Sample] (config : Config) (state : State Sample) (active : Side → Bool)
    (count : Nat) (turn : Turn Sample) : State Sample :=
  let block := pairedBlock config state active count
  { state with
    channel := fun side => (state.channel side).consume (active side) count
    pairedFifo :=
      if turn.room .a && turn.stamped .a then state.pairedFifo ++ [block] else state.pairedFifo }

/-- An active channel at its end loops; `none` when its seek fails and the thread pauses. -/
def loopSide (state : State Sample) (side : Side) (eof : Bool) (turn : Turn Sample) :
    State Sample × Bool :=
  if eof then
    let (next, good) := state.seek side 0 0 turn
    if good then (next, true) else ({ next with paused := true }, false)
  else (state, true)

/-- The end of a file: it ends a paused backfill, pauses a channel that does not loop, and loops
the others. -/
def endOfFile (state : State Sample) (eof : Side → Bool) (pausedOutput : Bool)
    (turn : Turn Sample) : State Sample :=
  let ending (paused : Bool) : State Sample :=
    { state with
      channel := fun side =>
        if eof side then
          { state.channel side with
            backfillActive := false
            paused := paused || (state.channel side).paused }
        else state.channel side }
  if pausedOutput then ending false
  else if eof .a && !turn.loop .a || eof .b && !turn.loop .b then ending true
  else
    let (next, good) := loopSide state .a (eof .a) turn
    if good then (loopSide next .b (eof .b) turn).1 else next

def output [Zero Sample] (config : Config) (state : State Sample) (active : Side → Bool)
    (turn : Turn Sample) : State Sample :=
  let limit (count : Nat) (side : Side) : Nat :=
    if active side then min count (state.channel side).buffer.left else count
  let count := limit (limit rawBufferSamples .a) .b
  if count = 0 then state
  else if config.independent then
    let state := if active .a then independentOutput config state .a turn else state
    if active .b then independentOutput config state .b turn else state
  else pairedOutput config state active count turn

/-- The turn behind the pause checks; `none` when a refill does not end. -/
def produce [Zero Sample] (config : Config) (state : State Sample) (active : Side → Bool)
    (turn : Turn Sample) : Option (State Sample) := do
  let a ← (state.channel .a).decode (active .a)
  let b ← (state.channel .b).decode (active .b)
  let state := (state.withChannel .a a).withChannel .b b
  let eof (side : Side) : Bool := active side && (state.channel side).eof
  if eof .a || eof .b then some (endOfFile state eof state.paused turn)
  else some (output config state active turn)

/-- A turn of `playback_thread_func`. -/
def step [Zero Sample] (config : Config) (state : State Sample) (turn : Turn Sample) :
    Option (State Sample) :=
  match turn.seek .a, turn.seek .b with
  | some target, _ => some (requestSeek config state .a target turn)
  | none, some target => some (requestSeek config state .b target turn)
  | none, none =>
    let state := state.load (turn.play 1)
    let state :=
      if state.paused then { state with channel := fun side => (state.channel side).hold }
      else state
    if state.paused && !(state.channel .a).backfillActive &&
        !(state.channel .b).backfillActive then some state
    else
      let state := state.load (turn.play 2)
      let state :=
        { state with
          channel := fun side =>
            { state.channel side with
              paused := (turn.pause side).getD (state.channel side).paused } }
      let active (side : Side) : Bool := (state.channel side).active state.paused
      if !active .a && !active .b then some state
      else produce config state active turn

end MisrcGui.Playback
