import Mathlib.Data.UInt

/-! The RF preview worker (`gui_rf_preview_worker.c`): one producer that submits blocks, the UI,
the video worker and the audio worker, atomic access by atomic access. The samples, the clocks,
the budget, the resamplers and both decoders stay outside: what they decide is a choice of each
step. Left out are the statistics, the monitor's copy of a frame, and the end of the worker. -/
namespace MisrcGui.RfPreview.Worker

def queueSlots : Nat := 256

def blockSamples : Nat := 65536

def audioQueueSlots : Nat := 32

def minRate : Nat := 16000000

def maxRate : Nat := 200000000

def edBetaRateHz : Nat := 20000000

inductive Profile where
  | palVhs
  | ntscVhs
  | ntscBetamax
  | ntscBetamaxHifi
  | ntscSuperbeta
  | ntscSuperbetaHifi
  | secamVhs
  | mesecamVhs
  | ntscEdBeta
deriving DecidableEq

def Profile.hasHifi : Profile → Bool
  | .ntscBetamaxHifi | .ntscSuperbetaHifi | .ntscEdBeta => true
  | _ => false

def Profile.edBeta (profile : Profile) : Bool := profile = .ntscEdBeta

structure Info where
  epoch : Nat
  sampleRateHz : Nat
  startSample : Nat
  discontinuity : Bool

structure Slot where
  info : Info
  count : Nat
  control : Nat
  pauseControl : Nat
  audioSourceGeneration : Nat

/-- `rf_audio_slot_t`. Ghost: the source generation of the RF block it comes from. -/
structure AudioSlot where
  generation : Nat
  source : Nat
deriving DecidableEq

structure Requests where
  profile : Profile
  flush : Bool
  producerGap : Bool

/-- The controls and the queue. The counters have 64 bits and do not wrap. Ghost: the slots
submitted. -/
structure Input where
  control : Nat
  pauseControl : Nat
  readIndex : Nat
  writeIndex : Nat
  slots : Nat → Slot
  accepted : List Slot

/-- Ghost: a call of `rf_audio_cut_input`, with the generations it starts. -/
structure Cut where
  source : Nat
  generation : Nat

inductive Event where
  | flush (generation : Nat)
  | reset
  | process (slot : AudioSlot)
  | pcm (slot : AudioSlot)
deriving DecidableEq

structure Sound where
  ready : Bool
  enabled : Bool
  callbackInstalled : Bool
  generation : Nat
  sourceGeneration : Nat
  readIndex : Nat
  writeIndex : Nat
  slots : Nat → AudioSlot
  cuts : List Cut
  events : List Event

/-- Ghost: a frame that `gui_rf_preview_worker_take_frame` returned, with the value of `control`
then, and the blocks it was decoded from. -/
structure Taken where
  control : Nat
  blocks : List Slot

/-- The frame under its lock. Ghost: the blocks it was decoded from, the frames taken. -/
structure Frames where
  valid : Bool
  control : Nat
  generation : Nat
  blocks : List Slot
  taken : List Taken

structure Applied where
  control : Nat
  pauseControl : Nat

/-- The stream of the video worker. Ghost: the blocks resampled since the decoder's last reset,
and how many blocks were submitted up to the last of them. -/
structure Stream where
  profile : Profile
  sourceEpoch : Nat
  expectedSourceSample : Nat
  sourceRate : Nat
  streamValid : Bool
  resampler : Bool
  run : List Slot
  fed : Nat

inductive Check where
  | ready
  | installed
  | enabled
  | hifi
  | playing
  | unflushed
  | generation (value : Nat)
  | source (value : Nat)
  | control (value : Nat)
  | pauseControl (value : Nat)
deriving DecidableEq

def Check.passes (requests : Requests) (input : Input) (sound : Sound) : Check → Bool
  | .ready => sound.ready
  | .installed => sound.callbackInstalled
  | .enabled => sound.enabled
  | .hifi => requests.profile.hasHifi
  | .playing => input.pauseControl % 2 = 0
  | .unflushed => !requests.flush
  | .generation value => value = sound.generation
  | .source value => value = sound.sourceGeneration
  | .control value => input.control = value
  | .pauseControl value => input.pauseControl = value

def audioCurrent (generation : Nat) : List Check :=
  [.enabled, .hifi, .playing, .generation generation]

inductive After where
  | control
  | pause
  | flush
  | boundary
  | failed
deriving DecidableEq

inductive VideoPc where
  | loadControl
  | loadProfile
  | startAudio (wasEdBeta : Bool)
  | invalidate (after : After)
  | clear (after : After)
  | storeControl
  | loadPause
  | scanPaused (applying : Bool)
  | storePaused (target : Nat) (applying : Bool)
  | storeFlush
  | storePause
  | exchangeFlush
  | loadQueued
  | storeQueued (target : Nat)
  | loadWrite
  | look
  | budget
  | recheckPause
  | recheckControl
  | abandon
  | boundary
  | loadGeneration
  | loadEnabled
  | resample
  | enqueue (checks : List Check)
  | loadAudioRead
  | dropAudio
  | writeAudio
  | storeAudioWrite
  | decode
  | callback (checks : List Check)
  | storeFrame
  | release

/-- The video worker: its place and what it holds in this pass of its loop. -/
structure Video where
  pc : VideoPc
  control : Nat
  pauseControl : Nat
  generation : Nat
  narrow : Bool
  blocks : Nat

inductive AudioPc where
  | loadGeneration
  | flush
  | storeApplied
  | loadWrite
  | look
  | refresh
  | current (checks : List Check)
  | age
  | invalidate
  | budget
  | recheck (checks : List Check)
  | process
  | decode
  | callback (checks : List Check)
  | release

structure Audio where
  pc : AudioPc
  generation : Nat
  applied : Nat
  needsReset : Bool

inductive Rest where
  | nothing
  | control

inductive UiPc where
  | idle
  | storeGap
  | cutSource (rest : Rest)
  | cutGeneration (source : Nat) (rest : Rest)
  | storeControl

/-- A call of `gui_rf_preview_worker_submit` and what it has loaded. -/
structure Submission where
  info : Info
  count : Nat
  pauseControl : Nat
  source : Nat

inductive ProducerPc where
  | idle
  | loadPause (block : Submission)
  | enter (block : Submission)
  | loadRead (block : Submission)
  | loadFlush (block : Submission)
  | exchangeGap (block : Submission)
  | cutSource (block : Submission)
  | cutGeneration (source : Nat) (block : Submission)
  | loadSource (block : Submission)
  | record (block : Submission)
  | publish (slot : Slot)
  | reject (flush : Bool)
  | rejectSource
  | rejectGeneration (source : Nat)
  | rejectFlush

structure Producer where
  pc : ProducerPc
  audioSeen : Bool
  audioEpoch : Nat
  audioRate : Nat
  audioNext : Nat

structure State where
  requests : Requests
  input : Input
  sound : Sound
  frames : Frames
  applied : Applied
  stream : Stream
  video : Video
  audio : Audio
  ui : UiPc
  producer : Producer

def initial (profile : Profile) (slots : Nat → Slot) (audioReady : Bool) : State where
  requests := ⟨profile, false, false⟩
  input := ⟨1, 0, 0, 0, slots, []⟩
  sound := ⟨audioReady, true, false, 1, 1, 0, 0, fun _ => ⟨0, 0⟩, [], []⟩
  frames := ⟨false, 0, 0, [], []⟩
  applied := ⟨1, 0⟩
  stream := ⟨profile, 0, 0, 0, false, false, [], 0⟩
  video := ⟨.loadControl, 0, 0, 0, false, 0⟩
  audio := ⟨.loadGeneration, 0, 1, false⟩
  ui := .idle
  producer := ⟨.idle, false, 0, 0, 0⟩

/-- The first step of `rf_audio_cut_input`. -/
def Sound.cutSource (sound : Sound) : Sound :=
  { sound with sourceGeneration := sound.sourceGeneration + 1 }

def Sound.invalidate (sound : Sound) : Sound := { sound with generation := sound.generation + 1 }

/-- The second step of `rf_audio_cut_input`. -/
def Sound.cutGeneration (sound : Sound) (source : Nat) : Sound :=
  { sound.invalidate with cuts := sound.cuts ++ [⟨source, sound.generation + 1⟩] }

inductive Call where
  | setAudioCallback
  | setAudioEnabled (enabled : Bool)
  | setProfile (profile : Profile)
  | reset
  | setPaused (paused : Bool)
  | takeFrame (generation : Nat) (fits : Bool)

/-- `gui_rf_preview_worker_take_frame`, in its lock. -/
def takeFrame (s : State) (generation : Nat) (fits : Bool) : State :=
  if s.frames.valid && s.frames.control = s.input.control && s.frames.generation ≠ generation &&
      fits && !s.requests.flush then
    { s with frames := { s.frames with
      taken := s.frames.taken ++ [⟨s.input.control, s.frames.blocks⟩] } }
  else s

def uiCall (s : State) : Call → Option State
  | .setAudioCallback => some { s with sound := { s.sound with callbackInstalled := true } }
  | .setAudioEnabled enabled =>
    if s.sound.enabled = enabled then some s
    else some { s with sound := { s.sound with enabled }, ui := .cutSource .nothing }
  | .setProfile profile =>
    if s.requests.profile = profile then some s
    else some { s with
      requests := { s.requests with profile }
      ui := .cutSource .control }
  | .reset =>
    some { s with
      sound := s.sound.cutSource
      ui := .cutGeneration s.sound.cutSource.sourceGeneration .control }
  | .setPaused paused =>
    if decide (s.input.pauseControl % 2 = 1) = paused then some s
    else some { s with
      input := { s.input with
        pauseControl := s.input.pauseControl / 2 * 2 + 2 + (if paused then 1 else 0) }
      ui := .storeGap }
  | .takeFrame generation fits => some (takeFrame s generation fits)

def uiStep (s : State) : Option State :=
  match s.ui with
  | .idle => none
  | .storeGap =>
    some { s with requests := { s.requests with producerGap := true }, ui := .cutSource .nothing }
  | .cutSource rest =>
    some { s with
      sound := s.sound.cutSource
      ui := .cutGeneration s.sound.cutSource.sourceGeneration rest }
  | .cutGeneration source rest =>
    some { s with
      sound := s.sound.cutGeneration source
      ui := match rest with
        | .nothing => .idle
        | .control => .storeControl }
  | .storeControl =>
    some { s with input := { s.input with control := s.input.control + 1 }, ui := .idle }

def Producer.goto (p : Producer) (pc : ProducerPc) : Producer := { p with pc }

def Submission.valid (block : Submission) : Bool :=
  0 < block.count && block.count ≤ blockSamples && block.info.startSample + block.count < 2 ^ 64

def Producer.audioBoundary (p : Producer) (info : Info) : Bool :=
  info.discontinuity || (p.audioSeen && (info.epoch ≠ p.audioEpoch ||
    info.sampleRateHz ≠ p.audioRate || info.startSample ≠ p.audioNext))

def Producer.remember (info : Info) (count : Nat) (pc : ProducerPc) : Producer where
  pc
  audioSeen := true
  audioEpoch := info.epoch
  audioRate := info.sampleRateHz
  audioNext := info.startSample + count

/-- The next atomic access of a submission. `late` says that the queue lasts too long. -/
def producerStep (s : State) (late : Bool) : Option State :=
  match s.producer.pc with
  | .idle => none
  | .loadPause block =>
    if s.input.pauseControl % 2 = 1 then some { s with producer := s.producer.goto .idle }
    else if !block.valid then some { s with producer := s.producer.goto (.reject false) }
    else some { s with
      producer := s.producer.goto (.enter { block with pauseControl := s.input.pauseControl }) }
  | .enter block =>
    if s.input.pauseControl ≠ block.pauseControl then
      some { s with producer := s.producer.goto .idle }
    else some { s with producer := s.producer.goto (.loadRead block) }
  | .loadRead block =>
    if queueSlots ≤ s.input.writeIndex - s.input.readIndex ∨ late then
      some { s with producer := s.producer.goto (.reject true) }
    else some { s with producer := s.producer.goto (.loadFlush block) }
  | .loadFlush block =>
    some { s with producer := s.producer.goto (if s.requests.flush then .reject true
      else .exchangeGap block) }
  | .exchangeGap block =>
    let info := { block.info with
      discontinuity := block.info.discontinuity || s.requests.producerGap }
    some { s with
      requests := { s.requests with producerGap := false }
      producer := s.producer.goto (
        if s.producer.audioBoundary info then .cutSource { block with info }
        else .loadSource { block with info }) }
  | .cutSource block =>
    some { s with
      sound := s.sound.cutSource
      producer := s.producer.goto (.cutGeneration s.sound.cutSource.sourceGeneration block) }
  | .cutGeneration source block =>
    some { s with
      sound := s.sound.cutGeneration source
      producer := s.producer.goto (.loadSource block) }
  | .loadSource block =>
    some { s with
      producer := .remember block.info block.count
        (.record { block with source := s.sound.sourceGeneration }) }
  | .record block =>
    let slot : Slot :=
      ⟨block.info, block.count, s.input.control, block.pauseControl, block.source⟩
    some { s with
      input := { s.input with
        slots := Function.update s.input.slots (s.input.writeIndex % queueSlots) slot }
      producer := s.producer.goto (.publish slot) }
  | .publish slot =>
    some { s with
      input := { s.input with
        writeIndex := s.input.writeIndex + 1
        accepted := s.input.accepted ++ [slot] }
      producer := s.producer.goto .idle }
  | .reject flush =>
    some { s with
      requests := { s.requests with producerGap := true }
      producer := s.producer.goto (if flush then .rejectSource else .idle) }
  | .rejectSource =>
    some { s with
      sound := s.sound.cutSource
      producer := s.producer.goto (.rejectGeneration s.sound.cutSource.sourceGeneration) }
  | .rejectGeneration source =>
    some { s with sound := s.sound.cutGeneration source, producer := s.producer.goto .rejectFlush }
  | .rejectFlush =>
    some { s with requests := { s.requests with flush := true }, producer := s.producer.goto .idle }

/-- What the outside decides for a step: that a slot is too old, that the budget permits, that
the audio worker starts, that the resamplers can be made, that they succeed, how many audio
blocks their output makes, that the decoder calls back. -/
structure Choice where
  old : Bool
  permit : Bool
  started : Bool
  created : Bool
  resampled : Bool
  blocks : Nat
  calls : Bool

def Video.goto (v : Video) (pc : VideoPc) : Video := { v with pc }

def Stream.configureRate (stream : Stream) (rate : Nat) (created : Bool) : Stream :=
  { stream with
    sourceRate := rate
    resampler := created && minRate ≤ rate && rate ≤ maxRate &&
      (!stream.profile.edBeta || edBetaRateHz ≤ rate) }

/-- What `rf_reset_decoder_preserve` does by itself. -/
def Stream.reset (stream : Stream) : Stream := { stream with streamValid := false, run := [] }

def Input.slot (input : Input) : Slot := input.slots (input.readIndex % queueSlots)

def Stream.boundary (stream : Stream) (slot : Slot) : Bool :=
  !stream.streamValid || slot.info.discontinuity || slot.info.epoch ≠ stream.sourceEpoch ||
    slot.info.sampleRateHz ≠ stream.sourceRate ||
    slot.info.startSample ≠ stream.expectedSourceSample

/-- The block begins, and goes to the resamplers if there are any. -/
def Stream.advance (stream : Stream) (slot : Slot) (read : Nat) : Stream :=
  let stream := { stream with expectedSourceSample := slot.info.startSample + slot.count }
  if stream.resampler then { stream with run := stream.run ++ [slot], fed := read + 1 } else stream

def Stream.next (stream : Stream) : VideoPc :=
  if stream.resampler then .loadGeneration else .release

/-- The loop of `rf_release_pause_queue`, over so many slots. -/
def scanPaused (input : Input) (pauseControl : Nat) : Nat → Nat → Nat
  | 0, read => read
  | left + 1, read =>
    if pauseControl % 2 = 0 ∧ (input.slots (read % queueSlots)).pauseControl = pauseControl then
      read
    else scanPaused input pauseControl left (read + 1)

/-- The audio blocks of an output are written from the write index on. -/
def Sound.writeBlocks (sound : Sound) (slot : AudioSlot) (blocks : Nat) : Sound :=
  { sound with
    slots := (List.range blocks).foldl (fun slots i =>
      Function.update slots ((sound.writeIndex + i) % audioQueueSlots) slot) sound.slots }

/-- The loads of `rf_audio_enqueue`. -/
def enqueueChecks (video : Video) (slot : Slot) : List Check :=
  .ready :: .enabled :: audioCurrent video.generation ++
    [.source slot.audioSourceGeneration, .control video.control, .pauseControl video.pauseControl]

/-- The loads of `rf_frame_callback`. -/
def frameChecks (applied : Applied) : List Check :=
  [.control applied.control, .pauseControl applied.pauseControl, .playing, .unflushed]

def afterReset (s : State) : After → State
  | .control => { s with video := s.video.goto .storeControl }
  | .pause => { s with video := s.video.goto (.scanPaused true) }
  | .flush => { s with video := s.video.goto .loadQueued }
  | .boundary =>
    let stream := { s.stream with sourceEpoch := s.input.slot.info.epoch, streamValid := true }
    { s with
      stream := stream.advance s.input.slot s.input.readIndex
      video := s.video.goto stream.next }
  | .failed => { s with video := s.video.goto .release }

def videoStep (s : State) (choice : Choice) : State :=
  match s.video.pc with
  | .loadControl =>
    { s with video := { s.video with
      control := s.input.control
      pc := if s.input.control ≠ s.applied.control then .loadProfile else .loadPause } }
  | .loadProfile =>
    { s with
      stream := { s.stream with profile := s.requests.profile }
      video := s.video.goto (.startAudio s.stream.profile.edBeta) }
  | .startAudio wasEdBeta =>
    let stream := if s.stream.sourceRate ≠ 0 ∧ wasEdBeta ≠ s.stream.profile.edBeta then
      s.stream.configureRate s.stream.sourceRate choice.created else s.stream
    { s with
      sound := { s.sound with
        ready := s.sound.ready || (s.stream.profile.hasHifi && choice.started) }
      stream := stream.reset
      video := s.video.goto (.invalidate .control) }
  | .invalidate after =>
    { s with sound := s.sound.invalidate, video := s.video.goto (.clear after) }
  | .clear after =>
    afterReset { s with frames := { s.frames with
      valid := s.frames.valid && after = .pause } } after
  | .storeControl =>
    { s with
      applied := { s.applied with control := s.video.control }
      video := s.video.goto .loadPause }
  | .loadPause =>
    if s.input.pauseControl ≠ s.applied.pauseControl then
      { s with
        stream := s.stream.reset
        video := { s.video with
          pauseControl := s.input.pauseControl
          pc := .invalidate .pause } }
    else
      { s with video := { s.video with
        pauseControl := s.input.pauseControl
        pc := if s.input.pauseControl % 2 = 1 then .scanPaused false else .exchangeFlush } }
  | .scanPaused applying =>
    { s with video := s.video.goto (.storePaused (scanPaused s.input s.video.pauseControl
      (s.input.writeIndex - s.input.readIndex) s.input.readIndex) applying) }
  | .storePaused target applying =>
    { s with
      input := { s.input with readIndex := target }
      video := s.video.goto (if applying then .storeFlush else .loadControl) }
  | .storeFlush =>
    { s with requests := { s.requests with flush := false }, video := s.video.goto .storePause }
  | .storePause =>
    { s with
      applied := { s.applied with pauseControl := s.video.pauseControl }
      video := s.video.goto .loadControl }
  | .exchangeFlush =>
    if s.requests.flush then
      { s with
        requests := { s.requests with flush := false }
        stream := s.stream.reset
        video := s.video.goto (.invalidate .flush) }
    else { s with video := s.video.goto .loadWrite }
  | .loadQueued => { s with video := s.video.goto (.storeQueued s.input.writeIndex) }
  | .storeQueued target =>
    { s with input := { s.input with readIndex := target }, video := s.video.goto .loadControl }
  | .loadWrite =>
    { s with
      video := s.video.goto (if s.input.readIndex = s.input.writeIndex then
        .loadControl else .look) }
  | .look =>
    if choice.old then
      { s with stream := s.stream.reset, video := s.video.goto (.invalidate .flush) }
    else if s.input.slot.control ≠ s.applied.control then { s with video := s.video.goto .release }
    else if s.input.slot.pauseControl ≠ s.video.pauseControl then
      { s with video := s.video.goto .release }
    else { s with video := s.video.goto .budget }
  | .budget =>
    { s with video := s.video.goto (if choice.permit then .recheckPause else .loadControl) }
  | .recheckPause =>
    { s with
      video := s.video.goto (if s.input.pauseControl = s.video.pauseControl then .recheckControl
      else .abandon) }
  | .recheckControl =>
    { s with
      video := s.video.goto (if s.input.control = s.video.control ∧ !choice.old then .boundary
      else .abandon) }
  | .abandon =>
    if choice.old then
      { s with stream := s.stream.reset, video := s.video.goto (.invalidate .flush) }
    else { s with video := s.video.goto .loadControl }
  | .boundary =>
    if s.stream.boundary s.input.slot then
      let stream := if s.input.slot.info.sampleRateHz ≠ s.stream.sourceRate then
        s.stream.configureRate s.input.slot.info.sampleRateHz choice.created else s.stream
      { s with stream := stream.reset, video := s.video.goto (.invalidate .boundary) }
    else
      { s with
        stream := s.stream.advance s.input.slot s.input.readIndex
        video := s.video.goto s.stream.next }
  | .loadGeneration =>
    { s with video := { s.video with
      generation := s.sound.generation
      pc := if s.stream.profile.edBeta then .loadEnabled else .resample
      narrow := true } }
  | .loadEnabled =>
    { s with video := { s.video with narrow := s.sound.enabled, pc := .resample } }
  | .resample =>
    if !choice.resampled then
      { s with stream := s.stream.reset, video := s.video.goto (.invalidate .failed) }
    else if s.video.narrow && choice.blocks ≠ 0 && s.stream.profile.hasHifi then
      { s with video := { s.video with
        blocks := choice.blocks
        pc := .enqueue (enqueueChecks s.video s.input.slot) } }
    else { s with video := s.video.goto .decode }
  | .enqueue [] => { s with video := s.video.goto .loadAudioRead }
  | .enqueue (check :: rest) =>
    { s with
      video := s.video.goto (if check.passes s.requests s.input s.sound then
        .enqueue rest else .decode) }
  | .loadAudioRead =>
    { s with video := s.video.goto (if audioQueueSlots - (s.sound.writeIndex - s.sound.readIndex) <
      s.video.blocks then .dropAudio else .writeAudio) }
  | .dropAudio => { s with sound := s.sound.invalidate, video := s.video.goto .decode }
  | .writeAudio =>
    { s with
      sound := s.sound.writeBlocks ⟨s.video.generation, s.input.slot.audioSourceGeneration⟩
        s.video.blocks
      video := s.video.goto .storeAudioWrite }
  | .storeAudioWrite =>
    { s with
      sound := { s.sound with writeIndex := s.sound.writeIndex + s.video.blocks }
      video := s.video.goto .decode }
  | .decode =>
    { s with
      video := s.video.goto (if choice.calls then .callback (frameChecks s.applied) else .release) }
  | .callback [] => { s with video := s.video.goto .storeFrame }
  | .callback (check :: rest) =>
    { s with
      video := s.video.goto (if check.passes s.requests s.input s.sound then
        .callback rest else .decode) }
  | .storeFrame =>
    { s with
      frames := { s.frames with
        valid := true
        control := s.applied.control
        generation := s.frames.generation + 1
        blocks := s.stream.run }
      video := s.video.goto .decode }
  | .release =>
    { s with
      input := { s.input with readIndex := s.input.readIndex + 1 }
      video := s.video.goto .loadControl }

def Audio.goto (a : Audio) (pc : AudioPc) : Audio := { a with pc }

def Sound.slot (sound : Sound) : AudioSlot := sound.slots (sound.readIndex % audioQueueSlots)

def Sound.record (sound : Sound) (events : List Event) : Sound :=
  { sound with events := sound.events ++ events }

def audioStep (s : State) (choice : Choice) : State :=
  match s.audio.pc with
  | .loadGeneration =>
    { s with audio := { s.audio with
      generation := s.sound.generation
      pc := if s.sound.generation ≠ s.audio.applied then .flush else .loadWrite } }
  | .flush =>
    { s with
      sound := s.sound.record
        (if s.sound.callbackInstalled then [.flush s.audio.generation] else [])
      audio := { s.audio with needsReset := true, pc := .storeApplied } }
  | .storeApplied =>
    { s with audio := { s.audio with applied := s.audio.generation, pc := .loadWrite } }
  | .loadWrite =>
    { s with audio := s.audio.goto (if s.sound.readIndex = s.sound.writeIndex then .loadGeneration
      else .look) }
  | .look =>
    { s with audio := s.audio.goto (if s.sound.slot.generation ≠ s.audio.generation then .refresh
      else .current (audioCurrent s.audio.generation)) }
  | .refresh =>
    { s with
      audio := s.audio.goto (if s.sound.slot.generation = s.sound.generation then .loadGeneration
      else .release) }
  | .current [] => { s with audio := s.audio.goto .age }
  | .current (check :: rest) =>
    { s with
      audio := s.audio.goto (if check.passes s.requests s.input s.sound then
        .current rest else .release) }
  | .age => { s with audio := s.audio.goto (if choice.old then .invalidate else .budget) }
  | .invalidate => { s with sound := s.sound.invalidate, audio := s.audio.goto .release }
  | .budget =>
    { s with audio := s.audio.goto (if choice.permit then .recheck (audioCurrent s.audio.generation)
      else .loadGeneration) }
  | .recheck [] => { s with audio := s.audio.goto (if choice.old then .release else .process) }
  | .recheck (check :: rest) =>
    { s with
      audio := s.audio.goto (if check.passes s.requests s.input s.sound then
        .recheck rest else .release) }
  | .process =>
    { s with
      sound := s.sound.record
        ((if s.audio.needsReset then [.reset] else []) ++ [.process s.sound.slot])
      audio := { s.audio with needsReset := false, pc := .decode } }
  | .decode =>
    { s with audio := s.audio.goto (if choice.calls then
      .callback (audioCurrent s.audio.generation ++ .installed :: audioCurrent s.audio.generation)
      else .release) }
  | .callback [] =>
    { s with sound := s.sound.record [.pcm s.sound.slot], audio := s.audio.goto .decode }
  | .callback (check :: rest) =>
    { s with
      audio := s.audio.goto (if check.passes s.requests s.input s.sound then
        .callback rest else .decode) }
  | .release =>
    { s with
      sound := { s.sound with readIndex := s.sound.readIndex + 1 }
      audio := s.audio.goto .loadGeneration }

inductive Action where
  | call (call : Call)
  | ui
  | submit (info : Info) (count : Nat)
  | producer (late : Bool)
  | video (choice : Choice)
  | audio (choice : Choice)

def step (s : State) : Action → Option State
  | .call call =>
    match s.ui with
    | .idle => uiCall s call
    | _ => none
  | .ui => uiStep s
  | .submit info count =>
    match s.producer.pc with
    | .idle => some { s with
      producer := { s.producer with pc := .loadPause ⟨info, count, 0, 0⟩ } }
    | _ => none
  | .producer late => producerStep s late
  | .video choice => some (videoStep s choice)
  | .audio choice => if s.sound.ready then some (audioStep s choice) else none

end MisrcGui.RfPreview.Worker
