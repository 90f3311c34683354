import Mathlib.Data.UInt

/-! What a playback channel reads, `gui_playback.c`: the libFLAC decoder with its write callback
and the reader of raw files, as far as they decide which samples reach the decode buffer. The
conversion of a sample to the display container is left out. -/
namespace MisrcGui.Playback

variable {Sample : Type}

def rawBufferSamples : Nat := 65536

/-- `PLAYBACK_BUFFER_SIZE * 8`. -/
def decodeBufSize : Nat := 65536 * 8

def ldsGroupSamples : Nat := 4

/-- The samples in the decode buffer of a channel, up to `decode_available`, and `decode_pos`. -/
structure DecodeBuffer (Sample : Type) where
  stored : List Sample
  pos : Nat

def emptyBuffer : DecodeBuffer Sample := ⟨[], 0⟩

def DecodeBuffer.pending (buffer : DecodeBuffer Sample) : List Sample :=
  buffer.stored.drop buffer.pos

def DecodeBuffer.left (buffer : DecodeBuffer Sample) : Nat := buffer.stored.length - buffer.pos

/-- `decoder_write_cb_a`, and `decoder_write_cb_b`; a frame that does not fit aborts. -/
def DecodeBuffer.writeCallback (buffer : DecodeBuffer Sample) (frame : List Sample) :
    Option (DecodeBuffer Sample) :=
  if buffer.stored.length + frame.length > decodeBufSize then none
  else some { buffer with stored := buffer.stored ++ frame }

inductive DecoderState where
  | searchForFrameSync
  | endOfStream
  | aborted
deriving DecidableEq

structure Decoder (Sample : Type) where
  state : DecoderState
  rest : List (List Sample)

/-- `FLAC__stream_decoder_process_single`. At the end of the stream, and behind an abort, it
succeeds without a frame. -/
def processSingle (decoder : Decoder Sample) (buffer : DecodeBuffer Sample) :
    Decoder Sample × DecodeBuffer Sample × Bool :=
  match decoder.state, decoder.rest with
  | .searchForFrameSync, [] => ({ decoder with state := .endOfStream }, buffer, true)
  | .searchForFrameSync, frame :: rest =>
    match buffer.writeCallback frame with
    | some buffer => ({ decoder with rest }, buffer, true)
    | none => ({ decoder with state := .aborted }, buffer, false)
  | _, _ => (decoder, buffer, true)

/-- The frames that the refill loop takes from a decoder in search of a frame. -/
def decodeFrames : List (List Sample) → DecodeBuffer Sample →
    Decoder Sample × DecodeBuffer Sample
  | [], buffer =>
    if buffer.left < rawBufferSamples then (⟨.endOfStream, []⟩, buffer)
    else (⟨.searchForFrameSync, []⟩, buffer)
  | frame :: rest, buffer =>
    if buffer.left < rawBufferSamples then
      match buffer.writeCallback frame with
      | some buffer => decodeFrames rest buffer
      | none => (⟨.aborted, frame :: rest⟩, buffer)
    else (⟨.searchForFrameSync, frame :: rest⟩, buffer)

/-- The refill loop of a FLAC channel. With an aborted decoder it does not end. -/
def refillDecoder (decoder : Decoder Sample) (buffer : DecodeBuffer Sample) :
    Option (Decoder Sample × DecodeBuffer Sample) :=
  if buffer.left < rawBufferSamples then
    match decoder.state with
    | .searchForFrameSync => some (decodeFrames decoder.rest buffer)
    | .endOfStream => some (decoder, buffer)
    | .aborted => none
  else some (decoder, buffer)

/-- The part of a stream from a sample on: the rest of its frame and the frames behind. -/
def sliceAt : List (List Sample) → Nat → Option (List Sample × List (List Sample))
  | [], _ => none
  | frame :: rest, target =>
    if target < frame.length then some (frame.drop target, rest)
    else sliceAt rest (target - frame.length)

/-- What a seek of libFLAC does: it delivers the slice of the stream from the target on, or it
leaves the decoder anywhere and does not look like a success. -/
inductive SeekAnswer (Sample : Type) where
  | exact
  | missed (answer : Bool) (decoder : Decoder Sample) (delivered : List Sample)
    (misses : ¬(answer = true ∧ decoder.state = .searchForFrameSync ∧ delivered ≠ []))

def seekAttempt (frames : List (List Sample)) (decoder : Decoder Sample) (target : Nat) :
    SeekAnswer Sample → Decoder Sample × DecodeBuffer Sample × Bool
  | .exact =>
    match sliceAt frames target with
    | none => (decoder, emptyBuffer, false)
    | some (slice, rest) =>
      match emptyBuffer.writeCallback slice with
      | none => (⟨.aborted, rest⟩, emptyBuffer, false)
      | some buffer => (⟨.searchForFrameSync, rest⟩, buffer, !slice.isEmpty)
  | .missed answer decoder delivered _ =>
    (decoder, ⟨delivered, 0⟩,
      answer && decide (decoder.state = .searchForFrameSync) && !delivered.isEmpty)

/-- How the calls of a decoder seek end: the seeks to the target and back, whether the decode
position is at the end of the file, and the flush. -/
structure SeekCalls (Sample : Type) where
  target : SeekAnswer Sample
  atFileEnd : Bool
  flush : Bool
  back : SeekAnswer Sample

/-- A decoder with its buffer, and `seek_recovery_failed`. -/
structure Flac (Sample : Type) where
  decoder : Decoder Sample
  buffer : DecodeBuffer Sample
  recoveryFailed : Bool

def recover (frames : List (List Sample)) (decoder : Decoder Sample) (previous : Nat)
    (previousEof : Bool) (calls : SeekCalls Sample) : Flac Sample :=
  if calls.flush then
    let back := if previousEof && decide (previous ≠ 0) then previous - 1 else previous
    let (decoder, buffer, restored) := seekAttempt frames decoder back calls.back
    if restored then
      if previousEof then
        -- the last sample alone, and then the end of the stream
        let last := decide (previous > 0) && decide (buffer.stored.length = 1)
        let (ended, buffer, processed) :=
          if last then processSingle decoder emptyBuffer else (decoder, emptyBuffer, false)
        if processed && decide (ended.state = .endOfStream) then ⟨ended, buffer, false⟩
        else ⟨ended, emptyBuffer, true⟩
      else ⟨decoder, buffer, false⟩
    else ⟨decoder, emptyBuffer, true⟩
  else ⟨decoder, emptyBuffer, true⟩

/-- `gui_playback_seek_decoder`; `previous` is the current sample. -/
def seekDecoder (frames : List (List Sample)) (flac : Flac Sample) (previous target : Nat)
    (calls : SeekCalls Sample) : Flac Sample × Bool :=
  let previousEof := decide (flac.buffer.left = 0) &&
    (decide (flac.decoder.state = .endOfStream) || calls.atFileEnd)
  let (decoder, buffer, found) := seekAttempt frames flac.decoder target calls.target
  if found then (⟨decoder, buffer, false⟩, true)
  else (recover frames decoder previous previousEof calls, false)

/-- `playback_raw_reader_t`; `next` is the sample at the position of the file. -/
structure RawReader (Sample : Type) where
  lds : Bool
  next : Nat
  cursor : Nat
  skip : Nat
  carry : List Sample

def rawOpen (lds : Bool) : RawReader Sample := ⟨lds, 0, 0, 0, []⟩

structure Unpacked (Sample : Type) where
  out : List Sample
  groups : Nat
  skip : Nat
  carry : List Sample

/-- The groups that a read of packed samples takes; leading mates are skipped, and those behind
the last sample that is wanted are carried. -/
def readGroups : List Sample → Nat → Nat → Unpacked Sample
  | a :: b :: c :: d :: rest, skip, want =>
    if want = 0 then ⟨[], 0, skip, []⟩
    else
      let mates := [a, b, c, d].drop skip
      let later := readGroups rest (skip - ldsGroupSamples) (want - mates.length)
      if mates.length < want then
        { later with out := mates ++ later.out, groups := later.groups + 1 }
      else ⟨mates.take want, 1, skip - ldsGroupSamples, mates.drop want⟩
  | _, skip, _ => ⟨[], 0, skip, []⟩

/-- `gui_playback_raw_read`: up to `want` samples. -/
def rawRead (samples : List Sample) (reader : RawReader Sample) (want : Nat) :
    List Sample × RawReader Sample :=
  if want = 0 ∨ reader.cursor ≥ samples.length then ([], reader)
  else
    let chunk := min want (samples.length - reader.cursor)
    if reader.lds then
      let carried := reader.carry.take chunk
      let unpacked := readGroups (samples.drop reader.next) reader.skip (chunk - carried.length)
      let out := carried ++ unpacked.out
      (out,
        { reader with
          next := reader.next + unpacked.groups * ldsGroupSamples
          cursor := reader.cursor + out.length
          skip := unpacked.skip
          carry := reader.carry.drop chunk ++ unpacked.carry })
    else
      let out := (samples.drop reader.next).take chunk
      (out,
        { reader with next := reader.next + out.length, cursor := reader.cursor + out.length })

/-- `gui_playback_raw_seek`; `fseek` tells whether the seek of the file succeeds. -/
def rawSeek (samples : List Sample) (reader : RawReader Sample) (sample : Nat) (fseek : Bool) :
    RawReader Sample × Bool :=
  if samples = [] then (reader, false)
  else
    let sample := if sample ≥ samples.length then samples.length - 1 else sample
    let reader := { reader with skip := if reader.lds then sample % ldsGroupSamples else 0 }
    if fseek then
      ({ reader with next := sample - reader.skip, cursor := sample, carry := [] }, true)
    else (reader, false)

def rawEof (samples : List Sample) (reader : RawReader Sample) : Bool :=
  decide (reader.cursor ≥ samples.length)

/-- The refill loop of a raw channel. A read gives all that is wanted, up to the end, so that the
next one finds no space or no sample. -/
def refillReader (samples : List Sample) (reader : RawReader Sample)
    (buffer : DecodeBuffer Sample) : RawReader Sample × DecodeBuffer Sample :=
  if buffer.left < rawBufferSamples then
    let space := decodeBufSize - buffer.stored.length
    let (out, reader) := rawRead samples reader space
    (reader, { buffer with stored := buffer.stored ++ out })
  else (reader, buffer)

end MisrcGui.Playback
