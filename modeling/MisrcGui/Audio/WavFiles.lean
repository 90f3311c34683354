import MisrcGui.Audio.Conversion

/-! `audio_thread_main` over any number of recordings: the files with their headers, the
conversions and what allocates their buffers. -/
namespace MisrcGui.Audio.WavFiles
open Library
open Library.Window (window)
open Library.Terminated (Checked)
open Library.CheckedMemory
open Conversion
open WavRecording (Output Settings enabled readSize chunkBytes frameBytes Place)

/-! The header of `wave.h`. -/

structure WaveHeader where
  riff : Nat
  riffSize : Nat
  wave : Nat
  ds64junk : Nat
  ds64junkSize : Nat
  riff64Size : Nat
  data64Size : Nat
  sampleCount : Nat
  extraTableSize : Nat
  fmt : Nat
  fmtSize : Nat
  formatType : Nat
  channelCount : Nat
  sampleRate : Nat
  bytesPerSecond : Nat
  blockAlign : Nat
  bitsPerSample : Nat
  cbSize : Nat
  data : Nat
  dataSize : Nat
deriving DecidableEq

def waveRiff : Nat := 0x46464952

def waveRf64 : Nat := 0x34364652

def waveJunk : Nat := 0x4B4E554A

def waveDs64 : Nat := 0x34367364

def headerBytes : Nat := 82

def createWaveHeader (samples sampleRate channels bits : Nat) : WaveHeader :=
  let dataBytes := bits / 8 * channels * samples % 2 ^ 64
  let long := 2147483647 - headerBytes < dataBytes
  { riff := if long then waveRf64 else waveRiff
    riffSize := if long then 0xffffffff else (dataBytes + headerBytes - 8) % 2 ^ 32
    wave := 0x45564157
    ds64junk := if long then waveDs64 else waveJunk
    ds64junkSize := 28
    riff64Size := (dataBytes + headerBytes - 8) % 2 ^ 64
    data64Size := dataBytes
    sampleCount := samples
    extraTableSize := 0
    fmt := 0x20746D66
    fmtSize := 18
    formatType := 1
    channelCount := channels
    sampleRate := sampleRate
    bytesPerSecond := bits / 8 * channels * sampleRate % 2 ^ 32
    blockAlign := bits / 8 * channels % 2 ^ 16
    bitsPerSample := bits
    cbSize := 0
    data := 0x61746164
    dataSize := if long then 0xffffffff else dataBytes % 2 ^ 32 }

/-- `memset` with zeros, which holds the place of the header. -/
def placeholder : WaveHeader := ⟨0, 0, 0, 0, 0, 0, 0, 0, 0, 0, 0, 0, 0, 0, 0, 0, 0, 0, 0, 0⟩

/-- The size of the data for a reader: an RF64 file has it in its 64-bit field. -/
def WaveHeader.dataBytes (h : WaveHeader) : Nat :=
  if h.riff = waveRf64 then h.data64Size else h.dataSize

def channelCount : Output → Nat
  | .four => 4
  | .two _ => 2
  | .one _ => 1

def inTwo : Output → Bool
  | .two _ => true
  | _ => false

def inOne : Output → Bool
  | .one _ => true
  | _ => false

/-- An open file after its header, with the number of its recording. -/
structure File where
  output : Output
  recording : Nat
  pcm : List UInt8
deriving DecidableEq

/-- A file as it was closed; `dropped` when its conversion has found no buffer. -/
structure Closed where
  file : File
  header : WaveHeader
  dropped : Bool
deriving DecidableEq

/-- `written` and `taken` count the bytes put into the ring and taken out of it. Of the record,
`recordings` counts the openings, `skipped` says that a failed allocation for one channel has
skipped a needed one for two channels, and `outside` that an access has left its memory. -/
structure State where
  written : Nat
  taken : Nat
  isRecording : Bool
  place : Place
  wasRecording : Bool
  recStartAligned : Bool
  files : List File
  totalBytes : Nat
  convert1ch : Bool
  convert2ch : Bool
  buffer1ch : Option (Channels 4)
  buffer2ch : Option (Channels 2)
  closed : List Closed
  recordings : Nat
  skipped : Bool
  outside : Bool

def fill (s : State) : Nat := s.written - s.taken

/-- `aligned_alloc` of `BUFFER_AUDIO_READ_SIZE`. -/
def allocated (n : Nat) : Channels n := fun _ => List.replicate (readSize / n) 0

def memory {n : Nat} (buffer : Option (Channels n)) : Channels n := buffer.getD fun _ => []

def converts (s : State) : Output → Bool
  | .four => true
  | .two _ => s.convert2ch
  | .one _ => s.convert1ch

/-- `if (a->convert_1ch) extract_audio_1ch_C(...)`, and for two channels. -/
def convert {n : Nat} (extract : List UInt8 → Nat → Channels n → Checked (Channels n)) (on : Bool)
    (block : List UInt8) (len : Nat) (buffer : Option (Channels n)) : Checked (Channels n) :=
  if on then extract block len (memory buffer) else .ok (memory buffer)

/-- `fwrite` of a block of `len` bytes to a file. -/
def appendBlock (block : List UInt8) (two : Channels 2) (one : Channels 4) (len : Nat)
    (file : File) : Checked File := do
  let bytes ← match file.output with
    | .four => readAt block 0 len
    | .two pair => readAt (two pair) 0 (len / 2)
    | .one channel => readAt (one channel) 0 (len / 4)
  return { file with pcm := file.pcm ++ bytes }

/-- A block is converted, written and taken out of the ring. Where `guarded`, the conversion
flags are looked at again before a file is written. -/
def writeBlock (guarded : Bool) (s : State) (block : List UInt8) (len : Nat) :
    Checked State := do
  let one ← convert extractAudio1chC s.convert1ch block len s.buffer1ch
  let two ← convert extractAudio2chC s.convert2ch block len s.buffer2ch
  let files ← s.files.mapM fun file =>
    if guarded && !converts s file.output then .ok file else appendBlock block two one len file
  return { s with
    taken := s.taken + len
    files := files
    buffer1ch := s.buffer1ch.map fun _ => one
    buffer2ch := s.buffer2ch.map fun _ => two
    totalBytes := (s.totalBytes + len) % 2 ^ 64 }

def audioWriteRecordedBlock : State → List UInt8 → Nat → Checked State := writeBlock true

def writeRead : State → List UInt8 → Nat → Checked State := writeBlock false

/-- What `bufmgr_read_begin` grants. -/
def granted (stream : Nat → UInt8) (s : State) (len : Nat) : List UInt8 :=
  window stream s.taken len

/-- Where the language leaves the rest undefined, the run of the thread ends. -/
def settle (s : State) : Checked State → State
  | .ok next => next
  | .error _ => { s with place := .finished, outside := true }

structure Opening where
  settings : Settings
  opens : Output → Bool
  alloc1ch : Bool
  alloc2ch : Bool

def openFiles (s : State) (o : Opening) : State :=
  let on := enabled o.settings
  { s with
    files := s.files.filter (fun file => file.output ∉ on) ++
      (on.filter o.opens).map fun output => ⟨output, s.recordings + 1, []⟩
    convert2ch := s.convert2ch || on.any inTwo
    convert1ch := s.convert1ch || on.any inOne
    totalBytes := 0
    recordings := s.recordings + 1 }

/-- The files of a conversion without a buffer are closed as they are. -/
def dropFiles (group : Output → Bool) (s : State) : State :=
  { s with
    files := s.files.filter fun file => !group file.output
    closed := s.closed ++
      (s.files.filter fun file => group file.output).map fun file => ⟨file, placeholder, true⟩ }

def allocate2ch (o : Opening) (s : State) : State :=
  if s.convert2ch && s.buffer2ch.isNone then
    if o.alloc2ch then { s with buffer2ch := some (allocated 2) }
    else { dropFiles inTwo s with convert2ch := false }
  else s

/-- The allocations of an opening; a failure goes to `skip_file_ops`. -/
def allocate (o : Opening) (s : State) : State :=
  if s.convert1ch && s.buffer1ch.isNone then
    if o.alloc1ch then allocate2ch o { s with buffer1ch := some (allocated 4) }
    else { dropFiles inOne s with
      convert1ch := false
      skipped := s.skipped || s.convert2ch && s.buffer2ch.isNone }
  else allocate2ch o s

def closeFiles (rate : Nat) (s : State) : State :=
  { s with
    files := []
    closed := s.closed ++ s.files.map fun file =>
      ⟨file, createWaveHeader (s.totalBytes / 12) rate (channelCount file.output) 24, false⟩ }

/-- What `gui_audio_start` hands to the thread, up to its loop: with a recording under way the
files are open. `held` frames are in the ring. -/
def init (held : Nat) (recording : Bool) (settings : Settings) (alloc1ch alloc2ch : Bool) :
    State :=
  let on := if recording then enabled settings else []
  let convert1ch := on.any inOne
  let convert2ch := on.any inTwo
  let failed := convert1ch && !alloc1ch || convert2ch && !alloc2ch
  { written := frameBytes * held
    taken := 0
    isRecording := recording
    place := if failed then .finished else .top
    wasRecording := !on.isEmpty
    recStartAligned := false
    files := on.map fun output => ⟨output, 0, []⟩
    totalBytes := 0
    convert1ch := convert1ch
    convert2ch := convert2ch
    buffer1ch := if convert1ch && alloc1ch then some (allocated 4) else none
    buffer2ch := if convert2ch && alloc2ch then some (allocated 2) else none
    closed := []
    recordings := 0
    skipped := false
    outside := false }

/-- The thread's steps, beside the producer's whole frames and the changes of `is_recording`.
`rate` is the sampling rate for the headers. -/
inductive Action where
  | capture (frames : Nat)
  | record (on : Bool)
  | sampleTop
  | chunk
  | read
  | idle (exits : Bool)
  | sampleBlock (o : Opening) (rate : Nat)
  | measure (rate : Nat)
  | drain

def handleBlock (stream : Nat → UInt8) (s : State) (o : Opening) (rate : Nat) : State :=
  let opened := if !s.wasRecording && s.isRecording then allocate o (openFiles s o) else s
  let closed := if s.wasRecording && !s.isRecording then closeFiles rate opened else opened
  let turned := { closed with wasRecording := s.isRecording, place := .top }
  if s.isRecording then settle turned (writeRead turned (granted stream turned readSize) readSize)
  else { turned with taken := turned.taken + readSize }

/-- `stream` is the captured audio. -/
def step (stream : Nat → UInt8) (s : State) : Action → Option State
  | .capture frames => some { s with written := s.written + frameBytes * frames }
  | .record on => some { s with isRecording := on }
  | .sampleTop =>
    if s.place ≠ .top then none
    else if s.isRecording && !s.recStartAligned then
      some { s with recStartAligned := true, place := .discard }
    else if !s.isRecording && s.recStartAligned then
      some { s with recStartAligned := false, place := .flush }
    else some { s with place := .read }
  | .chunk =>
    match s.place with
    | .discard =>
      if fill s < chunkBytes then some { s with place := .read }
      else some { s with taken := s.taken + chunkBytes }
    | .flush =>
      if fill s < chunkBytes then some { s with place := .read }
      else some (settle s (audioWriteRecordedBlock s (granted stream s chunkBytes) chunkBytes))
    | _ => none
  | .read =>
    if s.place ≠ .read then none
    else some { s with place := if fill s < readSize then .idle else .block }
  | .idle exits =>
    if s.place ≠ .idle then none else some { s with place := if exits then .measure else .top }
  | .sampleBlock o rate =>
    if s.place ≠ .block then none else some (handleBlock stream s o rate)
  | .measure rate =>
    if s.place ≠ .measure then none
    else if fill s = 0 then some { closeFiles rate s with place := .finished }
    else some { s with place := .drain (min (fill s) readSize) }
  | .drain =>
    match s.place with
    | .drain len =>
      let measured := { s with place := .measure }
      some (settle measured (writeRead measured (granted stream measured len) len))
    | _ => none

end MisrcGui.Audio.WavFiles
