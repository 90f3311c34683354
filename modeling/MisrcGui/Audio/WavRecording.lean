import MisrcGui.Library.Layout
import MisrcGui.Library.Machine
import MisrcGui.Library.Window

/-! The writing thread of `gui_audio.c`: what `audio_thread_main` takes from the ring of
captured audio, and what it writes to the WAV files of a recording. -/
namespace MisrcGui.Audio.WavRecording
open Library
open Library.Layout (field units)
open Library.Window (window)

/-- `f_4ch`, and the elements of `f_2ch` and `f_1ch`. -/
inductive Output where
  | four
  | two (pair : Fin 2)
  | one (channel : Fin 4)
deriving DecidableEq

def frameBytes : Nat := 12

def width : Output → Nat
  | .four => 12
  | .two _ => 6
  | .one _ => 3

def offset : Output → Nat
  | .four => 0
  | .two pair => 6 * pair
  | .one channel => 3 * channel

/-- `extract_audio_2ch_C` and `extract_audio_1ch_C` for one of their outputs, by bytes; the
loop runs by frames, and the last may reach beyond the block. -/
def extract (output : Output) (len : Nat) (memory : List UInt8) : List UInt8 :=
  (List.range ((len / 4 + 2) / 3)).flatMap fun i =>
    field memory (frameBytes * i + offset output) (width output)

/-- What is written of a block of `len` bytes. `memory` begins with the block, and `old` is
what the conversion buffer holds. -/
def converted (output : Output) (len : Nat) (memory old : List UInt8) : List UInt8 :=
  match output with
  | .four => memory.take len
  | _ =>
    let filled := extract output len memory
    (filled ++ old.drop filled.length).take (len * width output / frameBytes)

/-- A WAV file after its header; `start` is where the ring was when it was opened. -/
structure File where
  output : Output
  start : Nat
  pcm : List UInt8
deriving DecidableEq

structure Settings where
  enableAudio4ch : Bool
  enableAudio2ch12 : Bool
  enableAudio2ch34 : Bool
  enableAudio1ch : Fin 4 → Bool

def enabled (settings : Settings) : List Output :=
  (if settings.enableAudio4ch then [.four] else []) ++
  (if settings.enableAudio2ch12 then [.two 0] else []) ++
  (if settings.enableAudio2ch34 then [.two 1] else []) ++
  ((List.finRange 4).filter settings.enableAudio1ch).map .one

def write (files : List File) (len : Nat) (memory old : List UInt8) : List File :=
  files.map fun file => { file with pcm := file.pcm ++ converted file.output len memory old }

def readSize : Nat := 65536 * 3

def chunkBytes : Nat := 576

/-- `is_recording`, which is set and cleared once. -/
inductive Flag where
  | before
  | on
  | after
deriving DecidableEq

/-- Where the thread is: at the top of its loop, in `audio_discard_ring_to_now`, in
`audio_flush_ring_to_files`, before its read, without data, with a block in hand, or in the
exit drain, at the fill level or with a length to read. -/
inductive Place where
  | top
  | discard
  | flush
  | read
  | idle
  | block
  | measure
  | drain (len : Nat)
  | finished
deriving DecidableEq

/-- `written` and `taken` count the bytes put into the ring and taken out of it. `seen` is
where the ring was when the thread first saw the recording, and `leftOut` counts the bytes
taken while a file was open and not written. -/
structure State where
  written : Nat
  taken : Nat
  flag : Flag
  place : Place
  wasRecording : Bool
  recStartAligned : Bool
  files : List File
  closed : List File
  seen : Option Nat
  leftOut : Nat
deriving DecidableEq

def init : State := ⟨0, 0, .before, .top, false, false, [], [], none, 0⟩

def fill (s : State) : Nat := s.written - s.taken

/-- A read of `is_recording`, for the record. -/
def see (s : State) : State :=
  if s.flag = .on then { s with seen := s.seen.or (some s.taken) } else s

def leaveOut (s : State) (len : Nat) : State :=
  { s with taken := s.taken + len, leftOut := s.leftOut + if s.files = [] then 0 else len }

def writeOut (stream : Nat → UInt8) (s : State) (len : Nat) (beyond old : List UInt8) : State :=
  { s with
    taken := s.taken + len
    files := write s.files len (window stream s.taken len ++ beyond) old }

def close (s : State) : State := { s with files := [], closed := s.closed ++ s.files }

/-- The audio thread's steps beside the producer's writes and the two changes of
`is_recording`. A read has failed when its time is up; the thread may be stopped then. -/
inductive Action where
  | capture (len : Nat)
  | record
  | stop
  | sampleTop
  | chunk
  | read
  | idle (exits : Bool)
  | sampleBlock (settings : Settings)
  | measure
  | drain (beyond old : List UInt8)

/-- `stream` is the captured audio. -/
def step (stream : Nat → UInt8) (s : State) : Action → Option State
  | .capture len => some { s with written := s.written + len }
  | .record => if s.flag = .before then some { s with flag := .on } else none
  | .stop => if s.flag = .on then some { s with flag := .after } else none
  | .sampleTop =>
    if s.place ≠ .top then none
    else if s.flag = .on ∧ s.recStartAligned = false then
      some { see s with recStartAligned := true, place := .discard }
    else if s.flag ≠ .on ∧ s.recStartAligned then
      some { see s with recStartAligned := false, place := .flush }
    else some { see s with place := .read }
  | .chunk =>
    match s.place with
    | .discard =>
      if fill s < chunkBytes then some { s with place := .read } else some (leaveOut s chunkBytes)
    | .flush =>
      if fill s < chunkBytes then some { s with place := .read }
      else some (writeOut stream s chunkBytes [] [])
    | _ => none
  | .read =>
    if s.place ≠ .read then none
    else some { s with place := if fill s < readSize then .idle else .block }
  | .idle exits =>
    if s.place ≠ .idle then none else some { s with place := if exits then .measure else .top }
  | .sampleBlock settings =>
    if s.place ≠ .block then none
    else if s.flag = .on then
      let opened := if s.wasRecording then s.files
        else (enabled settings).map fun output => ⟨output, s.taken, []⟩
      some { writeOut stream { see s with files := opened } readSize [] [] with
        wasRecording := true
        place := .top }
    else if s.wasRecording then
      some { close (leaveOut s readSize) with wasRecording := false, place := .top }
    else some { leaveOut s readSize with place := .top }
  | .measure =>
    if s.place ≠ .measure then none
    else if fill s = 0 then some { close s with place := .finished }
    else some { s with place := .drain (min (fill s) readSize) }
  | .drain beyond old =>
    match s.place with
    | .drain len =>
      if fill s < len then some { close s with place := .finished }
      else some { writeOut stream s len beyond old with place := .measure }
    | _ => none

end MisrcGui.Audio.WavRecording
