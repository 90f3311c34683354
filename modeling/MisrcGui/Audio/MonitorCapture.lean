import MisrcGui.Library.Circular
import MisrcGui.Library.Machine

/-! The capture ring of the monitor audio server (`gui_monitor_audio.c`): the capture thread
taps into it, each subscriber's worker reads from it, and the server resets it, all under one
guard that the capture thread never waits for. The mix, the resampler and the encoder are left
out. -/
namespace MisrcGui.Audio.MonitorCapture
open Library Library.Circular

def ringFrames : Nat := 32768

def readFrames : Nat := 1024

inductive Device where
  | hsdaoh
  | cxadc
  | clockgen
deriving DecidableEq

def tapMode : Device → Nat
  | .cxadc => 1
  | .clockgen => 2
  | .hsdaoh => 0

def tapRate (device : Device) (audioSampleRate : Nat) : Nat :=
  if tapMode device = 0 then 78125
  else if audioSampleRate < 8000 ∨ 384000 < audioSampleRate then 46875
  else audioSampleRate

/-- `g_ma_capture` without the guard and the number of subscribers. -/
structure Capture (Frame : Type) where
  frames : Nat → Frame
  written : Nat
  rate : Nat
  mode : Nat
  epoch : Nat

variable {Frame : Type}

def wrap : Nat := 2 ^ 32

/-- What `gui_monitor_audio_server_reset` does under the guard. -/
def Capture.reset (ring : Capture Frame) : Capture Frame :=
  { ring with written := 0, rate := 0, mode := 0, epoch := (ring.epoch + 1) % wrap }

def Capture.begins (ring : Capture Frame) (rate mode : Nat) : Bool :=
  rate ≠ ring.rate || mode ≠ ring.mode

def Capture.retune (ring : Capture Frame) (rate mode : Nat) : Capture Frame :=
  if ring.begins rate mode then
    { ring with rate, mode, written := 0, epoch := (ring.epoch + 1) % wrap }
  else ring

/-- The copy in two parts is a store of addresses modulo the size. -/
def Capture.append (ring : Capture Frame) (kept : List Frame) : Capture Frame :=
  { ring with
    frames := store ringFrames ring.frames ring.written kept
    written := ring.written + kept.length }

def keep (block : List Frame) : List Frame := block.drop (block.length - ringFrames)

/-- What `gui_monitor_audio_server_tap` does under the guard. -/
def Capture.tap (ring : Capture Frame) (rate mode : Nat) (block : List Frame) : Capture Frame :=
  (ring.retune rate mode).append (keep block)

structure Reader where
  cursor : Nat
  epoch : Nat

/-- A reader of another epoch starts some 30 ms before the end. -/
def Reader.restart (ring : Capture Frame) : Reader where
  cursor := if 0 < ring.written ∧ ring.rate ≠ 0 then
      ring.written - min (ring.rate / 30) ring.written
    else ring.written
  epoch := ring.epoch

/-- The first condition of `ma_read_capture`. -/
def Reader.stale (r : Reader) (ring : Capture Frame) : Bool :=
  r.epoch ≠ ring.epoch || ring.written < r.cursor

/-- The second: frames are overwritten, or the reader is too late. -/
def Reader.late (r : Reader) (ring : Capture Frame) : Bool :=
  ringFrames < ring.written - r.cursor ||
    (ring.rate ≠ 0 && ring.rate / 5 < ring.written - r.cursor)

/-- Where `ma_read_capture` reads, and whether it reports a discontinuity. -/
def Reader.place (r : Reader) (ring : Capture Frame) : Reader × Bool :=
  let started := if r.stale ring then .restart ring else r
  if started.late ring then
    ({ started with
      cursor := if ring.rate / 30 < ring.written then ring.written - ring.rate / 30 else 0 }, true)
  else (started, r.stale ring)

/-- The frames that `ma_read_capture` copies from the cursor on. -/
def Reader.count (r : Reader) (ring : Capture Frame) : Nat :=
  if ring.rate = 0 then 0 else min (ring.written - r.cursor) readFrames

def Reader.copy (r : Reader) (ring : Capture Frame) : List Frame :=
  slice ringFrames ring.frames r.cursor (r.count ring)

def Reader.advance (r : Reader) (ring : Capture Frame) : Reader :=
  { r with cursor := r.cursor + r.count ring }

inductive Holder where
  | tap
  | reset
  | reader (i : Nat)
deriving DecidableEq

abbrev Tagged (Frame : Type) := Frame × Nat × Nat

def tag (rate mode : Nat) (frame : Frame) : Tagged Frame := (frame, rate, mode)

structure Block (Frame : Type) where
  frames : List Frame
  device : Device
  audioSampleRate : Nat

def Block.rate (block : Block Frame) : Nat := tapRate block.device block.audioSampleRate

def Block.mode (block : Block Frame) : Nat := tapMode block.device

def Block.tagged (block : Block Frame) : List (Tagged Frame) :=
  block.frames.map (tag block.rate block.mode)

/-- A subscriber in `gui_monitor_audio_server_stream`. Ghost: the generation of the ring at its
last read, the frames since the last discontinuity, the number of discontinuities, and the
packets, by number and by run. -/
structure Subscriber (Frame : Type) where
  subscribed : Bool
  reader : Reader
  currentRate : Nat
  sequence : Nat
  generation : Nat
  run : List Frame
  runs : Nat
  packets : List (Nat × Nat)

def Subscriber.fresh : Subscriber Frame := ⟨true, ⟨0, 0⟩, 0, 0, 0, [], 0, []⟩

/-- Ghost: everything captured, what of it is in the ring since its generation began, the
number of generations, and whether something captured since the last store is lost. -/
structure State (Frame : Type) where
  ring : Capture Frame
  guard : Option Holder
  subscribers : Nat
  pending : Option (Block Frame)
  stream : Nat → Subscriber Frame
  captured : List (Tagged Frame)
  stored : List Frame
  generation : Nat
  lost : Bool

def initial (frames : Nat → Frame) : State Frame where
  ring := ⟨frames, 0, 0, 0, 0⟩
  guard := none
  subscribers := 0
  pending := none
  stream := fun _ => { Subscriber.fresh with subscribed := false }
  captured := []
  stored := []
  generation := 0
  lost := false

inductive Action (Frame : Type) where
  | tapCall (block : Block Frame)
  | tapLock
  | tapStore
  | resetLock
  | reset
  | subscribe (i : Nat)
  | unsubscribe (i : Nat)
  | readLock (i : Nat)
  | read (i : Nat)
  | packet (i : Nat)

def drop (s : State Frame) (block : Block Frame) : State Frame :=
  { s with pending := none, captured := s.captured ++ block.tagged, lost := true }

def tapCall (s : State Frame) (block : Block Frame) : Option (State Frame) :=
  if s.pending.isSome ∨ block.frames = [] then none
  else if s.subscribers = 0 then some (drop s block)
  else some { s with pending := some block }

def tapLock (s : State Frame) : Option (State Frame) :=
  match s.pending, s.guard with
  | none, _ => none
  | some _, some .tap => none
  | some _, none => some { s with guard := some .tap }
  | some block, some _ => some (drop s block)

def tapStore (s : State Frame) : Option (State Frame) :=
  match s.pending with
  | none => none
  | some block =>
    if s.guard = some .tap then
      let begins := s.ring.begins block.rate block.mode
      some { s with
        ring := s.ring.tap block.rate block.mode block.frames
        guard := none
        pending := none
        captured := s.captured ++ block.tagged
        stored := (if begins then [] else s.stored) ++ keep block.frames
        generation := if begins then s.generation + 1 else s.generation
        lost := false }
    else none

def lock (s : State Frame) (holder : Holder) : Option (State Frame) :=
  if s.guard = none then some { s with guard := some holder } else none

def reset (s : State Frame) : Option (State Frame) :=
  if s.guard = some .reset then
    some { s with
      ring := s.ring.reset
      guard := none
      stored := []
      generation := s.generation + 1 }
  else none

/-- A turn of the stream's loop: at a discontinuity or another rate the packet number skips. -/
def turn (s : State Frame) (x : Subscriber Frame) : Subscriber Frame :=
  let (placed, discontinuity) := x.reader.place s.ring
  let restarts := discontinuity || s.ring.rate ≠ x.currentRate
  { x with
    reader := placed.advance s.ring
    currentRate := if restarts then s.ring.rate else x.currentRate
    sequence := if restarts ∧ x.sequence ≠ 0 then (x.sequence + 1) % wrap else x.sequence
    generation := s.generation
    run := if discontinuity then placed.copy s.ring else x.run ++ placed.copy s.ring
    runs := if discontinuity then x.runs + 1 else x.runs }

def sendPacket (x : Subscriber Frame) : Subscriber Frame :=
  { x with
    sequence := (x.sequence + 1) % wrap
    packets := x.packets ++ [(x.sequence, x.runs)] }

def step (s : State Frame) : Action Frame → Option (State Frame)
  | .tapCall block => tapCall s block
  | .tapLock => tapLock s
  | .tapStore => tapStore s
  | .resetLock => lock s .reset
  | .reset => reset s
  | .subscribe i =>
    if (s.stream i).subscribed then none
    else some { s with
      subscribers := s.subscribers + 1
      stream := Function.update s.stream i .fresh }
  | .unsubscribe i =>
    if (s.stream i).subscribed ∧ s.guard ≠ some (.reader i) then
      some { s with
        subscribers := s.subscribers - 1
        stream := Function.update s.stream i { s.stream i with subscribed := false } }
    else none
  | .readLock i => if (s.stream i).subscribed then lock s (.reader i) else none
  | .read i =>
    if s.guard = some (.reader i) then
      some { s with guard := none, stream := Function.update s.stream i (turn s (s.stream i)) }
    else none
  | .packet i =>
    if (s.stream i).subscribed ∧ s.guard ≠ some (.reader i) ∧ (s.stream i).currentRate ≠ 0 then
      some { s with stream := Function.update s.stream i (sendPacket (s.stream i)) }
    else none

end MisrcGui.Audio.MonitorCapture
