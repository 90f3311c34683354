import MisrcGui.Library.DropQueue
import MisrcGui.Library.Layout
import MisrcGui.Library.Machine

/-! The live-monitor queues of `gui_audio.c`: pushing threads, one popping callback for each
queue, and the control operations that invalidate what is queued. Each atomic access is a
step; other accesses to a queue are made under its guard. -/
namespace MisrcGui.Audio.MonitorQueues
open Library
open Library.Layout (units)

/-- The atomics that both queues read: `s_monitor_epoch`, `s_play_q_generation`,
`s_hifi_source` (0 for none), `s_playback_enabled` and `s_monitor_session_active`. -/
structure Shared where
  epoch : Nat
  generation : Nat
  source : Nat
  enabled : Bool
  active : Bool

abbrev Tag := Nat × Nat

/-- What differs between the queues: the cells that it holds and that a stereo frame takes,
and whether it has generations. -/
structure Variant where
  capacity : Nat
  unit : Nat
  generations : Bool
  positive : 0 < capacity
  whole : unit ∣ capacity

/-- `s_play_q`, whose cells are samples. -/
def playQ : Variant := ⟨96000 * 2, 2, true, by decide, by decide⟩

/-- `s_hifi_q`, whose cells are frames; its generation is always 0. -/
def hifiQ : Variant := ⟨4096, 1, false, by decide, by decide⟩

structure Queue (Cell : Type) where
  ring : DropQueue.Ring Cell
  tag : Tag

def retag {Cell : Type} (q : Queue Cell) (tag : Tag) : Queue Cell :=
  if q.tag = tag then q else ⟨DropQueue.clear q.ring, tag⟩

/-- One atomic load of a pushing thread, with what it goes on for. -/
inductive Load where
  | playbackEnabled
  | sessionActive
  | source
  | epoch
  | generation
deriving DecidableEq

def passes (sh : Shared) (tag : Tag) (source : Nat) : Load → Bool
  | .playbackEnabled => sh.enabled
  | .sessionActive => sh.active
  | .source => sh.source = source
  | .epoch => tag.1 = sh.epoch
  | .generation => tag.2 = sh.generation

/-- The loads before the guard, and again after the queue has its tag. -/
def outer : List Load := [.playbackEnabled, .sessionActive, .source]

def inner (v : Variant) : List Load :=
  if v.generations then [.epoch, .generation, .sessionActive] else [.epoch, .sessionActive]

/-- Where a pushing thread is, with the loads that it has before it. -/
inductive Stage where
  | outside (loads : List Load)
  | guarded (loads : List Load)
  | settled (loads : List Load)
  | leaving
  | done

/-- A call of a push; `source` is what `s_hifi_source` must be. -/
structure Call (Cell : Type) where
  tag : Tag
  source : Nat
  data : List Cell
  stage : Stage

/-- `play_q_push_samples_for_epoch` after its first load. -/
def playQPushSamplesForEpoch (sh : Shared) (samples : List Int16) (epoch : Nat) : Call Int16 :=
  ⟨(epoch, sh.generation), 0, samples, if samples = [] then .done else .outside outer⟩

/-- `gui_audio_push_hifi` after its first load; the frames are those that
`hifi_float_to_i16` makes of its input. -/
def guiAudioPushHifi (sh : Shared) (source : Nat) (frames : List (Int16 × Int16)) :
    Call (Int16 × Int16) :=
  ⟨(sh.epoch, 0), source, frames, if source = 0 ∨ frames = [] then .done else .outside outer⟩

/-- The popping callback: it has begun, holds the guard, has the epoch, has the tag, has
taken cells, gives up the guard with nothing, or has cells to check again. -/
inductive Pop (Cell : Type) where
  | idle
  | begun (epoch max : Nat)
  | guarded (epoch max : Nat)
  | located (epoch max : Nat)
  | tagged (tag : Tag) (max : Nat)
  | taken (tag : Tag) (out : List Cell)
  | leaving
  | released (tag : Tag) (out : List Cell)
  | checked (tag : Tag) (out : List Cell) (first : Tag)

/-- A return of cells: the tag that they were taken under, and the current epoch and
generation at the first and at the last load of the last check. -/
structure Result (Cell : Type) where
  tag : Tag
  out : List Cell
  first : Tag
  last : Tag

/-- A queue, its guard with the thread that holds it (`none` for the callback), and what was
accepted, by frames. -/
structure Side (Cell : Type) where
  queue : Queue Cell
  guard : Option (Option Nat)
  calls : List (Call Cell)
  pop : Pop Cell
  accepted : List (Tag × List Cell)
  results : List (Result Cell)

variable {Cell : Type}

def frames (v : Variant) (tag : Tag) (cells : List Cell) : List (Tag × List Cell) :=
  (units v.unit cells).map fun frame => (tag, frame)

def setStage (s : Side Cell) (i : Nat) (c : Call Cell) (stage : Stage) : Side Cell :=
  { s with calls := s.calls.set i { c with stage := stage } }

def advance (v : Variant) (sh : Shared) (s : Side Cell) (i : Nat) (c : Call Cell) :
    Option (Side Cell) :=
  match c.stage with
  | .outside (load :: rest) =>
    some (setStage s i c (if passes sh c.tag c.source load then .outside rest else .done))
  | .outside [] =>
    if s.guard.isSome then some (setStage s i c .done)
    else some { setStage s i c (.guarded (inner v)) with guard := some (some i) }
  | .guarded (load :: rest) =>
    some (setStage s i c (if passes sh c.tag c.source load then .guarded rest else .leaving))
  | .guarded [] => some { setStage s i c (.settled outer) with queue := retag s.queue c.tag }
  | .settled (load :: rest) =>
    some (setStage s i c (if passes sh c.tag c.source load then .settled rest else .leaving))
  | .settled [] =>
    let data := c.data.take (c.data.length - c.data.length % v.unit)
    some { setStage s i c .leaving with
      queue := { s.queue with ring := DropQueue.put v.capacity s.queue.ring data }
      accepted := s.accepted ++ frames v c.tag data }
  | .leaving => some { setStage s i c .done with guard := none }
  | .done => none

/-- Nothing taken is a return of 0. -/
def returns (s : Side Cell) (result : Result Cell) : Side Cell :=
  { s with
    pop := .idle
    results := if result.out = [] then s.results else s.results ++ [result] }

/-- The next step of `play_q_pop_samples`, and of `hifi_q_pop_samples` from the callback. -/
def popNext (v : Variant) (sh : Shared) (s : Side Cell) : Option (Side Cell) :=
  match s.pop with
  | .idle => none
  | .begun epoch max =>
    if s.guard.isSome then some { s with pop := .idle }
    else some { s with guard := some none, pop := .guarded epoch max }
  | .guarded epoch max =>
    if v.generations then some { s with pop := .located sh.epoch max }
    else some { s with pop := if epoch = sh.epoch then .tagged (epoch, 0) max else .leaving }
  | .located epoch max => some { s with pop := .tagged (epoch, sh.generation) max }
  | .tagged tag max =>
    let queue := retag s.queue tag
    let n := min queue.ring.count max
    let (out, ring) := DropQueue.take v.capacity queue.ring (n - n % v.unit)
    some { s with queue := { queue with ring := ring }, pop := .taken tag out }
  | .taken tag out => some { s with guard := none, pop := .released tag out }
  | .leaving => some { s with guard := none, pop := .idle }
  | .released tag out =>
    let first := (sh.epoch, sh.generation)
    if tag.1 ≠ sh.epoch then some { s with pop := .idle }
    else if v.generations then some { s with pop := .checked tag out first }
    else some (returns s ⟨tag, out, first, first⟩)
  | .checked tag out first =>
    if tag.2 ≠ sh.generation then some { s with pop := .idle }
    else some (returns s ⟨tag, out, first, (sh.epoch, sh.generation)⟩)

structure System where
  shared : Shared
  legacy : Side Int16
  hifi : Side (Int16 × Int16)

inductive Turn where
  | push (i : Nat)
  | pop

/-- Several operations end in `monitor_invalidate`, and `gui_audio_reset_playback_queue` in a new
generation; here they come at any time. `exchange` is the first access of
`gui_audio_set_hifi_source`. The callback of the other queue may give up before it pops. -/
inductive Action where
  | invalidate
  | newGeneration
  | exchange (source : Nat)
  | enable (enabled : Bool)
  | activate (active : Bool)
  | pushLegacy (samples : List Int16) (epoch : Nat)
  | pushHifi (source : Nat) (frames : List (Int16 × Int16))
  | popLegacy (maxCount : Nat)
  | popHifi (maxFrames : Nat)
  | giveUp
  | legacy (turn : Turn)
  | hifi (turn : Turn)

def turn (v : Variant) (sh : Shared) (s : Side Cell) : Turn → Option (Side Cell)
  | .push i => s.calls[i]?.bind fun c => advance v sh s i c
  | .pop => popNext v sh s

def beginPop (s : Side Cell) (epoch max : Nat) : Option (Side Cell) :=
  match s.pop with
  | .idle => some { s with pop := .begun epoch max }
  | _ => none

def step (s : System) : Action → Option System
  | .invalidate => some { s with shared.epoch := s.shared.epoch + 1 }
  | .newGeneration => some { s with shared.generation := s.shared.generation + 1 }
  | .exchange source => some { s with shared.source := source }
  | .enable enabled => some { s with shared.enabled := enabled }
  | .activate active => some { s with shared.active := active }
  | .pushLegacy samples epoch =>
    some { s with
      legacy.calls := s.legacy.calls ++ [playQPushSamplesForEpoch s.shared samples epoch] }
  | .pushHifi source frames =>
    some { s with hifi.calls := s.hifi.calls ++ [guiAudioPushHifi s.shared source frames] }
  | .popLegacy maxCount => (beginPop s.legacy 0 maxCount).map fun side => { s with legacy := side }
  | .popHifi maxFrames =>
    (beginPop s.hifi s.shared.epoch maxFrames).map fun side => { s with hifi := side }
  | .giveUp =>
    match s.hifi.pop with
    | .begun _ _ => some { s with hifi.pop := .idle }
    | _ => none
  | .legacy t => (turn playQ s.shared s.legacy t).map fun side => { s with legacy := side }
  | .hifi t => (turn hifiQ s.shared s.hifi t).map fun side => { s with hifi := side }

/-- The queues begin with epoch and generation 0, which are never current. -/
def empty [Inhabited Cell] : Side Cell :=
  ⟨⟨⟨fun _ => default, 0, 0⟩, (0, 0)⟩, none, [], .idle, [], []⟩

def init : System := ⟨⟨1, 1, 0, false, false⟩, empty, empty⟩

end MisrcGui.Audio.MonitorQueues
