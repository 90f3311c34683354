import Mathlib.Data.List.Range
import MisrcGui.Library.Machine

/-! The upstream capture callback, `gui_capture.c`: the RF and audio blocks of dual-ADC hardware
arrive in calls of their own and are paired in the order of their arrival. -/
namespace MisrcGui.Upstream
open Library

def chbMaxSamples : Nat := 1920 * 1080
def audioQueueDepth : Nat := 8
def audioStereoMaxBytes : Nat := 1920 * 3 / 2

abbrev Bytes := List UInt8

structure Tagged (Data : Type) where
  frame : Nat
  data : Data

/-- What has been written to the RF ring: the words of a single ADC, or a pair. -/
inductive RfBlock where
  | single (a : Tagged (List UInt16))
  | packed (a b : Tagged (List UInt16))

inductive AudioBlock where
  | padded (audio1 : Tagged Bytes)
  | interleaved (audio1 audio2 : Tagged Bytes)

/-- Channel A in bits 11 to 0, channel B in bits 31 to 20. -/
def packWords (a b : List UInt16) : List UInt32 :=
  (List.range (max a.length b.length)).map fun index =>
    (a.getD index 0 &&& 0x0FFF).toUInt32 ||| (b.getD index 0 &&& 0x0FFF).toUInt32 <<< 20

def RfBlock.words : RfBlock → List UInt32
  | .single a => a.data.map fun sample => (sample &&& 0x0FFF).toUInt32
  | .packed a b => packWords a.data b.data

def AudioBlock.bytes : AudioBlock → Bytes
  | .padded audio1 => (List.range (audio1.data.length / 6)).flatMap fun index =>
      (audio1.data.drop (index * 6)).take 6 ++ List.replicate 6 0
  | .interleaved audio1 audio2 => (List.range (audio1.data.length / 6)).flatMap fun index =>
      (audio1.data.drop (index * 6)).take 6 ++ (audio2.data.drop (index * 6)).take 6

/-- The statics of the callback; `chb` is `s_upstream_chb_buf` while it is ready, the queues hold
the oldest block first, and the writes come newest first. -/
structure State where
  dualDetected : Bool
  chb : Option (Tagged (List UInt16))
  audio1 : List (Tagged Bytes)
  audio2 : List (Tagged Bytes)
  frame : Nat
  rf : List RfBlock
  audio : List AudioBlock

def initial : State := ⟨false, none, [], [], 0, [], []⟩

/-- The bytes of a call, the audio gate as it finds it, and whether its ring has room. -/
structure Block where
  data : Bytes
  captureAudio : Bool
  room : Bool

def samples : Bytes → List UInt16
  | low :: high :: rest => (low.toUInt16 ||| high.toUInt16 <<< 8) :: samples rest
  | _ => []

def queueUpstreamAudio (queue : List (Tagged Bytes)) (block : Tagged Bytes) :
    Option (List (Tagged Bytes)) :=
  if block.data.length = 0 ∨ block.data.length > audioStereoMaxBytes ∨
      queue.length ≥ audioQueueDepth then none
  else some (queue ++ [block])

/-- `gui_capture_flush_upstream_audio_pairs`: the queues that stay and the pairs written, newest
first. A pair that finds no room is popped all the same. -/
def flushPairs (room : Bool) : List (Tagged Bytes) → List (Tagged Bytes) → List AudioBlock →
    List (Tagged Bytes) × List (Tagged Bytes) × List AudioBlock
  | first :: rest1, second :: rest2, written =>
    if first.data.length / 6 ≠ second.data.length / 6 then ([], [], written)
    else flushPairs room rest1 rest2
      (if room then .interleaved first second :: written else written)
  | [], audio2, written => ([], audio2, written)
  | audio1, [], written => (audio1, [], written)

def State.flush (state : State) (room : Bool) : State :=
  let (audio1, audio2, audio) := flushPairs room state.audio1 state.audio2 state.audio
  { state with audio1, audio2, audio }

def State.resetQueues (state : State) : State := { state with audio1 := [], audio2 := [] }

/-- Stream 0. -/
def channelA (state : State) (block : Block) : State :=
  let a : Tagged (List UInt16) := ⟨state.frame, samples block.data⟩
  if state.dualDetected then
    { state with chb := some { a with data := a.data.take chbMaxSamples } }
  else if block.room then { state with rf := .single a :: state.rf }
  else state

/-- Stream 1. -/
def channelB (state : State) (block : Block) : State :=
  let b : Tagged (List UInt16) := ⟨state.frame, samples block.data⟩
  let state := { state with dualDetected := true }
  match state.chb with
  | none => state
  | some a =>
    { state with
      chb := none
      rf := if block.room then .packed a b :: state.rf else state.rf }

def invalidLength (data : Bytes) : Bool :=
  decide (data.length < 6) || data.length % 6 != 0

/-- Stream 2. -/
def audioOne (state : State) (block : Block) : State :=
  let audio : Tagged Bytes := ⟨state.frame, block.data⟩
  if !block.captureAudio then state
  else if invalidLength block.data then state
  else if state.dualDetected then
    match queueUpstreamAudio state.audio1 audio with
    | none => state.resetQueues
    | some audio1 => { state with audio1 }.flush block.room
  else if block.room then { state with audio := .padded audio :: state.audio }
  else state

/-- Stream 3. -/
def audioTwo (state : State) (block : Block) : State :=
  let audio : Tagged Bytes := ⟨state.frame, block.data⟩
  if !block.captureAudio then state
  else if !state.dualDetected then state
  else if invalidLength block.data then state
  else
    match queueUpstreamAudio state.audio2 audio with
    | none => state.resetQueues
    | some audio2 => { state with audio2 }.flush block.room

def upstreamCallback (state : State) (streamId : Nat) (block : Block) : State :=
  if block.data = [] then state
  else
    match streamId with
    | 0 => channelA state block
    | 1 => channelB state block
    | 2 => audioOne state block
    | 3 => audioTwo state block
    | _ => state

/-- The blocks that a frame of the device delivers, in this order. -/
structure DeviceFrame where
  stream0 : Option Block
  stream1 : Option Block
  stream2 : Option Block
  stream3 : Option Block

def offer (state : State) (streamId : Nat) (block : Option Block) : State :=
  block.elim state (upstreamCallback state streamId)

def deviceFrame (state : State) (frame : DeviceFrame) : Option State :=
  let state := { state with frame := state.frame + 1 }
  some (offer (offer (offer (offer state 0 frame.stream0) 1 frame.stream1) 2 frame.stream2) 3
    frame.stream3)

def delivers (block : Option Block) : Bool := block.any fun block => !block.data.isEmpty

/-- An audio block reaches the queues: it is not muted and its length is valid. -/
def queues (block : Option Block) : Bool :=
  block.any fun block => block.captureAudio && !invalidLength block.data &&
    decide (block.data.length ≤ audioStereoMaxBytes)

/-- No block that an earlier frame has left waiting meets its counterpart in this frame. -/
def meetsOwn (state : State) (frame : DeviceFrame) : Bool :=
  (state.chb.isNone || !delivers frame.stream1 || delivers frame.stream0) &&
    (state.audio1.isEmpty || !queues frame.stream3) &&
      (state.audio2.isEmpty || !queues frame.stream2)

def RfBlock.ofOneFrame : RfBlock → Prop
  | .single _ => True
  | .packed a b => a.frame = b.frame

def AudioBlock.ofOneFrame : AudioBlock → Prop
  | .padded _ => True
  | .interleaved audio1 audio2 => audio1.frame = audio2.frame

instance (block : RfBlock) : Decidable block.ofOneFrame :=
  match block with
  | .single _ => isTrue trivial
  | .packed a b => inferInstanceAs (Decidable (a.frame = b.frame))

instance (block : AudioBlock) : Decidable block.ofOneFrame :=
  match block with
  | .padded _ => isTrue trivial
  | .interleaved audio1 audio2 => inferInstanceAs (Decidable (audio1.frame = audio2.frame))

variable {state next : State} {block : Option Block}

structure RfInv (state : State) : Prop where
  undetected : state.dualDetected = false → state.chb = none
  rf : ∀ block ∈ state.rf, block.ofOneFrame

def OwnA (state : State) : Prop := ∀ a, state.chb = some a → a.frame = state.frame

structure SameAudio (state after : State) : Prop where
  audio1 : after.audio1 = state.audio1
  audio2 : after.audio2 = state.audio2
  audio : after.audio = state.audio
  frame : after.frame = state.frame

structure SameRf (state after : State) : Prop where
  dualDetected : after.dualDetected = state.dualDetected
  chb : after.chb = state.chb
  rf : after.rf = state.rf
  frame : after.frame = state.frame

theorem delivers_iff (block : Block) : delivers (some block) = true ↔ block.data ≠ [] := by
  simp [delivers]

theorem offer_a (inv : RfInv state) (block : Option Block) :
    RfInv (offer state 0 block) ∧ SameAudio state (offer state 0 block) ∧
      (delivers block = true ∨ state.chb = none → OwnA (offer state 0 block)) := by
  have same : SameAudio state state := ⟨rfl, rfl, rfl, rfl⟩
  have empty (none : state.chb = none) : OwnA state := by
    intro a waiting
    rw [none] at waiting
    contradiction
  cases block with
  | none => exact ⟨inv, same, fun own => empty (own.resolve_left nofun)⟩
  | some block =>
    simp only [offer, Option.elim_some, upstreamCallback]
    split
    · next nothing =>
      refine ⟨inv, same, fun own => empty (own.resolve_left fun delivered => ?_)⟩
      exact (delivers_iff block).mp delivered nothing
    · unfold channelA
      dsimp only
      split
      · next detected =>
        refine ⟨⟨fun undetected => ?_, inv.rf⟩, { same with }, fun _ => ?_⟩
        · exact absurd (detected.symm.trans undetected) nofun
        · intro a waiting
          cases waiting
          rfl
      · next single =>
        have waiting := inv.undetected (Bool.not_eq_true _ ▸ single)
        split
        · refine ⟨⟨inv.undetected, ?_⟩, { same with }, fun _ => empty waiting⟩
          intro written member
          cases List.mem_cons.mp member with
          | inl newest =>
            rw [newest]
            trivial
          | inr older => exact inv.rf written older
        · exact ⟨inv, same, fun _ => empty waiting⟩

theorem offer_b (inv : RfInv state) (own : OwnA state) (block : Option Block) :
    RfInv (offer state 1 block) ∧ SameAudio state (offer state 1 block) := by
  have same : SameAudio state state := ⟨rfl, rfl, rfl, rfl⟩
  cases block with
  | none => exact ⟨inv, same⟩
  | some block =>
    simp only [offer, Option.elim_some, upstreamCallback]
    split
    · exact ⟨inv, same⟩
    · unfold channelB
      dsimp only
      cases waiting : state.chb with
      | none => exact ⟨⟨nofun, inv.rf⟩, { same with }⟩
      | some a =>
        refine ⟨⟨nofun, ?_⟩, { same with }⟩
        dsimp only
        split
        · intro written member
          cases List.mem_cons.mp member with
          | inl newest =>
            rw [newest]
            exact own a waiting
          | inr older => exact inv.rf written older
        · exact inv.rf

theorem offer_no_b (silent : delivers block = false) : offer state 1 block = state := by
  cases block with
  | none => rfl
  | some block =>
    simp only [delivers, Option.any_some, Bool.not_eq_false', List.isEmpty_iff] at silent
    simp [offer, upstreamCallback, silent]

theorem offer_rf (a b : Option Block) (inv : RfInv state)
    (waiting : (state.chb = none ∨ delivers b = false) ∨ delivers a = true) :
    RfInv (offer (offer state 0 a) 1 b) ∧ SameAudio state (offer (offer state 0 a) 1 b) := by
  obtain ⟨first, same, own⟩ := offer_a inv a
  cases delivered : delivers b with
  | false =>
    rw [offer_no_b delivered]
    exact ⟨first, same⟩
  | true =>
    have ownA : OwnA (offer state 0 a) := by
      apply own
      rcases waiting with (none | silent) | present
      · exact Or.inr none
      · exact absurd (delivered.symm.trans silent) nofun
      · exact Or.inl present
    obtain ⟨second, after⟩ := offer_b first ownA b
    exact ⟨second, after.audio1.trans same.audio1, after.audio2.trans same.audio2,
      after.audio.trans same.audio, after.frame.trans same.frame⟩

structure AudioInv (state : State) : Prop where
  drained : state.audio1 = [] ∨ state.audio2 = []
  audio : ∀ block ∈ state.audio, block.ofOneFrame

/-- Audio #1 holds blocks of the current frame only. -/
def OwnAudio (state : State) : Prop := ∀ block ∈ state.audio1, block.frame = state.frame

theorem flushPairs_left (room : Bool) (queue : List (Tagged Bytes)) (written : List AudioBlock) :
    flushPairs room queue [] written = (queue, [], written) := by
  cases queue <;> rfl

theorem flushPairs_right (room : Bool) (queue : List (Tagged Bytes))
    (written : List AudioBlock) : flushPairs room [] queue written = ([], queue, written) := by
  cases queue <;> rfl

theorem queues_iff (block : Block) : queues (some block) = true ↔
    block.captureAudio = true ∧ invalidLength block.data = false ∧
      block.data.length ≤ audioStereoMaxBytes := by
  simp [queues, and_assoc]

theorem queueUpstreamAudio_some {queue after : List (Tagged Bytes)} {audio : Tagged Bytes}
    (h : queueUpstreamAudio queue audio = some after) :
    after = queue ++ [audio] ∧ audio.data.length ≤ audioStereoMaxBytes := by
  unfold queueUpstreamAudio at h
  split at h
  · contradiction
  · next fits =>
    cases h
    exact ⟨rfl, by omega⟩

theorem offer_audio1 (inv : AudioInv state) (alone : state.audio2 = [] ∨ queues block = false) :
    AudioInv (offer state 2 block) ∧ SameRf state (offer state 2 block) ∧
      (state.audio1 = [] → OwnAudio (offer state 2 block)) := by
  have same : SameRf state state := ⟨rfl, rfl, rfl, rfl⟩
  have empty (none : state.audio1 = []) : OwnAudio state := by
    intro waiting member
    rw [none] at member
    contradiction
  cases block with
  | none => exact ⟨inv, same, empty⟩
  | some block =>
    simp only [offer, Option.elim_some, upstreamCallback]
    split
    · exact ⟨inv, same, empty⟩
    · unfold audioOne
      dsimp only
      split
      · exact ⟨inv, same, empty⟩
      · next gate =>
        split
        · exact ⟨inv, same, empty⟩
        · next valid =>
          split
          · split
            · exact ⟨⟨Or.inl rfl, inv.audio⟩, { same with }, fun _ => nofun⟩
            · next audio1 queued =>
              obtain ⟨rfl, short⟩ := queueUpstreamAudio_some queued
              have taken : queues (some block) = true := by
                rw [queues_iff]
                simp only [Bool.not_eq_true, Bool.not_eq_false'] at gate valid
                exact ⟨gate, valid, short⟩
              have none := alone.resolve_right (by rw [taken]; nofun)
              simp only [State.flush, none, flushPairs_left]
              refine ⟨⟨Or.inr rfl, inv.audio⟩, { same with }, fun first => ?_⟩
              intro waiting member
              rw [first, List.nil_append] at member
              rw [List.mem_singleton.mp member]
          · split
            · refine ⟨⟨inv.drained, ?_⟩, { same with }, empty⟩
              intro written member
              cases List.mem_cons.mp member with
              | inl newest =>
                rw [newest]
                trivial
              | inr older => exact inv.audio written older
            · exact ⟨inv, same, empty⟩

theorem offer_audio2 (inv : AudioInv state) (block : Option Block)
    (own : queues block = true → OwnAudio state) :
    AudioInv (offer state 3 block) ∧ SameRf state (offer state 3 block) := by
  have same : SameRf state state := ⟨rfl, rfl, rfl, rfl⟩
  cases block with
  | none => exact ⟨inv, same⟩
  | some block =>
    simp only [offer, Option.elim_some, upstreamCallback]
    split
    · exact ⟨inv, same⟩
    · unfold audioTwo
      dsimp only
      split
      · exact ⟨inv, same⟩
      · next gate =>
        split
        · exact ⟨inv, same⟩
        · split
          · exact ⟨inv, same⟩
          · next valid =>
            split
            · exact ⟨⟨Or.inl rfl, inv.audio⟩, { same with }⟩
            · next audio2 queued =>
              obtain ⟨rfl, short⟩ := queueUpstreamAudio_some queued
              have taken : queues (some block) = true := by
                rw [queues_iff]
                simp only [Bool.not_eq_true, Bool.not_eq_false'] at gate valid
                exact ⟨gate, valid, short⟩
              have fresh := own taken
              cases waiting : state.audio1 with
              | nil =>
                simp only [State.flush, flushPairs_right]
                exact ⟨⟨Or.inl rfl, inv.audio⟩, { same with }⟩
              | cons first rest =>
                have none : state.audio2 = [] :=
                  inv.drained.resolve_left (by rw [waiting]; nofun)
                simp only [State.flush, none, List.nil_append, flushPairs]
                split
                · exact ⟨⟨Or.inl rfl, inv.audio⟩, { same with }⟩
                · rw [flushPairs_left]
                  refine ⟨⟨Or.inr rfl, ?_⟩, { same with }⟩
                  dsimp only
                  split
                  · intro written member
                    cases List.mem_cons.mp member with
                    | inl newest =>
                      rw [newest]
                      exact fresh first (by rw [waiting]; exact List.mem_cons_self)
                    | inr older => exact inv.audio written older
                  · exact inv.audio

structure Inv (state : State) : Prop where
  rf : RfInv state
  audio : AudioInv state

theorem initial_inv : Inv initial := ⟨⟨fun _ => rfl, nofun⟩, ⟨Or.inl rfl, nofun⟩⟩

theorem RfInv.congr (inv : RfInv state) (same : SameRf state next) : RfInv next := by
  refine ⟨fun undetected => ?_, ?_⟩
  · rw [same.chb]
    exact inv.undetected (same.dualDetected.symm.trans undetected)
  · rw [same.rf]
    exact inv.rf

theorem AudioInv.congr (inv : AudioInv state) (same : SameAudio state next) : AudioInv next := by
  refine ⟨?_, ?_⟩
  · rw [same.audio1, same.audio2]
    exact inv.drained
  · rw [same.audio]
    exact inv.audio

theorem offer_audio (first second : Option Block) (inv : AudioInv state)
    (waiting1 : state.audio1 = [] ∨ queues second = false)
    (waiting2 : state.audio2 = [] ∨ queues first = false) :
    AudioInv (offer (offer state 2 first) 3 second) ∧
      SameRf state (offer (offer state 2 first) 3 second) := by
  obtain ⟨audio1, same, own⟩ := offer_audio1 inv waiting2
  obtain ⟨audio2, after⟩ := offer_audio2 audio1 second fun taken =>
    own (waiting1.resolve_right (by rw [taken]; nofun))
  exact ⟨audio2, after.dualDetected.trans same.dualDetected, after.chb.trans same.chb,
    after.rf.trans same.rf, after.frame.trans same.frame⟩

theorem deviceFrame_inv {frame : DeviceFrame} (inv : Inv state)
    (meets : meetsOwn state frame = true) (h : deviceFrame state frame = some next) :
    Inv next := by
  cases h
  simp only [meetsOwn, Bool.and_eq_true, Bool.or_eq_true, Option.isNone_iff_eq_none,
    List.isEmpty_iff, Bool.not_eq_true'] at meets
  obtain ⟨⟨waitingA, waiting1⟩, waiting2⟩ := meets
  have begunRf : RfInv { state with frame := state.frame + 1 } := { inv.rf with }
  have begunAudio : AudioInv { state with frame := state.frame + 1 } := { inv.audio with }
  obtain ⟨rf, keptAudio⟩ := offer_rf frame.stream0 frame.stream1 begunRf waitingA
  have audio := begunAudio.congr keptAudio
  obtain ⟨paired, keptRf⟩ := offer_audio frame.stream2 frame.stream3 audio
    (by rw [keptAudio.audio1]; exact waiting1) (by rw [keptAudio.audio2]; exact waiting2)
  exact ⟨rf.congr keptRf, paired⟩

theorem run_inv {frames : List DeviceFrame} {last : State}
    (h : Machine.run (Machine.guarded meetsOwn deviceFrame) initial frames = some last) :
    Inv last :=
  Machine.run_invariant Inv
    (fun _ _ _ inv taken => deviceFrame_inv inv (Machine.guarded_eq_some.mp taken).1
      (Machine.guarded_eq_some.mp taken).2) initial_inv h

/-- If no frame brings a block whose counterpart of an earlier frame is waiting, every pair that
is written is of one frame. -/
theorem pairs_of_one_frame {frames : List DeviceFrame} {last : State}
    (h : Machine.run (Machine.guarded meetsOwn deviceFrame) initial frames = some last) :
    (∀ block ∈ last.rf, block.ofOneFrame) ∧ ∀ block ∈ last.audio, block.ofOneFrame :=
  ⟨(run_inv h).rf.rf, (run_inv h).audio.audio⟩

def sixBytes : Option Block := some ⟨[1, 2, 3, 4, 5, 6], true, true⟩

def wholeFrame : DeviceFrame := ⟨sixBytes, sixBytes, sixBytes, sixBytes⟩

/-- The first frame detects the hardware. The third lacks its second audio block, and a frame
later the first one is gone as well. -/
def keptFrames : List DeviceFrame :=
  [wholeFrame, wholeFrame, { wholeFrame with stream3 := none },
    ⟨sixBytes, none, none, none⟩, ⟨sixBytes, sixBytes, none, none⟩]

theorem pairs_of_one_frame_kept :
    ∃ last, Machine.run (Machine.guarded meetsOwn deviceFrame) initial keptFrames = some last ∧
      last.rf.length = 4 ∧ last.audio.length = 2 ∧
      (∀ block ∈ last.rf, block.ofOneFrame) ∧ ∀ block ∈ last.audio, block.ofOneFrame := by
  have runs : (Machine.run (Machine.guarded meetsOwn deviceFrame) initial keptFrames).any
      (fun last => last.rf.length == 4 && last.audio.length == 2) = true := by
    decide +kernel
  obtain ⟨last, h, counts⟩ := (Option.any_eq_true _ _).mp runs
  simp only [Bool.and_eq_true, beq_iff_eq] at counts
  exact ⟨last, h, counts.1, counts.2, pairs_of_one_frame h⟩

/-- Frame 2 lacks its second audio block; frame 5 has no B and frame 6 no A. -/
def mixedFrames : List DeviceFrame :=
  [wholeFrame, { wholeFrame with stream3 := none }, wholeFrame, wholeFrame,
    ⟨sixBytes, none, sixBytes, sixBytes⟩, ⟨none, sixBytes, sixBytes, sixBytes⟩]

/-- Each later frame's second audio block is paired with the first of the frame before, and A of
frame 5 with B of frame 6. -/
theorem pairs_shifted :
    ∃ last, Machine.run deviceFrame initial mixedFrames = some last ∧
      (¬ ∀ block ∈ last.rf, block.ofOneFrame) ∧
      (last.audio.filter fun block => !decide block.ofOneFrame).length = 4 := by
  have runs : (Machine.run deviceFrame initial mixedFrames).any
      (fun last => !decide (∀ block ∈ last.rf, block.ofOneFrame) &&
        (last.audio.filter fun block => !decide block.ofOneFrame).length == 4) = true := by
    decide +kernel
  obtain ⟨last, h, mixed⟩ := (Option.any_eq_true _ _).mp runs
  simp only [Bool.and_eq_true, Bool.not_eq_true', decide_eq_false_iff_not, beq_iff_eq] at mixed
  exact ⟨last, h, mixed.1, mixed.2⟩

end MisrcGui.Upstream
