import Mathlib.Data.List.Chain
import MisrcGui.Library.Machine
import MisrcGui.RfPreview.Worker

/-! The streams of the RF preview: what the video decoder is given between two resets, and the
frames that are taken. -/
namespace MisrcGui.RfPreview.Streams
open Library Worker

variable {input more : Input} {applied : Applied} {stream : Stream} {video : Video}
  {frames : Frames} {s next : State}

def Adjacent (first second : Slot) : Prop :=
  second.info.epoch = first.info.epoch ∧ second.info.sampleRateHz = first.info.sampleRateHz ∧
    second.info.startSample = first.info.startSample + first.count ∧
    second.info.discontinuity = false

/-- The controls a submission has loaded are not older than those of the slots before. -/
def Loaded (input : Input) (block : Submission) : Prop :=
  block.pauseControl ≤ input.pauseControl ∧ block.pauseControl % 2 = 0 ∧
    ∀ slot ∈ input.accepted, slot.pauseControl ≤ block.pauseControl

def Submitting (input : Input) : ProducerPc → Prop
  | .enter block | .loadRead block => Loaded input block
  | .loadFlush block | .exchangeGap block | .cutSource block | .cutGeneration _ block
  | .loadSource block | .record block =>
    Loaded input block ∧ input.writeIndex < input.readIndex + queueSlots
  | .publish slot =>
    slot.control ≤ input.control ∧ slot.pauseControl ≤ input.pauseControl ∧
      slot.pauseControl % 2 = 0 ∧
      (∀ before ∈ input.accepted,
        before.control ≤ slot.control ∧ before.pauseControl ≤ slot.pauseControl) ∧
      input.writeIndex < input.readIndex + queueSlots ∧
      input.slots (input.writeIndex % queueSlots) = slot
  | _ => True

/-- The ring holds what is submitted and not yet released, in order and with its controls. -/
structure Queue (input : Input) : Prop where
  length : input.accepted.length = input.writeIndex
  read : input.readIndex ≤ input.writeIndex
  room : input.writeIndex ≤ input.readIndex + queueSlots
  stored : ∀ i, input.readIndex ≤ i → ∀ slot, input.accepted[i]? = some slot →
    input.slots (i % queueSlots) = slot
  ordered : input.accepted.Pairwise fun first second =>
    first.control ≤ second.control ∧ first.pauseControl ≤ second.pauseControl
  bounds : ∀ slot ∈ input.accepted, slot.control ≤ input.control ∧
    slot.pauseControl ≤ input.pauseControl ∧ slot.pauseControl % 2 = 0

theorem Queue.grow (queue : Queue input) (accepted : more.accepted = input.accepted)
    (write : more.writeIndex = input.writeIndex) (slots : more.slots = input.slots)
    (read : input.readIndex ≤ more.readIndex) (released : more.readIndex ≤ more.writeIndex)
    (control : input.control ≤ more.control) (pause : input.pauseControl ≤ more.pauseControl) :
    Queue more where
  length := by rw [accepted, write, queue.length]
  read := released
  room := by
    have := queue.room
    omega
  stored := by
    rw [accepted, slots]
    exact fun i after => queue.stored i (read.trans after)
  ordered := accepted ▸ queue.ordered
  bounds := by
    rw [accepted]
    intro slot member
    obtain ⟨first, second, even⟩ := queue.bounds slot member
    exact ⟨first.trans control, second.trans pause, even⟩

theorem Submitting.grow {pc : ProducerPc} (submitting : Submitting input pc)
    (accepted : more.accepted = input.accepted) (write : more.writeIndex = input.writeIndex)
    (slots : more.slots = input.slots) (read : input.readIndex ≤ more.readIndex)
    (control : input.control ≤ more.control) (pause : input.pauseControl ≤ more.pauseControl) :
    Submitting more pc := by
  have loaded {block : Submission} (before : Loaded input block) : Loaded more block := by
    rw [Loaded, accepted]
    exact ⟨before.1.trans pause, before.2⟩
  cases pc with
  | enter block | loadRead block => exact loaded submitting
  | loadFlush block | exchangeGap block | cutSource block | cutGeneration source block
  | loadSource block | record block =>
    refine ⟨loaded submitting.1, ?_⟩
    have := submitting.2
    omega
  | publish slot =>
    obtain ⟨first, second, even, before, room, stored⟩ := submitting
    rw [Submitting, accepted, slots, write]
    exact ⟨first.trans control, second.trans pause, even, before, by omega, stored⟩
  | _ => trivial

theorem Queue.slot (queue : Queue input) {slot : Slot}
    (here : input.accepted[input.readIndex]? = some slot) : input.slot = slot :=
  queue.stored input.readIndex le_rfl slot here

theorem Queue.get (queue : Queue input) (more : input.readIndex < input.writeIndex) :
    ∃ slot, input.accepted[input.readIndex]? = some slot ∧ input.slot = slot := by
  have inside : input.readIndex < input.accepted.length := queue.length ▸ more
  have here := List.getElem?_eq_getElem inside
  exact ⟨_, here, queue.slot here⟩

theorem mod_ne {write i : Nat} (below : i < write) (near : write < i + queueSlots) :
    write % queueSlots ≠ i % queueSlots := by
  intro same
  have gap := Nat.sub_mod_eq_zero_of_mod_eq same
  rw [Nat.mod_eq_of_lt (by omega)] at gap
  omega

theorem Queue.record (queue : Queue input) {block : Submission}
    (submitting : Submitting input (.record block)) {slot : Slot} {control : Nat}
    (made : slot = ⟨block.info, block.count, control, block.pauseControl, block.source⟩)
    (loaded : control = input.control) :
    Queue { input with
        slots := Function.update input.slots (input.writeIndex % queueSlots) slot } ∧
      Submitting { input with
        slots := Function.update input.slots (input.writeIndex % queueSlots) slot }
        (.publish slot) := by
  obtain ⟨⟨pause, even, before⟩, room⟩ := submitting
  constructor
  · exact { queue with
      stored := by
        intro i after other there
        have below : i < input.writeIndex := by
          rw [← queue.length]
          exact (List.getElem?_eq_some_iff.mp there).1
        dsimp only at after ⊢
        rw [Function.update_of_ne (mod_ne below (by omega)).symm]
        exact queue.stored i after other there }
  · rw [made, loaded]
    exact ⟨le_rfl, pause, even, fun other member =>
      ⟨(queue.bounds other member).1, before other member⟩, room, Function.update_self ..⟩

theorem Queue.publish (queue : Queue input) {slot : Slot}
    (submitting : Submitting input (.publish slot)) :
    Queue { input with
      writeIndex := input.writeIndex + 1
      accepted := input.accepted ++ [slot] } := by
  obtain ⟨control, pause, even, before, room, stored⟩ := submitting
  exact {
    length := by
      dsimp only
      rw [List.length_append, queue.length]
      rfl
    read := queue.read.trans (Nat.le_succ _)
    room := room
    stored := by
      intro i after other there
      dsimp only at there
      rcases Nat.lt_or_ge i input.accepted.length with below | beyond
      · rw [List.getElem?_append_left below] at there
        exact queue.stored i after other there
      · have inside := (List.getElem?_eq_some_iff.mp there).1
        rw [List.length_append, List.length_singleton] at inside
        have last : i = input.accepted.length := by omega
        rw [last, List.getElem?_concat_length, Option.some_inj] at there
        rw [last, queue.length, ← there]
        exact stored
    ordered := List.pairwise_append.mpr ⟨queue.ordered, List.pairwise_singleton _ _,
      fun first member second last => by
        rw [List.mem_singleton.mp last]
        exact before first member⟩
    bounds := by
      intro other member
      rcases List.mem_append.mp member with earlier | last
      · exact queue.bounds other earlier
      · rw [List.mem_singleton.mp last]
        exact ⟨control, pause, even⟩ }

theorem Queue.after (queue : Queue input) {before slot : Slot} {i : Nat}
    (earlier : before ∈ input.accepted.take i) (here : input.accepted[i]? = some slot) :
    before.control ≤ slot.control ∧ before.pauseControl ≤ slot.pauseControl := by
  have ordered := queue.ordered
  rw [← List.take_append_drop i input.accepted] at ordered
  apply (List.pairwise_append.mp ordered).2.2 before earlier
  obtain ⟨inside, same⟩ := List.getElem?_eq_some_iff.mp here
  rw [← same]
  exact List.mem_drop_iff_getElem.mpr ⟨0, by omega, by simp⟩

/-- The blocks since the last reset, and what the worker remembers of them. -/
structure Base (input : Input) (applied : Applied) (stream : Stream) : Prop where
  control : applied.control ≤ input.control
  pause : applied.pauseControl ≤ input.pauseControl
  suffix : stream.run <:+ input.accepted.take stream.fed
  fed : stream.fed ≤ input.writeIndex
  chain : stream.run.IsChain Adjacent
  uniform : ∀ block ∈ stream.run,
    block.control = applied.control ∧ block.pauseControl = applied.pauseControl
  resampler : stream.run ≠ [] → stream.resampler = true
  last : ∀ block ∈ stream.run.getLast?, stream.streamValid = true ∧
    block.info.epoch = stream.sourceEpoch ∧ block.info.sampleRateHz = stream.sourceRate ∧
    block.info.startSample + block.count = stream.expectedSourceSample

def Fresh (input : Input) (stream : Stream) : Prop :=
  stream.run = [] ∨ stream.fed = input.readIndex

def Behind (input : Input) (applied : Applied) : Prop :=
  applied.control < input.control ∨ applied.pauseControl < input.pauseControl

def Here (input : Input) (applied : Applied) (slot : Slot) : Prop :=
  input.accepted[input.readIndex]? = some slot ∧ slot.control = applied.control ∧
    slot.pauseControl = applied.pauseControl

def Fed (input : Input) (stream : Stream) : Prop :=
  (stream.run = [] ∨ stream.fed = input.readIndex + 1) ∧ input.readIndex < input.writeIndex

def Resetting (input : Input) (applied : Applied) (stream : Stream) (video : Video) :
    After → Prop
  | .control => video.control ≤ input.control
  | .pause => video.pauseControl ≤ input.pauseControl
  | .flush => True
  | .boundary => ∃ slot, Here input applied slot ∧ slot.info.sampleRateHz = stream.sourceRate
  | .failed => input.readIndex < input.writeIndex

def Placed (input : Input) (applied : Applied) (stream : Stream) (video : Video) :
    VideoPc → Prop
  | .loadControl => Fresh input stream ∨ Behind input applied
  | .loadProfile | .startAudio _ => video.control ≤ input.control
  | .invalidate after | .clear after =>
    stream.run = [] ∧ Resetting input applied stream video after
  | .storeControl => stream.run = [] ∧ video.control ≤ input.control
  | .loadPause => Fresh input stream ∨ applied.pauseControl < input.pauseControl
  | .scanPaused _ | .storeFlush | .storePause =>
    stream.run = [] ∧ video.pauseControl ≤ input.pauseControl
  | .storePaused target _ => (stream.run = [] ∧ video.pauseControl ≤ input.pauseControl) ∧
    input.readIndex ≤ target ∧ target ≤ input.writeIndex
  | .exchangeFlush | .loadWrite => Fresh input stream ∧ video.pauseControl = applied.pauseControl
  | .loadQueued => stream.run = []
  | .storeQueued target =>
    stream.run = [] ∧ input.readIndex ≤ target ∧ target ≤ input.writeIndex
  | .look => (Fresh input stream ∧ video.pauseControl = applied.pauseControl) ∧
    input.readIndex < input.writeIndex
  | .budget | .recheckPause | .recheckControl | .boundary =>
    Fresh input stream ∧ ∃ slot, Here input applied slot
  | .abandon => Fresh input stream
  | .release => (stream.run = [] ∨ stream.fed = input.readIndex + 1 ∨ Behind input applied) ∧
    input.readIndex < input.writeIndex
  | _ => Fed input stream

/-- The frame and the frames taken come from blocks of one control. -/
structure Shown (frames : Frames) : Prop where
  frame : frames.valid = true → ∀ block ∈ frames.blocks, block.control = frames.control
  taken : ∀ taken ∈ frames.taken, ∀ block ∈ taken.blocks, block.control = taken.control

structure Inv (s : State) : Prop where
  queue : Queue s.input
  submitting : Submitting s.input s.producer.pc
  base : Base s.input s.applied s.stream
  placed : Placed s.input s.applied s.stream s.video s.video.pc
  shown : Shown s.frames

structure Grows (input more : Input) : Prop where
  accepted : input.accepted <+: more.accepted
  read : more.readIndex = input.readIndex
  write : input.writeIndex ≤ more.writeIndex
  control : input.control ≤ more.control
  pause : input.pauseControl ≤ more.pauseControl

theorem Base.grow (base : Base input applied stream) (queue : Queue input)
    (grows : Grows input more) : Base more applied stream where
  control := base.control.trans grows.control
  pause := base.pause.trans grows.pause
  suffix := by
    obtain ⟨rest, all⟩ := grows.accepted
    rw [← all, List.take_append_of_le_length (queue.length ▸ base.fed)]
    exact base.suffix
  fed := base.fed.trans grows.write
  __ := base

theorem Here.grow {slot : Slot} (here : Here input applied slot) (grows : Grows input more) :
    Here more applied slot := by
  refine ⟨?_, here.2⟩
  obtain ⟨rest, all⟩ := grows.accepted
  rw [grows.read, ← all,
    List.getElem?_append_left (List.getElem?_eq_some_iff.mp here.1).1]
  exact here.1

theorem Behind.grow (behind : Behind input applied) (grows : Grows input more) :
    Behind more applied :=
  behind.imp (fun late => late.trans_le grows.control) (fun late => late.trans_le grows.pause)

theorem Fed.grow (fed : Fed input stream) (grows : Grows input more) : Fed more stream := by
  rw [Fed, grows.read]
  exact ⟨fed.1, fed.2.trans_le grows.write⟩

theorem Resetting.grow {after : After} (resetting : Resetting input applied stream video after)
    (grows : Grows input more) : Resetting more applied stream video after := by
  have write := grows.write
  cases after with
  | control => exact Nat.le_trans resetting grows.control
  | pause => exact Nat.le_trans resetting grows.pause
  | flush => trivial
  | boundary =>
    obtain ⟨slot, here, rate⟩ := resetting
    exact ⟨slot, here.grow grows, rate⟩
  | failed =>
    rw [Resetting, grows.read]
    exact Nat.lt_of_lt_of_le resetting write

theorem Placed.grow {pc : VideoPc} (placed : Placed input applied stream video pc)
    (grows : Grows input more) : Placed more applied stream video pc := by
  have control := grows.control
  have pause := grows.pause
  have write := grows.write
  have fresh : Fresh input stream → Fresh more stream := by
    rw [Fresh, Fresh, grows.read]
    exact id
  cases pc with
  | loadControl => exact placed.imp fresh fun behind => behind.grow grows
  | loadProfile | startAudio wasEdBeta => exact Nat.le_trans placed control
  | invalidate after | clear after => exact ⟨placed.1, placed.2.grow grows⟩
  | storeControl => exact ⟨placed.1, placed.2.trans control⟩
  | loadPause => exact placed.imp fresh fun late => late.trans_le pause
  | scanPaused applying | storeFlush | storePause => exact ⟨placed.1, placed.2.trans pause⟩
  | storePaused target applying =>
    exact ⟨⟨placed.1.1, placed.1.2.trans pause⟩, grows.read.trans_le placed.2.1,
      placed.2.2.trans write⟩
  | exchangeFlush | loadWrite => exact ⟨fresh placed.1, placed.2⟩
  | loadQueued => exact placed
  | storeQueued target =>
    exact ⟨placed.1, grows.read.trans_le placed.2.1, placed.2.2.trans write⟩
  | look => exact ⟨⟨fresh placed.1.1, placed.1.2⟩, grows.read.trans_lt (placed.2.trans_le write)⟩
  | budget | recheckPause | recheckControl | boundary =>
    exact ⟨fresh placed.1, placed.2.imp fun slot here => here.grow grows⟩
  | abandon => exact fresh placed
  | release =>
    rw [Placed, grows.read]
    exact ⟨placed.1.imp_right (Or.imp_right fun behind => behind.grow grows),
      placed.2.trans_le write⟩
  | _ => exact Fed.grow placed grows

theorem Inv.controls {requests : Requests} {sound : Sound} {ui : UiPc} (inv : Inv s)
    {control pauseControl : Nat} (up : s.input.control ≤ control)
    (later : s.input.pauseControl ≤ pauseControl) :
    Inv { s with requests, sound, ui, input := { s.input with control, pauseControl } } := by
  have grows : Grows s.input { s.input with control, pauseControl } :=
    ⟨List.prefix_rfl, rfl, le_rfl, up, later⟩
  exact {
    queue := inv.queue.grow rfl rfl rfl le_rfl inv.queue.read up later
    submitting := inv.submitting.grow rfl rfl rfl le_rfl up later
    base := inv.base.grow inv.queue grows
    placed := inv.placed.grow grows
    shown := inv.shown }

theorem takeFrame_inv (inv : Inv s) (generation : Nat) (fits : Bool) :
    Inv (takeFrame s generation fits) := by
  rw [takeFrame]
  split
  · rename_i taken
    simp only [Bool.and_eq_true, decide_eq_true_eq] at taken
    obtain ⟨⟨⟨⟨valid, current⟩, _⟩, _⟩, _⟩ := taken
    refine { inv with shown := ⟨inv.shown.frame, ?_⟩ }
    intro one member
    rcases List.mem_append.mp member with earlier | last
    · exact inv.shown.taken one earlier
    · rw [List.mem_singleton.mp last]
      intro block among
      exact (inv.shown.frame valid block among).trans current
  · exact inv

theorem uiCall_inv (inv : Inv s) {call : Call} (stepped : uiCall s call = some next) :
    Inv next := by
  have same {requests : Requests} {sound : Sound} {ui : UiPc} :
      Inv { s with requests, sound, ui } := inv.controls le_rfl le_rfl
  cases call with
  | setAudioCallback | reset =>
    cases stepped
    exact same
  | setAudioEnabled | setProfile =>
    rw [uiCall] at stepped
    split at stepped
    · cases stepped
      exact inv
    · cases stepped
      exact same
  | setPaused paused =>
    rw [uiCall] at stepped
    split at stepped
    · cases stepped
      exact inv
    · cases stepped
      apply inv.controls le_rfl
      omega
  | takeFrame generation fits =>
    cases stepped
    exact takeFrame_inv inv generation fits

theorem uiStep_inv (inv : Inv s) (stepped : uiStep s = some next) : Inv next := by
  rw [uiStep] at stepped
  split at stepped
  · cases stepped
  · cases stepped
    exact inv.controls le_rfl le_rfl
  · cases stepped
    exact inv.controls le_rfl le_rfl
  · cases stepped
    exact inv.controls le_rfl le_rfl
  · cases stepped
    exact inv.controls (Nat.le_succ _) le_rfl

theorem Inv.submit {requests : Requests} {sound : Sound} {producer : Producer} (inv : Inv s)
    (submitting : Submitting s.input producer.pc) :
    Inv { s with requests, sound, producer } :=
  { inv with submitting }

theorem producerStep_inv (inv : Inv s) {late : Bool} (stepped : producerStep s late = some next) :
    Inv next := by
  have submitting := inv.submitting
  rw [producerStep] at stepped
  split at stepped
  · cases stepped
  · split at stepped
    · cases stepped
      exact inv.submit trivial
    · rename_i even
      split at stepped
      · cases stepped
        exact inv.submit trivial
      · cases stepped
        apply inv.submit
        exact ⟨le_rfl, Nat.mod_two_ne_one.mp even, fun slot member =>
          (inv.queue.bounds slot member).2.1⟩
  · rename_i phase
    rw [phase] at submitting
    split at stepped
    · cases stepped
      exact inv.submit trivial
    · cases stepped
      exact inv.submit submitting
  · rename_i phase
    rw [phase] at submitting
    split at stepped
    · cases stepped
      exact inv.submit trivial
    · rename_i room
      cases stepped
      apply inv.submit
      exact ⟨submitting, by omega⟩
  · rename_i phase
    rw [phase] at submitting
    cases stepped
    apply inv.submit
    dsimp only [Producer.goto]
    split
    · trivial
    · exact submitting
  · rename_i phase
    rw [phase] at submitting
    cases stepped
    apply inv.submit
    dsimp only [Producer.goto]
    split
    · exact submitting
    · exact submitting
  · rename_i phase
    rw [phase] at submitting
    cases stepped
    exact inv.submit submitting
  · rename_i phase
    rw [phase] at submitting
    cases stepped
    exact inv.submit submitting
  · rename_i phase
    rw [phase] at submitting
    cases stepped
    exact inv.submit submitting
  · rename_i block phase
    rw [phase] at submitting
    obtain ⟨queue, publishing⟩ := inv.queue.record submitting rfl rfl
    have grows : Grows s.input { s.input with
        slots := Function.update s.input.slots (s.input.writeIndex % queueSlots)
          ⟨block.info, block.count, s.input.control, block.pauseControl, block.source⟩ } :=
      ⟨List.prefix_rfl, rfl, le_rfl, le_rfl, le_rfl⟩
    cases stepped
    exact {
      queue
      submitting := publishing
      base := inv.base.grow inv.queue grows
      placed := inv.placed.grow grows
      shown := inv.shown }
  · rename_i slot phase
    rw [phase] at submitting
    have grows : Grows s.input { s.input with
        writeIndex := s.input.writeIndex + 1
        accepted := s.input.accepted ++ [slot] } :=
      ⟨List.prefix_append _ _, rfl, Nat.le_succ _, le_rfl, le_rfl⟩
    cases stepped
    exact {
      queue := inv.queue.publish submitting
      submitting := trivial
      base := inv.base.grow inv.queue grows
      placed := inv.placed.grow grows
      shown := inv.shown }
  · cases stepped
    apply inv.submit
    dsimp only [Producer.goto]
    split
    · trivial
    · trivial
  · cases stepped
    exact inv.submit trivial
  · cases stepped
    exact inv.submit trivial
  · cases stepped
    exact inv.submit trivial

theorem Base.empty (base : Base input applied stream) {other : Worker.Stream} {after : Applied}
    (none : other.run = []) (fed : other.fed = stream.fed)
    (control : after.control ≤ input.control)
    (pause : after.pauseControl ≤ input.pauseControl) : Base input after other where
  control := control
  pause := pause
  suffix := by
    rw [none]
    exact List.nil_suffix
  fed := fed ▸ base.fed
  chain := by
    rw [none]
    exact .nil
  uniform := by
    rw [none]
    intro block member
    cases member
  resampler := fun some => absurd none some
  last := by
    rw [none]
    intro block member
    cases member

theorem Base.advance (base : Base input applied stream) (queue : Queue input) {slot : Slot}
    (here : Here input applied slot) (fresh : Fresh input stream)
    (valid : stream.streamValid = true) (epoch : slot.info.epoch = stream.sourceEpoch)
    (rate : slot.info.sampleRateHz = stream.sourceRate)
    (goes : stream.run ≠ [] → slot.info.startSample = stream.expectedSourceSample ∧
      slot.info.discontinuity = false) :
    Base input applied (stream.advance slot input.readIndex) ∧
      Placed input applied (stream.advance slot input.readIndex) video stream.next := by
  have inside : input.readIndex < input.writeIndex :=
    queue.length ▸ (List.getElem?_eq_some_iff.mp here.1).1
  rw [Worker.Stream.advance, Worker.Stream.next]
  by_cases resampler : stream.resampler = true
  · rw [if_pos resampler, if_pos resampler]
    have before : stream.run <:+ input.accepted.take input.readIndex := by
      rcases fresh with none | fed
      · rw [none]
        exact List.nil_suffix
      · exact fed ▸ base.suffix
    refine ⟨{ base with
      suffix := ?_
      fed := inside
      chain := ?_
      uniform := ?_
      resampler := fun _ => resampler
      last := ?_ }, .inr rfl, inside⟩
    · obtain ⟨rest, all⟩ := before
      dsimp only
      rw [List.take_add_one, here.1, ← all]
      exact ⟨rest, (List.append_assoc ..).symm⟩
    · apply List.isChain_append.mpr
      refine ⟨base.chain, .singleton _, ?_⟩
      intro last member next only
      obtain ⟨_, lastEpoch, lastRate, ends⟩ := base.last last member
      have some : stream.run ≠ [] := by
        intro none
        rw [none] at member
        cases member
      obtain ⟨start, continuous⟩ := goes some
      cases only
      exact ⟨epoch.trans lastEpoch.symm, rate.trans lastRate.symm, start.trans ends.symm,
        continuous⟩
    · intro block member
      rcases List.mem_append.mp member with earlier | last
      · exact base.uniform block earlier
      · rw [List.mem_singleton.mp last]
        exact here.2
    · intro block member
      dsimp only at member
      rw [List.getLast?_concat] at member
      cases member
      exact ⟨valid, epoch, rate, rfl⟩
  · rw [if_neg resampler, if_neg resampler]
    have none : stream.run = [] := by
      by_contra some
      exact resampler (base.resampler some)
    exact ⟨base.empty none rfl base.control base.pause, .inl none, inside⟩

theorem Inv.keep {requests : Requests} {sound : Sound} {video : Video} (inv : Inv s)
    (shown : Shown frames) (placed : Placed s.input s.applied s.stream video video.pc) :
    Inv { s with requests, sound, frames, video } :=
  { inv with shown, placed }

theorem Inv.empty {requests : Requests} {sound : Sound} {stream : Worker.Stream} {video : Video}
    (inv : Inv s) (shown : Shown frames) (control : applied.control ≤ s.input.control)
    (pause : applied.pauseControl ≤ s.input.pauseControl) (none : stream.run = [])
    (fed : stream.fed = s.stream.fed) (placed : Placed s.input applied stream video video.pc) :
    Inv { s with requests, sound, frames, applied, stream, video } :=
  { inv with shown, base := inv.base.empty none fed control pause, placed }

theorem Inv.reset {requests : Requests} {sound : Sound} {stream : Worker.Stream} {video : Video}
    (inv : Inv s) (none : stream.run = []) (fed : stream.fed = s.stream.fed)
    (placed : Placed s.input s.applied stream video video.pc) :
    Inv { s with requests, sound, stream, video } :=
  inv.empty inv.shown inv.base.control inv.base.pause none fed placed

theorem Inv.release {target : Nat} {video : Video} (inv : Inv s)
    (up : s.input.readIndex ≤ target) (inside : target ≤ s.input.writeIndex)
    (placed : Placed { s.input with readIndex := target } s.applied s.stream video video.pc) :
    Inv { s with input := { s.input with readIndex := target }, video } where
  queue := inv.queue.grow rfl rfl rfl up inside le_rfl le_rfl
  submitting := inv.submitting.grow rfl rfl rfl up le_rfl le_rfl
  base := { inv.base with }
  placed := placed
  shown := inv.shown

theorem scanPaused_inside (input : Input) (pauseControl left read : Nat) :
    read ≤ scanPaused input pauseControl left read ∧
      scanPaused input pauseControl left read ≤ read + left := by
  induction left generalizing read with
  | zero => exact ⟨le_rfl, le_rfl⟩
  | succ left ih =>
    rw [scanPaused]
    split
    · omega
    · have := ih (read + 1)
      omega

theorem Inv.dropped (inv : Inv s) (fresh : Fresh s.input s.stream)
    (inside : s.input.readIndex < s.input.writeIndex)
    (other : s.input.slot.control ≠ s.applied.control ∨
      s.input.slot.pauseControl ≠ s.applied.pauseControl) :
    s.stream.run = [] ∨ Behind s.input s.applied := by
  rcases fresh with none | fed
  · exact .inl none
  rcases List.eq_nil_or_concat' s.stream.run with none | ⟨rest, block, all⟩
  · exact .inl none
  obtain ⟨slot, here, same⟩ := inv.queue.get inside
  have member : block ∈ s.stream.run := by
    rw [all]
    exact List.mem_append_right _ (List.mem_singleton_self block)
  have earlier : block ∈ s.input.accepted.take s.input.readIndex :=
    fed ▸ inv.base.suffix.subset member
  obtain ⟨control, pause⟩ := inv.queue.after earlier here
  obtain ⟨first, second⟩ := inv.base.uniform block member
  obtain ⟨below, under, _⟩ := inv.queue.bounds slot (List.mem_of_getElem? here)
  rw [same] at other
  right
  rw [Behind]
  omega

theorem afterReset_inv {after : After} (inv : Inv s) (phase : s.video.pc = .clear after) :
    Inv (afterReset s after) := by
  have placed := inv.placed
  rw [phase] at placed
  obtain ⟨none, resetting⟩ := placed
  cases after with
  | control | pause => exact inv.keep inv.shown ⟨none, resetting⟩
  | flush => exact inv.keep inv.shown none
  | boundary =>
    obtain ⟨slot, here, rate⟩ := resetting
    rw [afterReset, inv.queue.slot here.1]
    have base : Base s.input s.applied
        { s.stream with sourceEpoch := slot.info.epoch, streamValid := true } :=
      inv.base.empty none rfl inv.base.control inv.base.pause
    obtain ⟨base, placed⟩ := base.advance inv.queue here (.inl none) rfl rfl rate
      (fun some => absurd none some)
    exact { inv with base, placed }
  | failed => exact inv.keep inv.shown ⟨.inl none, resetting⟩

theorem videoStep_inv (inv : Inv s) (choice : Choice) : Inv (videoStep s choice) := by
  have placed := inv.placed
  have control := inv.base.control
  have pause := inv.base.pause
  rw [videoStep]
  split <;> rename_i phase <;> rw [phase] at placed
  · -- loadControl
    apply inv.keep inv.shown
    dsimp only
    split
    · exact le_rfl
    · rename_i same
      refine placed.imp_right fun behind => behind.resolve_left ?_
      omega
  · -- loadProfile
    exact { inv with base := { inv.base with }, placed := placed }
  · -- startAudio
    rename_i wasEdBeta
    apply inv.reset rfl
    · split
      · rfl
      · rfl
    · exact ⟨rfl, placed⟩
  · -- invalidate
    exact inv.keep inv.shown placed
  · -- clear
    rename_i after
    refine afterReset_inv (s := { s with frames := _ }) { inv with shown := ⟨?_, inv.shown.taken⟩ }
      phase
    intro valid
    exact inv.shown.frame (Bool.and_eq_true_iff.mp valid).1
  · -- storeControl
    exact inv.empty inv.shown placed.2 pause placed.1 rfl (.inl (.inl placed.1))
  · -- loadPause
    split
    · exact inv.reset rfl rfl ⟨rfl, le_rfl⟩
    · rename_i same
      apply inv.keep inv.shown
      have fresh : Fresh s.input s.stream := by
        refine placed.resolve_right ?_
        omega
      dsimp only
      split
      · rename_i odd
        refine ⟨?_, le_rfl⟩
        apply List.eq_nil_iff_forall_not_mem.mpr
        intro block member
        have accepted := List.mem_of_mem_take (inv.base.suffix.subset member)
        have even := (inv.queue.bounds block accepted).2.2
        have applied := (inv.base.uniform block member).2
        omega
      · exact ⟨fresh, not_not.mp same⟩
  · -- scanPaused
    apply inv.keep inv.shown
    obtain ⟨up, inside⟩ := scanPaused_inside s.input s.video.pauseControl
      (s.input.writeIndex - s.input.readIndex) s.input.readIndex
    have := inv.queue.read
    exact ⟨placed, up, by omega⟩
  · -- storePaused
    apply inv.release placed.2.1 placed.2.2
    dsimp only [Video.goto]
    split
    · exact placed.1
    · exact .inl (.inl placed.1.1)
  · -- storeFlush
    exact inv.keep inv.shown placed
  · -- storePause
    exact inv.empty inv.shown control placed.2 placed.1 rfl (.inl (.inl placed.1))
  · -- exchangeFlush
    split
    · exact inv.reset rfl rfl ⟨rfl, trivial⟩
    · exact inv.keep inv.shown placed
  · -- loadQueued
    exact inv.keep inv.shown ⟨placed, inv.queue.read, le_rfl⟩
  · -- storeQueued
    exact inv.release placed.2.1 placed.2.2 (.inl (.inl placed.1))
  · -- loadWrite
    apply inv.keep inv.shown
    dsimp only [Video.goto]
    split
    · exact .inl placed.1
    · rename_i more
      exact ⟨placed, lt_of_le_of_ne inv.queue.read more⟩
  · -- look
    obtain ⟨⟨fresh, same⟩, inside⟩ := placed
    split
    · exact inv.reset rfl rfl ⟨rfl, trivial⟩
    · split
      · rename_i other
        have dropped := inv.dropped fresh inside (.inl other)
        exact inv.keep inv.shown ⟨dropped.imp_right .inr, inside⟩
      · rename_i current
        split
        · rename_i other
          rw [same] at other
          have dropped := inv.dropped fresh inside (.inr other)
          exact inv.keep inv.shown ⟨dropped.imp_right .inr, inside⟩
        · rename_i steady
          obtain ⟨slot, here, found⟩ := inv.queue.get inside
          rw [found] at current steady
          rw [same] at steady
          exact inv.keep inv.shown ⟨fresh, slot, here, not_not.mp current, not_not.mp steady⟩
  · -- budget
    apply inv.keep inv.shown
    dsimp only [Video.goto]
    split
    · exact placed
    · exact .inl placed.1
  · -- recheckPause
    apply inv.keep inv.shown
    dsimp only [Video.goto]
    split
    · exact placed
    · exact placed.1
  · -- recheckControl
    apply inv.keep inv.shown
    dsimp only [Video.goto]
    split
    · exact placed
    · exact placed.1
  · -- abandon
    split
    · exact inv.reset rfl rfl ⟨rfl, trivial⟩
    · exact inv.keep inv.shown (.inl placed)
  · -- boundary
    obtain ⟨fresh, slot, here⟩ := placed
    rw [inv.queue.slot here.1]
    split
    · apply inv.reset rfl
      · split
        · rfl
        · rfl
      · refine ⟨rfl, slot, here, ?_⟩
        split
        · rfl
        · rename_i same
          exact not_not.mp same
    · rename_i goes
      simp only [Worker.Stream.boundary, Bool.or_eq_true, Bool.not_eq_true', decide_eq_true_eq,
        not_or, Bool.not_eq_false, Bool.not_eq_true, not_not] at goes
      obtain ⟨⟨⟨⟨valid, continuous⟩, epoch⟩, rate⟩, start⟩ := goes
      obtain ⟨base, placed⟩ := inv.base.advance inv.queue here fresh valid epoch rate
        (fun _ => ⟨start, continuous⟩)
      exact { inv with base, placed }
  · -- loadGeneration
    apply inv.keep inv.shown
    dsimp only
    split
    · exact placed
    · exact placed
  · -- loadEnabled
    exact inv.keep inv.shown placed
  · -- resample
    split
    · exact inv.reset rfl rfl ⟨rfl, placed.2⟩
    · split
      · exact inv.keep inv.shown placed
      · exact inv.keep inv.shown placed
  · -- enqueue
    exact inv.keep inv.shown placed
  · apply inv.keep inv.shown
    dsimp only [Video.goto]
    split
    · exact placed
    · exact placed
  · -- loadAudioRead
    apply inv.keep inv.shown
    dsimp only [Video.goto]
    split
    · exact placed
    · exact placed
  · -- dropAudio
    exact inv.keep inv.shown placed
  · -- writeAudio
    exact inv.keep inv.shown placed
  · -- storeAudioWrite
    exact inv.keep inv.shown placed
  · -- decode
    apply inv.keep inv.shown
    dsimp only [Video.goto]
    split
    · exact placed
    · exact ⟨placed.1.imp_right .inl, placed.2⟩
  · -- callback
    exact inv.keep inv.shown placed
  · apply inv.keep inv.shown
    dsimp only [Video.goto]
    split
    · exact placed
    · exact placed
  · -- storeFrame
    refine inv.keep ⟨?_, inv.shown.taken⟩ placed
    intro _ block member
    exact (inv.base.uniform block member).1
  · -- release
    apply inv.release (Nat.le_succ _) placed.2
    rcases placed.1 with none | fed | behind
    · exact .inl (.inl none)
    · exact .inl (.inr fed)
    · exact .inr behind

theorem audioStep_inv (inv : Inv s) (choice : Choice) : Inv (audioStep s choice) := by
  rw [audioStep]
  split <;> exact { inv with }

theorem step_inv (inv : Inv s) {action : Action} (stepped : step s action = some next) :
    Inv next := by
  cases action with
  | call call =>
    rw [step] at stepped
    split at stepped
    · exact uiCall_inv inv stepped
    · cases stepped
  | ui => exact uiStep_inv inv stepped
  | submit info count =>
    rw [step] at stepped
    split at stepped
    · cases stepped
      exact inv.submit trivial
    · cases stepped
  | producer late => exact producerStep_inv inv stepped
  | video choice =>
    cases stepped
    exact videoStep_inv inv choice
  | audio choice =>
    rw [step] at stepped
    split at stepped
    · cases stepped
      exact audioStep_inv inv choice
    · cases stepped

theorem initial_inv (profile : Profile) (slots : Nat → Slot) (audioReady : Bool) :
    Inv (initial profile slots audioReady) where
  queue := {
    length := rfl
    read := le_rfl
    room := Nat.zero_le _
    stored := fun i _ slot here => by cases here
    ordered := .nil
    bounds := fun slot member => by cases member }
  submitting := trivial
  base := {
    control := le_rfl
    pause := le_rfl
    suffix := List.nil_suffix
    fed := le_rfl
    chain := .nil
    uniform := fun block member => by cases member
    resampler := fun some => absurd rfl some
    last := fun block member => by cases member }
  placed := .inl (.inl rfl)
  shown := ⟨fun _ block member => (by cases member), fun one member => by cases member⟩

theorem run_inv {profile : Profile} {slots : Nat → Slot} {audioReady : Bool}
    {actions : List Action}
    (ran : Machine.run step (initial profile slots audioReady) actions = some s) : Inv s :=
  Machine.run_invariant Inv (fun _ _ _ inv stepped => step_inv inv stepped)
    (initial_inv profile slots audioReady) ran

/-- Between two resets the decoder is given blocks submitted one after another, of one epoch and
one rate, of which only the first can be marked discontinuous; and a frame is taken only if all
its blocks were submitted under the control of that moment. -/
theorem streams_apart (profile : Profile) (slots : Nat → Slot) (audioReady : Bool)
    (actions : List Action) (s : State)
    (ran : Machine.run step (initial profile slots audioReady) actions = some s) :
    (s.stream.run <:+: s.input.accepted ∧ s.stream.run.IsChain Adjacent) ∧
      ∀ taken ∈ s.frames.taken, ∀ block ∈ taken.blocks, block.control = taken.control := by
  have inv := run_inv ran
  refine ⟨⟨?_, inv.base.chain⟩, inv.shown.taken⟩
  exact inv.base.suffix.isInfix.trans (List.take_prefix _ _).isInfix

/-- The first block begins a stream and the second goes on; their frame is taken. -/
def twoBlocks : List Action :=
  let work : Choice := ⟨false, true, false, true, true, 0, false⟩
  .submit ⟨1, 40000000, 0, true⟩ 4 :: List.replicate 10 (.producer false) ++
    .submit ⟨1, 40000000, 4, false⟩ 4 :: List.replicate 8 (.producer false) ++
    List.replicate 26 (.video work) ++ List.replicate 7 (.video { work with calls := true }) ++
    [.call (.takeFrame 0 true)]

theorem streams_apart_taken : ∃ s,
    Machine.run step (initial .palVhs (fun _ => ⟨⟨0, 0, 0, false⟩, 0, 0, 0, 0⟩) false) twoBlocks =
      some s ∧ (s.stream.run.length = 2 ∧ s.frames.taken.length = 1) ∧
    ((s.stream.run <:+: s.input.accepted ∧ s.stream.run.IsChain Adjacent) ∧
      ∀ taken ∈ s.frames.taken, ∀ block ∈ taken.blocks, block.control = taken.control) := by
  have lengths : (Machine.run step
      (initial .palVhs (fun _ => ⟨⟨0, 0, 0, false⟩, 0, 0, 0, 0⟩) false) twoBlocks).map
        (fun s => (s.stream.run.length, s.frames.taken.length)) = some (2, 1) := by
    decide +kernel
  obtain ⟨s, ran, both⟩ := Option.map_eq_some_iff.mp lengths
  rw [Prod.mk.injEq] at both
  exact ⟨s, ran, both, streams_apart _ _ _ _ _ ran⟩

/-- The block that begins a stream is marked discontinuous, and another follows it. -/
theorem marked_block_followed : ¬ ∀ profile slots audioReady actions s,
    Machine.run step (initial profile slots audioReady) actions = some s →
      s.stream.run.Pairwise fun first _ => first.info.discontinuity = false := by
  intro unmarked
  have marks : (Machine.run step
      (initial .palVhs (fun _ => ⟨⟨0, 0, 0, false⟩, 0, 0, 0, 0⟩) false) twoBlocks).map
        (fun s => s.stream.run.map fun slot => slot.info.discontinuity) = some [true, false] := by
    decide +kernel
  obtain ⟨s, ran, both⟩ := Option.map_eq_some_iff.mp marks
  have pairwise : (s.stream.run.map fun slot => slot.info.discontinuity).Pairwise
      fun first _ => first = false := List.pairwise_map.mpr (unmarked _ _ _ _ _ ran)
  rw [both, List.pairwise_cons] at pairwise
  exact absurd (pairwise.1 false (List.mem_singleton_self _)) nofun

end MisrcGui.RfPreview.Streams
