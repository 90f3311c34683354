import MisrcGui.Record.LegacyChannel

/-! What holds of a record ring in every run of the legacy path: granted room stays
free until it is committed, and a block that the writer has been granted stays at
the head of the ring until the writer releases it. -/
namespace MisrcGui.Record.LegacyRing
open Library MisrcGui.Ring LegacyChannel

variable {Block : Type} {config : Config} {geometry : Geometry} {state next : State Block}
  {io : Io} {enqueued : Bool}

/-- Blocks that extraction has been granted room for and has not committed. -/
def promised : Extraction Block → Nat
  | .copy _ _ | .writeEnd _ => 1
  | _ => 0

def Granted (geometry : Geometry) (ring : RingBuffer Block) : Extraction Block → Prop
  | .copy _ pointer => pointer % geometry.size = ring.tail % geometry.size
  | .writeEnd block => copyOut geometry ring ring.tail 1 = [block]
  | _ => True

def reading : Writer Block → Option Nat
  | .write (.ring pointer) | .retry pointer | .spillEnqueue pointer false
  | .readEnd pointer _ => some pointer
  | _ => none

structure Sound (geometry : Geometry) (state : State Block) : Prop where
  ring : WellFormed geometry state.ring
  room : (contents geometry state.ring).length + promised state.extraction ≤ geometry.size
  granted : Granted geometry state.ring state.extraction
  readable : ∀ pointer, reading state.writer = some pointer →
    pointer = state.ring.head ∧ writerBlock ≤ (contents geometry state.ring).length

theorem initial_sound (buffer : Nat → Block) : Sound geometry (initial buffer) where
  ring := ⟨geometry.positive, le_rfl, Nat.zero_le _⟩
  room := by simp [initial, promised]
  granted := trivial
  readable := by simp [initial, reading]

theorem Sound.copyOut_eq (sound : Sound geometry state) {pointer : Nat}
    (here : reading state.writer = some pointer) :
    copyOut geometry state.ring pointer writerBlock =
      (contents geometry state.ring).take writerBlock := by
  have placed := sound.readable pointer here
  rw [placed.1]
  exact copyOut_head placed.2

theorem Sound.produce (sound : Sound geometry state) (ring : next.ring = state.ring)
    (writer : next.writer = state.writer)
    (room : (contents geometry state.ring).length + promised next.extraction ≤ geometry.size)
    (granted : Granted geometry state.ring next.extraction) : Sound geometry next where
  ring := ring ▸ sound.ring
  room := by rwa [ring]
  granted := by rwa [ring]
  readable := by
    rw [ring, writer]
    exact sound.readable

theorem Sound.yield (sound : Sound geometry state) (ring : next.ring = state.ring)
    (writer : next.writer = state.writer) (nothing : promised next.extraction = 0) :
    Sound geometry next := by
  refine sound.produce ring writer ?_ ?_
  · rw [nothing]
    exact (Nat.le_add_right _ _).trans sound.room
  · cases here : next.extraction with
    | copy | writeEnd => simp [here, promised] at nothing
    | _ => trivial

theorem Sound.write (sound : Sound geometry state) (ring : next.ring = state.ring)
    (extraction : next.extraction = state.extraction)
    (readable : ∀ pointer, reading next.writer = some pointer →
      pointer = state.ring.head ∧ writerBlock ≤ (contents geometry state.ring).length) :
    Sound geometry next where
  ring := ring ▸ sound.ring
  room := by
    rw [ring, extraction]
    exact sound.room
  granted := by
    rw [ring, extraction]
    exact sound.granted
  readable := by rwa [ring]

theorem Sound.leave (sound : Sound geometry state) (ring : next.ring = state.ring)
    (extraction : next.extraction = state.extraction) (nothing : reading next.writer = none) :
    Sound geometry next := by
  refine sound.write ring extraction ?_
  simp [nothing]

theorem Sound.keep (sound : Sound geometry state) (ring : next.ring = state.ring)
    (extraction : next.extraction = state.extraction)
    (same : reading next.writer = reading state.writer) : Sound geometry next := by
  refine sound.write ring extraction ?_
  rw [same]
  exact sound.readable

theorem recordStep_frame (h : recordStep geometry state enqueued = some next) :
    next.isRecording = state.isRecording ∧ next.doExit = state.doExit ∧
      next.writer = state.writer ∧ next.writeError = state.writeError ∧
      next.file = state.file := by
  unfold recordStep at h
  split at h
  · contradiction
  · split at h
    · cases h
      exact ⟨rfl, rfl, rfl, rfl, rfl⟩
    · split at h <;> cases h <;> exact ⟨rfl, rfl, rfl, rfl, rfl⟩
  · split at h <;> cases h <;> exact ⟨rfl, rfl, rfl, rfl, rfl⟩
  · cases h
    exact ⟨rfl, rfl, rfl, rfl, rfl⟩
  · cases h
    exact ⟨rfl, rfl, rfl, rfl, rfl⟩

theorem copy_sound (sound : Sound geometry state) {block : Block} {pointer : Nat}
    (here : state.extraction = .copy block pointer)
    (h : recordStep geometry state enqueued = some next) :
    Sound geometry next ∧ contents geometry next.ring = contents geometry state.ring := by
  have room := sound.room
  have place := sound.granted
  rw [here] at room place
  have fits : (contents geometry state.ring).length + [block].length ≤ geometry.size := room
  have same := contents_copyIn sound.ring fits
  simp only [recordStep, here, copyIn_congr [block] place] at h
  cases h
  refine ⟨⟨sound.ring.copyIn _ _, ?_, ?_, ?_⟩, same⟩
  · rw [same]
    exact room
  · apply copyOut_copyIn
    exact (Nat.le_add_left _ _).trans room
  · rw [same]
    exact sound.readable

theorem writeEnd_sound (sound : Sound geometry state) {block : Block}
    (here : state.extraction = .writeEnd block)
    (h : recordStep geometry state enqueued = some next) :
    Sound geometry next ∧
      contents geometry next.ring = contents geometry state.ring ++ [block] := by
  have room := sound.room
  have filled := sound.granted
  rw [here] at room filled
  dsimp only [promised, Granted] at room filled
  have committed := sound.ring.bufmgrWriteEnd room
  rw [filled] at committed
  have placed := sound.ring.bufmgrWriteEnd_eq room
  simp only [recordStep, here] at h
  cases h
  refine ⟨⟨committed.1, ?_, trivial, ?_⟩, committed.2⟩
  · rw [committed.2, List.length_append]
    exact room
  · intro pointer granted
    have readable := sound.readable pointer granted
    refine ⟨?_, ?_⟩
    · rw [placed]
      exact readable.1
    · rw [committed.2, List.length_append]
      exact readable.2.trans (Nat.le_add_right _ _)

theorem recordStep_sound (sound : Sound geometry state)
    (h : recordStep geometry state enqueued = some next) : Sound geometry next := by
  cases here : state.extraction with
  | idle => simp [recordStep, here] at h
  | writeBegin block attempts =>
    simp only [recordStep, here, sound.ring.rbWritePtr_eq] at h
    by_cases fits : (contents geometry state.ring).length + 1 ≤ geometry.size
    · simp only [if_pos fits] at h
      cases h
      exact sound.produce rfl rfl fits rfl
    · simp only [if_neg fits] at h
      split at h <;> cases h <;> exact sound.yield rfl rfl rfl
  | spillEnqueue block =>
    simp only [recordStep, here] at h
    split at h <;> cases h <;> exact sound.yield rfl rfl rfl
  | copy block pointer => exact (copy_sound sound here h).1
  | writeEnd block => exact (writeEnd_sound sound here h).1

@[simp] theorem reading_endRound (stopping : Bool) :
    reading (endRound stopping : Writer Block) = none := by
  cases stopping <;> rfl

theorem reading_release (source : Source Block) (following : Next) :
    reading (source.release following) = reading (.write source) := by
  cases source with
  | ring pointer => rfl
  | spill blocks => cases following <;> rfl

theorem readEnd_sound (sound : Sound geometry state) {pointer : Nat} {following : Next}
    (here : state.writer = .readEnd pointer following) :
    Sound geometry (readEnd geometry state pointer following) ∧
      contents geometry (readEnd geometry state pointer following).ring =
        (contents geometry state.ring).drop writerBlock := by
  have readable := sound.readable pointer (by rw [here]; rfl)
  have released := sound.ring.bufmgrReadEnd readable.2
  have places := sound.ring.bufmgrReadEnd_places readable.2
  unfold readEnd
  dsimp only
  refine ⟨⟨released.1, ?_, ?_, ?_⟩, released.2⟩ <;> dsimp only
  · have room := sound.room
    rw [released.2, List.length_drop]
    omega
  · have granted := sound.granted
    revert granted
    cases state.extraction with
    | copy block start =>
      intro granted
      rw [Granted, places.2.1]
      exact granted
    | writeEnd block =>
      intro granted
      rw [Granted, copyOut_congr _ places.2.1, copyOut_memory places.1]
      exact granted
    | _ => exact fun _ => trivial
  · cases following <;> simp [reading]

theorem getNextBlock_sound (sound : Sound geometry state) {writer : Writer Block}
    (h : getNextBlock geometry state io writer = some next) : Sound geometry next := by
  unfold getNextBlock at h
  split at h
  · rw [sound.ring.rbReadPtr_eq] at h
    by_cases enough : writerBlock ≤ (contents geometry state.ring).length
    · simp only [if_pos enough] at h
      cases h
      refine sound.write rfl rfl ?_
      intro pointer granted
      cases granted
      exact ⟨rfl, enough⟩
    · simp only [if_neg enough] at h
      cases h
      exact sound.leave rfl rfl rfl
  · split at h <;> cases h
    · exact sound.leave rfl rfl rfl
    · exact sound.leave rfl rfl (by simp)
  · contradiction

theorem spillEnqueue_sound (sound : Sound geometry state) {pointer : Nat} {released : Bool}
    (here : state.writer = .spillEnqueue pointer released) :
    Sound geometry (spillEnqueue geometry state io pointer released) := by
  unfold spillEnqueue
  dsimp only
  cases released with
  | true => split <;> exact sound.leave rfl rfl rfl
  | false => split <;> exact sound.keep rfl rfl (by rw [here]; rfl)

theorem completeWrite_sound (sound : Sound geometry state) (source : Source Block)
    (here : reading state.writer = reading (.write source)) :
    Sound geometry (completeWrite geometry state source) := by
  refine sound.keep rfl rfl ?_
  rw [here]
  exact reading_release source .loop

theorem flacWriterThread_sound (sound : Sound config.geometry state)
    (h : flacWriterThread config state io = some next) : Sound config.geometry next := by
  unfold flacWriterThread at h
  split at h
  · contradiction
  · cases h
    exact sound.leave rfl rfl rfl
  · rename_i source here
    by_cases complete : io.complete
    · rw [if_pos complete] at h
      cases h
      exact completeWrite_sound sound source (by rw [here])
    · rw [if_neg complete] at h
      cases h
      refine sound.keep rfl rfl ?_
      rw [here]
      by_cases save : io.localSave
      · simp only [if_pos save]
        exact reading_release source .leave
      · simp only [if_neg save]
        cases source with
        | spill blocks => rfl
        | ring pointer => cases config.app <;> rfl
  · rename_i here
    cases h
    exact spillEnqueue_sound sound here
  · rename_i here
    cases h
    exact (readEnd_sound sound here).1
  · exact getNextBlock_sound sound h

theorem rawWriterThread_sound (sound : Sound config.geometry state)
    (h : rawWriterThread config state io = some next) : Sound config.geometry next := by
  unfold rawWriterThread at h
  split at h
  · contradiction
  · split at h
    · cases h
      exact sound.leave rfl rfl rfl
    · split at h <;> cases h <;> exact sound.leave rfl rfl rfl
  · rw [sound.ring.rbReadPtr_eq] at h
    by_cases enough : writerBlock ≤ (contents config.geometry state.ring).length
    · simp only [if_pos enough] at h
      split at h <;> cases h
      all_goals
        refine sound.write rfl rfl ?_
        intro pointer granted
        cases granted
        exact ⟨rfl, enough⟩
    · simp only [if_neg enough] at h
      cases h
      exact sound.leave rfl rfl (by simp)
  · rename_i here
    split at h <;> cases h
    · exact completeWrite_sound sound _ (by rw [here]; rfl)
    · exact sound.keep rfl rfl (by rw [here]; rfl)
  · rename_i source here
    split at h <;> cases h
    · exact completeWrite_sound sound _ (by rw [here])
    · refine sound.keep rfl rfl ?_
      rw [here]
      exact reading_release source _
  · rename_i here
    cases h
    exact spillEnqueue_sound sound here
  · rename_i here
    cases h
    exact (readEnd_sound sound here).1
  · exact getNextBlock_sound sound h

theorem writerThread_sound (sound : Sound config.geometry state)
    (h : writerThread config state io = some next) : Sound config.geometry next := by
  unfold writerThread at h
  split at h
  · exact flacWriterThread_sound sound h
  · exact rawWriterThread_sound sound h

theorem step_sound (sound : Sound config.geometry state) {action : Action Block}
    (h : step config state action = some next) : Sound config.geometry next := by
  cases action with
  | block block =>
    simp only [step] at h
    split at h
    · cases h
      exact sound.yield rfl rfl rfl
    · contradiction
  | record enqueued => exact recordStep_sound sound h
  | write io => exact writerThread_sound sound h
  | stop | exit =>
    cases h
    exact sound.keep rfl rfl rfl

end MisrcGui.Record.LegacyRing
