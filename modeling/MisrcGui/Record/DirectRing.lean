import MisrcGui.Record.DirectPath

/-! What holds of the ring in every run of the direct path, whatever the file
and the spill do: granted room stays free until it is committed, and what the
writer has been granted stays unread until it is released. -/
namespace MisrcGui.Record.DirectRing
open Library MisrcGui.Ring DirectPath

variable {Cell : Type} {geometry : Geometry} {state next : State Cell} {io : Io}

/-- The room that the producer has been granted and not yet committed. -/
def promised : Producer Cell → Nat
  | .copy data _ | .writeEnd data => data.length
  | _ => 0

/-- The bytes that the writer has found unread and not yet released. -/
def taken : Writer Cell → Nat
  | .readBegin want _ => want
  | .fwriteRing _ len | .readEnd _ len _ => len
  | _ => 0

structure Sound (geometry : Geometry) (state : State Cell) : Prop where
  ring : WellFormed geometry state.ring
  room : (contents geometry state.ring).length + promised state.producer ≤ geometry.size
  readable : taken state.writer ≤ (contents geometry state.ring).length

theorem initial_sound (buffer : Nat → Cell) : Sound geometry (initial buffer) where
  ring := ⟨geometry.positive, le_rfl, Nat.zero_le _⟩
  room := by simp [initial, promised]
  readable := Nat.zero_le _

theorem Sound.level (sound : Sound geometry state) :
    (contents geometry state.ring).length ≤ geometry.size :=
  (Nat.le_add_right _ _).trans sound.room

theorem Sound.produce (sound : Sound geometry state) (ring : next.ring = state.ring)
    (writer : next.writer = state.writer) (promised_eq : promised next.producer = 0) :
    Sound geometry next where
  ring := ring ▸ sound.ring
  room := by
    rw [ring, promised_eq]
    exact sound.level
  readable := by
    rw [ring, writer]
    exact sound.readable

theorem Sound.write (sound : Sound geometry state) (ring : next.ring = state.ring)
    (producer : next.producer = state.producer)
    (readable : taken next.writer ≤ (contents geometry state.ring).length) :
    Sound geometry next where
  ring := ring ▸ sound.ring
  room := by
    rw [ring, producer]
    exact sound.room
  readable := by
    rw [ring]
    exact readable

theorem pushInner_frame {enqueued : Bool}
    (h : pushInner geometry state enqueued = some next) :
    next.tapOpen = state.tapOpen ∧ next.recordingActive = state.recordingActive ∧
      next.exitFlag = state.exitFlag ∧ next.writer = state.writer ∧
      next.partialBytes = state.partialBytes := by
  unfold pushInner spillEnqueue at h
  split at h
  · contradiction
  · cases h
    exact ⟨rfl, rfl, rfl, rfl, rfl⟩
  · split at h <;> cases h <;> exact ⟨rfl, rfl, rfl, rfl, rfl⟩
  · split at h
    · cases h
      exact ⟨rfl, rfl, rfl, rfl, rfl⟩
    · split at h <;> cases h <;> exact ⟨rfl, rfl, rfl, rfl, rfl⟩
  · cases h
    exact ⟨rfl, rfl, rfl, rfl, rfl⟩
  · cases h
    exact ⟨rfl, rfl, rfl, rfl, rfl⟩
  · split at h <;> cases h <;> exact ⟨rfl, rfl, rfl, rfl, rfl⟩

theorem pushInner_sound (sound : Sound geometry state) {enqueued : Bool}
    (h : pushInner geometry state enqueued = some next) : Sound geometry next := by
  have room := sound.room
  unfold pushInner at h
  split at h
  · contradiction
  · cases h
    refine sound.produce rfl rfl ?_
    split <;> rfl
  · split at h <;> cases h <;> exact sound.produce rfl rfl rfl
  · rename_i data attempts here
    rw [sound.ring.rbWritePtr_eq] at h
    by_cases fits : (contents geometry state.ring).length + data.length ≤ geometry.size
    · simp only [if_pos fits] at h
      cases h
      exact ⟨sound.ring, fits, sound.readable⟩
    · simp only [if_neg fits] at h
      split at h <;> cases h <;> exact sound.produce rfl rfl rfl
  · rename_i data pointer here
    rw [here] at room
    cases h
    refine ⟨sound.ring.copyIn _ _, ?_, ?_⟩
    · simpa [promised] using room
    · simpa using sound.readable
  · rename_i data here
    rw [here] at room
    dsimp only [promised] at room
    cases h
    obtain ⟨valid, appended⟩ := sound.ring.bufmgrWriteEnd room
    have level := congrArg List.length appended
    rw [List.length_append, copyOut, Circular.slice_length] at level
    have readable := sound.readable
    refine ⟨valid, ?_, ?_⟩
    · dsimp only [promised]
      omega
    · dsimp only
      omega
  · split at h <;> cases h <;> exact sound.produce rfl rfl rfl

@[simp] theorem taken_endRound (stopping : Bool) :
    taken (endRound stopping : Writer Cell) = 0 := by
  cases stopping <;> rfl

@[simp] theorem retry_ring :
    (retry state io).ring = state.ring := by
  unfold retry
  split <;> rfl

@[simp] theorem retry_producer :
    (retry state io).producer = state.producer := by
  unfold retry
  split <;> rfl

@[simp] theorem retry_spill :
    (retry state io).spill = state.spill := by
  unfold retry
  split <;> rfl

theorem writerThread_frame (h : writerThread geometry state io = some next) :
    next.tapOpen = state.tapOpen ∧ next.recordingActive = state.recordingActive ∧
      next.exitFlag = state.exitFlag ∧ next.producer = state.producer := by
  unfold writerThread retry at h
  split at h
  · contradiction
  · cases h
    exact ⟨rfl, rfl, rfl, rfl⟩
  · split at h
    · split at h
      · cases h
        dsimp only
        split <;> exact ⟨rfl, rfl, rfl, rfl⟩
      · contradiction
    · cases h
      exact ⟨rfl, rfl, rfl, rfl⟩
  · cases h
    exact ⟨rfl, rfl, rfl, rfl⟩
  · split at h <;> cases h <;> exact ⟨rfl, rfl, rfl, rfl⟩
  · cases h
    exact ⟨rfl, rfl, rfl, rfl⟩
  · split at h <;> cases h <;> exact ⟨rfl, rfl, rfl, rfl⟩
  · split at h
    · cases h
      exact ⟨rfl, rfl, rfl, rfl⟩
    · contradiction
  · split at h <;> cases h <;> exact ⟨rfl, rfl, rfl, rfl⟩
  · cases h
    exact ⟨rfl, rfl, rfl, rfl⟩
  · split at h
    · split at h <;> cases h <;> exact ⟨rfl, rfl, rfl, rfl⟩
    · contradiction

theorem writerThread_sound (sound : Sound geometry state)
    (h : writerThread geometry state io = some next) : Sound geometry next := by
  have readable := sound.readable
  unfold writerThread at h
  split at h
  · contradiction
  · cases h
    refine sound.write rfl rfl ?_
    split <;> exact Nat.zero_le _
  · split at h
    · split at h
      · cases h
        exact sound.write retry_ring retry_producer (by simp)
      · contradiction
    · cases h
      exact sound.write rfl rfl (by simp)
  · cases h
    refine sound.write rfl rfl ?_
    split
    · rw [sound.ring.fillLevel_eq]
      exact Nat.min_le_left _ _
    · exact Nat.zero_le _
  · rename_i want stopping here
    simp only [here, taken] at readable
    simp only [sound.ring.rbReadPtr_eq, if_pos readable] at h
    cases h
    exact sound.write rfl rfl readable
  · cases h
    refine sound.write rfl rfl ?_
    split
    · exact Nat.zero_le _
    · simp
  · split at h <;> cases h
    · exact sound.write rfl rfl (Nat.zero_le _)
    · exact sound.write rfl rfl (by simp)
  · rename_i pointer len here
    rw [here] at readable
    split at h
    · cases h
      exact sound.write rfl rfl readable
    · contradiction
  · rename_i pointer len complete here
    simp only [here, taken] at readable
    obtain ⟨valid, dropped⟩ := sound.ring.bufmgrReadEnd readable
    have level := congrArg List.length dropped
    rw [List.length_drop] at level
    have room := sound.room
    split at h <;> cases h
    · refine ⟨valid, ?_, Nat.zero_le _⟩
      dsimp only
      omega
    · refine ⟨valid, ?_, Nat.zero_le _⟩
      dsimp only
      omega
  · cases h
    exact sound.write rfl rfl (Nat.zero_le _)
  · split at h
    · split at h <;> cases h <;> exact sound.write rfl rfl (Nat.zero_le _)
    · contradiction

theorem step_sound (sound : Sound geometry state) {action : Action Cell}
    (h : step geometry state action = some next) : Sound geometry next := by
  cases action with
  | push data =>
    simp only [step] at h
    split at h
    · split at h <;> cases h
      · exact sound.produce rfl rfl rfl
      · exact sound
    · contradiction
  | produce enqueued => exact pushInner_sound sound h
  | write io => exact writerThread_sound sound h
  | closeTap =>
    simp only [step] at h
    split at h
    · cases h
      exact ⟨sound.ring, sound.room, sound.readable⟩
    · contradiction
  | stop | exit =>
    cases h
    exact ⟨sound.ring, sound.room, sound.readable⟩

end MisrcGui.Record.DirectRing
