import MisrcGui.Record.LegacyOrder

/-! What becomes of the blocks that a legacy writer takes, for every pattern of failed
writes and failed returns to the spill. Neither thread counts a block as dropped. -/
namespace MisrcGui.Record.LegacyConservation
open Library MisrcGui.Ring LegacyChannel LegacyRing

variable {Block : Type} {config : Config} {geometry : Geometry} {state next : State Block}
  {io : Io} {enqueued : Bool} {action : Action Block} {dropped : List (List Block)}

def hand (geometry : Geometry) (state : State Block) : Writer Block → List (List Block)
  | .write source => [source.blocks geometry state.ring]
  | .retry pointer => [copyOut geometry state.ring pointer writerBlock]
  | .spillEnqueue pointer _ | .readEnd pointer .spill =>
    if state.inFile then [] else [copyOut geometry state.ring pointer writerBlock]
  | _ => []

/-- Every block taken is in the hand, in the file, back in the spill with its own
contents, or one of those dropped; and it is only one of these. -/
def Conserved (geometry : Geometry) (state : State Block) (dropped : List (List Block)) :
    Prop :=
  state.taken.Perm
    (hand geometry state state.writer ++ (state.file ++ (state.stored ++ dropped)))

/-- A block whose write fails is in the file all the same, or it is one that the
thread returns to the spill: it is in the ring, the application is known, and for FLAC
Local Save is not recording. -/
def failureKept (config : Config) (source : Source Block) (io : Io) : Bool :=
  match config.format, source with
  | .flac, .ring _ => config.app && !io.localSave
  | .flac, .spill _ => false
  | .raw, .ring _ => config.app || io.written
  | .raw, .spill _ => io.written

/-- A failed block is kept, its return to the spill succeeds unless it is in the file
already, and a RAW block that is released before it is returned is not overwritten. -/
def keepsFailed (config : Config) (state : State Block) : Action Block → Bool
  | .write io =>
    match state.writer with
    | .write source => io.complete || failureKept config source io
    | .spillEnqueue _ _ => io.enqueued == !state.inFile
    | _ => true
  | .record _ =>
    match state.extraction, state.writer with
    | .copy _ _, .spillEnqueue _ true => state.inFile ||
        decide (fillLevel state.ring + 1 + writerBlock ≤ config.geometry.size)
    | _, _ => true
  | _ => true

structure Inv (geometry : Geometry) (state : State Block) : Prop where
  sound : Sound geometry state
  conserved : Conserved geometry state []
  released : ∀ pointer, state.writer = .spillEnqueue pointer true →
    (pointer + writerBlock) % geometry.size = state.ring.head % geometry.size

theorem initial_inv (buffer : Nat → Block) : Inv geometry (initial buffer) where
  sound := initial_sound buffer
  conserved := by simp [Conserved, initial, hand]
  released := by simp [initial]

theorem perm_take {taken held : List (List Block)} (kept : taken.Perm held)
    (block : List Block) : (taken ++ [block]).Perm ([block] ++ held) :=
  List.perm_append_comm.trans (kept.append_left [block])

theorem perm_write {taken file rest : List (List Block)} {block : List Block}
    (kept : taken.Perm ([block] ++ (file ++ rest))) :
    taken.Perm ([] ++ (file ++ [block] ++ rest)) := by
  apply kept.trans
  rw [List.nil_append, ← List.append_assoc]
  exact List.perm_append_comm.append_right rest

theorem perm_store {taken file stored rest : List (List Block)} {block : List Block}
    (kept : taken.Perm ([block] ++ (file ++ (stored ++ rest)))) :
    taken.Perm ([] ++ (file ++ (stored ++ [block] ++ rest))) := by
  apply kept.trans
  rw [List.nil_append, ← List.append_assoc, ← List.append_assoc, ← List.append_assoc,
    List.append_assoc file, ← List.append_assoc]
  apply List.Perm.append_right
  rw [List.append_assoc]
  exact List.perm_append_comm.trans (by rw [List.append_assoc])

theorem hand_congr {writer : Writer Block} (inFile : next.inFile = state.inFile)
    (same : ∀ pointer, reading writer = some pointer ∨
        (writer = .spillEnqueue pointer true ∧ state.inFile = false) →
      copyOut geometry next.ring pointer writerBlock =
        copyOut geometry state.ring pointer writerBlock) :
    hand geometry next writer = hand geometry state writer := by
  cases writer with
  | write source =>
    cases source with
    | ring pointer => simp only [hand, Source.blocks, same pointer (.inl rfl)]
    | spill blocks => rfl
  | retry pointer => simp only [hand, same pointer (.inl rfl)]
  | spillEnqueue pointer released =>
    cases released with
    | false => simp only [hand, inFile, same pointer (.inl rfl)]
    | true =>
      simp only [hand, inFile]
      by_cases written : state.inFile
      · simp only [if_pos written]
      · simp only [if_neg written]
        rw [same pointer (.inr ⟨rfl, Bool.eq_false_of_not_eq_true written⟩)]
  | readEnd pointer following =>
    cases following with
    | spill => simp only [hand, inFile, same pointer (.inl rfl)]
    | _ => rfl
  | _ => rfl

theorem recordStep_ghosts (h : recordStep geometry state enqueued = some next) :
    next.taken = state.taken ∧ next.stored = state.stored ∧ next.inFile = state.inFile ∧
      next.ring.head = state.ring.head := by
  unfold recordStep at h
  split at h
  · contradiction
  · split at h
    · cases h
      exact ⟨rfl, rfl, rfl, rfl⟩
    · split at h <;> cases h <;> exact ⟨rfl, rfl, rfl, rfl⟩
  · split at h <;> cases h <;> exact ⟨rfl, rfl, rfl, rfl⟩
  · cases h
    exact ⟨rfl, rfl, rfl, rfl⟩
  · cases h
    refine ⟨rfl, rfl, rfl, ?_⟩
    unfold bufmgrWriteEnd rbWriteFinished
    dsimp only
    split <;> rfl

/-- A copy spares the block that the writer reads, which is at the head of the ring,
and the released block that lies below it. -/
theorem copy_spares (inv : Inv config.geometry state) {block : Block} {start : Nat}
    (here : state.extraction = .copy block start)
    (allowed : keepsFailed config state (.record enqueued))
    (h : recordStep config.geometry state enqueued = some next) (pointer : Nat)
    (used : reading state.writer = some pointer ∨
      (state.writer = .spillEnqueue pointer true ∧ state.inFile = false)) :
    copyOut config.geometry next.ring pointer writerBlock =
      copyOut config.geometry state.ring pointer writerBlock := by
  have copied := copy_sound inv.sound here h
  have frame := recordStep_frame h
  rcases used with granted | ⟨waiting, unwritten⟩
  · have later : reading next.writer = some pointer := by
      rw [frame.2.2.1]
      exact granted
    rw [copied.1.copyOut_eq later, inv.sound.copyOut_eq granted, copied.2]
  · have place := inv.sound.granted
    have level := inv.sound.ring.fillLevel_eq
    rw [here] at place
    simp only [keepsFailed, here, waiting, unwritten, Bool.false_or, decide_eq_true_eq, level]
      at allowed
    simp only [recordStep, here, copyIn_congr [block] place] at h
    cases h
    exact copyOut_copyIn_released inv.sound.ring (inv.released pointer waiting) allowed

theorem recordStep_hand (inv : Inv config.geometry state)
    (allowed : keepsFailed config state (.record enqueued))
    (h : recordStep config.geometry state enqueued = some next) :
    hand config.geometry next state.writer = hand config.geometry state state.writer := by
  apply hand_congr (recordStep_ghosts h).2.2.1
  intro pointer used
  cases here : state.extraction with
  | idle => simp [recordStep, here] at h
  | writeBegin block attempts =>
    simp only [recordStep, here] at h
    split at h
    · cases h
      rfl
    · split at h <;> cases h <;> rfl
  | spillEnqueue block =>
    simp only [recordStep, here] at h
    split at h <;> cases h <;> rfl
  | copy block start => exact copy_spares inv here allowed h pointer used
  | writeEnd block =>
    simp only [recordStep, here] at h
    cases h
    exact copyOut_bufmgrWriteEnd _ _ _

theorem recordStep_inv (inv : Inv config.geometry state)
    (allowed : keepsFailed config state (.record enqueued))
    (h : recordStep config.geometry state enqueued = some next) :
    Inv config.geometry next := by
  have frame := recordStep_frame h
  have ghosts := recordStep_ghosts h
  refine ⟨recordStep_sound inv.sound h, ?_, ?_⟩
  · have conserved := inv.conserved
    unfold Conserved at conserved ⊢
    rw [frame.2.2.1, recordStep_hand inv allowed h, ghosts.1, ghosts.2.1, frame.2.2.2.2]
    exact conserved
  · rw [frame.2.2.1, ghosts.2.2.2]
    exact inv.released

theorem Inv.move (inv : Inv geometry state) (sound : Sound geometry next)
    (held : hand geometry next next.writer = hand geometry state state.writer)
    (taken : next.taken = state.taken) (file : next.file = state.file)
    (stored : next.stored = state.stored)
    (ahead : ∀ pointer, next.writer ≠ .spillEnqueue pointer true) : Inv geometry next where
  sound := sound
  conserved := by
    have conserved := inv.conserved
    unfold Conserved at conserved ⊢
    rw [held, taken, file, stored]
    exact conserved
  released := fun pointer waiting => absurd waiting (ahead pointer)

theorem Inv.take (inv : Inv geometry state) (sound : Sound geometry next)
    {block : List Block} (empty : hand geometry state state.writer = [])
    (held : hand geometry next next.writer = [block])
    (taken : next.taken = state.taken ++ [block]) (file : next.file = state.file)
    (stored : next.stored = state.stored)
    (ahead : ∀ pointer, next.writer ≠ .spillEnqueue pointer true) : Inv geometry next where
  sound := sound
  conserved := by
    have conserved := inv.conserved
    unfold Conserved at conserved ⊢
    rw [empty, List.nil_append] at conserved
    rw [held, taken, file, stored]
    exact perm_take conserved block
  released := fun pointer waiting => absurd waiting (ahead pointer)

theorem Inv.wrote (inv : Inv geometry state) (sound : Sound geometry next)
    {block : List Block} (held : hand geometry state state.writer = [block])
    (empty : hand geometry next next.writer = [])
    (taken : next.taken = state.taken) (file : next.file = state.file ++ [block])
    (stored : next.stored = state.stored)
    (ahead : ∀ pointer, next.writer ≠ .spillEnqueue pointer true) : Inv geometry next where
  sound := sound
  conserved := by
    have conserved := inv.conserved
    unfold Conserved at conserved ⊢
    rw [held] at conserved
    rw [empty, taken, file, stored]
    exact perm_write conserved
  released := fun pointer waiting => absurd waiting (ahead pointer)

@[simp] theorem hand_endRound (stopping : Bool) :
    hand geometry state (endRound stopping) = [] := by
  cases stopping <;> rfl

theorem endRound_ne (stopping : Bool) (pointer : Nat) (released : Bool) :
    (endRound stopping : Writer Block) ≠ .spillEnqueue pointer released := by
  cases stopping <;> simp [endRound]

theorem getNextBlock_inv (inv : Inv geometry state)
    (h : getNextBlock geometry state io state.writer = some next) : Inv geometry next := by
  have sound := getNextBlock_sound inv.sound h
  cases here : state.writer with
  | readBegin stopping =>
    have empty : hand geometry state state.writer = [] := by rw [here]; rfl
    simp only [getNextBlock, here] at h
    split at h <;> cases h
    · exact inv.take sound empty rfl rfl rfl rfl (by simp [takeFromRing])
    · exact inv.move sound empty.symm rfl rfl rfl (by simp)
  | spillRead stopping =>
    have empty : hand geometry state state.writer = [] := by rw [here]; rfl
    simp only [getNextBlock, here] at h
    split at h <;> cases h
    · exact inv.take sound empty rfl rfl rfl rfl (by simp)
    · refine inv.move sound ?_ rfl rfl rfl fun pointer => endRound_ne stopping pointer true
      rw [empty, hand_endRound]
  | _ => simp [getNextBlock, here] at h

theorem spillEnqueue_inv (inv : Inv geometry state) {pointer : Nat} {released : Bool}
    (here : state.writer = .spillEnqueue pointer released)
    (allowed : io.enqueued = !state.inFile) :
    Inv geometry (spillEnqueue geometry state io pointer released) := by
  have sound : Sound geometry (spillEnqueue geometry state io pointer released) :=
    spillEnqueue_sound inv.sound here
  by_cases written : state.inFile
  · have refused : io.enqueued = false := by simpa [written] using allowed
    have empty : hand geometry state state.writer = [] := by simp [here, hand, written]
    simp only [spillEnqueue, refused, Bool.false_eq_true, if_false] at sound ⊢
    refine inv.move sound ?_ rfl rfl rfl ?_
    · rw [empty]
      cases released <;> rfl
    · cases released <;> simp
  · have unwritten : state.inFile = false := Bool.eq_false_of_not_eq_true written
    have appended : io.enqueued = true := by simpa [unwritten] using allowed
    have held : hand geometry state state.writer =
        [copyOut geometry state.ring pointer writerBlock] := by simp [here, hand, unwritten]
    have conserved := inv.conserved
    simp only [spillEnqueue, appended, if_true] at sound ⊢
    refine ⟨sound, ?_, ?_⟩
    · unfold Conserved at conserved ⊢
      rw [held] at conserved
      have empty (state : State Block) : hand geometry state
          (if released then .loopHead else .readEnd pointer .loop) = [] := by
        cases released <;> rfl
      rw [empty]
      exact perm_store conserved
    · cases released <;> simp

theorem readEnd_inv (inv : Inv geometry state) {pointer : Nat} {following : Next}
    (here : state.writer = .readEnd pointer following) :
    Inv geometry (readEnd geometry state pointer following) := by
  have sound := (readEnd_sound inv.sound here).1
  have readable := inv.sound.readable pointer (by rw [here]; rfl)
  have places := inv.sound.ring.bufmgrReadEnd_places readable.2
  have conserved := inv.conserved
  unfold readEnd at sound ⊢
  dsimp only at sound ⊢
  cases following with
  | loop | leave =>
    refine inv.move sound ?_ rfl rfl rfl (by simp)
    rw [here]
    rfl
  | spill =>
    refine ⟨sound, ?_, ?_⟩
    · unfold Conserved at conserved ⊢
      rw [here] at conserved
      simp only [hand, copyOut_memory places.1] at conserved ⊢
      exact conserved
    · intro start waiting
      cases waiting
      dsimp only
      rw [readable.1, places.2.2]

theorem completeWrite_inv (inv : Inv geometry state) {source : Source Block}
    (reads : reading state.writer = reading (.write source))
    (held : hand geometry state state.writer = [source.blocks geometry state.ring]) :
    Inv geometry (completeWrite geometry state source) := by
  refine inv.wrote (completeWrite_sound inv.sound source reads) held ?_ rfl rfl rfl ?_
  · cases source <;> rfl
  · intro pointer
    cases source <;> simp [completeWrite, Source.release]

theorem failedWrite_wrote (inv : Inv geometry state) {source : Source Block}
    {writer : Writer Block}
    (sound : Sound geometry { failedWrite geometry state source true with writer := writer })
    (held : hand geometry state state.writer = [source.blocks geometry state.ring])
    (empty : ∀ state : State Block, state.inFile = true → hand geometry state writer = [])
    (ahead : ∀ pointer, writer ≠ .spillEnqueue pointer true) :
    Inv geometry { failedWrite geometry state source true with writer := writer } :=
  inv.wrote sound held (empty _ rfl) rfl rfl rfl ahead

theorem failedWrite_held (inv : Inv geometry state) {source : Source Block}
    {writer : Writer Block}
    (sound : Sound geometry { failedWrite geometry state source false with writer := writer })
    (held : hand geometry state state.writer = [source.blocks geometry state.ring])
    (kept : ∀ state : State Block, state.inFile = false →
      hand geometry state writer = [source.blocks geometry state.ring])
    (ahead : ∀ pointer, writer ≠ .spillEnqueue pointer true) :
    Inv geometry { failedWrite geometry state source false with writer := writer } :=
  inv.move sound ((kept _ rfl).trans held.symm) rfl rfl rfl ahead

theorem flacWriterThread_inv (inv : Inv config.geometry state)
    (flac : config.format = .flac) (allowed : keepsFailed config state (.write io))
    (h : flacWriterThread config state io = some next) : Inv config.geometry next := by
  have sound := flacWriterThread_sound inv.sound h
  unfold flacWriterThread at h
  split at h
  · contradiction
  · rename_i here
    cases h
    refine inv.move sound ?_ rfl rfl rfl (by simp)
    rw [here]
    rfl
  · rename_i source here
    have held : hand config.geometry state state.writer =
        [source.blocks config.geometry state.ring] := by rw [here]; rfl
    cases complete : io.complete with
    | true =>
      rw [if_pos complete] at h
      cases h
      exact completeWrite_inv inv (by rw [here]) held
    | false =>
      simp only [complete, Bool.false_eq_true, if_false] at h
      simp only [keepsFailed, here, complete, Bool.false_or] at allowed
      cases source with
      | spill blocks => simp [failureKept, flac] at allowed
      | ring pointer =>
        simp only [failureKept, flac, Bool.and_eq_true, Bool.not_eq_true'] at allowed
        simp only [allowed.1, allowed.2, Bool.false_eq_true, if_true, if_false] at h
        cases h
        refine failedWrite_held inv sound held ?_ (by simp)
        intro state unwritten
        simp [hand, unwritten, Source.blocks]
  · rename_i here
    cases h
    refine spillEnqueue_inv inv here ?_
    simpa [keepsFailed, here] using allowed
  · rename_i here
    cases h
    exact readEnd_inv inv here
  · exact getNextBlock_inv inv h

theorem rawWriterThread_inv (inv : Inv config.geometry state)
    (raw : config.format = .raw) (allowed : keepsFailed config state (.write io))
    (h : rawWriterThread config state io = some next) : Inv config.geometry next := by
  have sound := rawWriterThread_sound inv.sound h
  unfold rawWriterThread at h
  split at h
  · contradiction
  · rename_i here
    have empty : hand config.geometry state state.writer = [] := by rw [here]; rfl
    split at h
    · cases h
      exact inv.move sound empty.symm rfl rfl rfl (by simp)
    · split at h <;> cases h <;> exact inv.move sound empty.symm rfl rfl rfl (by simp)
  · rename_i stopping here
    have empty : hand config.geometry state state.writer = [] := by rw [here]; rfl
    split at h
    · cases h
      refine inv.move sound ?_ rfl rfl rfl fun pointer => endRound_ne stopping pointer true
      rw [empty, hand_endRound]
    · split at h <;> cases h
      · exact inv.take sound empty rfl rfl rfl rfl (by simp [takeFromRing])
      · exact inv.take sound empty rfl rfl rfl rfl (by simp [takeFromRing])
  · rename_i pointer here
    have held : hand config.geometry state state.writer =
        [(Source.ring pointer).blocks config.geometry state.ring] := by rw [here]; rfl
    split at h <;> cases h
    · exact completeWrite_inv inv (by rw [here]; rfl) held
    · cases written : io.written with
      | true =>
        rw [written] at sound
        exact failedWrite_wrote inv sound held (fun state whole => by simp [hand, whole])
          (by simp)
      | false =>
        rw [written] at sound
        exact failedWrite_held inv sound held
          (fun state unwritten => by simp [hand, unwritten, Source.blocks]) (by simp)
  · rename_i source here
    have held : hand config.geometry state state.writer =
        [source.blocks config.geometry state.ring] := by rw [here]; rfl
    cases complete : io.complete with
    | true =>
      rw [if_pos complete] at h
      cases h
      exact completeWrite_inv inv (by rw [here]) held
    | false =>
      simp only [complete, Bool.false_eq_true, if_false] at h
      simp only [keepsFailed, here, complete, Bool.false_or] at allowed
      cases h
      cases written : io.written with
      | true =>
        rw [written] at sound
        refine failedWrite_wrote inv sound held ?_ ?_
        · intro state whole
          cases source <;> cases config.app <;> simp [Source.release, hand, whole]
        · intro pointer
          cases source <;> cases config.app <;> simp [Source.release]
      | false =>
        rw [written] at sound
        cases source with
        | spill blocks => simp [failureKept, raw, written] at allowed
        | ring pointer =>
          have app : config.app = true := by simpa [failureKept, raw, written] using allowed
          refine failedWrite_held inv sound held ?_ ?_
          · intro state unwritten
            simp [app, Source.release, hand, unwritten, Source.blocks]
          · simp [Source.release]
  · rename_i here
    cases h
    refine spillEnqueue_inv inv here ?_
    simpa [keepsFailed, here] using allowed
  · rename_i here
    cases h
    exact readEnd_inv inv here
  · exact getNextBlock_inv inv h

theorem step_inv (inv : Inv config.geometry state) (allowed : keepsFailed config state action)
    (h : step config state action = some next) : Inv config.geometry next := by
  have sound := step_sound inv.sound h
  cases action with
  | block block =>
    simp only [step] at h
    split at h
    · cases h
      exact ⟨sound, inv.conserved, inv.released⟩
    · contradiction
  | record enqueued => exact recordStep_inv inv allowed h
  | write io =>
    simp only [step, writerThread] at h
    split at h
    · rename_i flac
      exact flacWriterThread_inv inv flac allowed h
    · rename_i raw
      exact rawWriterThread_inv inv raw allowed h
  | stop | exit =>
    cases h
    exact ⟨sound, inv.conserved, inv.released⟩

/-- In every run that keeps its failed blocks, each block taken is in the hand, in the
file or back in the spill, and only in one of these. -/
theorem blocks_conserved (config : Config) (buffer : Nat → Block)
    (schedule : List (Action Block)) (last : State Block)
    (h : Machine.run (Machine.guarded (keepsFailed config) (step config)) (initial buffer)
      schedule = some last) : Conserved config.geometry last [] := by
  refine Inv.conserved (Machine.run_invariant (Inv config.geometry) ?_ (initial_inv buffer) h)
  intro state action next inv taken
  have allowed := Machine.guarded_eq_some.mp taken
  exact step_inv inv allowed.1 allowed.2

/-- An `fwrite` that stores nothing. -/
def fails : Io := ⟨false, true, true, true, false, 0⟩

/-- A RAW writer that was not given the application takes a block from the ring, fails
to write it, and releases it. -/
def lostBlock : List (Action Nat) :=
  (List.range 16).flatMap LegacyOrder.intoRing ++ List.replicate 4 (.write fails)

/-- Not even every drop that the channel has counted accounts for the lost block. -/
theorem block_lost :
    ¬∀ (config : Config) (schedule : List (Action Nat)) (last : State Nat),
      Machine.run (step config) (initial fun _ => 0) schedule = some last →
        ∃ dropped, dropped.length ≤ last.writeDrops ∧
          Conserved config.geometry last dropped := by
  intro claim
  have outcome : (Machine.run (step ⟨smallestRing, .raw, false⟩) (initial fun _ => 0)
      lostBlock).map (fun last => (last.taken.length, last.file.length, last.stored.length,
        last.writeDrops, hand smallestRing last last.writer)) = some (1, 0, 0, 0, []) := by
    decide +kernel
  obtain ⟨last, reached, fields⟩ := Option.map_eq_some_iff.mp outcome
  obtain ⟨dropped, counted, conserved⟩ := claim _ lostBlock last reached
  have lengths := conserved.length_eq
  simp only [Prod.mk.injEq] at fields
  simp only [List.length_append, fields] at lengths counted
  simp only [List.length_nil] at lengths
  omega

/-- One block goes back to the spill after its release; a second one fails in the retry
and goes back before its release. -/
def failedAndKept : List (Action Nat) :=
  (List.range 32).flatMap LegacyOrder.intoRing ++ List.replicate 9 (.write fails) ++
    [.write LegacyOrder.complete, .stop, .write LegacyOrder.complete]

theorem blocks_conserved_failed : ∃ last,
    Machine.run (Machine.guarded (keepsFailed ⟨smallestRing, .raw, true⟩)
      (step ⟨smallestRing, .raw, true⟩)) (initial fun _ => 0) failedAndKept = some last ∧
    Conserved smallestRing last [] := by
  have possible : (Machine.run (Machine.guarded (keepsFailed ⟨smallestRing, .raw, true⟩)
      (step ⟨smallestRing, .raw, true⟩)) (initial fun _ => 0) failedAndKept).isSome := by
    decide +kernel
  obtain ⟨last, reached⟩ := Option.isSome_iff_exists.mp possible
  exact ⟨last, reached,
    blocks_conserved ⟨smallestRing, .raw, true⟩ _ failedAndKept last reached⟩

end MisrcGui.Record.LegacyConservation
