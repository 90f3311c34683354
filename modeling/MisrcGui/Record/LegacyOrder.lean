import MisrcGui.Library.Overflow
import MisrcGui.Record.LegacyRing

/-! The legacy path of one channel while every write succeeds. The ring and the
spill are the two queues of the overflow channel; the order of extraction survives
when only one of them is in use at a time. -/
namespace MisrcGui.Record.LegacyOrder
open Library MisrcGui.Ring LegacyChannel LegacyRing

variable {Block : Type} {config : Config} {geometry : Geometry} {state next : State Block}
  {io : Io} {enqueued : Bool} {action : Action Block}

def inHand : Writer Block → List Block
  | .write (.spill blocks) => blocks
  | _ => []

def unwritten (geometry : Geometry) (ring : RingBuffer Block) : Writer Block → List Block
  | .readEnd _ _ => (contents geometry ring).drop writerBlock
  | _ => contents geometry ring

def view (geometry : Geometry) (state : State Block) : Overflow.Channel Block where
  primary := unwritten geometry state.ring state.writer
  overflow := state.spill
  sent := state.accepted
  received := state.file.flatten ++ inHand state.writer

def healthy : Writer Block → Bool
  | .errorReadBegin _ | .retry _ | .spillEnqueue _ _ | .readEnd _ .leave
  | .readEnd _ .spill => false
  | _ => true

structure Inv (geometry : Geometry) (state : State Block) : Prop where
  sound : Sound geometry state
  health : healthy state.writer
  unfailed : state.writeError = false

/-- The step is silent or one event of the overflow channel, which is in order when
the step uses one queue at a time. -/
def Matched (geometry : Geometry) (state next : State Block) (action : Action Block) :
    Prop :=
  view geometry next = view geometry state ∨
    ∃ event, Overflow.step (view geometry state) event = some (view geometry next) ∧
      (oneQueueAtATime state action → Overflow.ordered (view geometry state) event)

theorem initial_inv (buffer : Nat → Block) : Inv geometry (initial buffer) :=
  ⟨initial_sound buffer, rfl, rfl⟩

@[simp] theorem healthy_endRound (stopping : Bool) :
    healthy (endRound stopping : Writer Block) := by
  cases stopping <;> rfl

@[simp] theorem inHand_endRound (stopping : Bool) :
    inHand (endRound stopping : Writer Block) = [] := by
  cases stopping <;> rfl

@[simp] theorem unwritten_endRound (ring : RingBuffer Block) (stopping : Bool) :
    unwritten geometry ring (endRound stopping) = contents geometry ring := by
  cases stopping <;> rfl

theorem writerThread_eq (inv : Inv config.geometry state)
    (complete : everyWriteComplete state (.write io)) :
    writerThread config state io = flacWriterThread config state io := by
  unfold writerThread
  split
  · rfl
  · have health := inv.health
    have unfailed := inv.unfailed
    unfold rawWriterThread flacWriterThread
    cases here : state.writer with
    | loopHead => simp [unfailed]
    | write source =>
      have done : io.complete := by simpa [everyWriteComplete, here] using complete
      simp [done]
    | errorReadBegin | retry => simp [here, healthy] at health
    | _ => rfl

theorem getNextBlock_health {writer : Writer Block}
    (h : getNextBlock geometry state io writer = some next) :
    healthy next.writer ∧ next.writeError = state.writeError := by
  unfold getNextBlock at h
  split at h
  · split at h <;> cases h <;> exact ⟨rfl, rfl⟩
  · split at h <;> cases h
    · exact ⟨rfl, rfl⟩
    · exact ⟨healthy_endRound _, rfl⟩
  · contradiction

theorem flacWriterThread_health (inv : Inv config.geometry state)
    (complete : everyWriteComplete state (.write io))
    (h : flacWriterThread config state io = some next) :
    healthy next.writer ∧ next.writeError = false := by
  have health := inv.health
  have unfailed := inv.unfailed
  unfold flacWriterThread at h
  split at h
  · contradiction
  · cases h
    exact ⟨rfl, unfailed⟩
  · rename_i source here
    have done : io.complete := by simpa [everyWriteComplete, here] using complete
    rw [if_pos done] at h
    cases h
    cases source <;> exact ⟨rfl, rfl⟩
  · rename_i here
    simp [here, healthy] at health
  · rename_i pointer following here
    rw [here] at health
    cases h
    unfold readEnd
    dsimp only
    cases following with
    | loop => exact ⟨rfl, unfailed⟩
    | leave | spill => simp [healthy] at health
  · have kept := getNextBlock_health h
    exact ⟨kept.1, kept.2.trans unfailed⟩

theorem step_inv (inv : Inv config.geometry state)
    (complete : everyWriteComplete state action)
    (h : step config state action = some next) : Inv config.geometry next := by
  have sound := step_sound inv.sound h
  cases action with
  | block block =>
    simp only [step] at h
    split at h
    · cases h
      exact ⟨sound, inv.health, inv.unfailed⟩
    · contradiction
  | record enqueued =>
    have frame := recordStep_frame h
    refine ⟨sound, ?_, ?_⟩
    · rw [frame.2.2.1]
      exact inv.health
    · rw [frame.2.2.2.1]
      exact inv.unfailed
  | write io =>
    rw [step, writerThread_eq inv complete] at h
    have kept := flacWriterThread_health inv complete h
    exact ⟨sound, kept.1, kept.2⟩
  | stop | exit =>
    cases h
    exact ⟨sound, inv.health, inv.unfailed⟩

theorem unwritten_append (sound : Sound geometry state) {ring : RingBuffer Block}
    {block : Block} (appended : contents geometry ring = contents geometry state.ring ++ [block]) :
    unwritten geometry ring state.writer =
      unwritten geometry state.ring state.writer ++ [block] := by
  cases here : state.writer with
  | readEnd pointer following =>
    have readable := sound.readable pointer (by rw [here]; rfl)
    simp only [unwritten, appended]
    exact List.drop_append_of_le_length readable.2
  | _ => exact appended

theorem recordStep_matched (inv : Inv geometry state)
    (h : recordStep geometry state enqueued = some next) :
    Matched geometry state next (.record enqueued) := by
  cases here : state.extraction with
  | idle => simp [recordStep, here] at h
  | writeBegin block attempts =>
    simp only [recordStep, here] at h
    split at h
    · cases h
      exact .inl rfl
    · split at h <;> cases h <;> exact .inl rfl
  | spillEnqueue block =>
    simp only [recordStep, here] at h
    split at h <;> cases h
    · exact .inr ⟨.spill [block], rfl, fun _ => rfl⟩
    · exact .inl rfl
  | copy block pointer =>
    have same := (copy_sound inv.sound here h).2
    simp only [recordStep, here] at h
    cases h
    left
    unfold view
    dsimp only at same ⊢
    congr 1
    unfold unwritten
    rw [same]
  | writeEnd block =>
    have appended := (writeEnd_sound inv.sound here h).2
    simp only [recordStep, here] at h
    cases h
    refine .inr ⟨.send [block], ?_, fun single => ?_⟩
    · unfold view
      dsimp only at appended ⊢
      rw [unwritten_append inv.sound appended]
      rfl
    · simpa [oneQueueAtATime, here, Overflow.ordered, view] using single

theorem ringWrite_matched (inv : Inv geometry state) {pointer : Nat}
    (here : state.writer = .write (.ring pointer)) :
    Matched geometry state (completeWrite geometry state (.ring pointer)) (.write io) := by
  have granted : reading state.writer = some pointer := by rw [here]; rfl
  have oldest := inv.sound.copyOut_eq granted
  have enough := (inv.sound.readable pointer granted).2
  refine .inr ⟨.receive writerBlock, ?_, fun _ => rfl⟩
  simp only [view, here, unwritten, inHand, Overflow.step, if_pos enough, completeWrite,
    Source.release, Source.blocks, oldest, List.flatten_append, List.append_nil,
    List.flatten_cons, List.flatten_nil]

theorem getNextBlock_matched (inv : Inv geometry state)
    (h : getNextBlock geometry state io state.writer = some next) :
    Matched geometry state next (.write io) := by
  cases here : state.writer with
  | readBegin stopping =>
    simp only [getNextBlock, here] at h
    left
    split at h <;> cases h <;> simp [view, here, unwritten, inHand, takeFromRing]
  | spillRead stopping =>
    simp only [getNextBlock, here] at h
    by_cases found : io.spillRead && decide (writerBlock ≤ state.spill.length)
    · rw [if_pos found] at h
      cases h
      simp only [Bool.and_eq_true, decide_eq_true_eq] at found
      refine .inr ⟨.unspill writerBlock, ?_, fun single => ?_⟩
      · simp [view, here, unwritten, inHand, Overflow.step, found.2]
      · have drained : fillLevel state.ring = 0 := by
          simpa [oneQueueAtATime, here, found.1, Nat.not_lt.mpr found.2] using single
        rw [inv.sound.ring.fillLevel_eq] at drained
        simpa [view, here, unwritten, Overflow.ordered] using
          List.eq_nil_of_length_eq_zero drained
    · rw [if_neg found] at h
      cases h
      left
      simp only [view, here, unwritten_endRound, inHand_endRound]
      rfl
  | _ => simp [getNextBlock, here] at h

theorem flacWriterThread_matched (inv : Inv config.geometry state)
    (complete : everyWriteComplete state (.write io))
    (h : flacWriterThread config state io = some next) :
    Matched config.geometry state next (.write io) := by
  have health := inv.health
  unfold flacWriterThread at h
  split at h
  · contradiction
  · rename_i here
    cases h
    left
    simp [view, here, unwritten, inHand]
  · rename_i source here
    have done : io.complete := by simpa [everyWriteComplete, here] using complete
    rw [if_pos done] at h
    cases h
    cases source with
    | ring pointer => exact ringWrite_matched inv here
    | spill blocks =>
      left
      simp [view, here, unwritten, inHand, completeWrite, Source.release, Source.blocks]
  · rename_i here
    simp [here, healthy] at health
  · rename_i pointer following here
    have released := (readEnd_sound inv.sound here).2
    rw [here] at health
    cases h
    cases following with
    | loop =>
      left
      unfold readEnd at released ⊢
      unfold view
      dsimp only at released ⊢
      simp only [here, unwritten, inHand, released]
    | leave | spill => simp [healthy] at health
  · exact getNextBlock_matched inv h

theorem step_matched (inv : Inv config.geometry state)
    (complete : everyWriteComplete state action)
    (h : step config state action = some next) :
    Matched config.geometry state next action := by
  cases action with
  | block block =>
    simp only [step] at h
    split at h
    · cases h
      exact .inl rfl
    · contradiction
  | record enqueued => exact recordStep_matched inv h
  | write io =>
    rw [step, writerThread_eq inv complete] at h
    exact flacWriterThread_matched inv complete h
  | stop | exit =>
    cases h
    exact .inl rfl

theorem Matched.fifo (matched : Matched geometry state next action)
    (single : oneQueueAtATime state action) :
    ∃ events, Machine.run Fifo.step (Overflow.queue (view geometry state)) events =
      some (Overflow.queue (view geometry next)) := by
  rcases matched with same | ⟨event, taken, first⟩
  · refine ⟨[], ?_⟩
    rw [same]
    rfl
  · exact Overflow.step_queue (first single) taken

def orderedStep (state : State Block) (action : Action Block) : Bool :=
  everyWriteComplete state action && oneQueueAtATime state action

/-- In every run that uses one queue at a time the output is a prefix of the
accepted blocks, in the order of extraction. -/
theorem blocks_in_order (config : Config) (buffer : Nat → Block)
    (schedule : List (Action Block)) (last : State Block)
    (h : Machine.run (Machine.guarded orderedStep (step config)) (initial buffer)
      schedule = some last) : PrefixKept last := by
  obtain ⟨events, matched⟩ := Machine.run_simulation
    (fun state => Overflow.queue (view config.geometry state)) (Inv config.geometry)
    (fun state action next inv taken => by
      obtain ⟨allowed, taken⟩ := Machine.guarded_eq_some.mp taken
      simp only [orderedStep, Bool.and_eq_true] at allowed
      exact ⟨step_inv inv allowed.1 taken,
        (step_matched inv allowed.1 taken).fifo allowed.2⟩)
    (initial_inv buffer) h
  have conserved : Fifo.Conserved
      (Overflow.queue (view config.geometry (initial buffer))) := by
    simp [Fifo.Conserved, Overflow.queue, view, initial, unwritten, inHand, contents]
  have received := Fifo.run_prefix conserved matched
  exact (List.prefix_append _ _).trans received

/-! A long recording is put together from whole blocks of extraction and whole
rounds of the writer, between which both threads rest. -/

structure Resting (geometry : Geometry) (state : State Block)
    (ring spill accepted file : List Block) : Prop where
  inv : Inv geometry state
  idle : state.extraction = .idle
  head : state.writer = .loopHead
  ring_eq : contents geometry state.ring = ring
  spill_eq : state.spill = spill
  accepted_eq : state.accepted = accepted
  file_eq : state.file.flatten = file

def complete : Io := ⟨true, false, true, true, false, 0⟩

def intoRing (block : Block) : List (Action Block) :=
  .block block :: List.replicate 3 (.record true)

def intoSpill (block : Block) : List (Action Block) :=
  .block block :: List.replicate 4 (.record true)

def round : List (Action Block) := List.replicate 4 (.write complete)

variable {ring spill accepted file : List Block}

theorem Resting.inv_run (rest : Resting geometry state ring spill accepted file)
    (same : config.geometry = geometry) {schedule : List (Action Block)}
    (h : Machine.run (Machine.guarded everyWriteComplete (step config)) state schedule =
      some next) : Inv geometry next := by
  subst same
  refine Machine.run_invariant (Inv config.geometry) ?_ rest.inv h
  intro state action next inv taken
  have allowed := Machine.guarded_eq_some.mp taken
  exact step_inv inv allowed.1 allowed.2

theorem Resting.intoRing (rest : Resting config.geometry state ring spill accepted file)
    (room : ring.length + 1 ≤ config.geometry.size) (block : Block) : ∃ next,
    Machine.run (Machine.guarded everyWriteComplete (step config)) state
      (intoRing block) = some next ∧
    Resting config.geometry next (ring ++ [block]) spill (accepted ++ [block]) file := by
  have valid := rest.inv.sound.ring
  have fits : (contents config.geometry state.ring).length + [block].length ≤
      config.geometry.size := by
    rw [rest.ring_eq]
    exact room
  have granted : rbWritePtr config.geometry state.ring 1 = some state.ring.tail := by
    rw [valid.rbWritePtr_eq]
    exact if_pos fits
  have same := contents_copyIn valid fits
  have filled : copyOut config.geometry
      (copyIn config.geometry state.ring state.ring.tail [block]) state.ring.tail 1 =
        [block] := copyOut_copyIn ((Nat.le_add_left _ _).trans fits)
  have room : (contents config.geometry
      (copyIn config.geometry state.ring state.ring.tail [block])).length + 1 ≤
        config.geometry.size := by
    rw [same]
    exact fits
  have appended := ((valid.copyIn state.ring.tail [block]).bufmgrWriteEnd room).2
  rw [same, copyIn_tail, filled, rest.ring_eq] at appended
  have run : Machine.run (Machine.guarded everyWriteComplete (step config)) state
      (LegacyOrder.intoRing block) = some { state with
        ring := bufmgrWriteEnd config.geometry
          (copyIn config.geometry state.ring state.ring.tail [block]) 1
        extraction := .idle
        accepted := state.accepted ++ [block] } := by
    simp only [LegacyOrder.intoRing, List.replicate, Machine.run_cons, Machine.run_nil,
      Machine.guarded, everyWriteComplete, if_true, step, rest.idle, recordStep, granted,
      Option.bind_some]
  refine ⟨_, run, rest.inv_run rfl run, rfl, rest.head, appended, rest.spill_eq, ?_,
    rest.file_eq⟩
  dsimp only
  rw [rest.accepted_eq]

theorem Resting.intoSpill (rest : Resting config.geometry state ring spill accepted file)
    (full : ring.length = config.geometry.size) (block : Block) : ∃ next,
    Machine.run (Machine.guarded everyWriteComplete (step config)) state
      (intoSpill block) = some next ∧
    Resting config.geometry next ring (spill ++ [block]) (accepted ++ [block]) file := by
  have refused : rbWritePtr config.geometry state.ring 1 = none := by
    rw [rest.inv.sound.ring.rbWritePtr_eq, rest.ring_eq]
    exact if_neg (by omega)
  have run : Machine.run (Machine.guarded everyWriteComplete (step config)) state
      (LegacyOrder.intoSpill block) = some { state with
        spill := state.spill ++ [block]
        accepted := state.accepted ++ [block]
        extraction := .idle } := by
    simp [LegacyOrder.intoSpill, List.replicate, Machine.guarded, everyWriteComplete, step,
      rest.idle, recordStep, refused, maxWaitAttempts]
  refine ⟨_, run, rest.inv_run rfl run, rfl, rest.head, rest.ring_eq, ?_, ?_, rest.file_eq⟩
  · dsimp only
    rw [rest.spill_eq]
  · dsimp only
    rw [rest.accepted_eq]

theorem Resting.round (rest : Resting config.geometry state ring spill accepted file)
    (enough : writerBlock ≤ ring.length) : ∃ next,
    Machine.run (Machine.guarded everyWriteComplete (step config)) state round = some next ∧
    Resting config.geometry next (ring.drop writerBlock) spill accepted
      (file ++ ring.take writerBlock) := by
  have valid := rest.inv.sound.ring
  have unread : writerBlock ≤ (contents config.geometry state.ring).length := by
    rw [rest.ring_eq]
    exact enough
  have granted : rbReadPtr config.geometry state.ring writerBlock = some state.ring.head := by
    rw [valid.rbReadPtr_eq]
    exact if_pos unread
  have oldest := copyOut_head unread
  have released := (valid.bufmgrReadEnd unread).2
  rw [rest.ring_eq] at oldest released
  have run : Machine.run (Machine.guarded everyWriteComplete (step config)) state
      LegacyOrder.round = some { state with
        ring := bufmgrReadEnd config.geometry state.ring writerBlock
        file := state.file ++ [ring.take writerBlock]
        taken := state.taken ++ [ring.take writerBlock]
        writeError := false
        writer := .loopHead } := by
    have unfailed := rest.inv.unfailed
    cases format : config.format
    all_goals
      simp only [LegacyOrder.round, complete, List.replicate, Machine.run_cons,
        Machine.run_nil, Machine.guarded, everyWriteComplete, Io.complete, step, writerThread,
        format, flacWriterThread, rawWriterThread, rest.head, unfailed, getNextBlock, granted,
        takeFromRing, completeWrite, Source.release, Source.blocks, oldest, readEnd,
        Bool.not_false, Bool.and_true, Bool.false_and, Bool.false_eq_true, if_true, if_false,
        Option.bind_some]
  refine ⟨_, run, rest.inv_run rfl run, rest.idle, rfl, released, rest.spill_eq,
    rest.accepted_eq, ?_⟩
  simp only [List.flatten_append, List.flatten_cons, List.flatten_nil, List.append_nil,
    rest.file_eq]

theorem Resting.fill (blocks : List Block)
    (rest : Resting config.geometry state ring spill accepted file)
    (room : ring.length + blocks.length ≤ config.geometry.size) : ∃ next,
    Machine.run (Machine.guarded everyWriteComplete (step config)) state
      (blocks.flatMap LegacyOrder.intoRing) = some next ∧
    Resting config.geometry next (ring ++ blocks) spill (accepted ++ blocks) file := by
  induction blocks generalizing state ring accepted with
  | nil => exact ⟨state, rfl, by simpa using rest⟩
  | cons block blocks ih =>
    rw [List.length_cons] at room
    obtain ⟨middle, first, rest⟩ := rest.intoRing (by omega) block
    have room : (ring ++ [block]).length + blocks.length ≤ config.geometry.size := by
      rw [List.length_append, List.length_singleton]
      omega
    obtain ⟨last, later, rest⟩ := ih rest room
    refine ⟨last, ?_, ?_⟩
    · rw [List.flatMap_cons, Machine.run_append, first]
      exact later
    · rwa [List.append_assoc, List.append_assoc] at rest

theorem Resting.rounds (count : Nat)
    (rest : Resting config.geometry state ring spill accepted file)
    (enough : count * writerBlock ≤ ring.length) : ∃ next,
    Machine.run (Machine.guarded everyWriteComplete (step config)) state
      (List.replicate count LegacyOrder.round).flatten = some next ∧
    Resting config.geometry next (ring.drop (count * writerBlock)) spill accepted
      (file ++ ring.take (count * writerBlock)) := by
  induction count generalizing state ring file with
  | zero => exact ⟨state, rfl, by simpa using rest⟩
  | succ count ih =>
    rw [Nat.succ_mul, Nat.add_comm] at enough
    obtain ⟨middle, first, rest⟩ := rest.round (by omega)
    have left : count * writerBlock ≤ (ring.drop writerBlock).length := by
      rw [List.length_drop]
      omega
    obtain ⟨last, later, rest⟩ := ih rest left
    refine ⟨last, ?_, ?_⟩
    · rw [List.replicate_succ, List.flatten_cons, Machine.run_append, first]
      exact later
    · rw [List.drop_drop, List.append_assoc, ← List.take_add] at rest
      rwa [Nat.succ_mul, Nat.add_comm]

/-- A ring of whole writer blocks fills up and one block is spilled; the writer takes
one writer block and extraction goes on in the ring. Then the writer empties the ring. -/
theorem overtaken_in_ring (config : Config) (whole : writerBlock ∣ config.geometry.size) :
    ∃ (schedule : List (Action Nat)) (last : State Nat),
      Machine.run (Machine.guarded everyWriteComplete (step config)) (initial fun _ => 0)
        schedule = some last ∧ ¬PrefixKept last := by
  obtain ⟨count, whole⟩ := whole
  rw [Nat.mul_comm] at whole
  have positive := config.geometry.positive
  have start : Resting config.geometry (initial fun _ => 0) [] [] [] [] :=
    ⟨initial_inv _, rfl, rfl, by simp [initial, contents], rfl, rfl, rfl⟩
  obtain ⟨filled, first, rest⟩ := start.fill (List.range config.geometry.size) (by simp)
  obtain ⟨spilled, second, rest⟩ := rest.intoSpill (by simp) config.geometry.size
  have enough : writerBlock ≤ ([] ++ List.range config.geometry.size).length := by
    have counted : 0 < count := Nat.pos_of_mul_pos_right (whole ▸ positive)
    simp only [List.nil_append, List.length_range, whole]
    exact Nat.le_mul_of_pos_left _ counted
  obtain ⟨drained, third, rest⟩ := rest.round enough
  simp only [List.nil_append, List.length_range] at enough rest
  obtain ⟨resumed, fourth, rest⟩ := rest.fill
    (List.range' (config.geometry.size + 1) writerBlock) (by simp; omega)
  have all : count * writerBlock =
      ((List.range config.geometry.size).drop writerBlock ++
        List.range' (config.geometry.size + 1) writerBlock).length := by
    simp
    omega
  obtain ⟨last, fifth, rest⟩ := rest.rounds count all.le
  rw [all, List.take_length, ← List.append_assoc, List.take_append_drop] at rest
  refine ⟨(List.range config.geometry.size).flatMap intoRing ++
    (intoSpill config.geometry.size ++ (round ++
      ((List.range' (config.geometry.size + 1) writerBlock).flatMap intoRing ++
        (List.replicate count round).flatten))), last, ?_, ?_⟩
  · simp only [Machine.run_append, first, second, third, fourth, fifth, Option.bind_some]
  · rw [PrefixKept, rest.file_eq, rest.accepted_eq, List.append_assoc,
      List.prefix_append_right_inj]
    intro kept
    have same := (List.cons_prefix_cons.mp kept).1
    omega

theorem blocks_overtaken :
    ¬∀ (config : Config) (schedule : List (Action Nat)) (last : State Nat),
      Machine.run (Machine.guarded everyWriteComplete (step config)) (initial fun _ => 0)
        schedule = some last → PrefixKept last := by
  intro claim
  obtain ⟨schedule, last, reached, lost⟩ := overtaken_in_ring ⟨smallestRing, .flac, true⟩ (by decide)
  exact lost (claim _ schedule last reached)

def oneWriterBlock : Geometry := ⟨16, by decide, by decide⟩

/-- The ring fills up, a writer block goes into the spill, and both are written. -/
def spilledInOrder : List (Action Nat) :=
  (List.range 16).flatMap intoRing ++ (List.range' 16 16).flatMap intoSpill ++ round ++ round

theorem blocks_in_order_spilled : ∃ last,
    Machine.run (Machine.guarded orderedStep (step ⟨oneWriterBlock, .raw, false⟩))
      (initial fun _ => 0) spilledInOrder = some last ∧ PrefixKept last := by
  have possible : (Machine.run (Machine.guarded orderedStep
      (step ⟨oneWriterBlock, .raw, false⟩)) (initial fun _ => 0) spilledInOrder).isSome := by
    decide +kernel
  obtain ⟨last, reached⟩ := Option.isSome_iff_exists.mp possible
  exact ⟨last, reached, blocks_in_order _ _ spilledInOrder last reached⟩

end MisrcGui.Record.LegacyOrder
