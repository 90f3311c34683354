import MisrcGui.Library.Fifo
import MisrcGui.Record.DirectRing

/-! The order of the direct path. The queue of accepted bytes runs through the
block in the writer's hand, the ring and the spill; each step of the code is a
step of the abstract channel in runs whose writes fail whole, whose failed block
is not overwritten, and whose spill is read with the ring empty. -/
namespace MisrcGui.Record.DirectOrder
open Library MisrcGui.Ring DirectPath DirectRing

variable {Cell : Type} {geometry : Geometry} {state next : State Cell} {io : Io}
  {enqueued : Bool}

/-- Accepted bytes that have left the ring or the spill and are not in the file. -/
def inHand (geometry : Geometry) (state : State Cell) : Writer Cell → List Cell
  | .copyRing pointer len =>
    (copyOut geometry state.ring pointer len).drop state.partialBytes
  | .fwriteSpill data => data
  | _ => (held state).drop state.partialBytes

def unwritten (geometry : Geometry) (state : State Cell) : Writer Cell → List Cell
  | .readEnd _ len true => (contents geometry state.ring).drop len
  | .readEnd _ _ false => (contents geometry state.ring).drop state.partialBytes
  | _ => contents geometry state.ring

def view (geometry : Geometry) (state : State Cell) : Fifo.Channel Cell where
  queue := inHand geometry state state.writer ++
    (unwritten geometry state state.writer ++ state.spill)
  sent := state.accepted.flatten
  received := state.file

def copied : Producer Cell → Nat
  | .writeEnd data => data.length
  | _ => 0

/-- From the test of the backlog to the commit the spill stays empty. -/
def ProducerInv (geometry : Geometry) (state : State Cell) : Producer Cell → Prop
  | .writeBegin _ _ => state.spill = []
  | .copy _ pointer => pointer % geometry.size = state.ring.tail % geometry.size ∧
      state.spill = []
  | .writeEnd data =>
      copyOut geometry state.ring state.ring.tail data.length = data ∧ state.spill = []
  | _ => True

def WriterInv (geometry : Geometry) (state : State Cell) : Writer Cell → Prop
  | .loopHead | .pending _ | .exited => True
  | .fwriteRing pointer _ => state.pending = none ∧ pointer = state.ring.head
  | .readEnd pointer len _ => state.pending = none ∧ pointer = state.ring.head ∧
      state.partialBytes ≤ len
  | .copyRing pointer len => state.pending = none ∧
      (pointer + len) % geometry.size = state.ring.head % geometry.size ∧
      (contents geometry state.ring).length + copied state.producer + len ≤ geometry.size
  | _ => state.pending = none

structure Inv (geometry : Geometry) (state : State Cell) : Prop where
  sound : Sound geometry state
  producer : ProducerInv geometry state state.producer
  writer : WriterInv geometry state state.writer

def Matched (geometry : Geometry) (state next : State Cell) : Prop :=
  Inv geometry next ∧ ∃ events,
    Machine.run Fifo.step (view geometry state) events = some (view geometry next)

theorem Inv.silent (inv : Inv geometry next)
    (same : view geometry next = view geometry state) : Matched geometry state next :=
  ⟨inv, [], by rw [same]; rfl⟩

theorem ProducerInv.congr {producer : Producer Cell}
    (h : ProducerInv geometry state producer) (ring : next.ring = state.ring)
    (spill : state.spill = [] → next.spill = []) : ProducerInv geometry next producer := by
  cases producer with
  | writeBegin data attempts => exact spill h
  | copy | writeEnd =>
    rw [ProducerInv, ring]
    exact ⟨h.1, spill h.2⟩
  | _ => trivial

theorem ProducerInv.release {producer : Producer Cell}
    (h : ProducerInv geometry state producer) (memory : next.ring.buffer = state.ring.buffer)
    (tail : next.ring.tail % geometry.size = state.ring.tail % geometry.size)
    (spill : next.spill = state.spill) : ProducerInv geometry next producer := by
  cases producer with
  | writeBegin data attempts => exact spill.trans h
  | copy data pointer =>
    rw [ProducerInv, tail, spill]
    exact h
  | writeEnd data =>
    rw [ProducerInv, spill, copyOut_congr _ tail, copyOut_memory memory]
    exact h
  | _ => trivial

theorem WriterInv.congr {writer : Writer Cell} (h : WriterInv geometry state writer)
    (ring : next.ring = state.ring) (pending : next.pending = state.pending)
    (attempt : next.partialBytes = state.partialBytes)
    (fewer : copied next.producer ≤ copied state.producer) : WriterInv geometry next writer := by
  cases writer with
  | copyRing pointer len =>
    obtain ⟨none, after, fits⟩ := h
    refine ⟨pending.trans none, by rw [ring]; exact after, ?_⟩
    rw [ring]
    omega
  | fwriteRing pointer len => exact ⟨pending.trans h.1, by rw [ring]; exact h.2⟩
  | readEnd pointer len complete =>
    exact ⟨pending.trans h.1, by rw [ring]; exact h.2.1, attempt.trans_le h.2.2⟩
  | loopHead | pending | exited => trivial
  | fillLevel | readBegin | spillBacklog | spillRead | fwriteSpill => exact pending.trans h

theorem Inv.produce (inv : Inv geometry state) {producer : Producer Cell} {drops : Nat}
    (sound : Sound geometry { state with writeDrops := drops, producer := producer })
    (empty : copied producer = 0) (facts : ProducerInv geometry state producer) :
    Matched geometry state { state with writeDrops := drops, producer := producer } := by
  refine Inv.silent ⟨sound, ?_, ?_⟩ rfl
  · cases producer <;> exact facts
  · exact inv.writer.congr rfl rfl rfl (empty.trans_le (Nat.zero_le _))

/-- A copy into granted room leaves the unread bytes and, when it spares the
failed block, that block alone. -/
theorem copy_matched (inv : Inv geometry state) {data : List Cell} {pointer : Nat}
    (here : state.producer = .copy data pointer)
    (allowed : sparesFailedBlock geometry state (.produce enqueued))
    (h : pushInner geometry state enqueued = some next) : Matched geometry state next := by
  have sound := pushInner_sound inv.sound h
  have facts := inv.producer
  have room := inv.sound.room
  simp only [here, ProducerInv] at facts
  simp only [here, promised] at room
  obtain ⟨place, drained⟩ := facts
  have ring := inv.sound.ring
  have same := contents_copyIn ring room
  have fits : data.length ≤ geometry.size := (Nat.le_add_left _ _).trans room
  simp only [pushInner, here, copyIn_congr data place] at h
  cases h
  have writer := inv.writer
  refine Inv.silent ⟨sound, ⟨?_, drained⟩, ?_⟩ ?_
  · exact copyOut_copyIn fits
  · change WriterInv geometry _ state.writer
    revert writer
    cases cases_eq : state.writer with
    | copyRing start len =>
      rintro ⟨none, after, -⟩
      refine ⟨none, after, ?_⟩
      simp only [sparesFailedBlock, here, cases_eq, ring.fillLevel_eq, decide_eq_true_eq]
        at allowed
      simpa only [same, copied] using allowed
    | _ => exact id
  · unfold view
    dsimp only
    cases cases_eq : state.writer with
    | copyRing start len =>
      rw [cases_eq] at writer
      simp only [sparesFailedBlock, here, cases_eq, ring.fillLevel_eq, decide_eq_true_eq]
        at allowed
      simp only [inHand, unwritten, same, copyOut_copyIn_released ring writer.2.1 allowed]
    | readEnd start len complete =>
      cases complete <;> simp only [inHand, unwritten, same, held]
    | _ => simp only [inHand, unwritten, same, held]

theorem writeEnd_matched (inv : Inv geometry state) {data : List Cell}
    (here : state.producer = .writeEnd data)
    (h : pushInner geometry state enqueued = some next) : Matched geometry state next := by
  have sound := pushInner_sound inv.sound h
  have facts := inv.producer
  have room := inv.sound.room
  have readable := inv.sound.readable
  have writer := inv.writer
  simp only [here, ProducerInv] at facts
  simp only [here, promised] at room
  obtain ⟨block, drained⟩ := facts
  have ring := inv.sound.ring
  have appended := (ring.bufmgrWriteEnd room).2
  rw [block] at appended
  simp only [pushInner, here] at h
  cases h
  refine ⟨⟨sound, trivial, ?_⟩, [.send data], ?_⟩
  · change WriterInv geometry _ state.writer
    revert writer
    rw [ring.bufmgrWriteEnd_eq room] at appended ⊢
    cases state.writer with
    | copyRing start len =>
      rintro ⟨none, after, fits⟩
      refine ⟨none, after, ?_⟩
      simp only [here, copied] at fits
      rw [appended, List.length_append]
      exact fits
    | _ => exact id
  · rw [view, Fifo.run_send]
    unfold view
    dsimp only
    have behind {count : Nat} (h : count ≤ (contents geometry state.ring).length) :
        (contents geometry state.ring ++ data).drop count =
          (contents geometry state.ring).drop count ++ data :=
      List.drop_append_of_le_length h
    rw [drained, List.flatten_append]
    cases reading : state.writer with
    | readEnd start len complete =>
      simp only [reading, taken] at readable
      simp only [reading, WriterInv] at writer
      cases complete with
      | false => simp [inHand, unwritten, held, appended, behind (writer.2.2.trans readable)]
      | true => simp [inHand, unwritten, held, appended, behind readable]
    | _ => simp [inHand, unwritten, held, appended]

theorem enqueue_matched (inv : Inv geometry state) {data : List Cell} {drops : Nat}
    (sound : Sound geometry { spillEnqueue state data with writeDrops := drops }) :
    Matched geometry state { spillEnqueue state data with writeDrops := drops } := by
  refine ⟨⟨sound, trivial, ?_⟩, [.send data], ?_⟩
  · exact inv.writer.congr rfl rfl rfl (Nat.zero_le _)
  · rw [view, Fifo.run_send]
    unfold view spillEnqueue
    dsimp only
    rw [List.flatten_append]
    cases state.writer with
    | readEnd start len complete => cases complete <;> simp [inHand, unwritten, held]
    | _ => simp [inHand, unwritten, held]

theorem pushInner_matched (inv : Inv geometry state)
    (allowed : sparesFailedBlock geometry state (.produce enqueued))
    (h : pushInner geometry state enqueued = some next) : Matched geometry state next := by
  have sound := pushInner_sound inv.sound h
  have facts := inv.producer
  cases here : state.producer with
  | idle => simp [pushInner, here] at h
  | spillBacklog data =>
    simp only [pushInner, here] at h
    cases h
    by_cases backlog : 0 < state.spill.length
    · simp only [if_pos backlog] at sound ⊢
      exact inv.produce sound rfl trivial
    · simp only [if_neg backlog] at sound ⊢
      exact inv.produce sound rfl (List.eq_nil_of_length_eq_zero (by omega))
  | spillBehind | spillInstead =>
    simp only [pushInner, here] at h
    split at h <;> cases h
    · exact enqueue_matched inv sound
    · exact inv.produce sound rfl trivial
  | writeBegin data attempts =>
    rw [here] at facts
    simp only [pushInner, here, inv.sound.ring.rbWritePtr_eq] at h
    by_cases fits : (contents geometry state.ring).length + data.length ≤ geometry.size
    · simp only [if_pos fits] at h
      cases h
      exact inv.produce sound rfl ⟨rfl, facts⟩
    · simp only [if_neg fits] at h
      split at h <;> cases h
      · exact inv.produce sound rfl trivial
      · exact inv.produce sound rfl facts
  | copy data pointer => exact copy_matched inv here allowed h
  | writeEnd data => exact writeEnd_matched inv here h

theorem Inv.write (inv : Inv geometry state) {writer : Writer Cell}
    (sound : Sound geometry { state with writer := writer })
    (hand : inHand geometry state writer = inHand geometry state state.writer)
    (left : unwritten geometry state writer = unwritten geometry state state.writer)
    (facts : WriterInv geometry state writer) :
    Matched geometry state { state with writer := writer } := by
  refine Inv.silent ⟨sound, ?_, ?_⟩ ?_
  · exact inv.producer.congr rfl id
  · cases writer <;> exact facts
  · have hand' : inHand geometry { state with writer := writer } writer =
        inHand geometry state writer := by
      cases writer <;> rfl
    have left' : unwritten geometry { state with writer := writer } writer =
        unwritten geometry state writer := by
      cases writer with
      | readEnd start len complete => cases complete <;> rfl
      | _ => rfl
    unfold view
    dsimp only
    rw [hand', left', hand, left]

theorem written_of_complete {len : Nat} (complete : io.complete len) : io.written = len := by
  simp only [Io.complete, Bool.and_eq_true, beq_iff_eq] at complete
  exact complete.1

@[simp] theorem inHand_endRound (stopping : Bool) :
    inHand geometry state (endRound stopping) =
      (held state).drop state.partialBytes := by
  cases stopping <;> rfl

@[simp] theorem unwritten_endRound (stopping : Bool) :
    unwritten geometry state (endRound stopping) = contents geometry state.ring := by
  cases stopping <;> rfl

theorem writerInv_endRound (stopping : Bool) :
    WriterInv geometry state (endRound stopping) := by
  cases stopping <;> trivial

theorem held_retry (whole : state.partialBytes = 0) :
    (held (retry state io)).drop (retry state io).partialBytes =
      (held state).drop io.written := by
  unfold retry
  by_cases complete : io.complete (held state).length
  · rw [if_pos complete, written_of_complete complete]
    simp [held]
  · rw [if_neg complete]
    simp [held, whole]

theorem retry_fields : (retry state io).accepted = state.accepted ∧
    (retry state io).file = state.file ++ (held state).take io.written := by
  unfold retry
  split <;> exact ⟨rfl, rfl⟩

theorem retry_matched (inv : Inv geometry state) {stopping : Bool}
    (here : state.writer = .pending stopping)
    (due : retryDue state io.nowMs stopping) (allowed : repeatsNothing state (.write io))
    (sound : Sound geometry { retry state io with writer := endRound stopping }) :
    Matched geometry state { retry state io with writer := endRound stopping } := by
  have spill : (retry state io).spill = state.spill := retry_spill
  obtain ⟨accepted, file⟩ : (retry state io).accepted = state.accepted ∧
      (retry state io).file = state.file ++ (held state).take io.written := retry_fields
  have producer : ProducerInv geometry (retry state io) state.producer :=
    inv.producer.congr retry_ring fun drained => spill.trans drained
  have kept : Inv geometry { retry state io with writer := endRound stopping } := by
    refine ⟨sound, ?_, writerInv_endRound stopping⟩
    rw [← retry_producer] at producer
    exact producer.congr rfl id
  have after : view geometry { retry state io with writer := endRound stopping } =
      ⟨(held (retry state io)).drop (retry state io).partialBytes ++
        (contents geometry state.ring ++ state.spill), state.accepted.flatten,
        state.file ++ (held state).take io.written⟩ := by
    simp only [view, inHand_endRound, unwritten_endRound, retry_ring, spill, accepted, file]
    rfl
  have before : view geometry state =
      ⟨(held state).drop state.partialBytes ++ (contents geometry state.ring ++ state.spill),
        state.accepted.flatten, state.file⟩ := by
    simp only [view, here, inHand, unwritten]
  by_cases whole : state.partialBytes = 0
  · refine ⟨kept, [.receive ((held state).take io.written).length], ?_⟩
    rw [after, held_retry whole, before, whole, List.drop_zero]
    nth_rewrite 1 [← List.take_append_drop io.written (held state)]
    rw [List.append_assoc, Fifo.run_receive]
  · have nothing : io.written = 0 := by
      simpa [repeatsNothing, here, due, whole] using allowed
    have same : (held (retry state io)).drop (retry state io).partialBytes =
        (held state).drop state.partialBytes := by
      unfold retry
      by_cases complete : io.complete (held state).length
      · have empty := List.eq_nil_of_length_eq_zero
          ((written_of_complete complete).symm.trans nothing)
        rw [if_pos complete, empty]
        simp [held]
      · rw [if_neg complete]
        simp [held, nothing]
    refine Inv.silent kept ?_
    rw [after, same, before, nothing, List.take_zero, List.append_nil]

theorem unwritten_readEnd {pointer len : Nat}
    (attempt : next.partialBytes = if io.complete len then 0 else io.written) :
    unwritten geometry next (.readEnd pointer len (io.complete len)) =
      (contents geometry next.ring).drop io.written := by
  by_cases complete : io.complete len
  · simp only [complete, unwritten, written_of_complete complete]
  · simp [complete, unwritten, attempt]

theorem fwriteRing_matched (inv : Inv geometry state) {pointer len : Nat}
    (here : state.writer = .fwriteRing pointer len)
    (h : writerThread geometry state io = some next) : Matched geometry state next := by
  have sound := writerThread_sound inv.sound h
  have facts := inv.writer
  have readable := inv.sound.readable
  simp only [here, WriterInv] at facts
  simp only [here, taken] at readable
  obtain ⟨free, rfl⟩ := facts
  simp only [writerThread, here] at h
  split at h
  · rename_i inside
    cases h
    have block : (copyOut geometry state.ring state.ring.head len).take io.written =
        (contents geometry state.ring).take io.written := by
      rw [copyOut_head readable, List.take_take, Nat.min_eq_left inside]
    refine ⟨⟨sound, inv.producer.congr rfl id, free, rfl, ?_⟩,
      [.receive ((contents geometry state.ring).take io.written).length], ?_⟩
    · dsimp only
      split
      · exact Nat.zero_le _
      · exact inside
    · have before : view geometry state =
          ⟨(contents geometry state.ring).take io.written ++
            ((contents geometry state.ring).drop io.written ++ state.spill),
            state.accepted.flatten, state.file⟩ := by
        rw [← List.append_assoc, List.take_append_drop]
        simp [view, here, inHand, unwritten, held, free]
      rw [before, Fifo.run_receive]
      unfold view
      dsimp only
      rw [unwritten_readEnd rfl, block]
      simp [inHand, held, free]
  · contradiction

/-- A release moves both indices; a failed block stays in the memory below the
new head. -/
theorem readEnd_matched (inv : Inv geometry state) {pointer len : Nat} {complete : Bool}
    (here : state.writer = .readEnd pointer len complete)
    (h : writerThread geometry state io = some next) : Matched geometry state next := by
  have sound := writerThread_sound inv.sound h
  have facts := inv.writer
  have readable := inv.sound.readable
  have room := inv.sound.room
  simp only [here, WriterInv] at facts
  simp only [here, taken] at readable
  obtain ⟨free, rfl, inside⟩ := facts
  have ring := inv.sound.ring
  obtain ⟨valid, dropped⟩ := ring.bufmgrReadEnd readable
  obtain ⟨memory, tail, head⟩ := ring.bufmgrReadEnd_places readable
  simp only [writerThread, here] at h
  cases complete with
  | true =>
    cases h
    refine Inv.silent ⟨sound, inv.producer.release memory tail rfl, trivial⟩ ?_
    simp [view, here, inHand, unwritten, held, dropped]
  | false =>
    cases h
    refine Inv.silent ⟨sound, inv.producer.release memory tail rfl, free, head.symm, ?_⟩ ?_
    · have level := congrArg List.length dropped
      have pending : copied state.producer ≤ promised state.producer := by
        cases state.producer <;> simp [copied, promised]
      rw [List.length_drop] at level
      dsimp only
      omega
    · have block : copyOut geometry (bufmgrReadEnd geometry state.ring len) state.ring.head
          len = (contents geometry state.ring).take len := by
        rw [copyOut_memory memory, copyOut_head readable]
      have rejoined : ((contents geometry state.ring).take len).drop state.partialBytes ++
          (contents geometry state.ring).drop len =
            (contents geometry state.ring).drop state.partialBytes := by
        rw [← List.drop_append_of_le_length, List.take_append_drop]
        rw [List.length_take]
        omega
      simp only [view, here, inHand, unwritten, held, free, dropped, block]
      rw [← List.append_assoc, rejoined]
      simp

theorem spillRead_matched (inv : Inv geometry state) {want : Nat} {stopping : Bool}
    (here : state.writer = .spillRead want stopping)
    (empty : (contents geometry state.ring).length = 0)
    (sound : Sound geometry { state with
      spill := state.spill.drop want
      writer := .fwriteSpill (state.spill.take want) }) :
    Matched geometry state { state with
      spill := state.spill.drop want
      writer := .fwriteSpill (state.spill.take want) } := by
  have free := inv.writer
  simp only [here, WriterInv] at free
  have none_left := List.eq_nil_of_length_eq_zero empty
  refine Inv.silent ⟨sound, ?_, free⟩ ?_
  · refine inv.producer.congr rfl fun drained => ?_
    simp [drained]
  · simp [view, here, inHand, unwritten, held, free, none_left]

theorem fwriteSpill_matched (inv : Inv geometry state) {data : List Cell}
    (here : state.writer = .fwriteSpill data)
    (h : writerThread geometry state io = some next) : Matched geometry state next := by
  have sound := writerThread_sound inv.sound h
  have free := inv.writer
  simp only [here, WriterInv] at free
  have before : view geometry state =
      ⟨data.take io.written ++
        (data.drop io.written ++ (contents geometry state.ring ++ state.spill)),
        state.accepted.flatten, state.file⟩ := by
    rw [← List.append_assoc, List.take_append_drop]
    simp only [view, here, inHand, unwritten]
  simp only [writerThread, here] at h
  split at h
  · by_cases complete : io.complete data.length
    · rw [if_pos complete] at h
      cases h
      refine ⟨⟨sound, inv.producer.congr rfl id, trivial⟩,
        [.receive (data.take io.written).length], ?_⟩
      rw [before, Fifo.run_receive, written_of_complete complete]
      simp [view, inHand, unwritten, held, free]
    · rw [if_neg complete] at h
      cases h
      refine ⟨⟨sound, inv.producer.congr rfl id, trivial⟩,
        [.receive (data.take io.written).length], ?_⟩
      rw [before, Fifo.run_receive]
      simp [view, inHand, unwritten, held, complete]
  · contradiction

theorem writerThread_matched (inv : Inv geometry state)
    (ordered : spillAfterRing state (.write io)) (once : repeatsNothing state (.write io))
    (h : writerThread geometry state io = some next) : Matched geometry state next := by
  have sound := writerThread_sound inv.sound h
  have facts := inv.writer
  cases here : state.writer with
  | exited => simp [writerThread, here] at h
  | loopHead =>
    simp only [writerThread, here] at h
    cases h
    by_cases pending : state.pending.isSome
    · simp only [if_pos pending] at sound ⊢
      exact inv.write sound (by rw [here]; rfl) (by rw [here]; rfl) trivial
    · simp only [if_neg pending] at sound ⊢
      exact inv.write sound (by rw [here]; rfl) (by rw [here]; rfl)
        (Option.not_isSome_iff_eq_none.mp pending)
  | pending stopping =>
    simp only [writerThread, here] at h
    split at h
    · rename_i due
      split at h
      · cases h
        exact retry_matched inv here due once sound
      · contradiction
    · cases h
      exact inv.write sound (by rw [here, inHand_endRound]; rfl)
        (by rw [here, unwritten_endRound]; rfl) (writerInv_endRound _)
  | fillLevel stopping =>
    rw [here] at facts
    simp only [writerThread, here] at h
    cases h
    by_cases filled : 0 < fillLevel state.ring
    · simp only [if_pos filled] at sound ⊢
      exact inv.write sound (by rw [here]; rfl) (by rw [here]; rfl) facts
    · simp only [if_neg filled] at sound ⊢
      exact inv.write sound (by rw [here]; rfl) (by rw [here]; rfl) facts
  | readBegin want stopping =>
    have readable := inv.sound.readable
    rw [here] at facts
    simp only [here, taken] at readable
    simp only [writerThread, here, inv.sound.ring.rbReadPtr_eq, if_pos readable] at h
    cases h
    exact inv.write sound (by rw [here]; rfl) (by rw [here]; rfl) ⟨facts, rfl⟩
  | spillBacklog stopping =>
    rw [here] at facts
    simp only [writerThread, here] at h
    cases h
    by_cases backlog : 0 < state.spill.length
    · simp only [if_pos backlog] at sound ⊢
      exact inv.write sound (by rw [here]; rfl) (by rw [here]; rfl) facts
    · simp only [if_neg backlog] at sound ⊢
      exact inv.write sound (by rw [here, inHand_endRound]; rfl)
        (by rw [here, unwritten_endRound]; rfl) (writerInv_endRound _)
  | spillRead want stopping =>
    simp only [writerThread, here] at h
    split at h
    · rename_i read
      cases h
      apply spillRead_matched inv here _ sound
      rw [← inv.sound.ring.fillLevel_eq]
      simpa [spillAfterRing, here, read] using ordered
    · cases h
      exact inv.write sound (by rw [here, inHand_endRound]; rfl)
        (by rw [here, unwritten_endRound]; rfl) (writerInv_endRound _)
  | fwriteRing pointer len => exact fwriteRing_matched inv here h
  | readEnd pointer len complete => exact readEnd_matched inv here h
  | copyRing pointer len =>
    simp only [writerThread, here] at h
    cases h
    refine Inv.silent ⟨sound, inv.producer.congr rfl id, trivial⟩ ?_
    simp [view, here, inHand, unwritten, held]
  | fwriteSpill data => exact fwriteSpill_matched inv here h

theorem initial_inv (buffer : Nat → Cell) : Inv geometry (initial buffer) :=
  ⟨initial_sound buffer, trivial, trivial⟩

def exactStep (geometry : Geometry) (state : State Cell) (action : Action Cell) : Bool :=
  spillAfterRing state action && repeatsNothing state action &&
    sparesFailedBlock geometry state action

theorem step_matched (inv : Inv geometry state) {action : Action Cell}
    (allowed : exactStep geometry state action)
    (h : step geometry state action = some next) : Matched geometry state next := by
  have sound := step_sound inv.sound h
  simp only [exactStep, Bool.and_eq_true] at allowed
  obtain ⟨⟨ordered, once⟩, spared⟩ := allowed
  have unchanged {tapOpen active exit : Bool} (sound : Sound geometry { state with
      tapOpen := tapOpen, recordingActive := active, exitFlag := exit }) :
      Matched geometry state { state with
        tapOpen := tapOpen, recordingActive := active, exitFlag := exit } :=
    Inv.silent ⟨sound, inv.producer.congr rfl id, inv.writer.congr rfl rfl rfl le_rfl⟩ rfl
  cases action with
  | push data =>
    simp only [step] at h
    split at h
    · split at h <;> cases h
      · have writer := inv.writer
        exact Inv.silent ⟨sound, trivial, writer.congr rfl rfl rfl (Nat.zero_le _)⟩ rfl
      · exact inv.silent rfl
    · contradiction
  | produce enqueued => exact pushInner_matched inv spared h
  | write io => exact writerThread_matched inv ordered once h
  | closeTap =>
    simp only [step] at h
    split at h
    · cases h
      exact unchanged sound
    · contradiction
  | stop | exit =>
    cases h
    exact unchanged sound

theorem prefix_of_events {start last : State Cell} {events : List (Fifo.Event Cell)}
    (conserved : Fifo.Conserved (view geometry start))
    (h : Machine.run Fifo.step (view geometry start) events = some (view geometry last)) :
    PrefixKept last :=
  Fifo.run_prefix conserved h

theorem initial_conserved (buffer : Nat → Cell) :
    Fifo.Conserved (view geometry (initial buffer)) := by
  simp [Fifo.Conserved, view, inHand, unwritten, held, initial, contents]

/-- In every run whose failed writes leave the file alone, whose pushes spare a
failed block, and whose spill is read with the ring empty, the output is exact. -/
theorem output_exact (geometry : Geometry) (buffer : Nat → Cell)
    (schedule : List (Action Cell)) (last : State Cell)
    (h : Machine.run (Machine.guarded (exactStep geometry) (step geometry))
      (initial buffer) schedule = some last) : PrefixKept last := by
  obtain ⟨events, matched⟩ := Machine.run_simulation (view geometry) (Inv geometry)
    (fun state action next inv taken => by
      obtain ⟨allowed, taken⟩ := Machine.guarded_eq_some.mp taken
      exact step_matched inv allowed taken) (initial_inv buffer) h
  exact prefix_of_events (initial_conserved buffer) matched

/-- The writer puts half of a block into the file and then repeats it whole. -/
def halfWritten : List (Action UInt8) :=
  .push [1, 2] :: List.replicate 4 (.produce true) ++
    List.replicate 3 (.write ⟨0, 0, false, true⟩) ++
    List.replicate 4 (.write ⟨0, 1, true, true⟩) ++ [.write ⟨1, 2, false, true⟩]

theorem output_repeats :
    ¬∀ (geometry : Geometry) (schedule : List (Action UInt8)) (last : State UInt8),
      Machine.run (step geometry) (initial fun _ => 0) schedule = some last →
        PrefixKept last := by
  intro claim
  have outcome : (Machine.run (step page) (initial fun _ => 0) halfWritten).map
      (fun last => (last.file, last.accepted)) = some ([1, 1, 2], [[1, 2]]) := by
    decide +kernel
  obtain ⟨last, reached, fields⟩ := Option.map_eq_some_iff.mp outcome
  obtain ⟨file, accepted⟩ := Prod.mk.inj fields
  have kept := claim page halfWritten last reached
  rw [PrefixKept, file, accepted] at kept
  exact absurd kept (by decide)

/-- A block fails whole, is held during a further push, and is written later. -/
def heldBlock : List (Action UInt8) :=
  .push [1, 2] :: List.replicate 4 (.produce true) ++
    List.replicate 4 (.write ⟨0, 0, true, true⟩) ++
    .push [3] :: List.replicate 2 (.produce true) ++
    List.replicate 3 (.write ⟨0, 0, true, true⟩) ++ List.replicate 2 (.produce true) ++
    List.replicate 4 (.write ⟨1, 2, false, true⟩) ++
    List.replicate 2 (.write ⟨2, 1, false, true⟩)

theorem output_exact_held : PrefixKept
    ((Machine.run (Machine.guarded (exactStep page) (step page)) (initial fun _ => 0)
      heldBlock).get (by decide)) :=
  output_exact page (fun _ => 0) heldBlock _ (Option.some_get _).symm

end MisrcGui.Record.DirectOrder
