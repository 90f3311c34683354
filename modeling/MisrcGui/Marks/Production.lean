import MisrcGui.Marks.Accounting

/-! The producer's steps keep the accounts, whatever the consumer is about. -/
namespace MisrcGui.Marks
open Library
open Boundaries (IsMark Tiles frontier)

variable {origin : Nat}

/-- What a step of the producer leaves to the consumer: its own fields, the queued marks and
the lost ones, with at most the mark under way added behind them. -/
structure Grows (before after : System) : Prop where
  consumer : after.consumer = before.consumer
  held : after.marks.consumer = before.marks.consumer
  valid : after.marks.consumerValid = before.marks.consumerValid
  consumedEnd : after.marks.consumedEnd = before.marks.consumedEnd
  minimum : after.marks.minimumSafePosition = before.marks.minimumSafePosition
  seen : after.marks.seenRecoverySequence = before.marks.seenRecoverySequence
  readIndex : after.marks.readIndex = before.marks.readIndex
  published : before.publishedEnd ≤ after.publishedEnd
  kept : ∀ mark, IsMark before.pieces mark → IsMark after.pieces mark
  writeIndex : before.marks.writeIndex ≤ after.marks.writeIndex
  slots : ∀ index, before.marks.readIndex ≤ index → index < before.marks.writeIndex →
    after.marks.slot index = before.marks.slot index
  pushed : ∀ index, before.marks.writeIndex ≤ index → index < after.marks.writeIndex →
    before.producer.pending = some (after.marks.slot index)
  lost : after.lost = before.lost ∨ ∃ mark, before.producer.pending = some mark ∧
    after.lost = ⟨before.marks.recoverySequence + 2, mark⟩ :: before.lost
  sequence : before.marks.recoverySequence ≤ after.marks.recoverySequence
  snapshot : before.marks.recoverySequence % 2 = 0 →
    after.marks.recoverySequence = before.marks.recoverySequence →
      after.marks.recovery = before.marks.recovery
  marks : ∀ mark, IsMark after.pieces mark → IsMark before.pieces mark ∨
    after.producer.pending = some mark
  pending : ∀ mark, after.producer.pending = some mark → before.producer.pending = some mark ∨
    ∀ other, IsMark before.pieces other → other.position < mark.position
  handed : ∀ mark, before.producer.pending = some mark → after.producer.pending = some mark ∨
    (∃ index, before.marks.writeIndex ≤ index ∧ index < after.marks.writeIndex ∧
      after.marks.slot index = mark) ∨ ∃ entry ∈ after.lost, entry.mark = mark

variable {marks : StreamMarks} {observed : List Observation}

theorem ProducerSound.pending_position {producer : Producer} {publishedEnd : Nat} {mark : Mark}
    (sound : ProducerSound origin marks producer publishedEnd observed)
    (pending : producer.pending = some mark) : mark.position = publishedEnd := by
  have busy : producer.isIdle = false := by
    cases producer <;> first | rfl | cases pending
  obtain ⟨newest, older, _, position, facts⟩ := sound.current busy
  rw [← (facts mark pending).2, position]
  rfl

section
variable {before after : System}

theorem Grows.refl (system : System) : Grows system system where
  consumer := rfl
  held := rfl
  valid := rfl
  consumedEnd := rfl
  minimum := rfl
  seen := rfl
  readIndex := rfl
  published := Nat.le_refl _
  kept := fun _ marked => marked
  writeIndex := Nat.le_refl _
  slots := fun _ _ _ => rfl
  pushed := fun _ low high => absurd high (Nat.not_lt.mpr low)
  lost := Or.inl rfl
  sequence := Nat.le_refl _
  snapshot := fun _ _ => rfl
  marks := fun _ marked => Or.inl marked
  pending := fun _ standing => Or.inl standing
  handed := fun _ standing => Or.inl standing

theorem Grows.mem_lost (grows : Grows before after) {entry : Lost}
    (member : entry ∈ before.lost) : entry ∈ after.lost := by
  cases grows.lost with
  | inl same => rwa [same]
  | inr more =>
    obtain ⟨mark, _, shape⟩ := more
    rw [shape]
    exact List.mem_cons_of_mem _ member

theorem grows_held (grows : Grows before after) {next : Nat}
    (low : before.marks.readIndex ≤ next) (high : next ≤ before.marks.writeIndex)
    (held : Held before.pieces before.marks before.producer before.lost next) :
    Held after.pieces after.marks after.producer after.lost next := by
  constructor
  · intro valid
    rw [grows.held]
    exact grows.kept _ (held.isMark (grows.valid ▸ valid))
  · intro valid index first last
    rw [grows.held]
    by_cases old : index < before.marks.writeIndex
    · rw [grows.slots index (Nat.le_trans low first) old]
      exact held.behind (grows.valid ▸ valid) index first old
    · exact held.before _ (grows.pushed index (Nat.not_lt.mp old) last) (grows.valid ▸ valid)
  · intro mark pending valid
    rw [grows.held]
    cases grows.pending mark pending with
    | inl old => exact held.before mark old (grows.valid ▸ valid)
    | inr fresh => exact fresh _ (held.isMark (grows.valid ▸ valid))
  · intro entry member reached
    rw [grows.held, grows.valid]
    rw [grows.seen] at reached
    cases grows.lost with
    | inl same => exact held.covered entry (same ▸ member) reached
    | inr more =>
      obtain ⟨mark, _, shape⟩ := more
      rw [shape] at member
      cases List.mem_cons.mp member with
      | inl newest =>
        have seen := held.seen.2
        rw [newest] at reached
        dsimp only at reached
        omega
      | inr old => exact held.covered entry old reached
  · rw [grows.seen]
    exact ⟨held.seen.1, Nat.le_trans held.seen.2 grows.sequence⟩
  · intro valid newest older shape unseen
    rw [grows.held]
    rw [grows.seen] at unseen
    cases grows.lost with
    | inl same => exact held.unseen (grows.valid ▸ valid) newest older (same ▸ shape) unseen
    | inr more =>
      obtain ⟨mark, pending, entry⟩ := more
      rw [entry] at shape
      obtain ⟨rfl, _⟩ := List.cons.inj shape
      exact held.before mark pending (grows.valid ▸ valid)
  · intro mark isMark
    rw [grows.held, grows.valid]
    cases grows.marks mark isMark with
    | inr pending => exact Or.inl pending
    | inl old =>
      rcases held.accounted mark old with pending | ⟨index, first, last, here⟩ | lost | behind
      · rcases grows.handed mark pending with still | ⟨index, first, last, here⟩ | lost
        · exact Or.inl still
        · exact Or.inr (Or.inl ⟨index, Nat.le_trans high first, last, here⟩)
        · obtain ⟨entry, member, rfl⟩ := lost
          exact Or.inr (Or.inr (Or.inl ⟨entry, member, Nat.le_refl _⟩))
      · refine Or.inr (Or.inl ⟨index, first, Nat.lt_of_lt_of_le last grows.writeIndex, ?_⟩)
        rw [grows.slots index (Nat.le_trans low first) last]
        exact here
      · obtain ⟨entry, member, below⟩ := lost
        exact Or.inr (Or.inr (Or.inl ⟨entry, grows.mem_lost member, below⟩))
      · exact Or.inr (Or.inr (Or.inr behind))

theorem grows_inside (grows : Grows before after) {block : Block}
    (inside : Inside origin before.publishedEnd before.marks.consumedEnd block) :
    Inside origin after.publishedEnd after.marks.consumedEnd block := by
  rw [grows.consumedEnd]
  exact ⟨inside.first, inside.positive, Nat.le_trans inside.published grows.published,
    inside.forward⟩

theorem grows_bounded (grows : Grows before after) {limit : Nat}
    (bounded : Bounded before.marks limit) : Bounded after.marks limit := by
  rw [Bounded, grows.held, grows.valid, grows.minimum]
  exact bounded

theorem grows_fresh (grows : Grows before after)
    (sound : ProducerSound origin before.marks before.producer before.publishedEnd
      before.observed) {sequence last : Nat} (published : last ≤ before.publishedEnd)
    (fresh : Fresh before.lost sequence last) : Fresh after.lost sequence last := by
  intro entry member later
  cases grows.lost with
  | inl same => exact fresh entry (same ▸ member) later
  | inr more =>
    obtain ⟨mark, pending, shape⟩ := more
    rw [shape] at member
    cases List.mem_cons.mp member with
    | inl newest =>
      rw [newest]
      exact Nat.le_trans published (Nat.le_of_eq (sound.pending_position pending).symm)
    | inr old => exact fresh entry old later

theorem grows_ahead (grows : Grows before after)
    (sound : ProducerSound origin before.marks before.producer before.publishedEnd
      before.observed) {last : Nat} (published : last ≤ before.publishedEnd)
    (ahead : Ahead before.marks before.lost last) : Ahead after.marks after.lost last := by
  intro newest older shape unseen
  rw [grows.seen] at unseen
  cases grows.lost with
  | inl same => exact ahead newest older (same ▸ shape) unseen
  | inr more =>
    obtain ⟨mark, pending, entry⟩ := more
    rw [entry] at shape
    obtain ⟨rfl, _⟩ := List.cons.inj shape
    exact Nat.le_trans published (Nat.le_of_eq (sound.pending_position pending).symm)

theorem grows_chosen (grows : Grows before after)
    (sound : ProducerSound origin before.marks before.producer before.publishedEnd
      before.observed) {block : Block} {sequence : Nat} {mark : Mark}
    (published : block.last ≤ before.publishedEnd)
    (chosen : Chosen before.marks before.lost block sequence mark) :
    Chosen after.marks after.lost block sequence mark := by
  refine ⟨chosen.even, ?_, Nat.le_trans chosen.reached grows.sequence,
    grows_fresh grows sound published chosen.fresh, grows.mem_lost chosen.lost, ?_⟩
  · rw [grows.seen]
    exact chosen.unseen
  · rw [grows.valid, grows.held]
    exact chosen.later

theorem grows_dropping (grows : Grows before after)
    (sound : LostSound before.pieces before.marks before.producer before.publishedEnd
      before.lost) {mark : Mark} {write sequence : Nat} (lost : ⟨sequence, mark⟩ ∈ before.lost)
    (dropping : Dropping before.marks mark write) : Dropping after.marks mark write := by
  have loaded := dropping.loaded
  refine ⟨⟨?_, Nat.le_trans loaded.2 grows.writeIndex⟩, ?_⟩
  · rw [grows.readIndex]
    exact loaded.1
  · intro index first last
    by_cases old : index < before.marks.writeIndex
    · rw [grows.slots index (Nat.le_trans loaded.1 first) old]
      exact dropping.beyond index first old
    · exact sound.before _ (grows.pushed index (Nat.not_lt.mp old) last) _ lost

theorem grows_loaded (grows : Grows before after)
    (sound : ProducerSound origin before.marks before.producer before.publishedEnd
      before.observed) {last write : Nat} (published : last ≤ before.publishedEnd)
    (loaded : Loaded before.marks last write) : Loaded after.marks last write := by
  have bounds := loaded.loaded
  refine ⟨⟨?_, Nat.le_trans bounds.2 grows.writeIndex⟩, ?_⟩
  · rw [grows.readIndex]
    exact bounds.1
  · intro index first high
    by_cases old : index < before.marks.writeIndex
    · rw [grows.slots index (Nat.le_trans bounds.1 first) old]
      exact loaded.beyond index first old
    · have pending := grows.pushed index (Nat.not_lt.mp old) high
      exact Nat.le_trans published (Nat.le_of_eq (sound.pending_position pending).symm)

theorem grows_taking (grows : Grows before after)
    (sound : ProducerSound origin before.marks before.producer before.publishedEnd
      before.observed) {block : Block} {safe : Bool}
    (published : block.last ≤ before.publishedEnd)
    (taking : Taking before.marks before.lost block safe) :
    Taking after.marks after.lost block safe := by
  refine ⟨grows_ahead grows sound published taking.ahead, grows_bounded grows taking.bounded, ?_⟩
  rw [grows.minimum, grows.valid, grows.held]
  exact taking.clear

theorem grows_phase (grows : Grows before after) (sound : Sound origin before) :
    Phase origin after.publishedEnd after.marks after.lost after.consumer := by
  have phase := sound.phase
  have producer := sound.producer
  rw [grows.consumer]
  have end' : ∀ {block : Block},
      Inside origin before.publishedEnd before.marks.consumedEnd block →
        Inside origin after.publishedEnd after.marks.consumedEnd block := grows_inside grows
  have bounded' : Bounded before.marks before.marks.consumedEnd →
      Bounded after.marks after.marks.consumedEnd := by
    rw [grows.consumedEnd]
    exact grows_bounded grows
  cases standing : before.consumer <;> rw [standing] at phase
  case idle => exact bounded' phase
  case recovering block => exact ⟨end' phase.1, bounded' phase.2⟩
  case loading block sequence mark remaining =>
    obtain ⟨inside, bounded, even, unseen, reached, fresh, agrees⟩ := phase
    refine ⟨end' inside, bounded' bounded, even, ?_, Nat.le_trans reached grows.sequence,
      grows_fresh grows producer inside.published fresh, ?_⟩
    · rw [grows.seen]
      exact unseen
    · intro same
      have still : sequence = before.marks.recoverySequence :=
        Nat.le_antisymm reached (same ▸ grows.sequence)
      rw [grows.snapshot (still ▸ even) (same.symm.trans still)]
      exact agrees still
  case locating block sequence mark =>
    obtain ⟨inside, bounded, chosen⟩ := phase
    exact ⟨end' inside, bounded' bounded, grows_chosen grows producer inside.published chosen⟩
  case dropping block sequence mark write =>
    obtain ⟨inside, bounded, chosen, dropping⟩ := phase
    exact ⟨end' inside, bounded' bounded, grows_chosen grows producer inside.published chosen,
      grows_dropping grows sound.lost chosen.lost dropping⟩
  case releasing block sequence mark write =>
    obtain ⟨inside, bounded, chosen, dropping, room, below⟩ := phase
    refine ⟨end' inside, bounded' bounded, grows_chosen grows producer inside.published chosen,
      grows_dropping grows sound.lost chosen.lost dropping, ?_⟩
    rw [grows.readIndex]
    rw [grows.slots _ (Nat.le_refl _) (Nat.lt_of_lt_of_le room dropping.loaded.2)]
    exact ⟨room, below⟩
  case confirming block sequence =>
    obtain ⟨inside, bounded, ahead⟩ := phase
    exact ⟨end' inside, bounded' bounded, grows_ahead grows producer inside.published ahead⟩
  case preparing block recovered =>
    obtain ⟨inside, bounded, ahead⟩ := phase
    exact ⟨end' inside, bounded' bounded, grows_ahead grows producer inside.published ahead⟩
  case taking block safe write =>
    obtain ⟨inside, taking, loaded⟩ := phase
    exact ⟨end' inside, grows_taking grows producer inside.published taking,
      grows_loaded grows producer inside.published loaded⟩
  case advancing block safe write =>
    obtain ⟨inside, taking, loaded, room⟩ := phase
    refine ⟨end' inside, grows_taking grows producer inside.published taking,
      grows_loaded grows producer inside.published loaded, ?_⟩
    rw [grows.readIndex]
    exact room
  case finishing block safe =>
    obtain ⟨inside, taking, passed⟩ := phase
    refine ⟨end' inside, grows_taking grows producer inside.published taking, ?_⟩
    have loaded : Loaded before.marks block.last before.marks.readIndex :=
      ⟨⟨Nat.le_refl _, sound.queue.ordered⟩, passed⟩
    have kept := grows_loaded grows producer inside.published loaded
    rw [grows.readIndex]
    exact kept.beyond

theorem Sound.next_le (sound : Sound origin before) :
    before.marks.readIndex ≤ before.consumer.next before.marks.readIndex ∧
      before.consumer.next before.marks.readIndex ≤ before.marks.writeIndex := by
  have ordered := sound.queue.ordered
  have phase := sound.phase
  cases standing : before.consumer <;> rw [standing] at phase <;> rw [Consumer.next]
  case advancing block safe write =>
    have loaded := phase.2.2.1.loaded
    have room := phase.2.2.2
    omega
  all_goals first | exact ⟨Nat.le_refl _, ordered⟩ | nofun

/-- A producer step needs only its own three facts and what it leaves to the consumer. -/
theorem Sound.grow (sound : Sound origin before) (grows : Grows before after)
    (producer : ProducerSound origin after.marks after.producer after.publishedEnd
      after.observed)
    (queue : QueueSound after.pieces after.marks after.producer)
    (lost : LostSound after.pieces after.marks after.producer after.publishedEnd after.lost) :
    Sound origin after := by
  refine ⟨producer, queue, lost, ?_, grows_phase grows sound⟩
  have bounds := sound.next_le
  rw [grows.consumer, grows.readIndex]
  exact grows_held grows bounds.1 bounds.2 sound.held

end

variable {system next : System}

theorem unmarked_continues {producer : Producer} {publishedEnd : Nat} {write : Write}
    (sound : ProducerSound origin marks producer publishedEnd observed)
    (unmarked : marks.changed write = false) :
    (observed.map Observation.piece).head?.map Boundaries.Piece.label =
      some (marks.content write) := by
  simp only [StreamMarks.changed, Bool.or_eq_false_iff, Bool.not_eq_false'] at unmarked
  obtain ⟨⟨valid, same⟩, _⟩ := unmarked
  rw [sound.valid] at valid
  cases shape : observed with
  | nil => simp [shape] at valid
  | cons newest older =>
    have label := sound.newest newest older shape
    rw [← rfMarkChanged_eq_false.mp same, label]
    rfl

theorem observe_sound (sound : Sound origin system) {write : Write}
    (idle : system.producer = .idle) (positive : 0 < write.bytes)
    (contiguous : write.position = frontier origin system.pieces) :
    Sound origin (observe system write) := by
  have producer := sound.producer
  have quiet : system.producer.pending = none := by rw [idle]; rfl
  have published : system.publishedEnd = write.position := by
    rw [contiguous]
    exact producer.settled (by rw [idle]; rfl)
  have isMark : ∀ mark, IsMark (observe system write).pieces mark →
      IsMark system.pieces mark ∨
        system.marks.changed write = true ∧ mark = ⟨write.position, system.marks.content write⟩ := by
    intro mark marked
    cases Boundaries.isMark_cons.mp marked with
    | inl newest => exact Or.inr ⟨newest.1, newest.2.symm⟩
    | inr older => exact Or.inl older
  have pending : ∀ mark, (observe system write).producer.pending = some mark →
      system.marks.changed write = true ∧
        mark = ⟨write.position, system.marks.content write⟩ := by
    intro mark standing
    simp only [observe] at standing
    split at standing
    · next changed => exact ⟨changed, (Option.some.inj standing).symm⟩
    · contradiction
  have below : ∀ mark, (observe system write).producer.pending = some mark →
      ∀ other, IsMark system.pieces other → other.position < mark.position := by
    intro mark standing other marked
    rw [(pending mark standing).2]
    rw [contiguous]
    exact (Boundaries.mark_bounds producer.tiles marked).2
  apply sound.grow
  · refine { Grows.refl system with
      kept := fun mark marked => marked.cons _
      marks := ?_
      pending := fun mark standing => Or.inr (below mark standing)
      handed := ?_ }
    · intro mark marked
      cases isMark mark marked with
      | inl older => exact Or.inl older
      | inr newest =>
        apply Or.inr
        simp [observe, newest.1, newest.2, Producer.pending]
    · intro mark standing
      rw [quiet] at standing
      contradiction
  · constructor
    · refine ⟨contiguous, positive, ?_, producer.tiles⟩
      exact unmarked_continues producer
    · intro settled
      simp only [observe] at settled
      split at settled <;> cases settled
    · intro _
      refine ⟨⟨write, system.marks.content write, system.marks.changed write⟩, system.observed,
        rfl, published, ?_⟩
      intro mark standing
      obtain ⟨changed, rfl⟩ := pending mark standing
      exact ⟨changed, rfl⟩
    · rfl
    · intro newest older shape
      obtain ⟨rfl, _⟩ := List.cons.inj shape
      rfl
    · intro observation member
      cases List.mem_cons.mp member with
      | inl newest =>
        subst newest
        refine ⟨?_, rfl, rfl⟩
        intro gap
        have ambiguous : write.ambiguousGap = true := gap
        simp [StreamMarks.content, ambiguous]
      | inr older => exact producer.flagged observation older
  · refine { sound.queue with isMark := ?_, before := ?_, room := ?_, written := ?_ }
    · intro index low high
      exact (sound.queue.isMark index low high).cons _
    · intro mark standing index low high
      exact below mark standing _ (sound.queue.isMark index low high)
    · intro mark standing
      simp only [observe] at standing
      split at standing <;> simp at standing
    · intro mark standing
      simp only [observe] at standing
      split at standing <;> cases standing
  · have complete := sound.lost.complete (by simp [idle])
    refine { sound.lost with isMark := ?_, before := ?_, storing := ?_, complete := ?_ }
    · intro entry member
      exact (sound.lost.isMark entry member).cons _
    · intro mark standing entry member
      exact below mark standing _ (sound.lost.isMark entry member)
    · intro mark remaining standing
      simp only [observe] at standing
      split at standing <;> cases standing
    · intro _
      exact complete

theorem ProducerSound.turn {publishedEnd : Nat} {stage : Producer} (turned : Producer)
    (sound : ProducerSound origin marks stage publishedEnd observed) (busy : stage.isIdle = false)
    (still : turned.isIdle = false)
    (pending : ∀ mark, turned.pending = some mark → stage.pending = some mark) :
    ProducerSound origin marks turned publishedEnd observed := by
  refine { sound with settled := ?_, current := ?_ }
  · intro idle
    exact absurd idle (by simp [still])
  · intro _
    obtain ⟨newest, older, shape, position, facts⟩ := sound.current busy
    exact ⟨newest, older, shape, position, fun mark standing => facts mark (pending mark standing)⟩

theorem testing_sound (sound : Sound origin system) {mark : Mark}
    (standing : system.producer = .testing mark) (h : produce system = some next) :
    Sound origin next := by
  have producer := sound.producer
  have queue := sound.queue
  have lost := sound.lost
  rw [standing] at producer queue lost
  have complete := lost.complete nofun
  have same : system.producer.pending = some mark := by rw [standing]; rfl
  have grows : ∀ stage : Producer, stage.pending = some mark →
      Grows system { system with producer := stage } := fun _ turned =>
    { Grows.refl system with
      marks := fun _ marked => Or.inl marked
      pending := fun other pending => Or.inl (same.trans (turned.symm.trans pending))
      handed := fun other pending => Or.inl (turned.trans (same.symm.trans pending)) }
  simp only [produce, standing] at h
  split at h
  · cases h
    apply sound.grow (grows (.opening mark) rfl)
      (producer.turn (.opening mark) rfl rfl fun _ pending => pending)
    · exact { queue with room := nofun, written := nofun }
    · exact { lost with storing := nofun, complete := fun _ => complete }
  · next room =>
    cases h
    have ordered := queue.ordered
    apply sound.grow (grows (.pushing mark) rfl)
      (producer.turn (.pushing mark) rfl rfl fun _ pending => pending)
    · refine { queue with room := ?_, written := nofun }
      intro _ _
      dsimp only
      omega
    · exact { lost with storing := nofun, complete := fun _ => complete }

theorem slot_update (marks : StreamMarks) (mark : Mark) {index : Nat}
    (low : marks.readIndex ≤ index) (high : index < marks.writeIndex)
    (room : marks.writeIndex < marks.readIndex + markCapacity) :
    ({ marks with
      queue := Function.update marks.queue (marks.writeIndex % markCapacity) mark } :
        StreamMarks).slot index = marks.slot index := by
  apply Function.update_of_ne
  unfold markCapacity at room ⊢
  omega

theorem QueueSound.write {pieces : List (Boundaries.Piece Content)} {mark : Mark}
    (queue : QueueSound pieces marks (.pushing mark)) :
    QueueSound pieces
      { marks with queue := Function.update marks.queue (marks.writeIndex % markCapacity) mark }
      (.advancing mark) := by
  have room := queue.room mark (Or.inl rfl)
  refine { queue with isMark := ?_, increasing := ?_, before := ?_, room := ?_, written := ?_ }
  · intro index low high
    rw [slot_update marks mark low high room]
    exact queue.isMark index low high
  · intro index later low between high
    rw [slot_update marks mark low (Nat.lt_trans between high) room,
      slot_update marks mark (Nat.le_trans low (Nat.le_of_lt between)) high room]
    exact queue.increasing index later low between high
  · intro other pending index low high
    rw [slot_update marks mark low high room]
    exact queue.before other pending index low high
  · intro _ _
    exact room
  · intro other written
    cases written
    exact Function.update_self _ _ _

theorem pushing_sound (sound : Sound origin system) {mark : Mark}
    (standing : system.producer = .pushing mark) (h : produce system = some next) :
    Sound origin next := by
  have producer := sound.producer
  have queue := sound.queue
  have lost := sound.lost
  rw [standing] at producer queue lost
  have complete := lost.complete nofun
  have room := queue.room mark (Or.inl rfl)
  have same : system.producer.pending = some mark := by rw [standing]; rfl
  simp only [produce, standing, Option.some.injEq] at h
  subst h
  apply sound.grow
  · exact { Grows.refl system with
      slots := fun index low high => slot_update _ mark low high room
      pushed := fun _ low high => absurd high (Nat.not_lt.mpr low)
      marks := fun _ marked => Or.inl marked
      pending := fun other pending => Or.inl (same.trans pending)
      handed := fun other pending => Or.inl (same.symm.trans pending) }
  · exact { producer.turn (.advancing mark) rfl rfl fun _ pending => pending with }
  · exact queue.write
  · exact { lost with storing := nofun, complete := fun _ => complete }

theorem advancing_index_sound (sound : Sound origin system) {mark : Mark}
    (standing : system.producer = .advancing mark) (h : produce system = some next) :
    Sound origin next := by
  have producer := sound.producer
  have queue := sound.queue
  have lost := sound.lost
  rw [standing] at producer queue lost
  have complete := lost.complete nofun
  have room := queue.room mark (Or.inr rfl)
  have written := queue.written mark rfl
  have same : system.producer.pending = some mark := by rw [standing]; rfl
  simp only [produce, standing, Option.some.injEq] at h
  subst h
  have queued : ∀ index, ¬index < system.marks.writeIndex →
      index < system.marks.writeIndex + 1 → index = system.marks.writeIndex := by
    intro index old high
    omega
  apply sound.grow
  · refine { Grows.refl system with
      writeIndex := Nat.le_succ _
      pushed := ?_
      marks := fun _ marked => Or.inl marked
      pending := nofun
      handed := ?_ }
    · intro index low high
      rw [queued index (Nat.not_lt.mpr low) high, same]
      exact congrArg some written.symm
    · intro other pending
      cases same.symm.trans pending
      exact Or.inr (Or.inl ⟨_, Nat.le_refl _, Nat.lt_succ_self _, written⟩)
  · exact { producer.turn .observed rfl rfl nofun with }
  · have ordered := queue.ordered
    constructor
    · exact Nat.le_succ_of_le ordered
    · exact room
    · intro index low high
      by_cases old : index < system.marks.writeIndex
      · exact queue.isMark index low old
      · rw [queued index old high]
        obtain ⟨newest, older, shape, _, facts⟩ := producer.current rfl
        obtain ⟨marked, piece⟩ := facts mark rfl
        refine ⟨newest.piece, ?_, marked, piece.trans written.symm⟩
        simp [System.pieces, shape]
    · intro index later low between high
      by_cases old : later < system.marks.writeIndex
      · exact queue.increasing index later low between old
      · rw [queued later old high] at between ⊢
        have below := queue.before mark rfl index low between
        rw [← written] at below
        exact below
    · nofun
    · nofun
    · nofun
  · exact { lost with before := nofun, storing := nofun, complete := fun _ => complete }

theorem opening_sound (sound : Sound origin system) {mark : Mark}
    (standing : system.producer = .opening mark) (h : produce system = some next) :
    Sound origin next := by
  have producer := sound.producer
  have queue := sound.queue
  have lost := sound.lost
  rw [standing] at producer queue lost
  obtain ⟨even, empty, newestFacts⟩ := lost.complete nofun
  have same : system.producer.pending = some mark := by rw [standing]; rfl
  have pending : (Producer.opening mark).pending = some mark := rfl
  have position := producer.pending_position pending
  simp only [produce, standing, Option.some.injEq] at h
  subst h
  apply sound.grow
  · refine { Grows.refl system with
      lost := Or.inr ⟨mark, same, rfl⟩
      sequence := Nat.le_succ _
      snapshot := fun _ equal => absurd equal (Nat.succ_ne_self _)
      marks := fun _ marked => Or.inl marked
      pending := nofun
      handed := ?_ }
    intro other pending
    cases same.symm.trans pending
    exact Or.inr (Or.inr ⟨_, List.mem_cons_self, rfl⟩)
  · exact { producer.turn (.storing mark storeOrder) rfl rfl nofun with }
  · exact { queue with before := nofun, room := nofun, written := nofun }
  · constructor
    · intro entry member
      cases List.mem_cons.mp member with
      | inl newest =>
        obtain ⟨current, older, shape, _, facts⟩ := producer.current rfl
        obtain ⟨marked, piece⟩ := facts mark rfl
        rw [newest]
        refine ⟨current.piece, ?_, marked, piece⟩
        simp [System.pieces, shape]
      | inr older => exact lost.isMark entry older
    · refine List.pairwise_cons.mpr ⟨?_, lost.decreasing⟩
      intro entry member
      refine ⟨?_, lost.before mark rfl entry member⟩
      obtain ⟨newest, older, shape⟩ := List.exists_cons_of_ne_nil (List.ne_nil_of_mem member)
      have bound := lost.sequence_le shape member
      have equal := (newestFacts newest older shape).1
      dsimp only
      omega
    · nofun
    · intro other remaining storing
      cases storing
      dsimp only
      refine ⟨by omega, position, ⟨_, rfl⟩, ?_⟩
      intro field
      exact Or.inl (mem_storeOrder field)
    · intro idle
      exact absurd rfl (idle mark storeOrder)

theorem storing_sound (sound : Sound origin system) {mark : Mark} {remaining : List Field}
    (standing : system.producer = .storing mark remaining) (h : produce system = some next) :
    Sound origin next := by
  have producer := sound.producer
  have queue := sound.queue
  have lost := sound.lost
  have same : system.producer.pending = none := by rw [standing]; rfl
  rw [standing] at producer queue lost
  obtain ⟨odd, position, ⟨older, shape⟩, agrees⟩ := lost.storing mark remaining rfl
  cases remaining with
  | cons field remaining =>
    simp only [produce, standing, Option.some.injEq] at h
    subst h
    apply sound.grow
    · exact { Grows.refl system with
        snapshot := fun even => absurd odd (by omega)
        marks := fun _ marked => Or.inl marked
        pending := nofun
        handed := fun other pending => absurd (same.symm.trans pending) nofun }
    · exact { producer.turn (.storing mark remaining) rfl rfl nofun with }
    · exact { queue with before := nofun, room := nofun, written := nofun }
    · refine { lost with before := nofun, storing := ?_, complete := ?_ }
      · intro other rest storing
        cases storing
        exact ⟨odd, position, ⟨older, shape⟩, agrees.copy⟩
      · intro idle
        exact absurd rfl (idle mark remaining)
  | nil =>
    simp only [produce, standing, Option.some.injEq] at h
    subst h
    apply sound.grow
    · exact { Grows.refl system with
        sequence := Nat.le_succ _
        snapshot := fun even => absurd odd (by omega)
        marks := fun _ marked => Or.inl marked
        pending := nofun
        handed := fun other pending => absurd (same.symm.trans pending) nofun }
    · exact { producer.turn .observed rfl rfl nofun with }
    · exact { queue with before := nofun, room := nofun, written := nofun }
    · refine { lost with before := nofun, storing := nofun, complete := ?_ }
      intro _
      dsimp only
      refine ⟨by omega, ?_, ?_⟩
      · intro none
        rw [shape] at none
        contradiction
      · intro newest rest equal
        rw [shape] at equal
        obtain ⟨rfl, _⟩ := List.cons.inj equal
        exact ⟨rfl, agrees.eq.symm⟩

theorem produce_sound (sound : Sound origin system) (h : produce system = some next) :
    Sound origin next := by
  cases standing : system.producer with
  | idle | observed => simp [produce, standing] at h
  | testing mark => exact testing_sound sound standing h
  | pushing mark => exact pushing_sound sound standing h
  | advancing mark => exact advancing_index_sound sound standing h
  | opening mark => exact opening_sound sound standing h
  | storing mark remaining => exact storing_sound sound standing h

theorem publish_sound (sound : Sound origin system) (standing : system.producer = .observed) :
    Sound origin { system with
      producer := .idle
      publishedEnd := frontier origin system.pieces } := by
  have producer := sound.producer
  have queue := sound.queue
  have lost := sound.lost
  have same : system.producer.pending = none := by rw [standing]; rfl
  rw [standing] at producer queue lost
  have complete := lost.complete nofun
  obtain ⟨newest, older, shape, position, _⟩ := producer.current rfl
  apply sound.grow
  · refine { Grows.refl system with
      published := ?_
      marks := fun _ marked => Or.inl marked
      pending := nofun
      handed := fun other pending => absurd (same.symm.trans pending) nofun }
    rw [System.pieces, shape, position]
    exact Nat.le_add_right _ _
  · exact { producer with settled := fun _ => rfl, current := nofun }
  · exact { queue with before := nofun, room := nofun, written := nofun }
  · exact { lost with before := nofun, storing := nofun, complete := fun _ => complete }

end MisrcGui.Marks
