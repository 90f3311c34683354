import MisrcGui.Marks.StreamMarks

/-! What holds of the stream marks in every interleaving: each mark is in the queue, under way,
covered by a lost one or behind the one the consumer holds. -/
namespace MisrcGui.Marks
open Library
open Boundaries (IsMark Tiles frontier)

theorem rfMarkChanged_eq_false {left right : Content} :
    rfMarkChanged left right = false ↔ left = right := by
  obtain ⟨⟨leftA, leftB⟩, ⟨epochA, epochB⟩, leftUnsafe⟩ := left
  obtain ⟨⟨rightA, rightB⟩, ⟨otherA, otherB⟩, rightUnsafe⟩ := right
  simp [rfMarkChanged, and_assoc]
  tauto

def Field.Same (left right : Mark) : Field → Prop
  | .position => left.position = right.position
  | .rateA => left.label.rates.1 = right.label.rates.1
  | .rateB => left.label.rates.2 = right.label.rates.2
  | .epochA => left.label.epochs.1 = right.label.epochs.1
  | .epochB => left.label.epochs.2 = right.label.epochs.2
  | .isUnsafe => left.label.isUnsafe = right.label.isUnsafe

theorem Field.same_copy (source target : Mark) (field : Field) :
    field.Same (field.copy source target) source := by
  cases field <;> rfl

theorem Field.Same.copy {source target : Mark} {field : Field} (other : Field)
    (same : field.Same target source) : field.Same (other.copy source target) source := by
  cases other <;> cases field <;> first | exact same | rfl

theorem Field.eq_of_same {left right : Mark} (same : ∀ field : Field, field.Same left right) :
    left = right := by
  have position : left.position = right.position := same .position
  have rates : left.label.rates = right.label.rates := Prod.ext (same .rateA) (same .rateB)
  have epochs : left.label.epochs = right.label.epochs := Prod.ext (same .epochA) (same .epochB)
  have isUnsafe : left.label.isUnsafe = right.label.isUnsafe := same .isUnsafe
  obtain ⟨_, _, _, _⟩ := left
  obtain ⟨_, _, _, _⟩ := right
  simp_all

theorem mem_storeOrder (field : Field) : field ∈ storeOrder := by
  cases field <;> decide

theorem mem_loadOrder (field : Field) : field ∈ loadOrder := by
  cases field <;> decide

def Agrees (remaining : List Field) (target source : Mark) : Prop :=
  ∀ field, field ∈ remaining ∨ field.Same target source

theorem Agrees.copy {field : Field} {remaining : List Field} {target source : Mark}
    (agrees : Agrees (field :: remaining) target source) :
    Agrees remaining (field.copy source target) source := by
  intro other
  cases agrees other with
  | inl pending =>
    cases List.mem_cons.mp pending with
    | inl this =>
      subst this
      exact Or.inr (other.same_copy source target)
    | inr later => exact Or.inl later
  | inr same => exact Or.inr (same.copy field)

theorem Agrees.eq {target source : Mark} (agrees : Agrees [] target source) : target = source :=
  Field.eq_of_same fun field => (agrees field).resolve_left (by simp)

/-- The mark of the write under way, until it is in the queue or lost. -/
def Producer.pending : Producer → Option Mark
  | .testing mark | .pushing mark | .advancing mark | .opening mark => some mark
  | .idle | .storing _ _ | .observed => none

def Producer.isIdle : Producer → Bool
  | .idle => true
  | _ => false

structure ProducerSound (origin : Nat) (marks : StreamMarks) (producer : Producer)
    (publishedEnd : Nat) (observed : List Observation) : Prop where
  tiles : Tiles origin (observed.map Observation.piece)
  settled : producer.isIdle = true → publishedEnd = frontier origin (observed.map Observation.piece)
  current : producer.isIdle = false → ∃ newest older, observed = newest :: older ∧
    publishedEnd = newest.write.position ∧
      ∀ mark, producer.pending = some mark → newest.marked = true ∧ newest.piece.mark = mark
  valid : marks.producerValid = !observed.isEmpty
  newest : ∀ newest older, observed = newest :: older → marks.producer.label = newest.content
  flagged : ∀ observation ∈ observed,
    (observation.write.ambiguousGap = true → observation.content.isUnsafe = true) ∧
    observation.content.rates = observation.write.rates ∧
    observation.content.epochs = observation.write.epochs

structure QueueSound (pieces : List (Boundaries.Piece Content)) (marks : StreamMarks)
    (producer : Producer) : Prop where
  ordered : marks.readIndex ≤ marks.writeIndex
  bounded : marks.writeIndex ≤ marks.readIndex + markCapacity
  isMark : ∀ index, marks.readIndex ≤ index → index < marks.writeIndex →
    IsMark pieces (marks.slot index)
  increasing : ∀ index later, marks.readIndex ≤ index → index < later →
    later < marks.writeIndex → (marks.slot index).position < (marks.slot later).position
  before : ∀ mark, producer.pending = some mark → ∀ index, marks.readIndex ≤ index →
    index < marks.writeIndex → (marks.slot index).position < mark.position
  room : ∀ mark, producer = .pushing mark ∨ producer = .advancing mark →
    marks.writeIndex < marks.readIndex + markCapacity
  written : ∀ mark, producer = .advancing mark → marks.slot marks.writeIndex = mark

structure LostSound (pieces : List (Boundaries.Piece Content)) (marks : StreamMarks)
    (producer : Producer) (publishedEnd : Nat) (lost : List Lost) : Prop where
  isMark : ∀ entry ∈ lost, IsMark pieces entry.mark
  decreasing : lost.Pairwise fun newer older =>
    older.sequence < newer.sequence ∧ older.mark.position < newer.mark.position
  before : ∀ mark, producer.pending = some mark → ∀ entry ∈ lost,
    entry.mark.position < mark.position
  storing : ∀ mark remaining, producer = .storing mark remaining →
    marks.recoverySequence % 2 = 1 ∧ mark.position = publishedEnd ∧
      (∃ older, lost = ⟨marks.recoverySequence + 1, mark⟩ :: older) ∧
        Agrees remaining marks.recovery mark
  complete : (∀ mark remaining, producer ≠ .storing mark remaining) →
    marks.recoverySequence % 2 = 0 ∧ (lost = [] → marks.recoverySequence = 0) ∧
      ∀ newest older, lost = newest :: older →
        newest.sequence = marks.recoverySequence ∧ newest.mark = marks.recovery

def Consumer.next (readIndex : Nat) : Consumer → Nat
  | .advancing _ _ _ => readIndex + 1
  | _ => readIndex

/-- Every snapshot after the one at `sequence` is of a mark behind the block. -/
def Fresh (lost : List Lost) (sequence last : Nat) : Prop :=
  ∀ entry ∈ lost, sequence < entry.sequence → last ≤ entry.mark.position

def Ahead (marks : StreamMarks) (lost : List Lost) (last : Nat) : Prop :=
  ∀ newest older, lost = newest :: older → marks.seenRecoverySequence < newest.sequence →
    last ≤ newest.mark.position

structure Held (pieces : List (Boundaries.Piece Content)) (marks : StreamMarks)
    (producer : Producer) (lost : List Lost) (next : Nat) : Prop where
  isMark : marks.consumerValid = true → IsMark pieces marks.consumer
  behind : marks.consumerValid = true → ∀ index, next ≤ index → index < marks.writeIndex →
    marks.consumer.position < (marks.slot index).position
  before : ∀ mark, producer.pending = some mark → marks.consumerValid = true →
    marks.consumer.position < mark.position
  covered : ∀ entry ∈ lost, entry.sequence ≤ marks.seenRecoverySequence →
    marks.consumerValid = true ∧ entry.mark.position ≤ marks.consumer.position
  seen : marks.seenRecoverySequence % 2 = 0 ∧
    marks.seenRecoverySequence ≤ marks.recoverySequence
  unseen : marks.consumerValid = true → ∀ newest older, lost = newest :: older →
    marks.seenRecoverySequence < newest.sequence →
      marks.consumer.position < newest.mark.position
  accounted : ∀ mark, IsMark pieces mark →
    producer.pending = some mark ∨
    (∃ index, next ≤ index ∧ index < marks.writeIndex ∧ marks.slot index = mark) ∨
    (∃ entry ∈ lost, mark.position ≤ entry.mark.position) ∨
    marks.consumerValid = true ∧ mark.position ≤ marks.consumer.position

/-- A block under read lies in the published bytes, after the block read before it. -/
structure Inside (origin publishedEnd consumedEnd : Nat) (block : Block) : Prop where
  first : origin ≤ block.position
  positive : 0 < block.bytes
  published : block.last ≤ publishedEnd
  forward : consumedEnd ≤ block.position

def Bounded (marks : StreamMarks) (limit : Nat) : Prop :=
  marks.consumerValid = true → marks.consumer.position < limit ∨
    marks.consumer.position ≤ marks.minimumSafePosition

structure Chosen (marks : StreamMarks) (lost : List Lost) (block : Block) (sequence : Nat)
    (mark : Mark) : Prop where
  even : sequence % 2 = 0
  unseen : marks.seenRecoverySequence < sequence
  reached : sequence ≤ marks.recoverySequence
  fresh : Fresh lost sequence block.last
  lost : ⟨sequence, mark⟩ ∈ lost
  later : marks.consumerValid = true → marks.consumer.position < mark.position

structure Dropping (marks : StreamMarks) (mark : Mark) (write : Nat) : Prop where
  loaded : marks.readIndex ≤ write ∧ write ≤ marks.writeIndex
  beyond : ∀ index, write ≤ index → index < marks.writeIndex →
    mark.position < (marks.slot index).position

structure Taking (marks : StreamMarks) (lost : List Lost) (block : Block) (safe : Bool) :
    Prop where
  ahead : Ahead marks lost block.last
  bounded : Bounded marks block.last
  clear : safe = true → marks.minimumSafePosition ≤ block.position ∧
    (marks.consumerValid = true → marks.consumer.position ≤ block.position)

structure Loaded (marks : StreamMarks) (last write : Nat) : Prop where
  loaded : marks.readIndex ≤ write ∧ write ≤ marks.writeIndex
  beyond : ∀ index, write ≤ index → index < marks.writeIndex →
    last ≤ (marks.slot index).position

def Phase (origin publishedEnd : Nat) (marks : StreamMarks) (lost : List Lost) :
    Consumer → Prop
  | .idle => Bounded marks marks.consumedEnd
  | .recovering block =>
    Inside origin publishedEnd marks.consumedEnd block ∧ Bounded marks marks.consumedEnd
  | .loading block sequence mark remaining =>
    Inside origin publishedEnd marks.consumedEnd block ∧ Bounded marks marks.consumedEnd ∧
      sequence % 2 = 0 ∧ marks.seenRecoverySequence < sequence ∧
        sequence ≤ marks.recoverySequence ∧ Fresh lost sequence block.last ∧
          (sequence = marks.recoverySequence → Agrees remaining mark marks.recovery)
  | .locating block sequence mark =>
    Inside origin publishedEnd marks.consumedEnd block ∧ Bounded marks marks.consumedEnd ∧
      Chosen marks lost block sequence mark
  | .dropping block sequence mark write =>
    Inside origin publishedEnd marks.consumedEnd block ∧ Bounded marks marks.consumedEnd ∧
      Chosen marks lost block sequence mark ∧ Dropping marks mark write
  | .releasing block sequence mark write =>
    Inside origin publishedEnd marks.consumedEnd block ∧ Bounded marks marks.consumedEnd ∧
      Chosen marks lost block sequence mark ∧ Dropping marks mark write ∧
        marks.readIndex < write ∧ (marks.slot marks.readIndex).position ≤ mark.position
  | .confirming block _ | .preparing block _ =>
    Inside origin publishedEnd marks.consumedEnd block ∧ Bounded marks marks.consumedEnd ∧
      Ahead marks lost block.last
  | .taking block safe write =>
    Inside origin publishedEnd marks.consumedEnd block ∧ Taking marks lost block safe ∧
      Loaded marks block.last write
  | .advancing block safe write =>
    Inside origin publishedEnd marks.consumedEnd block ∧ Taking marks lost block safe ∧
      Loaded marks block.last write ∧ marks.readIndex < write
  | .finishing block safe =>
    Inside origin publishedEnd marks.consumedEnd block ∧ Taking marks lost block safe ∧
      ∀ index, marks.readIndex ≤ index → index < marks.writeIndex →
        block.last ≤ (marks.slot index).position

structure Sound (origin : Nat) (system : System) : Prop where
  producer : ProducerSound origin system.marks system.producer system.publishedEnd system.observed
  queue : QueueSound system.pieces system.marks system.producer
  lost : LostSound system.pieces system.marks system.producer system.publishedEnd system.lost
  held : Held system.pieces system.marks system.producer system.lost
    (system.consumer.next system.marks.readIndex)
  phase : Phase origin system.publishedEnd system.marks system.lost system.consumer

section
variable {pieces : List (Boundaries.Piece Content)} {marks : StreamMarks} {producer : Producer}
  {publishedEnd : Nat} {lost : List Lost}

theorem LostSound.compare (sound : LostSound pieces marks producer publishedEnd lost)
    {entry other : Lost} (member : entry ∈ lost) (hother : other ∈ lost) :
    entry = other ∨
      (entry.sequence < other.sequence ∧ entry.mark.position < other.mark.position) ∨
      (other.sequence < entry.sequence ∧ other.mark.position < entry.mark.position) := by
  have decreasing := sound.decreasing
  clear sound
  induction lost with
  | nil => contradiction
  | cons newest older ih =>
    obtain ⟨first, rest⟩ := List.pairwise_cons.mp decreasing
    cases List.mem_cons.mp member with
    | inl newestEntry =>
      cases List.mem_cons.mp hother with
      | inl newestOther => exact Or.inl (newestEntry.trans newestOther.symm)
      | inr olderOther =>
        rw [newestEntry]
        exact Or.inr (Or.inr (first other olderOther))
    | inr olderEntry =>
      cases List.mem_cons.mp hother with
      | inl newestOther =>
        rw [newestOther]
        exact Or.inr (Or.inl (first entry olderEntry))
      | inr olderOther => exact ih olderEntry olderOther rest

theorem LostSound.strict (sound : LostSound pieces marks producer publishedEnd lost)
    {entry other : Lost} (member : entry ∈ lost) (hother : other ∈ lost)
    (earlier : entry.sequence < other.sequence) :
    entry.mark.position < other.mark.position := by
  rcases sound.compare member hother with same | before | after
  · rw [same] at earlier
    exact absurd earlier (Nat.lt_irrefl _)
  · exact before.2
  · omega

theorem LostSound.mono (sound : LostSound pieces marks producer publishedEnd lost)
    {entry other : Lost} (member : entry ∈ lost) (hother : other ∈ lost)
    (earlier : entry.sequence ≤ other.sequence) :
    entry.mark.position ≤ other.mark.position := by
  rcases sound.compare member hother with same | before | after
  · exact Nat.le_of_eq (congrArg (fun lost => lost.mark.position) same)
  · exact Nat.le_of_lt before.2
  · omega

theorem LostSound.newest_sequence (sound : LostSound pieces marks producer publishedEnd lost)
    {newest : Lost} {older : List Lost} (shape : lost = newest :: older) :
    marks.recoverySequence ≤ newest.sequence ∧
      (marks.recoverySequence % 2 = 0 → newest.sequence = marks.recoverySequence) ∧
      (marks.recoverySequence % 2 = 1 → newest.mark.position = publishedEnd) := by
  by_cases under : ∃ mark remaining, producer = .storing mark remaining
  · obtain ⟨mark, remaining, standing⟩ := under
    obtain ⟨odd, position, ⟨tail, entry⟩, _⟩ := sound.storing mark remaining standing
    rw [shape] at entry
    obtain ⟨rfl, _⟩ := List.cons.inj entry
    exact ⟨Nat.le_succ _, fun even => absurd odd (by omega), fun _ => position⟩
  · have idle : ∀ mark remaining, producer ≠ .storing mark remaining :=
      fun mark remaining standing => under ⟨mark, remaining, standing⟩
    obtain ⟨even, _, newestFacts⟩ := sound.complete idle
    have equal := (newestFacts newest older shape).1
    exact ⟨Nat.le_of_eq equal.symm, fun _ => equal, fun odd => absurd even (by omega)⟩

theorem LostSound.sequence_of_none (sound : LostSound pieces marks producer publishedEnd lost)
    (none : lost = []) : marks.recoverySequence = 0 := by
  refine (sound.complete ?_).2.1 none
  intro mark remaining standing
  obtain ⟨_, _, ⟨older, shape⟩, _⟩ := sound.storing mark remaining standing
  rw [none] at shape
  contradiction

theorem LostSound.sequence_le (sound : LostSound pieces marks producer publishedEnd lost)
    {newest entry : Lost} {older : List Lost} (shape : lost = newest :: older)
    (member : entry ∈ lost) : entry.sequence ≤ newest.sequence := by
  have decreasing := sound.decreasing
  rw [shape] at decreasing member
  cases List.mem_cons.mp member with
  | inl same => exact Nat.le_of_eq (congrArg Lost.sequence same)
  | inr earlier => exact Nat.le_of_lt ((List.pairwise_cons.mp decreasing).1 entry earlier).1

end

end MisrcGui.Marks
