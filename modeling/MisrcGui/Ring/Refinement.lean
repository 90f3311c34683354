import MisrcGui.Library.Mealy
import MisrcGui.Ring.RingBuffer

/-! The ring buffer as a bounded byte queue, one whole operation at a time. -/
namespace MisrcGui.Ring.Refinement
open Library

variable {Cell : Type} {geometry : Geometry} {ring : RingBuffer Cell}

/-- `write` is `rb_write_ptr`, a fill of the whole grant, and `rb_write_finished` of at
most that much. -/
inductive Operation (Cell : Type) where
  | put (data : List Cell)
  | write (data : List Cell) (count : Nat) (within : count ≤ data.length)
  | readPtr (size : Nat)
  | readFinished (size : Nat)

/-- What a caller sees: the bytes behind the returned pointer, none for a failure. -/
def outcome (before : RingBuffer Cell) :
    Option (RingBuffer Cell × List Cell) → RingBuffer Cell × Option (List Cell)
  | some (after, bytes) => (after, some bytes)
  | none => (before, none)

@[simp] theorem outcome_some (before after : RingBuffer Cell) (bytes : List Cell) :
    outcome before (some (after, bytes)) = (after, some bytes) := rfl

@[simp] theorem outcome_none (before : RingBuffer Cell) :
    outcome before none = (before, none) := rfl

def fillAndFinish (geometry : Geometry) (ring : RingBuffer Cell) (data : List Cell)
    (count pointer : Nat) : RingBuffer Cell × Option (List Cell) :=
  let filled := copyIn geometry ring pointer data
  outcome filled ((rbWriteFinished geometry filled count).map (·, []))

def apply (geometry : Geometry) (ring : RingBuffer Cell) :
    Operation Cell → RingBuffer Cell × Option (List Cell)
  | .put data => outcome ring ((rbPut geometry ring data).map (·, []))
  | .write data count _ =>
    (rbWritePtr geometry ring data.length).elim (ring, none)
      (fillAndFinish geometry ring data count)
  | .readPtr size =>
    outcome ring ((rbReadPtr geometry ring size).map
      fun pointer => (ring, copyOut geometry ring pointer size))
  | .readFinished size => outcome ring ((rbReadFinished geometry ring size).map (·, []))

/-- A queue of at most `capacity` bytes: a write appends what fits whole, a read looks at
the oldest bytes, a release drops them. -/
def boundedFifo (capacity : Nat) (queue : List Cell) :
    Operation Cell → List Cell × Option (List Cell)
  | .put data =>
    if data.length ≤ capacity - queue.length then (queue ++ data, some []) else (queue, none)
  | .write data count _ =>
    if data.length ≤ capacity - queue.length then (queue ++ data.take count, some [])
    else (queue, none)
  | .readPtr size =>
    if size ≤ queue.length then (queue, some (queue.take size)) else (queue, none)
  | .readFinished size =>
    if size ≤ queue.length then (queue.drop size, some []) else (queue, none)

def Refines (geometry : Geometry) (ring : RingBuffer Cell) (queue : List Cell) : Prop :=
  WellFormed geometry ring ∧ contents geometry ring = queue

theorem level_le (valid : WellFormed geometry ring) :
    (contents geometry ring).length ≤ geometry.size := by
  have tail_le := valid.tail_le
  rw [contents_length]
  omega

theorem fits_iff (valid : WellFormed geometry ring) (size : Nat) :
    (contents geometry ring).length + size ≤ geometry.size ↔
      size ≤ geometry.size - (contents geometry ring).length := by
  have level := level_le valid
  omega

theorem rbWriteFinished_eq (valid : WellFormed geometry ring) {size : Nat}
    (room : (contents geometry ring).length + size ≤ geometry.size) :
    rbWriteFinished geometry ring size = some { ring with tail := ring.tail + size } := by
  have admitted := (valid.admitsWrite_iff size).mpr room
  simp only [rbWriteFinished, admitted, if_true]

theorem rbPut_eq (ring : RingBuffer Cell) (data : List Cell) :
    rbPut geometry ring data =
      if admitsWrite geometry ring.head ring.tail data.length then
        rbWriteFinished geometry (copyIn geometry ring ring.tail data) data.length
      else none := by
  unfold rbPut rbWriteFinished
  rw [copyIn_head, copyIn_tail]
  cases admitsWrite geometry ring.head ring.tail data.length <;> rfl

theorem fill_commit (valid : WellFormed geometry ring) {data : List Cell} {count : Nat}
    (within : count ≤ data.length)
    (room : (contents geometry ring).length + data.length ≤ geometry.size) :
    ∃ next, rbWriteFinished geometry (copyIn geometry ring ring.tail data) count = some next ∧
      Refines geometry next (contents geometry ring ++ data.take count) := by
  have copied := valid.copyIn ring.tail data
  have same := contents_copyIn valid room
  have filled : copyOut geometry (copyIn geometry ring ring.tail data) ring.tail data.length =
      data := copyOut_copyIn ((Nat.le_add_left _ _).trans room)
  have fits : (contents geometry (copyIn geometry ring ring.tail data)).length + count ≤
      geometry.size := by
    rw [same]
    omega
  have begun : copyOut geometry (copyIn geometry ring ring.tail data) ring.tail count =
      data.take count := by
    conv_rhs => rw [← filled]
    exact (Circular.slice_take within).symm
  have committed := copied.bufmgrWriteEnd fits
  rw [copied.bufmgrWriteEnd_eq fits, same, copyIn_tail, begun] at committed
  exact ⟨_, rbWriteFinished_eq copied fits, committed⟩

theorem rbReadFinished_eq (valid : WellFormed geometry ring) (size : Nat) :
    rbReadFinished geometry ring size =
      if size ≤ (contents geometry ring).length then some (bufmgrReadEnd geometry ring size)
      else none := by
  have level := valid.fillLevel_eq
  unfold fillLevel at level
  unfold bufmgrReadEnd rbReadFinished
  rw [level]
  by_cases enough : size ≤ (contents geometry ring).length
  · rw [if_neg (Nat.not_lt.mpr enough), if_pos enough]
    split <;> rfl
  · rw [if_pos (Nat.lt_of_not_le enough), if_neg enough]

theorem readFinished_refines (valid : WellFormed geometry ring) (size : Nat) :
    Refines geometry (apply geometry ring (.readFinished size)).1
        (boundedFifo geometry.size (contents geometry ring) (.readFinished size)).1 ∧
      (apply geometry ring (.readFinished size)).2 =
        (boundedFifo geometry.size (contents geometry ring) (.readFinished size)).2 := by
  simp only [apply, boundedFifo, rbReadFinished_eq valid]
  by_cases enough : size ≤ (contents geometry ring).length
  · simp only [if_pos enough, Option.map_some, outcome_some, and_true]
    exact valid.bufmgrReadEnd enough
  · simp only [if_neg enough, Option.map_none, outcome_none, and_true]
    exact ⟨valid, rfl⟩

theorem readPtr_refines (valid : WellFormed geometry ring) (size : Nat) :
    Refines geometry (apply geometry ring (.readPtr size)).1
        (boundedFifo geometry.size (contents geometry ring) (.readPtr size)).1 ∧
      (apply geometry ring (.readPtr size)).2 =
        (boundedFifo geometry.size (contents geometry ring) (.readPtr size)).2 := by
  simp only [apply, boundedFifo, valid.rbReadPtr_eq]
  by_cases enough : size ≤ (contents geometry ring).length
  · simp only [if_pos enough, Option.map_some, outcome_some, copyOut_head enough, and_true]
    exact ⟨valid, rfl⟩
  · simp only [if_neg enough, Option.map_none, outcome_none, and_true]
    exact ⟨valid, rfl⟩

theorem put_refines (valid : WellFormed geometry ring) (data : List Cell) :
    Refines geometry (apply geometry ring (.put data)).1
        (boundedFifo geometry.size (contents geometry ring) (.put data)).1 ∧
      (apply geometry ring (.put data)).2 =
        (boundedFifo geometry.size (contents geometry ring) (.put data)).2 := by
  simp only [apply, boundedFifo, rbPut_eq, valid.admitsWrite_iff, ← fits_iff valid]
  by_cases room : (contents geometry ring).length + data.length ≤ geometry.size
  · obtain ⟨next, finished, refined⟩ := fill_commit valid le_rfl room
    rw [List.take_length] at refined
    simp only [if_pos room, finished, Option.map_some, outcome_some, and_true]
    exact refined
  · simp only [if_neg room, Option.map_none, outcome_none, and_true]
    exact ⟨valid, rfl⟩

theorem write_refines (valid : WellFormed geometry ring) {data : List Cell} {count : Nat}
    (within : count ≤ data.length) :
    Refines geometry (apply geometry ring (.write data count within)).1
        (boundedFifo geometry.size (contents geometry ring) (.write data count within)).1 ∧
      (apply geometry ring (.write data count within)).2 =
        (boundedFifo geometry.size (contents geometry ring) (.write data count within)).2 := by
  simp only [apply, boundedFifo, valid.rbWritePtr_eq, ← fits_iff valid]
  by_cases room : (contents geometry ring).length + data.length ≤ geometry.size
  · obtain ⟨next, finished, refined⟩ := fill_commit valid within room
    simp only [if_pos room, Option.elim_some, fillAndFinish, finished, Option.map_some,
      outcome_some, and_true]
    exact refined
  · simp only [if_neg room, Option.elim_none, and_true]
    exact ⟨valid, rfl⟩

theorem apply_refines (geometry : Geometry) (ring : RingBuffer Cell) (queue : List Cell)
    (operation : Operation Cell) (related : Refines geometry ring queue) :
    Refines geometry (apply geometry ring operation).1
        (boundedFifo geometry.size queue operation).1 ∧
      (apply geometry ring operation).2 = (boundedFifo geometry.size queue operation).2 := by
  obtain ⟨valid, rfl⟩ := related
  cases operation with
  | put data => exact put_refines valid data
  | write data count within => exact write_refines valid within
  | readPtr size => exact readPtr_refines valid size
  | readFinished size => exact readFinished_refines valid size

theorem outcome_failed {before : RingBuffer Cell}
    {result : Option (RingBuffer Cell × List Cell)} (failed : (outcome before result).2 = none) :
    (outcome before result).1 = before := by
  cases result with
  | none => rfl
  | some pair => exact absurd failed (Option.some_ne_none _)

theorem apply_failed (valid : WellFormed geometry ring) (operation : Operation Cell)
    (failed : (apply geometry ring operation).2 = none) :
    (apply geometry ring operation).1 = ring := by
  cases operation with
  | put | readPtr | readFinished => exact outcome_failed failed
  | write data count within =>
    simp only [apply, valid.rbWritePtr_eq] at failed ⊢
    by_cases room : (contents geometry ring).length + data.length ≤ geometry.size
    · obtain ⟨next, finished, -⟩ := fill_commit valid within room
      simp only [if_pos room, Option.elim_some, fillAndFinish, finished, Option.map_some,
        outcome_some, reduceCtorEq] at failed
    · simp only [if_neg room, Option.elim_none]

/-- After any sequence of operations the indices are in order, the ring holds what the
bounded queue holds, every operation has answered as the queue does, and one that fails
next leaves the ring as it is. -/
theorem refines_bounded_fifo (geometry : Geometry) (buffer : Nat → Cell)
    (operations : List (Operation Cell)) :
    let ring := Mealy.run (apply geometry) ⟨buffer, 0, 0⟩ operations
    let queue := Mealy.run (boundedFifo geometry.size) [] operations
    (ring.1.head < geometry.size ∧ ring.1.head ≤ ring.1.tail ∧
        ring.1.tail ≤ ring.1.head + geometry.size) ∧
      contents geometry ring.1 = queue.1 ∧ ring.2 = queue.2 ∧
      ∀ operation, (apply geometry ring.1 operation).2 = none →
        (apply geometry ring.1 operation).1 = ring.1 := by
  have start : Refines geometry ⟨buffer, 0, 0⟩ [] :=
    ⟨⟨geometry.positive, le_rfl, Nat.zero_le _⟩, by simp [contents]⟩
  have refined := Mealy.run_refines (Refines geometry)
    (fun ring queue operation => apply_refines geometry ring queue operation) operations start
  have valid := refined.1.1
  exact ⟨⟨valid.head_lt, valid.head_le, valid.tail_le⟩, refined.1.2, refined.2,
    apply_failed valid⟩

end MisrcGui.Ring.Refinement
