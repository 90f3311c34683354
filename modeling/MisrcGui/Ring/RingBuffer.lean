import MisrcGui.Library.Circular

/-! The mirrored ring buffer of `ringbuffer.c`, one whole call at a time. The
second mapping repeats the first, so addresses below twice the size name cells
modulo the size. Cells are generic: the code stores bytes. -/
namespace MisrcGui.Ring
open Library.Circular

/-- The number of values of `size_t` on the 64-bit builds. -/
def wordSize : Nat := 2 ^ 64

def wordSub (left right : Nat) : Nat := (left + wordSize - right) % wordSize

theorem wordSub_of_le {left right : Nat} (h : right ≤ left) (hlt : left < wordSize) :
    wordSub left right = left - right := by
  unfold wordSub
  rw [show left + wordSize - right = left - right + wordSize by omega,
    Nat.add_mod_right, Nat.mod_eq_of_lt (by omega)]

/-- A mapping made by `rb_init`: it reserves twice the size and maps the same
pages into both halves, which fails for size zero. -/
structure Geometry where
  size : Nat
  positive : 0 < size
  mapped : 2 * size < wordSize

/-- The smallest size that `rb_init` accepts where pages have 4096 bytes. -/
def page : Geometry := ⟨4096, Nat.succ_pos 4095, by decide⟩

def Geometry.mapSize (geometry : Geometry) : Nat := geometry.size * 2

structure RingBuffer (Cell : Type) where
  buffer : Nat → Cell
  head : Nat
  tail : Nat

variable {Cell : Type} (geometry : Geometry)

/-- The three tests shared by `rb_put`, `rb_write_ptr` and `rb_write_finished`. -/
def admitsWrite (head tail size : Nat) : Bool :=
  !decide (tail < head) &&
  !decide (wordSub geometry.size (wordSub tail head) < size) &&
  !(decide (geometry.mapSize ≤ tail) || decide (wordSub geometry.mapSize tail < size))

/-- The three tests of `rb_read_ptr`. -/
def admitsRead (head tail size : Nat) : Bool :=
  !decide (tail < head) &&
  !decide (wordSub tail head < size) &&
  !(decide (geometry.mapSize ≤ head) || decide (wordSub geometry.mapSize head < size))

def copyIn (ring : RingBuffer Cell) (pointer : Nat) (data : List Cell) : RingBuffer Cell :=
  { ring with buffer := store geometry.size ring.buffer pointer data }

def copyOut (ring : RingBuffer Cell) (pointer size : Nat) : List Cell :=
  slice geometry.size ring.buffer pointer size

def rbWritePtr (ring : RingBuffer Cell) (size : Nat) : Option Nat :=
  if admitsWrite geometry ring.head ring.tail size then some ring.tail else none

/-- `none` is the return value 1, which leaves the indices as they were. -/
def rbWriteFinished (ring : RingBuffer Cell) (size : Nat) : Option (RingBuffer Cell) :=
  if admitsWrite geometry ring.head ring.tail size then
    some { ring with tail := ring.tail + size }
  else none

def rbPut (ring : RingBuffer Cell) (data : List Cell) : Option (RingBuffer Cell) :=
  if admitsWrite geometry ring.head ring.tail data.length then
    let copied := copyIn geometry ring ring.tail data
    some { copied with tail := ring.tail + data.length }
  else none

def rbReadPtr (ring : RingBuffer Cell) (size : Nat) : Option Nat :=
  if admitsRead geometry ring.head ring.tail size then some ring.head else none

def rbReadFinished (ring : RingBuffer Cell) (size : Nat) : Option (RingBuffer Cell) :=
  if wordSub ring.tail ring.head < size then none
  else if geometry.size ≤ ring.head + size then
    some { ring with
      head := ring.head + size - geometry.size
      tail := ring.tail - geometry.size }
  else some { ring with head := ring.head + size }

def fillLevel (ring : RingBuffer Cell) : Nat := wordSub ring.tail ring.head

/-- `bufmgr_write_end` discards the result of `rb_write_finished`. -/
def bufmgrWriteEnd (ring : RingBuffer Cell) (size : Nat) : RingBuffer Cell :=
  (rbWriteFinished geometry ring size).getD ring

/-- `bufmgr_read_end` discards the result of `rb_read_finished`. -/
def bufmgrReadEnd (ring : RingBuffer Cell) (size : Nat) : RingBuffer Cell :=
  (rbReadFinished geometry ring size).getD ring

structure WellFormed (ring : RingBuffer Cell) : Prop where
  head_lt : ring.head < geometry.size
  head_le : ring.head ≤ ring.tail
  tail_le : ring.tail ≤ ring.head + geometry.size

/-- The committed bytes that have not been released, oldest first. -/
def contents (ring : RingBuffer Cell) : List Cell :=
  slice geometry.size ring.buffer ring.head (ring.tail - ring.head)

@[simp] theorem contents_length (ring : RingBuffer Cell) :
    (contents geometry ring).length = ring.tail - ring.head := by
  simp [contents]

variable {geometry} {ring : RingBuffer Cell}

theorem WellFormed.tail_lt (valid : WellFormed geometry ring) :
    ring.tail < geometry.mapSize := by
  have := valid.head_lt
  have := valid.tail_le
  unfold Geometry.mapSize
  omega

theorem WellFormed.fillLevel_eq (valid : WellFormed geometry ring) :
    fillLevel ring = (contents geometry ring).length := by
  have bound := valid.tail_lt
  have mapped := geometry.mapped
  unfold Geometry.mapSize at bound
  rw [contents_length]
  exact wordSub_of_le valid.head_le (by omega)

theorem admitsWrite_iff {head tail size : Nat} (head_le : head ≤ tail)
    (tail_le : tail ≤ head + geometry.size) (inside : tail ≤ geometry.mapSize) :
    admitsWrite geometry head tail size ↔
      tail + size ≤ head + geometry.size ∧ tail < geometry.mapSize ∧
        tail + size ≤ geometry.mapSize := by
  have mapped := geometry.mapped
  unfold Geometry.mapSize at inside
  unfold admitsWrite Geometry.mapSize
  rw [wordSub_of_le head_le (by omega), wordSub_of_le (by omega) (by omega),
    wordSub_of_le inside (by omega)]
  simp only [Bool.and_eq_true, Bool.not_eq_true', Bool.or_eq_false_iff,
    decide_eq_false_iff_not]
  omega

theorem admitsRead_iff {head tail size : Nat} (head_lt : head < geometry.size)
    (head_le : head ≤ tail) (inside : tail ≤ geometry.mapSize) :
    admitsRead geometry head tail size ↔ head + size ≤ tail := by
  have mapped := geometry.mapped
  unfold Geometry.mapSize at inside
  unfold admitsRead Geometry.mapSize
  rw [wordSub_of_le head_le (by omega), wordSub_of_le (by omega) (by omega)]
  simp only [Bool.and_eq_true, Bool.not_eq_true', Bool.or_eq_false_iff,
    decide_eq_false_iff_not]
  omega

theorem WellFormed.admitsWrite_iff (valid : WellFormed geometry ring) (size : Nat) :
    admitsWrite geometry ring.head ring.tail size ↔
      (contents geometry ring).length + size ≤ geometry.size := by
  have bound := valid.tail_lt
  obtain ⟨head_lt, head_le, tail_le⟩ := valid
  rw [Ring.admitsWrite_iff head_le tail_le bound.le, contents_length]
  unfold Geometry.mapSize at bound ⊢
  omega

theorem WellFormed.admitsRead_iff (valid : WellFormed geometry ring) (size : Nat) :
    admitsRead geometry ring.head ring.tail size ↔
      size ≤ (contents geometry ring).length := by
  have bound := valid.tail_lt
  obtain ⟨head_lt, head_le, tail_le⟩ := valid
  rw [Ring.admitsRead_iff head_lt head_le bound.le, contents_length]
  omega

theorem WellFormed.rbWritePtr_eq (valid : WellFormed geometry ring) (size : Nat) :
    rbWritePtr geometry ring size =
      if (contents geometry ring).length + size ≤ geometry.size then some ring.tail
      else none := by
  unfold rbWritePtr
  simp only [valid.admitsWrite_iff]

theorem WellFormed.rbReadPtr_eq (valid : WellFormed geometry ring) (size : Nat) :
    rbReadPtr geometry ring size =
      if size ≤ (contents geometry ring).length then some ring.head else none := by
  unfold rbReadPtr
  simp only [valid.admitsRead_iff]

theorem copyOut_head {size : Nat} (h : size ≤ (contents geometry ring).length) :
    copyOut geometry ring ring.head size = (contents geometry ring).take size := by
  rw [contents_length] at h
  exact (slice_take h).symm

@[simp] theorem copyIn_head (pointer : Nat) (data : List Cell) :
    (copyIn geometry ring pointer data).head = ring.head := rfl

@[simp] theorem copyIn_tail (pointer : Nat) (data : List Cell) :
    (copyIn geometry ring pointer data).tail = ring.tail := rfl

theorem WellFormed.copyIn (valid : WellFormed geometry ring) (pointer : Nat)
    (data : List Cell) : WellFormed geometry (copyIn geometry ring pointer data) :=
  ⟨valid.head_lt, valid.head_le, valid.tail_le⟩

theorem contents_copyIn {data : List Cell} (valid : WellFormed geometry ring)
    (room : (contents geometry ring).length + data.length ≤ geometry.size) :
    contents geometry (copyIn geometry ring ring.tail data) = contents geometry ring := by
  rw [contents_length] at room
  have head_le := valid.head_le
  have ends : ring.head + (ring.tail - ring.head) = ring.tail := by omega
  unfold contents
  exact slice_store_after ends.le (by rw [copyIn_head]; omega)

theorem copyIn_congr {left right : Nat} (data : List Cell)
    (h : left % geometry.size = right % geometry.size) :
    copyIn geometry ring left data = copyIn geometry ring right data := by
  rw [copyIn, copyIn, store_congr_start _ _ h]

theorem copyOut_congr {left right : Nat} (size : Nat)
    (h : left % geometry.size = right % geometry.size) :
    copyOut geometry ring left size = copyOut geometry ring right size :=
  slice_congr_start _ _ h

theorem copyOut_memory {other : RingBuffer Cell} {start size : Nat}
    (h : other.buffer = ring.buffer) :
    copyOut geometry other start size = copyOut geometry ring start size := by
  rw [copyOut, copyOut, h]

theorem WellFormed.bufmgrWriteEnd_eq (valid : WellFormed geometry ring) {size : Nat}
    (room : (contents geometry ring).length + size ≤ geometry.size) :
    bufmgrWriteEnd geometry ring size = { ring with tail := ring.tail + size } := by
  have admitted := (valid.admitsWrite_iff size).mpr room
  simp only [Ring.bufmgrWriteEnd, rbWriteFinished, admitted, if_true, Option.getD_some]

@[simp] theorem copyOut_bufmgrWriteEnd (size pointer count : Nat) :
    copyOut geometry (bufmgrWriteEnd geometry ring size) pointer count =
      copyOut geometry ring pointer count := by
  unfold bufmgrWriteEnd rbWriteFinished
  split <;> rfl

theorem WellFormed.bufmgrWriteEnd (valid : WellFormed geometry ring) {size : Nat}
    (room : (contents geometry ring).length + size ≤ geometry.size) :
    WellFormed geometry (bufmgrWriteEnd geometry ring size) ∧
      contents geometry (bufmgrWriteEnd geometry ring size) =
        contents geometry ring ++ copyOut geometry ring ring.tail size := by
  rw [valid.bufmgrWriteEnd_eq room]
  have head_le := valid.head_le
  rw [contents_length] at room
  refine ⟨⟨valid.head_lt, ?_, ?_⟩, ?_⟩
  · dsimp only
    omega
  · dsimp only
    omega
  · unfold contents copyOut
    dsimp only
    rw [show ring.tail + size - ring.head = ring.tail - ring.head + size by omega, slice_add,
      show ring.head + (ring.tail - ring.head) = ring.tail by omega]

theorem copyOut_copyIn {pointer : Nat} {data : List Cell} (h : data.length ≤ geometry.size) :
    copyOut geometry (copyIn geometry ring pointer data) pointer data.length = data :=
  slice_store_self h

/-- A copy that fits beside the unread bytes and a released block just below the
head leaves that block alone. -/
theorem copyOut_copyIn_released (valid : WellFormed geometry ring) {start len : Nat}
    {data : List Cell} (below : (start + len) % geometry.size = ring.head % geometry.size)
    (spare : (contents geometry ring).length + data.length + len ≤ geometry.size) :
    copyOut geometry (copyIn geometry ring ring.tail data) start len =
      copyOut geometry ring start len := by
  have head_le := valid.head_le
  rw [contents_length] at spare
  apply slice_store_disjoint
  intro offset hoffset shift hshift
  have shifted : (start + offset) % geometry.size =
      (ring.head + geometry.size - len + offset) % geometry.size := by
    apply Nat.ModEq.add_right_cancel' len
    rw [show start + offset + len = start + len + offset by omega,
      show ring.head + geometry.size - len + offset + len =
        ring.head + offset + geometry.size by omega]
    unfold Nat.ModEq
    rw [Nat.add_mod_right, Nat.add_mod, below, ← Nat.add_mod]
  rw [shifted, ← Nat.add_mod_right (ring.tail + shift)]
  exact mod_ne (by omega) (by omega)

theorem WellFormed.bufmgrReadEnd (valid : WellFormed geometry ring) {size : Nat}
    (h : size ≤ (contents geometry ring).length) :
    WellFormed geometry (bufmgrReadEnd geometry ring size) ∧
      contents geometry (bufmgrReadEnd geometry ring size) =
        (contents geometry ring).drop size := by
  have level := valid.fillLevel_eq
  obtain ⟨head_lt, head_le, tail_le⟩ := valid
  unfold fillLevel at level
  rw [contents_length] at h level
  have unread : ¬ring.tail - ring.head < size := by omega
  unfold Ring.bufmgrReadEnd rbReadFinished
  rw [level, if_neg unread]
  unfold contents
  rw [slice_drop h]
  split
  · rename_i wraps
    refine ⟨⟨?_, ?_, ?_⟩, ?_⟩ <;> simp only [Option.getD_some]
    · omega
    · omega
    · omega
    · rw [show ring.tail - geometry.size - (ring.head + size - geometry.size) =
        ring.tail - ring.head - size by omega]
      apply slice_congr_start
      rw [← Nat.add_mod_right (ring.head + size - geometry.size),
        Nat.sub_add_cancel wraps]
  · refine ⟨⟨?_, ?_, ?_⟩, ?_⟩ <;> simp only [Option.getD_some]
    · omega
    · omega
    · omega
    · rw [show ring.tail - (ring.head + size) = ring.tail - ring.head - size by omega]

theorem WellFormed.bufmgrReadEnd_places (valid : WellFormed geometry ring) {size : Nat}
    (h : size ≤ (contents geometry ring).length) :
    (Ring.bufmgrReadEnd geometry ring size).buffer = ring.buffer ∧
      (Ring.bufmgrReadEnd geometry ring size).tail % geometry.size =
        ring.tail % geometry.size ∧
      (Ring.bufmgrReadEnd geometry ring size).head % geometry.size =
        (ring.head + size) % geometry.size := by
  have level := valid.fillLevel_eq
  have head_le := valid.head_le
  unfold fillLevel at level
  rw [contents_length] at h level
  have unread : ¬ring.tail - ring.head < size := by omega
  unfold Ring.bufmgrReadEnd rbReadFinished
  rw [level, if_neg unread]
  split
  · rename_i wraps
    have inside : geometry.size ≤ ring.tail := by omega
    exact ⟨rfl, (Nat.mod_eq_sub_mod inside).symm, (Nat.mod_eq_sub_mod wraps).symm⟩
  · exact ⟨rfl, rfl, rfl⟩

end MisrcGui.Ring
