import MisrcGui.Library.Circular

/-! Bounded queues in a circular store that make room by dropping their oldest cells. -/
namespace Library.DropQueue
open Circular (slice store)

variable {Cell : Type*} {size n : Nat}

structure Ring (Cell : Type*) where
  cells : Nat → Cell
  head : Nat
  count : Nat

variable {ring : Ring Cell} {data : List Cell}

def contents (size : Nat) (ring : Ring Cell) : List Cell :=
  slice size ring.cells ring.head ring.count

def clear (ring : Ring Cell) : Ring Cell := { ring with head := 0, count := 0 }

def newest (size : Nat) (data : List Cell) : List Cell :=
  if size < data.length then data.drop (data.length - size) else data

/-- The oldest cells are dropped where `n` more do not fit. -/
def makeRoom (size : Nat) (ring : Ring Cell) (n : Nat) : Ring Cell :=
  if size - ring.count < n then
    let drop := n - (size - ring.count)
    { ring with head := (ring.head + drop) % size, count := ring.count - drop }
  else ring

def append (size : Nat) (ring : Ring Cell) (data : List Cell) : Ring Cell :=
  { ring with
    cells := store size ring.cells ((ring.head + ring.count) % size) data
    count := ring.count + data.length }

def put (size : Nat) (ring : Ring Cell) (data : List Cell) : Ring Cell :=
  append size (makeRoom size ring (newest size data).length) (newest size data)

def take (size : Nat) (ring : Ring Cell) (n : Nat) : List Cell × Ring Cell :=
  (slice size ring.cells ring.head n,
    { ring with head := (ring.head + n) % size, count := ring.count - n })

@[simp] theorem length_contents : (contents size ring).length = ring.count :=
  Circular.slice_length _ _ _ _

@[simp] theorem contents_clear : contents size (clear ring) = [] := rfl

theorem contents_advance (ring : Ring Cell) (inside : n ≤ ring.count) :
    contents size { ring with head := (ring.head + n) % size, count := ring.count - n } =
      (contents size ring).drop n := by
  rw [contents, contents, Circular.slice_drop inside]
  exact Circular.slice_congr_start _ _ (Nat.mod_mod _ _)

theorem contents_take (inside : n ≤ ring.count) :
    (take size ring n).1 ++ contents size (take size ring n).2 = contents size ring := by
  have out : (take size ring n).1 = (contents size ring).take n :=
    (Circular.slice_take inside).symm
  rw [out, take, contents_advance ring inside, List.take_append_drop]

theorem newest_eq (size : Nat) (data : List Cell) :
    newest size data = data.drop (data.length - size) := by
  rw [newest]
  split
  · rfl
  · rename_i short
    rw [Nat.sub_eq_zero_of_le (Nat.le_of_not_lt short), List.drop_zero]

theorem length_newest (size : Nat) (data : List Cell) :
    (newest size data).length = min size data.length := by
  rw [newest_eq, List.length_drop]
  omega

theorem count_makeRoom (bounded : ring.count ≤ size) (fits : n ≤ size) :
    (makeRoom size ring n).count = ring.count - (ring.count + n - size) := by
  rw [makeRoom]
  split
  · dsimp only
    omega
  · omega

theorem contents_makeRoom (bounded : ring.count ≤ size) (fits : n ≤ size) :
    contents size (makeRoom size ring n) = (contents size ring).drop (ring.count + n - size) := by
  rw [makeRoom]
  split
  · have same : n - (size - ring.count) = ring.count + n - size := by omega
    dsimp only
    rw [same]
    exact contents_advance ring (by omega)
  · have none : ring.count + n - size = 0 := by omega
    rw [none, List.drop_zero]

theorem contents_append (fits : ring.count + data.length ≤ size) :
    contents size (append size ring data) = contents size ring ++ data := by
  have place : store size ring.cells ((ring.head + ring.count) % size) data =
      store size ring.cells (ring.head + ring.count) data :=
    Circular.store_congr_start _ _ (Nat.mod_mod _ _)
  rw [contents, contents, append, Circular.slice_add, place]
  congr 1
  · exact Circular.slice_store_after (Nat.le_refl _) (by dsimp only; omega)
  · exact Circular.slice_store_self (by omega)

theorem count_put (bounded : ring.count ≤ size) :
    (put size ring data).count = min size (ring.count + data.length) := by
  have small := length_newest size data
  have room := count_makeRoom (n := (newest size data).length) bounded (by omega)
  change (makeRoom size ring (newest size data).length).count + (newest size data).length = _
  omega

theorem contents_put (bounded : ring.count ≤ size) : contents size (put size ring data) =
    (contents size ring ++ data).drop (ring.count + data.length - size) := by
  have small := length_newest size data
  have room := count_makeRoom (n := (newest size data).length) bounded (by omega)
  rw [put, contents_append (by omega), contents_makeRoom bounded (by omega), List.drop_append,
    length_contents]
  congr 1
  · rcases Nat.lt_or_ge size data.length with long | short
    · rw [List.drop_of_length_le, List.drop_of_length_le] <;> rw [length_contents] <;> omega
    · congr 1
      omega
  · rw [newest_eq]
    congr 1
    omega

end Library.DropQueue
