import Mathlib.Data.List.Range
import Mathlib.Data.Nat.ModEq

/-! A store of `size` cells addressed modulo `size`, read and written in runs
of consecutive addresses. Addresses grow without bound; two addresses name the
same cell when they agree modulo `size`. -/
namespace Library.Circular

variable {Cell : Type*}

def slice (size : Nat) (memory : Nat → Cell) (start count : Nat) : List Cell :=
  (List.range count).map fun offset => memory ((start + offset) % size)

/-- Cells are written in increasing address order, as a byte copy does. -/
def store (size : Nat) (memory : Nat → Cell) (start : Nat) : List Cell → Nat → Cell
  | [] => memory
  | cell :: rest =>
    store size (Function.update memory (start % size) cell) (start + 1) rest

@[simp] theorem slice_length (size : Nat) (memory : Nat → Cell) (start count : Nat) :
    (slice size memory start count).length = count := by
  simp [slice]

@[simp] theorem slice_zero (size : Nat) (memory : Nat → Cell) (start : Nat) :
    slice size memory start 0 = [] := rfl

theorem slice_add (size : Nat) (memory : Nat → Cell) (start first rest : Nat) :
    slice size memory start (first + rest) =
      slice size memory start first ++ slice size memory (start + first) rest := by
  unfold slice
  rw [List.range_add, List.map_append, List.map_map]
  congr 2
  funext offset
  simp [Nat.add_assoc]

theorem slice_take {size : Nat} {memory : Nat → Cell} {start count taken : Nat}
    (h : taken ≤ count) :
    (slice size memory start count).take taken = slice size memory start taken := by
  obtain ⟨rest, rfl⟩ := Nat.exists_eq_add_of_le h
  rw [slice_add]
  exact List.take_left' (slice_length size memory start taken)

theorem slice_drop {size : Nat} {memory : Nat → Cell} {start count dropped : Nat}
    (h : dropped ≤ count) :
    (slice size memory start count).drop dropped =
      slice size memory (start + dropped) (count - dropped) := by
  obtain ⟨rest, rfl⟩ := Nat.exists_eq_add_of_le h
  rw [slice_add, Nat.add_sub_cancel_left]
  exact List.drop_left' (slice_length size memory start dropped)

theorem slice_congr_start {size : Nat} (memory : Nat → Cell) {left right : Nat}
    (count : Nat) (h : left % size = right % size) :
    slice size memory left count = slice size memory right count := by
  unfold slice
  congr 1
  funext offset
  rw [Nat.add_mod left, Nat.add_mod right, h]

theorem slice_congr {size : Nat} {left right : Nat → Cell} {start count : Nat}
    (h : ∀ offset < count,
      left ((start + offset) % size) = right ((start + offset) % size)) :
    slice size left start count = slice size right start count := by
  unfold slice
  apply List.map_congr_left
  intro offset hmem
  exact h offset (List.mem_range.mp hmem)

theorem store_of_ne {size : Nat} {memory : Nat → Cell} {start address : Nat}
    {data : List Cell} (h : ∀ offset < data.length, address ≠ (start + offset) % size) :
    store size memory start data address = memory address := by
  induction data generalizing memory start with
  | nil => rfl
  | cons cell rest ih =>
    rw [store, ih]
    · exact Function.update_of_ne (by simpa using h 0 (by simp)) _ _
    · intro offset hoffset
      have later := h (offset + 1) (by simpa using hoffset)
      rwa [show start + (offset + 1) = start + 1 + offset by omega] at later

theorem store_congr_start {size : Nat} (memory : Nat → Cell) {left right : Nat}
    (data : List Cell) (h : left % size = right % size) :
    store size memory left data = store size memory right data := by
  induction data generalizing memory left right with
  | nil => rfl
  | cons cell rest ih =>
    rw [store, store, h]
    apply ih
    rw [Nat.add_mod, h, ← Nat.add_mod]

/-- Addresses less than `size` apart name different cells. -/
theorem mod_ne {size left right : Nat} (hlt : left < right) (hnear : right < left + size) :
    left % size ≠ right % size := by
  intro heq
  have hdvd : size ∣ right - left := (Nat.modEq_iff_dvd' hlt.le).mp heq
  have := Nat.le_of_dvd (by omega) hdvd
  omega

theorem slice_store_disjoint {size : Nat} {memory : Nat → Cell}
    {start count target : Nat} {data : List Cell}
    (h : ∀ offset < count, ∀ shift < data.length,
      (start + offset) % size ≠ (target + shift) % size) :
    slice size (store size memory target data) start count =
      slice size memory start count :=
  slice_congr fun offset hoffset => store_of_ne (h offset hoffset)

/-- A run is untouched by a write that begins after it and ends before its
first address comes round again. -/
theorem slice_store_after {size : Nat} {memory : Nat → Cell}
    {start count target : Nat} {data : List Cell}
    (after : start + count ≤ target) (before : target + data.length ≤ start + size) :
    slice size (store size memory target data) start count =
      slice size memory start count := by
  apply slice_store_disjoint
  intro offset hoffset shift hshift
  exact mod_ne (by omega) (by omega)

theorem slice_store_self {size : Nat} {memory : Nat → Cell} {start : Nat}
    {data : List Cell} (fits : data.length ≤ size) :
    slice size (store size memory start data) start data.length = data := by
  induction data generalizing memory start with
  | nil => rfl
  | cons cell rest ih =>
    rw [List.length_cons] at fits ⊢
    rw [Nat.add_comm, slice_add, store]
    rw [ih (by omega)]
    have first : store size (Function.update memory (start % size) cell) (start + 1) rest
        (start % size) = cell := by
      rw [store_of_ne, Function.update_self]
      intro offset hoffset
      exact mod_ne (by omega) (by omega)
    simp [slice, first]

end Library.Circular
