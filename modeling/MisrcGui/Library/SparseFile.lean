import Mathlib.Data.UInt

/-! A file as the list of its cells. A write past the end fills the gap with
the value that unwritten areas read as; an empty write changes nothing. -/
namespace Library.SparseFile

variable {Cell : Type*}

def pwrite (hole : Cell) (file : List Cell) (offset : Nat) (data : List Cell) : List Cell :=
  if data.isEmpty then file
  else file.take offset ++ List.replicate (offset - file.length) hole ++ data ++
    file.drop (offset + data.length)

/-- What a read delivers; it is short when it meets the end of the file. -/
def pread (file : List Cell) (offset count : Nat) : List Cell :=
  (file.drop offset).take count

def range (file : List Cell) (start stop : Nat) : List Cell :=
  (file.take stop).drop start

variable {hole : Cell} {file : List Cell} {offset : Nat} {data : List Cell}

theorem pwrite_eq (inside : offset ≤ file.length) :
    pwrite hole file offset data =
      file.take offset ++ data ++ file.drop (offset + data.length) := by
  unfold pwrite
  cases data with
  | nil => simp
  | cons cell rest => simp [Nat.sub_eq_zero_of_le inside]

theorem take_pwrite (inside : offset ≤ file.length) {count : Nat} (h : count ≤ offset) :
    (pwrite hole file offset data).take count = file.take count := by
  rw [pwrite_eq inside, List.append_assoc, List.take_append_of_le_length, List.take_take,
    Nat.min_eq_left h]
  rw [List.length_take, Nat.min_eq_left inside]
  exact h

theorem take_pwrite_end (inside : offset ≤ file.length) :
    (pwrite hole file offset data).take (offset + data.length) =
      file.take offset ++ data := by
  rw [pwrite_eq inside]
  apply List.take_left'
  rw [List.length_append, List.length_take, Nat.min_eq_left inside]

theorem length_pwrite (inside : offset ≤ file.length) :
    (pwrite hole file offset data).length = max file.length (offset + data.length) := by
  rw [pwrite_eq inside]
  simp only [List.length_append, List.length_take, List.length_drop]
  omega

theorem range_pwrite (inside : offset ≤ file.length) {start stop : Nat}
    (h : stop ≤ offset) : range (pwrite hole file offset data) start stop =
      range file start stop := by
  rw [range, take_pwrite inside h, range]

@[simp] theorem range_self (start : Nat) : range file start start = [] := by
  simp [range]

@[simp] theorem range_zero (start : Nat) : range file start 0 = [] := by
  simp [range]

theorem length_range {start stop : Nat} (inside : stop ≤ file.length) :
    (range file start stop).length = stop - start := by
  rw [range, List.length_drop, List.length_take, Nat.min_eq_left inside]

theorem range_add {start stop count : Nat} (ordered : start ≤ stop)
    (inside : stop ≤ file.length) :
    range file start (stop + count) =
      range file start stop ++ range file stop (stop + count) := by
  unfold range
  rw [List.take_add, List.drop_append_of_le_length, List.drop_left']
  · rw [List.length_take, Nat.min_eq_left inside]
  · rw [List.length_take, Nat.min_eq_left inside]
    exact ordered

theorem drop_range {start stop count : Nat} :
    (range file start stop).drop count = range file (start + count) stop := by
  rw [range, range, List.drop_drop]

theorem take_range {start stop count : Nat} (h : start + count ≤ stop) :
    (range file start stop).take count = pread file start count := by
  rw [range, pread, List.drop_take, List.take_take, Nat.min_eq_left (by omega)]

theorem pread_pwrite (inside : offset ≤ file.length) {start count : Nat}
    (h : start + count ≤ offset) :
    pread (pwrite hole file offset data) start count = pread file start count := by
  rw [← take_range h, range_pwrite inside (Nat.le_refl _), take_range h]

theorem range_of_pwrite (inside : offset ≤ file.length) :
    range (pwrite hole file offset data) offset (offset + data.length) = data := by
  rw [range, take_pwrite_end inside]
  apply List.drop_left'
  rw [List.length_take, Nat.min_eq_left inside]

@[simp] theorem pwrite_nil : pwrite hole file offset [] = file := rfl

theorem getElem?_pwrite {index : Nat} (some : data ≠ []) :
    (pwrite hole file offset data)[index]? =
      if index < offset then
        if index < file.length then file[index]? else Option.some hole
      else if index < offset + data.length then data[index - offset]?
      else file[index]? := by
  have shape : data.isEmpty = false := by simpa using some
  rw [pwrite, shape]
  simp only [Bool.false_eq_true, if_false, List.append_assoc]
  by_cases before : index < offset
  · by_cases inside : index < file.length
    · rw [if_pos before, if_pos inside, List.getElem?_append_left, List.getElem?_take_of_lt before]
      rw [List.length_take]
      omega
    · rw [if_pos before, if_neg inside, List.getElem?_append_right, List.getElem?_append_left,
        List.getElem?_replicate, List.length_take, if_pos (by omega)]
      · rw [List.length_take, List.length_replicate]
        omega
      · rw [List.length_take]
        omega
  · have front : (file.take offset ++ List.replicate (offset - file.length) hole).length =
        offset := by
      rw [List.length_append, List.length_take, List.length_replicate]
      omega
    rw [if_neg before, ← List.append_assoc, List.getElem?_append_right (by omega), front]
    by_cases written : index < offset + data.length
    · rw [if_pos written, List.getElem?_append_left (by omega)]
    · rw [if_neg written, List.getElem?_append_right (by omega), List.getElem?_drop]
      congr 1
      omega

theorem length_pwrite_of_ne_nil (some : data ≠ []) :
    (pwrite hole file offset data).length = max file.length (offset + data.length) := by
  have shape : data.isEmpty = false := by simpa using some
  rw [pwrite, shape]
  simp only [Bool.false_eq_true, if_false, List.length_append, List.length_take,
    List.length_replicate, List.length_drop]
  have positive := List.length_pos_of_ne_nil some
  omega

theorem pwrite_append (first second : List Cell) :
    pwrite hole (pwrite hole file offset first) (offset + first.length) second =
      pwrite hole file offset (first ++ second) := by
  by_cases left : first = []
  · subst left
    rfl
  · by_cases right : second = []
    · subst right
      rw [pwrite_nil, List.append_nil]
    · have both : first ++ second ≠ [] := by simp [left]
      apply List.ext_getElem?
      intro index
      rw [getElem?_pwrite right, getElem?_pwrite both, length_pwrite_of_ne_nil left,
        getElem?_pwrite left, List.length_append]
      by_cases before : index < offset + first.length
      · have inside : index < max file.length (offset + first.length) := by omega
        by_cases under : index < offset
        · simp only [before, inside, under, if_true]
        · have written : index < offset + (first.length + second.length) := by omega
          simp only [before, inside, under, written, if_true, if_false]
          rw [List.getElem?_append_left (by omega)]
      · have under : ¬index < offset := by omega
        by_cases written : index < offset + first.length + second.length
        · have shown : index < offset + (first.length + second.length) := by omega
          simp only [before, under, written, shown, if_true, if_false]
          rw [List.getElem?_append_right (by omega)]
          congr 1
          omega
        · have beyond : ¬index < offset + (first.length + second.length) := by omega
          simp only [before, under, written, beyond, if_false]

end Library.SparseFile
