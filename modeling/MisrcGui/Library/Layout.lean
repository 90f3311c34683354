import Mathlib.Data.UInt

/-! Records of fixed layout: a buffer cut into fields of given widths. -/
namespace Library.Layout

variable {Symbol : Type*}

def field (buffer : List Symbol) (offset width : ℕ) : List Symbol :=
  (buffer.drop offset).take width

def cut (buffer : List Symbol) : ℕ → List ℕ → List (List Symbol)
  | _, [] => []
  | offset, width :: rest => field buffer offset width :: cut buffer (offset + width) rest

theorem flatten_cut {buffer : List Symbol} {offset : ℕ} {widths : List ℕ}
    (h : offset + widths.sum = buffer.length) :
    (cut buffer offset widths).flatten = buffer.drop offset := by
  induction widths generalizing offset with
  | nil =>
    have same : offset = buffer.length := h
    simp [cut, same]
  | cons width rest ih =>
    rw [List.sum_cons] at h
    rw [cut, List.flatten_cons, ih (by omega), field, ← List.drop_drop, List.take_append_drop]

theorem cut_flatten_append (front : List Symbol) (parts : List (List Symbol))
    (rest : List Symbol) :
    cut (front ++ (parts.flatten ++ rest)) front.length (parts.map List.length) = parts := by
  induction parts generalizing front with
  | nil => rfl
  | cons part parts ih =>
    have later := ih (front ++ part)
    rw [List.length_append, List.append_assoc] at later
    rw [List.map_cons, cut, List.flatten_cons, List.append_assoc, later, field, List.drop_left,
      List.take_left]

theorem cut_flatten (front : List Symbol) (parts : List (List Symbol)) :
    cut (front ++ parts.flatten) front.length (parts.map List.length) = parts := by
  have bare := cut_flatten_append front parts []
  rwa [List.append_nil] at bare

theorem field_one {buffer : List Symbol} {offset : ℕ} {symbol : Symbol} (default : Symbol)
    (h : field buffer offset 1 = [symbol]) : buffer.getD offset default = symbol := by
  have shown := congrArg List.head? h
  simp only [field, List.head?_take, List.head?_drop, Nat.one_ne_zero, if_false,
    List.head?_cons] at shown
  rw [List.getD_eq_getElem?_getD, shown, Option.getD_some]

theorem field_getD {buffer : List Symbol} {offset : ℕ} (default : Symbol)
    (inside : offset < buffer.length) :
    field buffer offset 1 = [buffer.getD offset default] := by
  rw [field, List.drop_eq_getElem_cons inside, List.take_succ_cons, List.take_zero,
    List.getD_eq_getElem?_getD, List.getElem?_eq_getElem inside, Option.getD_some]

theorem length_field {buffer : List Symbol} {offset width : ℕ}
    (inside : offset + width ≤ buffer.length) : (field buffer offset width).length = width := by
  rw [field, List.length_take, List.length_drop]
  omega

theorem field_append {buffer : List Symbol} {offset width : ℕ} (later : List Symbol)
    (inside : offset + width ≤ buffer.length) :
    field (buffer ++ later) offset width = field buffer offset width := by
  rw [field, field, List.drop_append_of_le_length (by omega), List.take_append_of_le_length]
  rw [List.length_drop]
  omega

/-! A buffer cut into units of one width; what does not fill the last one is left out. -/

def units (width : ℕ) (buffer : List Symbol) : List (List Symbol) :=
  (List.range (buffer.length / width)).map fun i => field buffer (i * width) width

@[simp] theorem units_nil (width : ℕ) : units width ([] : List Symbol) = [] := by
  rw [units, List.length_nil, Nat.zero_div]
  rfl

theorem field_append_right {front : List Symbol} {offset width : ℕ} (later : List Symbol) :
    field (front ++ later) (front.length + offset) width = field later offset width := by
  rw [field, field, ← List.drop_drop, List.drop_left]

theorem units_append {width : ℕ} {front : List Symbol} (whole : width ∣ front.length)
    (later : List Symbol) :
    units width (front ++ later) = units width front ++ units width later := by
  obtain ⟨count, length⟩ := whole
  rcases Nat.eq_zero_or_pos width with rfl | positive
  · simp [units]
  have first : front.length / width = count := by
    rw [length, Nat.mul_div_cancel_left count positive]
  have total : (front ++ later).length / width = count + later.length / width := by
    rw [List.length_append, length, Nat.mul_add_div positive]
  rw [units, units, units, total, first, List.range_add, List.map_append, List.map_map]
  congr 1
  · refine List.map_congr_left fun i small => field_append later ?_
    have inside : (i + 1) * width ≤ count * width :=
      Nat.mul_le_mul_right width (List.mem_range.mp small)
    rw [length, Nat.mul_comm width]
    rw [Nat.add_mul, Nat.one_mul] at inside
    exact inside
  · refine List.map_congr_left fun i _ => ?_
    have place : (count + i) * width = front.length + i * width := by
      rw [Nat.add_mul, length, Nat.mul_comm width]
    exact (congrArg (field _ · width) place).trans (field_append_right later)

theorem units_sublist {width : ℕ} {front : List Symbol} (whole : width ∣ front.length)
    (later : List Symbol) :
    (units width front).Sublist (units width (front ++ later)) := by
  rw [units_append whole]
  exact List.sublist_append_left _ _

end Library.Layout
