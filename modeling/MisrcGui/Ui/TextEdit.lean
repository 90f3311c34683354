import MisrcGui.Library.CheckedMemory
import MisrcGui.Library.Utf8

/-! The editing of a text field (`gui_text_edit.h`). -/
namespace MisrcGui.Ui.TextEdit
open Library.Terminated (Checked ok_bind pure_eq_ok)
open Library.CheckedMemory
open Library.Utf8

/-- `(int)`, and what an `int` holds behind an addition. -/
def toInt (z : Int) : Int := z.bmod (2 ^ 32)

/-- `(size_t)`. -/
def toSize (z : Int) : Nat := (z % 2 ^ 64).toNat

/-- A pointer into a block of memory does not point in front of it. -/
def pointer (offset : Int) : Checked Nat :=
  if 0 ≤ offset then .ok offset.toNat else .error .read

/-- `text[offset]`. -/
def load (text : List UInt8) (offset : Int) : Checked UInt8 := do
  match text[← pointer offset]? with
  | some c => return c
  | none => .error .read

def strlen (text : List UInt8) : Checked Nat :=
  match text.findIdx? (· == 0) with
  | some length => .ok length
  | none => .error .read

/-- The loop of `gui_text_boundary`, from an offset that is not negative. -/
def retreat (text : List UInt8) : Nat → Checked Nat
  | 0 => return 0
  | offset + 1 => do
    if continues (← load text (offset + 1 : Nat)) then retreat text offset else return offset + 1

def guiTextBoundary (text : List UInt8) (offset : Int) : Checked Int := do
  let length := toInt (← strlen text)
  if offset < 0 then return 0
  let offset := if offset > length then length else offset
  if offset > 0 then return ← retreat text offset.toNat else return offset

def guiTextPrevious (text : List UInt8) (offset : Int) : Checked Int := do
  let offset ← guiTextBoundary text offset
  if offset > 0 then guiTextBoundary text (offset - 1) else return 0

/-- The bytes that the loop of `gui_text_next` passes. -/
def passed : List UInt8 → Checked Nat
  | [] => .error .read
  | c :: rest => do if continues c then return (← passed rest) + 1 else return 0

def guiTextNext (text : List UInt8) (offset : Int) : Checked Int := do
  let offset ← guiTextBoundary text offset
  let offset := if (← load text offset) ≠ 0 then offset + 1 else offset
  return offset + (← passed (text.drop (← pointer offset)))

/-- The result, and what `dst` and `cursor` point to behind the call. -/
abbrev Edited := Bool × Option (List UInt8) × Option Int

/-- `text` is a block of its own. -/
def guiTextReplace (dst : Option (List UInt8)) (capacity : Nat) (cursor : Option Int)
    (start finish : Int) (text : Option (List UInt8)) (count : Nat) : Checked Edited := do
  let refused := (false, dst, cursor)
  let some memory := dst | return refused
  if cursor = none ∨ capacity = 0 ∨ text = none ∧ count ≠ 0 then return refused
  let length ← strlen memory
  let start ← guiTextBoundary memory start
  let finish ← guiTextBoundary memory finish
  if finish < start then return refused
  let retained := toSize (length - (finish - start))
  if retained ≥ capacity ∨ count ≥ capacity - retained then return refused
  let rest ← readAt memory (← pointer finish) (toSize (length - toSize finish + 1))
  let memory ← writeAt memory (← pointer (start + count)) rest
  let memory ← if count = 0 then pure memory else
    writeAt memory (← pointer start) (← readAt (text.getD []) 0 count)
  return (true, some memory, some (toInt (start + toInt count)))

/-- A block of memory with a text in it. -/
structure Field where
  text : List Char
  slack : List UInt8
  noNul : '\x00' ∉ text

def Field.memory (field : Field) : List UInt8 := encode field.text ++ 0 :: field.slack

theorem toInt_of_lt {n : ℕ} (small : n < 2 ^ 31) : toInt n = n := by
  apply Int.bmod_eq_of_le <;> omega

theorem toSize_of_lt {n : ℕ} (small : n < 2 ^ 64) : toSize n = n := by
  unfold toSize
  omega

theorem pointer_natCast (n : ℕ) : pointer n = .ok n := if_pos (Int.natCast_nonneg n)

theorem load_eq {memory : List UInt8} {n : ℕ} {c : UInt8} (there : memory[n]? = some c) :
    load memory n = .ok c := by
  simp only [load, pointer_natCast, ok_bind, there]
  rfl

theorem retreat_succ {memory : List UInt8} {n : ℕ} {c : UInt8}
    (there : memory[n + 1]? = some c) :
    retreat memory (n + 1) = if continues c then retreat memory n else .ok (n + 1) := by
  rw [retreat, load_eq there]
  rfl

theorem retreat_stop {memory : List UInt8} {n : ℕ} {c : UInt8} (there : memory[n]? = some c)
    (lead : continues c = false) : retreat memory n = .ok n := by
  cases n with
  | zero => rfl
  | succ n => rw [retreat_succ there, lead, if_neg Bool.false_ne_true]

/-- From inside a character back to its first byte. -/
theorem retreat_within {memory before rest after : List UInt8} {first : UInt8}
    (shape : memory = before ++ first :: rest ++ after) (lead : continues first = false)
    (marked : ∀ b ∈ rest, continues b = true) {k : ℕ} (inside : k ≤ rest.length) :
    retreat memory (before.length + k) = .ok before.length := by
  induction k with
  | zero =>
    apply retreat_stop (c := first) _ lead
    simp [shape]
  | succ k ih =>
    have there : memory[before.length + k + 1]? = some rest[k] := by
      rw [shape, List.append_assoc, List.getElem?_append_right (by omega), Nat.add_assoc,
        Nat.add_sub_cancel_left, List.cons_append, List.getElem?_cons_succ,
        List.getElem?_append_left inside, List.getElem?_eq_getElem inside]
    rw [← Nat.add_assoc, retreat_succ there, marked _ (List.getElem_mem inside), if_pos rfl]
    exact ih (Nat.le_of_succ_le inside)

theorem passed_eq {rest more : List UInt8} {c : UInt8} (lead : continues c = false)
    (marked : ∀ b ∈ rest, continues b = true) : passed (rest ++ c :: more) = .ok rest.length := by
  induction rest with
  | nil => simp [passed, lead, pure_eq_ok]
  | cons b rest ih =>
    have later := ih fun b member => marked b (List.mem_cons_of_mem _ member)
    rw [List.cons_append, passed, marked b List.mem_cons_self, if_pos rfl, later]
    rfl

variable {field : Field} {front back : List Char} {c : Char}

theorem strlen_memory (field : Field) : strlen field.memory = .ok (encode field.text).length := by
  have none : (encode field.text).findIdx? (· == 0) = none := by
    rw [List.findIdx?_eq_none_iff]
    intro b member
    exact beq_false_of_ne fun zero => zero_mem_encode field.noNul (zero ▸ member)
  unfold strlen Field.memory
  rw [List.findIdx?_append, none, List.findIdx?_cons]
  simp

/-- Between two characters stands the first byte of the next one, or the terminator. -/
theorem at_boundary (split : field.text = front ++ back) :
    ∃ c more, field.memory = encode front ++ c :: more ∧ continues c = false ∧
      (c = 0 ↔ back = []) := by
  have noNul := field.noNul
  unfold Field.memory
  rw [split] at noNul ⊢
  cases back with
  | nil => exact ⟨0, field.slack, by simp, rfl, by simp⟩
  | cons next back =>
    obtain ⟨first, rest, eq, lead, -, nul⟩ := utf8EncodeChar_eq next
    refine ⟨first, rest ++ (encode back ++ 0 :: field.slack), ?_, lead, ?_⟩
    · rw [← List.singleton_append, encode_append, encode_append, encode_singleton, eq]
      simp
    · simp only [reduceCtorEq, iff_false]
      exact fun zero => noNul (nul zero ▸ List.mem_append_right _ List.mem_cons_self)

/-- A character, and what stands behind it. -/
theorem around (split : field.text = front ++ c :: back) :
    ∃ first rest stop more, String.utf8EncodeChar c = first :: rest ∧ first ≠ 0 ∧
      continues first = false ∧ (∀ b ∈ rest, continues b = true) ∧ continues stop = false ∧
      field.memory = encode front ++ first :: rest ++ stop :: more := by
  have behind : field.text = front ++ [c] ++ back := by rw [split, List.append_cons]
  obtain ⟨first, rest, eq, lead, marked, nul⟩ := utf8EncodeChar_eq c
  obtain ⟨stop, more, shape, ends, -⟩ := at_boundary behind
  refine ⟨first, rest, stop, more, eq, fun zero => field.noNul ?_, lead, marked, ends, ?_⟩
  · rw [split, ← nul zero]
    exact List.mem_append_right _ List.mem_cons_self
  · rw [shape, encode_append, encode_singleton, eq]

/-- The text is short enough for its offsets to be an `int`. -/
def Field.Short (field : Field) : Prop := (encode field.text).length < 2 ^ 31

/-- A call with an offset in the text only moves back. -/
theorem guiTextBoundary_eq (short : field.Short) {n place : ℕ}
    (inside : n ≤ (encode field.text).length) (moved : retreat field.memory n = .ok place) :
    guiTextBoundary field.memory n = .ok place := by
  have clipped : ¬(n : Int) > (encode field.text).length := by
    rw [gt_iff_lt, Int.not_lt]
    exact_mod_cast inside
  unfold guiTextBoundary
  rw [strlen_memory, ok_bind, toInt_of_lt short]
  dsimp only
  rw [if_neg (Int.not_lt.mpr (Int.natCast_nonneg n)), if_neg clipped, Int.toNat_natCast, moved]
  cases n with
  | zero =>
    cases Except.ok.inj moved
    rfl
  | succ n => exact if_pos (Int.natCast_pos.mpr (Nat.succ_pos n))

theorem guiTextBoundary_between (short : field.Short) (split : field.text = front ++ back) :
    guiTextBoundary field.memory (encode front).length = .ok ((encode front).length : ℕ) := by
  obtain ⟨c, more, shape, lead, -⟩ := at_boundary split
  apply guiTextBoundary_eq short
  · rw [split, encode_append, List.length_append]
    exact Nat.le_add_right _ _
  · apply retreat_stop (c := c) _ lead
    rw [shape]
    simp

/-- A step forward from in front of a character ends behind it. -/
theorem guiTextNext_eq (short : field.Short) (split : field.text = front ++ c :: back) :
    guiTextNext field.memory (encode front).length =
      .ok ((encode (front ++ [c])).length : ℕ) := by
  obtain ⟨first, rest, stop, more, eq, nonzero, -, marked, ends, shape⟩ := around split
  have there : field.memory[(encode front).length]? = some first := by
    rw [shape, List.append_assoc]
    simp
  have behind : field.memory.drop ((encode front).length + 1) = rest ++ stop :: more := by
    rw [shape, List.append_assoc, List.drop_append]
    simp
  have pointed := pointer_natCast ((encode front).length + 1)
  rw [Int.natCast_add, Int.natCast_one] at pointed
  unfold guiTextNext
  simp only [guiTextBoundary_between short split, ok_bind, load_eq there, if_pos nonzero, pointed,
    behind, passed_eq ends marked]
  rw [encode_append, encode_singleton, eq, List.length_append, List.length_cons]
  apply congrArg Except.ok
  omega

theorem guiTextNext_end (short : field.Short) :
    guiTextNext field.memory (encode field.text).length =
      .ok ((encode field.text).length : ℕ) := by
  have there : field.memory[(encode field.text).length]? = some 0 := by simp [Field.memory]
  have behind : field.memory.drop (encode field.text).length = 0 :: field.slack := List.drop_left
  unfold guiTextNext
  simp only [guiTextBoundary_between short (List.append_nil _).symm, ok_bind, load_eq there, ne_eq,
    not_true_eq_false, if_false, pointer_natCast, behind]
  rfl

/-- A step back from behind a character ends in front of it. -/
theorem guiTextPrevious_eq (short : field.Short) (split : field.text = front ++ c :: back) :
    guiTextPrevious field.memory (encode (front ++ [c])).length =
      .ok ((encode front).length : ℕ) := by
  obtain ⟨first, rest, stop, more, eq, -, lead, marked, -, shape⟩ := around split
  have behind : field.text = front ++ [c] ++ back := by rw [split, List.append_cons]
  have size : (encode (front ++ [c])).length = (encode front).length + rest.length + 1 := by
    rw [encode_append, encode_singleton, eq, List.length_append, List.length_cons]
    rfl
  have inside : (encode front).length + rest.length ≤ (encode field.text).length := by
    rw [behind, encode_append, List.length_append, size]
    omega
  have stays := guiTextBoundary_between short behind
  have moves := guiTextBoundary_eq short inside (retreat_within shape lead marked le_rfl)
  unfold guiTextPrevious
  rw [stays, ok_bind, size, if_pos (by omega)]
  simpa using moves

theorem guiTextPrevious_zero (short : field.Short) : guiTextPrevious field.memory 0 = .ok 0 := by
  have stays := guiTextBoundary_between short (List.nil_append _).symm
  rw [encode_nil, List.length_nil, Int.ofNat_zero] at stays
  unfold guiTextPrevious
  rw [stays]
  rfl

section splice
variable {memory first selected last slack : List UInt8}

theorem read_last (shape : memory = first ++ selected ++ last ++ 0 :: slack) :
    readAt memory (first.length + selected.length) (last.length + 1) = .ok (last ++ [0]) := by
  have back : memory = first ++ selected ++ (last ++ [0]) ++ slack := by simp [shape]
  have read := readAt_between (first ++ selected) (last ++ [0]) slack
  rwa [← back, List.length_append, List.length_append, List.length_singleton] at read

/-- The two writes put the inserted bytes between what is left of the text. -/
theorem writes_eq (shape : memory = first ++ selected ++ last ++ 0 :: slack)
    (inserted : List UInt8)
    (room : first.length + inserted.length + (last.length + 1) ≤ memory.length) :
    ∃ moved, writeAt memory (first.length + inserted.length) (last ++ [0]) = .ok moved ∧
      writeAt moved first.length inserted = .ok (first ++ inserted ++ last ++
        0 :: memory.drop (first.length + inserted.length + (last.length + 1))) := by
  -- The memory as the bytes in front of the moved text, those it replaces, and the others.
  have parts : memory = memory.take (first.length + inserted.length) ++
      (memory.drop (first.length + inserted.length)).take (last.length + 1) ++
      memory.drop (first.length + inserted.length + (last.length + 1)) := by
    rw [List.append_assoc, ← List.drop_drop (i := last.length + 1), List.take_append_drop,
      List.take_append_drop]
  have kept : memory.take (first.length + inserted.length) =
      first ++ (memory.drop first.length).take inserted.length := by
    rw [List.take_add, shape]
    simp
  have width : (memory.take (first.length + inserted.length)).length =
      first.length + inserted.length := by
    rw [List.length_take]
    omega
  have size : ((memory.drop (first.length + inserted.length)).take (last.length + 1)).length =
      (last ++ [0]).length := by
    rw [List.length_take, List.length_drop, List.length_append, List.length_singleton]
    omega
  have moved := writeAt_between (memory.take (first.length + inserted.length))
    (memory.drop (first.length + inserted.length + (last.length + 1))) size
  rw [← parts, width] at moved
  refine ⟨_, moved, ?_⟩
  have old : ((memory.drop first.length).take inserted.length).length = inserted.length := by
    rw [List.length_take, List.length_drop]
    omega
  have written := writeAt_between first (last ++ [0] ++
    memory.drop (first.length + inserted.length + (last.length + 1))) old
  rw [kept]
  simpa using written

end splice

theorem writeAt_empty {memory next : List UInt8} {offset : ℕ}
    (written : writeAt memory offset [] = .ok next) : next = memory := by
  unfold writeAt at written
  split at written
  · rw [← Except.ok.inj written]
    simp
  · contradiction

/-- The bytes behind the terminator are those that stood there. -/
theorem drop_spliced {memory text : List UInt8} {capacity : ℕ} (room : text.length < capacity) :
    (text ++ 0 :: memory.drop (text.length + 1)).drop capacity = memory.drop capacity := by
  obtain ⟨k, rfl⟩ := Nat.exists_eq_add_of_le room
  have behind : (text ++ 0 :: memory.drop (text.length + 1)).drop (text.length + 1) =
      memory.drop (text.length + 1) := by simp [List.drop_append]
  rw [Nat.succ_eq_add_one, ← List.drop_drop, behind, List.drop_drop]

section replace
variable {selected inserted : List Char} {capacity : ℕ} {cursor : Int}
  {source : Option (List UInt8)} {more : List UInt8}

theorem retained_eq (short : field.Short) {start finish : ℕ} (order : start ≤ finish)
    (inside : finish ≤ (encode field.text).length) :
    toSize (((encode field.text).length : ℕ) - ((finish : Int) - start)) =
      (encode field.text).length - (finish - start) := by
  unfold Field.Short at short
  have small : (encode field.text).length - (finish - start) < 2 ^ 64 := by omega
  rw [← toSize_of_lt small]
  congr 1
  omega

/-- A selection that ends before it starts, and an insertion that does not fit, are refused. -/
theorem guiTextReplace_refused (short : field.Short) {first last first' last' : List Char}
    (starts : field.text = first ++ last) (ends : field.text = first' ++ last')
    (closed : (encode first').length < (encode first).length ∨ capacity ≤
      (encode field.text).length - ((encode first').length - (encode first).length) +
        (encode inserted).length) :
    guiTextReplace (some field.memory) capacity (some cursor) (encode first).length
        (encode first').length source (encode inserted).length =
      .ok (false, some field.memory, some cursor) := by
  have inside : (encode first').length ≤ (encode field.text).length := by
    rw [ends, encode_append, List.length_append]
    exact Nat.le_add_right _ _
  unfold guiTextReplace
  simp only [strlen_memory, guiTextBoundary_between short starts,
    guiTextBoundary_between short ends, ok_bind]
  split
  · rfl
  · split
    · rfl
    · rename_i order
      have order : (encode first).length ≤ (encode first').length := by
        exact_mod_cast Int.not_lt.mp order
      rw [retained_eq short order inside, if_pos (by omega)]
      rfl

/-- The buffer with the insertion in the place of the selection. -/
theorem guiTextReplace_eq (cursor : Int) (short : field.Short)
    (split : field.text = front ++ selected ++ back)
    (given : source.getD [] = encode inserted ++ more) (inside : capacity ≤ field.memory.length)
    (fits : (encode front).length + (encode back).length + (encode inserted).length < capacity) :
    guiTextReplace (some field.memory) capacity (some cursor) (encode front).length
        (encode (front ++ selected)).length source (encode inserted).length =
      .ok (true, some (encode (front ++ inserted ++ back) ++
          0 :: field.memory.drop ((encode (front ++ inserted ++ back)).length + 1)),
        some (toInt ((encode front).length + toInt (encode inserted).length))) := by
  have total : (encode field.text).length =
      (encode front).length + (encode selected).length + (encode back).length := by
    rw [split, encode_append, encode_append, List.length_append, List.length_append]
  have finish : (encode (front ++ selected)).length =
      (encode front).length + (encode selected).length := by
    rw [encode_append, List.length_append]
  have shape : field.memory =
      encode front ++ encode selected ++ encode back ++ 0 :: field.slack := by
    rw [Field.memory, split, encode_append, encode_append]
  have starts := guiTextBoundary_between short (split.trans (List.append_assoc _ _ _))
  have ends := guiTextBoundary_between short split
  have retained : toSize (((encode field.text).length : ℕ) -
      (((encode (front ++ selected)).length : ℕ) - ((encode front).length : ℕ) : Int)) =
      (encode front).length + (encode back).length := by
    rw [retained_eq short (by omega) (by omega)]
    omega
  have rest : toSize (((encode field.text).length : ℕ) -
      (toSize ((encode (front ++ selected)).length : ℕ) : Int) + 1) = (encode back).length + 1 := by
    unfold Field.Short at short
    have small : (encode back).length + 1 < 2 ^ 64 := by omega
    rw [toSize_of_lt (by omega), ← toSize_of_lt small]
    congr 1
    omega
  have pointers : ¬(some cursor = none ∨ capacity = 0 ∨
      source = none ∧ (encode inserted).length ≠ 0) := by
    rintro (none | none | ⟨none, some⟩)
    · contradiction
    · omega
    · rw [none, Option.getD_none] at given
      exact some (List.length_eq_zero_iff.mpr (List.append_eq_nil_iff.mp given.symm).1)
  have behind := pointer_natCast ((encode front).length + (encode inserted).length)
  rw [Int.natCast_add] at behind
  have room : (encode front).length + (encode inserted).length + ((encode back).length + 1) ≤
      field.memory.length := by omega
  obtain ⟨moved, moves, writes⟩ := writes_eq shape (encode inserted) room
  unfold guiTextReplace
  simp only [strlen_memory, starts, ends, ok_bind, retained, if_neg pointers, pointer_natCast, rest,
    behind]
  rw [if_neg (by omega), if_neg (by omega), finish, read_last shape, ok_bind, moves, ok_bind,
    encode_append, encode_append, List.length_append, List.length_append, Nat.add_assoc (_ + _)]
  split
  · rename_i empty
    rw [List.length_eq_zero_iff.mp empty] at writes ⊢
    rw [writeAt_empty writes]
    rfl
  · have read := readAt_between [] (encode inserted) more
    rw [List.nil_append, List.length_nil] at read
    rw [given, read, ok_bind, writes]
    rfl

end replace

/-- The selection is in order, and the text without it has room for the insertion and a NUL. -/
def Fits (field : Field) (start finish count capacity : ℕ) : Prop :=
  start ≤ finish ∧ (encode field.text).length - (finish - start) + count < capacity

/-- Nothing has changed, or the insertion stands in the place of the selection. -/
def Keeps (field : Field) (start finish : ℕ) (inserted : List Char) (capacity : ℕ) (cursor : Int)
    (edited : Edited) : Prop :=
  edited = (false, some field.memory, some cursor) ∨
    ∃ (after : Field) (front selected back : List Char),
      field.text = front ++ selected ++ back ∧ (encode front).length = start ∧
      (encode (front ++ selected)).length = finish ∧ after.text = front ++ inserted ++ back ∧
      (encode after.text).length < capacity ∧
      after.memory.drop capacity = field.memory.drop capacity ∧
      edited =
        (true, some after.memory, some (((encode (front ++ inserted)).length : ℕ) : Int)) ∧
      Boundary after.text (encode (front ++ inserted)).length

/-- The steps from a boundary, and those back to it. -/
structure StepsInvert (field : Field) (offset : ℕ) : Prop where
  back : offset ≠ 0 → ∃ before, Boundary field.text before ∧
    guiTextPrevious field.memory offset = .ok (before : ℕ) ∧
    guiTextNext field.memory before = .ok (offset : ℕ)
  forward : offset ≠ (encode field.text).length → ∃ behind, Boundary field.text behind ∧
    guiTextNext field.memory offset = .ok (behind : ℕ) ∧
    guiTextPrevious field.memory behind = .ok (offset : ℕ)
  first : offset = 0 → guiTextPrevious field.memory offset = .ok (offset : ℕ)
  last : offset = (encode field.text).length →
    guiTextNext field.memory offset = .ok (offset : ℕ)

theorem steps_invert (short : field.Short) {offset : ℕ} (boundary : Boundary field.text offset) :
    StepsInvert field offset := by
  obtain ⟨front, back, split, rfl⟩ := boundary
  refine ⟨fun inner => ?_, fun inner => ?_, fun first => ?_, fun last => ?_⟩
  · rcases front.eq_nil_or_concat' with rfl | ⟨init, c, rfl⟩
    · exact absurd rfl inner
    · rw [List.append_assoc, List.singleton_append] at split
      exact ⟨_, ⟨init, c :: back, split, rfl⟩, guiTextPrevious_eq short split,
        guiTextNext_eq short split⟩
  · cases back with
    | nil =>
      rw [split, List.append_nil] at inner
      exact absurd rfl inner
    | cons c back =>
      exact ⟨_, ⟨front ++ [c], back, by rw [split, List.append_cons], rfl⟩,
        guiTextNext_eq short split, guiTextPrevious_eq short split⟩
  · rw [first]
    exact guiTextPrevious_zero short
  · rw [last]
    exact guiTextNext_end short

/-- Whatever the offsets of the selection and the capacity, the text stays one, and the steps
between boundaries invert each other but at the ends. -/
theorem edits_keep_text (short : field.Short) :
    (∀ (start finish : ℕ) (inserted : List Char) (source : Option (List UInt8))
        (more : List UInt8) (capacity : ℕ) (cursor : Int),
      Boundary field.text start → Boundary field.text finish → '\x00' ∉ inserted →
      source.getD [] = encode inserted ++ more → capacity ≤ field.memory.length →
      (Fits field start finish (encode inserted).length capacity →
        start + (encode inserted).length < 2 ^ 31) →
      ∃ edited, guiTextReplace (some field.memory) capacity (some cursor) start finish source
          (encode inserted).length = .ok edited ∧
        Keeps field start finish inserted capacity cursor edited ∧
        (edited.1 = true ↔ Fits field start finish (encode inserted).length capacity)) ∧
    ∀ offset, Boundary field.text offset → StepsInvert field offset := by
  refine ⟨?_, fun offset => steps_invert short⟩
  intro start finish inserted source more capacity cursor starts ends noNul given inside fits
  by_cases fitting : Fits field start finish (encode inserted).length capacity
  · obtain ⟨front, selected, back, split, rfl, rfl⟩ := starts.cut ends fitting.1
    have total : (encode field.text).length =
        (encode (front ++ selected)).length + (encode back).length := by
      rw [split, encode_append, List.length_append]
    have selection : (encode (front ++ selected)).length =
        (encode front).length + (encode selected).length := by
      rw [encode_append, List.length_append]
    have room := fitting.2
    have size : (encode (front ++ inserted ++ back)).length =
        (encode front).length + (encode inserted).length + (encode back).length := by
      rw [encode_append, encode_append, List.length_append, List.length_append]
    have within : (encode (front ++ inserted ++ back)).length < capacity := by omega
    have place : toInt ((encode front).length + toInt (encode inserted).length) =
        ((encode (front ++ inserted)).length : ℕ) := by
      have small := fits fitting
      rw [toInt_of_lt (by omega), ← Int.natCast_add, toInt_of_lt small, encode_append,
        List.length_append]
    have replaced := guiTextReplace_eq cursor short split given inside (by omega)
    rw [place] at replaced
    refine ⟨_, replaced, .inr ⟨⟨front ++ inserted ++ back, _, ?_⟩, front, selected, back, split,
      rfl, rfl, rfl, ?_, ?_, rfl, .between _ _⟩, by simpa using fitting⟩
    · have kept := field.noNul
      rw [split] at kept
      simp only [List.mem_append, not_or] at kept ⊢
      exact ⟨⟨kept.1.1, noNul⟩, kept.2⟩
    · exact within
    · exact drop_spliced within
  · obtain ⟨first, last, split, rfl⟩ := starts
    obtain ⟨first', last', split', rfl⟩ := ends
    refine ⟨_, guiTextReplace_refused short split split' ?_, .inl rfl, by simpa using fitting⟩
    unfold Fits at fitting
    omega

/-- An accent takes the place of a letter. -/
def letters : Field := ⟨['a', 'e', '中'], [0, 0], by decide⟩

theorem edits_keep_text_accent :
    (∃ edited, guiTextReplace (some letters.memory) 8 (some 1) 1 2 (some [0xC3, 0xA9]) 2 =
        .ok edited ∧ Keeps letters 1 2 ['é'] 8 1 edited) ∧
      StepsInvert letters 1 := by
  have short : letters.Short := show (encode letters.text).length < 2 ^ 31 by decide
  have spec := edits_keep_text short
  obtain ⟨edited, replaced, keeps, -⟩ := spec.1 1 2 ['é'] (some [0xC3, 0xA9]) [] 8 1
    ⟨['a'], ['e', '中'], rfl, by decide⟩ ⟨['a', 'e'], ['中'], rfl, by decide⟩ (by decide) (by decide)
    (by decide) (fun _ => by decide)
  exact ⟨⟨edited, replaced, keeps⟩, spec.2 1 ⟨['a'], ['e', '中'], rfl, by decide⟩⟩

theorem int_wraps : toInt (2 ^ 31 : ℕ) = -2 ^ 31 := by decide +kernel

/-- With a text of 2^31 bytes every offset is put in front of the buffer. -/
theorem replace_too_long {capacity : ℕ} {cursor : Int} (long : (encode field.text).length = 2 ^ 31)
    (room : 2 ^ 31 < capacity) :
    guiTextReplace (some field.memory) capacity (some cursor) 0 0 none 0 = .error .read := by
  have start : guiTextBoundary field.memory 0 = .ok (-2 ^ 31) := by
    unfold guiTextBoundary
    rw [strlen_memory, long, ok_bind, int_wraps]
    rfl
  have retained : toSize ((2 ^ 31 : ℕ) - (-2 ^ 31 - -2 ^ 31 : Int)) = 2 ^ 31 := by decide +kernel
  unfold guiTextReplace
  simp only [strlen_memory, long, start, ok_bind, retained]
  rw [if_neg (by simp; omega), if_neg (by decide), if_neg (by omega)]
  rfl

/-- Behind an insertion of 2^31 bytes the cursor is negative. -/
theorem cursor_wraps {inserted : List Char} {capacity : ℕ} {cursor : Int}
    (empty : field.text = []) (long : (encode inserted).length = 2 ^ 31)
    (inside : capacity ≤ field.memory.length) (room : 2 ^ 31 < capacity) :
    ∃ memory, guiTextReplace (some field.memory) capacity (some cursor) 0 0
      (some (encode inserted)) (2 ^ 31) = .ok (true, some memory, some (-2 ^ 31)) := by
  have short : field.Short := by
    unfold Field.Short
    rw [empty]
    exact Nat.two_pow_pos 31
  have split : field.text = [] ++ [] ++ [] := empty
  have given : (some (encode inserted)).getD [] = encode inserted ++ [] :=
    (List.append_nil _).symm
  have replaced := guiTextReplace_eq cursor short split given inside (by rw [long]; exact room)
  rw [long, int_wraps] at replaced
  exact ⟨_, replaced⟩

/-- A text of so many letters. -/
def letterRun (n : ℕ) : Field where
  text := List.replicate n 'a'
  slack := []
  noNul := fun nul => absurd (List.mem_replicate.mp nul).2 (by decide)

theorem length_letterRun (n : ℕ) : (encode (letterRun n).text).length = n := by
  unfold encode letterRun
  rw [List.length_flatMap, List.map_replicate, List.sum_replicate_nat]
  exact Nat.mul_one n

/-- An empty text in a larger block. -/
def blank (n : ℕ) : Field := ⟨[], List.replicate n 0, nofun⟩

theorem length_blank (n : ℕ) : (blank n).memory.length = n + 1 := by
  unfold blank Field.memory
  simp

/-- The steps stop at the ends. Bytes that are no text, or end it, are inserted as they are.
Offsets beyond an `int` leave the buffer, or wrap. -/
theorem edits_have_limits :
    (Boundary ['a'] 0 ∧ (do guiTextNext [97, 0] (← guiTextPrevious [97, 0] 0)) = .ok 1) ∧
    (guiTextReplace (some [0, 0]) 2 (some 0) 0 0 (some [0x80]) 1 =
      .ok (true, some [0x80, 0], some 1) ∧ ¬Valid [0x80]) ∧
    (guiTextReplace (some [97, 0, 0]) 3 (some 0) 0 0 (some [0]) 1 =
      .ok (true, some [0, 97, 0], some 1) ∧ strlen [0, 97, 0] = .ok 0) ∧
    guiTextReplace (some (letterRun (2 ^ 31)).memory) (2 ^ 31 + 1) (some 0) 0 0 none 0 =
      .error .read ∧
    ∃ memory, guiTextReplace (some (blank (2 ^ 31)).memory) (2 ^ 31 + 1) (some 0) 0 0
      (some (encode (letterRun (2 ^ 31)).text)) (2 ^ 31) =
        .ok (true, some memory, some (-2 ^ 31)) := by
  refine ⟨⟨⟨[], ['a'], rfl, rfl⟩, by decide +kernel⟩, ⟨by decide +kernel, ?_⟩,
    ⟨by decide +kernel, by decide⟩, replace_too_long (length_letterRun _) (Nat.lt_succ_self _),
    cursor_wraps rfl (length_letterRun _) (length_blank _).ge (Nat.lt_succ_self _)⟩
  rintro ⟨text, shown⟩
  cases text with
  | nil => contradiction
  | cons c text =>
    obtain ⟨first, rest, eq, lead, -, -⟩ := utf8EncodeChar_eq c
    rw [← List.singleton_append, encode_append, encode_singleton, eq] at shown
    rw [(List.cons.inj shown).1] at lead
    contradiction

end MisrcGui.Ui.TextEdit
