import Mathlib.Data.List.Basic

/-! UTF-8 text as bytes, and the offsets between its characters. A character has one byte that
begins it, and its other bytes can be told from such a byte. -/
namespace Library.Utf8

def encode (text : List Char) : List UInt8 := text.flatMap String.utf8EncodeChar

def Valid (bytes : List UInt8) : Prop := ∃ text, encode text = bytes

/-- A byte of the form `10xxxxxx`. -/
def continues (c : UInt8) : Bool := c &&& 0xC0 == 0x80

/-- An offset between two characters, or at an end of the text. -/
def Boundary (text : List Char) (offset : ℕ) : Prop :=
  ∃ front back, text = front ++ back ∧ (encode front).length = offset

variable {c : Char} {text front back : List Char}

@[simp] theorem encode_nil : encode [] = [] := rfl

@[simp] theorem encode_append (front back : List Char) :
    encode (front ++ back) = encode front ++ encode back := List.flatMap_append

@[simp] theorem encode_singleton (c : Char) : encode [c] = String.utf8EncodeChar c :=
  List.flatMap_singleton _ c

theorem Boundary.between (front back : List Char) :
    Boundary (front ++ back) (encode front).length := ⟨front, back, rfl, rfl⟩

theorem encode_eq_nil (empty : encode text = []) : text = [] := by
  cases text with
  | nil => rfl
  | cons c text =>
    exact absurd (List.append_eq_nil_iff.mp empty).1 String.utf8EncodeChar_ne_nil

/-- Two boundaries in order cut the text in three. -/
theorem Boundary.cut {start finish : ℕ} (starts : Boundary text start)
    (ends : Boundary text finish) (order : start ≤ finish) :
    ∃ front selected back, text = front ++ selected ++ back ∧ (encode front).length = start ∧
      (encode (front ++ selected)).length = finish := by
  obtain ⟨front, last, split, rfl⟩ := starts
  obtain ⟨first, back, split', rfl⟩ := ends
  rcases List.prefix_or_prefix_of_prefix ⟨last, split.symm⟩ ⟨back, split'.symm⟩ with
    ⟨selected, rfl⟩ | ⟨between, rfl⟩
  · exact ⟨front, selected, back, split', rfl, rfl⟩
  · rw [encode_append, List.length_append] at order
    have empty : between = [] := encode_eq_nil (List.length_eq_zero_iff.mp (by omega))
    subst empty
    exact ⟨first, [], back, by simpa using split', by simp, by simp⟩

/-- The first byte of a character other than NUL. -/
def Lead (first : UInt8) : Prop := continues first = false ∧ first ≠ 0

/-- The bit patterns of `String.utf8EncodeChar`. -/
theorem patterns (x : UInt8) :
    continues (x &&& 0x3F ||| 0x80) = true ∧ Lead (x &&& 0x1F ||| 0xC0) ∧
      Lead (x &&& 0x0F ||| 0xE0) ∧ Lead (x &&& 0x07 ||| 0xF0) ∧
      (x ≤ 0x7F → continues x = false) := by
  have each : ∀ small : Fin 256, let x := UInt8.ofFin small
      continues (x &&& 0x3F ||| 0x80) = true ∧
        (continues (x &&& 0x1F ||| 0xC0) = false ∧ x &&& 0x1F ||| 0xC0 ≠ 0) ∧
        (continues (x &&& 0x0F ||| 0xE0) = false ∧ x &&& 0x0F ||| 0xE0 ≠ 0) ∧
        (continues (x &&& 0x07 ||| 0xF0) = false ∧ x &&& 0x07 ||| 0xF0 ≠ 0) ∧
        (x ≤ 0x7F → continues x = false) := by
    decide +kernel
  exact each x.toFin

theorem ascii_eq (small : c.val ≤ 0x7F) :
    continues c.val.toUInt8 = false ∧ (c.val.toUInt8 = 0 → c = '\x00') := by
  have low : c.val.toNat ≤ 127 := UInt32.le_iff_toNat_le.mp small
  have same : c.val.toUInt8.toNat = c.val.toNat := by
    rw [UInt32.toNat_toUInt8]
    omega
  refine ⟨(patterns _).2.2.2.2 ?_, fun nul => ?_⟩
  · rw [UInt8.le_iff_toNat_le, same]
    exact low
  · apply Char.ext
    apply UInt32.toNat_inj.mp
    rw [← same, nul]
    rfl

/-- A character is a byte that does not continue one, with bytes that do. -/
theorem utf8EncodeChar_eq (c : Char) : ∃ first rest, String.utf8EncodeChar c = first :: rest ∧
    continues first = false ∧ (∀ b ∈ rest, continues b = true) ∧ (first = 0 → c = '\x00') := by
  have form {first : UInt8} {rest : List UInt8} (eq : String.utf8EncodeChar c = first :: rest)
      (lead : Lead first) (marked : ∀ b ∈ rest, continues b = true) :
      ∃ first rest, String.utf8EncodeChar c = first :: rest ∧ continues first = false ∧
        (∀ b ∈ rest, continues b = true) ∧ (first = 0 → c = '\x00') :=
    ⟨first, rest, eq, lead.1, marked, fun nul => absurd nul lead.2⟩
  have low := fun x => (patterns x).1
  rcases Char.utf8Size_eq c with one | two | three | four
  · have ascii := ascii_eq (Char.utf8Size_eq_one_iff.mp one)
    exact ⟨_, _, String.utf8EncodeChar_eq_singleton one, ascii.1, nofun, ascii.2⟩
  · exact form (String.utf8EncodeChar_eq_cons_cons two) (patterns _).2.1 (by simp [low])
  · exact form (String.utf8EncodeChar_eq_cons_cons_cons three) (patterns _).2.2.1 (by simp [low])
  · exact form (String.utf8EncodeChar_eq_cons_cons_cons_cons four) (patterns _).2.2.2.1
      (by simp [low])

theorem zero_mem_encode (noNul : '\x00' ∉ text) : (0 : UInt8) ∉ encode text := by
  intro member
  obtain ⟨c, listed, inside⟩ := List.mem_flatMap.mp member
  obtain ⟨first, rest, eq, -, marked, nul⟩ := utf8EncodeChar_eq c
  rw [eq, List.mem_cons] at inside
  rcases inside with zero | later
  · exact noNul (nul zero.symm ▸ listed)
  · exact absurd (marked 0 later) (by decide)

end Library.Utf8
