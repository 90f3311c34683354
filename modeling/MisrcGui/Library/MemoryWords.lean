import MisrcGui.Library.Channelwise

/-! Words of a fixed width in a block of memory, and the loop that reads a run of them. -/
namespace Library.MemoryWords
open Library.Layout (field)
open Library.Terminated (Checked)
open Library.CheckedMemory (readAt)

/-- How a word lies in memory: each `width` bytes are one word. -/
structure WordFormat (Word : Type) where
  width : ℕ
  encode : Word → List UInt8
  decode : List UInt8 → Word
  length_encode : ∀ word, (encode word).length = width
  decode_encode : ∀ word, decode (encode word) = word
  encode_decode : ∀ bytes, bytes.length = width → encode (decode bytes) = bytes

variable {Word State : Type} (format : WordFormat Word)

def read (memory : List UInt8) (offset : ℕ) : Checked Word := do
  let bytes ← readAt memory offset format.width
  return format.decode bytes

def write (words : List Word) : List UInt8 := words.flatMap format.encode

/-- `for (i = 0; i < count; i++) step(words[i])`. -/
def readLoop (step : State → Word → State) (memory : List UInt8) (offset count : ℕ)
    (start : State) : Checked State :=
  (List.range count).foldlM (fun state i => do
    let word ← read format memory (offset + format.width * i)
    return step state word) start

variable {format}

@[simp] theorem length_write (words : List Word) :
    (write format words).length = format.width * words.length := by
  induction words with
  | nil => rfl
  | cons word words ih =>
    rw [write, List.flatMap_cons, List.length_append, format.length_encode, List.length_cons,
      Nat.mul_succ, Nat.add_comm]
    exact congrArg (· + format.width) ih

@[simp] theorem write_append (first second : List Word) :
    write format (first ++ second) = write format first ++ write format second :=
  List.flatMap_append

@[simp] theorem write_singleton (word : Word) : write format [word] = format.encode word :=
  List.flatMap_singleton ..

theorem read_eq_ok {front rest : List UInt8} {offset : ℕ} (here : offset = front.length)
    {word : Word} :
    read format (front ++ rest) offset = .ok word ↔ ∃ tail, rest = format.encode word ++ tail := by
  subst here
  unfold read readAt
  rw [List.length_append]
  constructor
  · intro ran
    by_cases inside : front.length + format.width ≤ front.length + rest.length
    · rw [if_pos inside] at ran
      have width : (rest.take format.width).length = format.width := by
        rw [List.length_take]
        omega
      have same : format.decode (rest.take format.width) = word := by
        rw [← Except.ok.inj ran, field, List.drop_left]
      refine ⟨rest.drop format.width, ?_⟩
      rw [← same, format.encode_decode _ width, List.take_append_drop]
    · rw [if_neg inside] at ran
      cases ran
  · rintro ⟨tail, rfl⟩
    have width := format.length_encode word
    rw [if_pos (by rw [List.length_append, width]; omega)]
    show Except.ok (format.decode (field _ _ _)) = _
    rw [field, List.drop_left, List.take_left' width, format.decode_encode]

theorem readLoop_eq_ok {step : State → Word → State} {front rest : List UInt8} {offset count : ℕ}
    (here : offset = front.length) {start last : State} :
    readLoop format step (front ++ rest) offset count start = .ok last ↔
      ∃ words tail, words.length = count ∧ rest = write format words ++ tail ∧
        last = words.foldl step start := by
  induction count generalizing last with
  | zero =>
    constructor
    · intro ran
      exact ⟨[], rest, rfl, rfl, (Except.ok.inj ran).symm⟩
    · rintro ⟨words, tail, none, _, rfl⟩
      rw [List.length_eq_zero_iff.mp none]
      rfl
  | succ count ih =>
    rw [readLoop, List.range_succ, List.foldlM_append, Channelwise.bind_eq_ok]
    constructor
    · rintro ⟨state, before, final⟩
      obtain ⟨words, tail, length, rfl, rfl⟩ := ih.mp before
      obtain ⟨next, ran, done⟩ := Channelwise.foldlM_cons_eq_ok.mp final
      obtain ⟨word, found, stepped⟩ := Channelwise.bind_eq_ok.mp ran
      rw [← List.append_assoc] at found
      obtain ⟨behind, rfl⟩ := (read_eq_ok (by simp [here, length])).mp found
      refine ⟨words ++ [word], behind, by simp [length], by simp, ?_⟩
      rw [← Except.ok.inj done, ← Except.ok.inj stepped, List.foldl_append]
      rfl
    · rintro ⟨all, tail, length, rfl, rfl⟩
      obtain ⟨words, word, rfl⟩ : ∃ words word, all = words ++ [word] := by
        refine ⟨all.dropLast, all.getLast ?_, (List.dropLast_append_getLast _).symm⟩
        rintro rfl
        cases length
      rw [List.length_append, List.length_singleton, Nat.add_right_cancel_iff] at length
      refine ⟨words.foldl step start, ?_, Channelwise.foldlM_cons_eq_ok.mpr ⟨_, ?_, rfl⟩⟩
      · exact ih.mpr ⟨words, format.encode word ++ tail, length, by simp, rfl⟩
      · refine Channelwise.bind_eq_ok.mpr ⟨word, ?_, by rw [List.foldl_append]; rfl⟩
        rw [write_append, List.append_assoc, ← List.append_assoc front]
        exact (read_eq_ok (by simp [here, length])).mpr ⟨tail, by simp⟩

end Library.MemoryWords
