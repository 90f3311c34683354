import Mathlib.Data.List.DropRight
import MisrcGui.Record.AffinityList

/-! The grammar of the CPU list, and the parser against it: numbers and ranges with commas between
them, and white space around every token. -/
namespace MisrcGui.Record.AffinityList
open Library
open Library.NumberText (isDigit isSpace digitsValue)
open Library.Terminated (Checked loop)

def Digits (text : Text) : Prop := text ≠ [] ∧ ∀ c ∈ text, isDigit c

def Spaces (text : Text) : Prop := ∀ c ∈ text, isSpace c

inductive IsItem : Text → Nat × Nat → Prop
  | number {digits : Text} : Digits digits →
    IsItem digits (digitsValue digits, digitsValue digits)
  | range {start before after last : Text} : Digits start → Spaces before → Spaces after →
    Digits last → digitsValue start ≤ digitsValue last →
    IsItem (start ++ (before ++ minus :: (after ++ last))) (digitsValue start, digitsValue last)

inductive IsList : Text → List (Nat × Nat) → Prop
  | last {before item after : Text} {range : Nat × Nat} : Spaces before → IsItem item range →
    Spaces after → IsList (before ++ (item ++ after)) [range]
  | more {before item after rest : Text} {range : Nat × Nat} {ranges : List (Nat × Nat)} :
    Spaces before → IsItem item range → Spaces after → IsList rest ranges →
    IsList (before ++ (item ++ (after ++ comma :: rest))) (range :: ranges)

inductive Begins : Text → List (Nat × Nat) → Prop
  | none (text : Text) : Begins text []
  | item {before item rest : Text} {range : Nat × Nat} : Spaces before → IsItem item range →
    Begins (before ++ (item ++ rest)) [range]
  | more {before item after rest : Text} {range : Nat × Nat} {ranges : List (Nat × Nat)} :
    Spaces before → IsItem item range → Spaces after → Begins rest ranges →
    Begins (before ++ (item ++ (after ++ comma :: rest))) (range :: ranges)

/-- The limits of the machine and of `cpu_set_t`. -/
def Within (system : System) (range : Nat × Nat) : Prop :=
  (range.2 : Int) ≤ system.maxCpuIndex ∧ range.2 < cpuSetsize

def Covers (ranges : List (Nat × Nat)) (cpu : Nat) : Prop :=
  ∃ range ∈ ranges, range.1 ≤ cpu ∧ cpu ≤ range.2

structure Listed (system : System) (text : Text) (ranges : List (Nat × Nat)) : Prop where
  isList : IsList text ranges
  within : ∀ range ∈ ranges, Within system range
  available : ∀ allowed, system.allowed = some allowed → ∀ cpu, Covers ranges cpu → cpu ∈ allowed

section text
variable {text rest digits spaces : Text}

theorem skipSpace_append (blank : Spaces spaces) (rest : Text) :
    skipSpace (spaces ++ rest) = skipSpace rest := List.dropWhile_append_of_pos blank

theorem skipSpace_spaces (blank : Spaces spaces) : skipSpace spaces = [] := by
  rw [← List.append_nil spaces, skipSpace_append blank]
  rfl

theorem skipSpace_split (text : Text) : ∃ spaces, Spaces spaces ∧ text = spaces ++ skipSpace text :=
  ⟨text.takeWhile isSpace, fun _ inside => List.mem_takeWhile_imp inside,
    List.takeWhile_append_dropWhile.symm⟩

theorem skipSpace_digits (number : Digits digits) (rest : Text) :
    skipSpace (digits ++ rest) = digits ++ rest := by
  obtain ⟨nonempty, all⟩ := number
  cases digits with
  | nil => exact absurd rfl nonempty
  | cons c digits =>
    have digit := all c List.mem_cons_self
    rw [List.cons_append]
    exact List.dropWhile_cons_of_neg (by
      rw [NumberText.isSpace_digit digit]
      exact Bool.false_ne_true)

theorem skipSpace_idem (text : Text) : skipSpace (skipSpace text) = skipSpace text :=
  List.dropWhile_idempotent isSpace text

theorem startsDigit_digits (number : Digits digits) (rest : Text) :
    startsDigit (digits ++ rest) = true := by
  obtain ⟨nonempty, all⟩ := number
  cases digits with
  | nil => exact absurd rfl nonempty
  | cons c digits => exact all c List.mem_cons_self

theorem digits_of_startsDigit (first : startsDigit text = true) :
    Digits (text.takeWhile isDigit) := by
  refine ⟨?_, fun _ inside => List.mem_takeWhile_imp inside⟩
  cases text with
  | nil => cases first
  | cons c text =>
    rw [List.takeWhile_cons_of_pos (show isDigit c = true from first)]
    exact List.cons_ne_nil _ _

theorem readIndex_split {value : Nat} (first : startsDigit text = true)
    (read : readIndex text = some (value, rest)) :
    ∃ digits, Digits digits ∧ text = digits ++ rest ∧ value = digitsValue digits := by
  refine ⟨text.takeWhile isDigit, digits_of_startsDigit first, ?_⟩
  unfold readIndex at read
  dsimp only at read
  by_cases large : digitsValue (text.takeWhile isDigit) > intMax
  · rw [if_pos large] at read
    cases read
  · rw [if_neg large] at read
    cases read
    exact ⟨List.takeWhile_append_dropWhile.symm, rfl⟩

theorem readIndex_digits (number : Digits digits) (ends : startsDigit rest = false)
    (small : digitsValue digits ≤ intMax) :
    readIndex (digits ++ rest) = some (digitsValue digits, rest) := by
  have behind : rest.takeWhile isDigit = [] ∧ rest.dropWhile isDigit = rest := by
    cases rest with
    | nil => exact ⟨rfl, rfl⟩
    | cons c rest =>
      have other : ¬isDigit c = true := by
        rw [show isDigit c = false from ends]
        exact Bool.false_ne_true
      exact ⟨List.takeWhile_cons_of_neg other, List.dropWhile_cons_of_neg other⟩
  have taken : (digits ++ rest).takeWhile isDigit = digits := by
    rw [List.takeWhile_append_of_pos number.2, behind.1, List.append_nil]
  have dropped : (digits ++ rest).dropWhile isDigit = rest := by
    rw [List.dropWhile_append_of_pos number.2, behind.2]
  rw [readIndex, taken, dropped]
  exact if_neg (Nat.not_lt.mpr small)

end text

section items
variable {system : System} {text item rest : Text} {range : Nat × Nat}

theorem IsItem.ordered (isItem : IsItem item range) : range.1 ≤ range.2 := by
  cases isItem with
  | number => exact Nat.le_refl _
  | range _ _ _ _ ordered => exact ordered

theorem IsItem.starts (isItem : IsItem item range) (rest : Text) :
    startsDigit (item ++ rest) = true ∧ skipSpace (item ++ rest) = item ++ rest := by
  cases isItem with
  | number digits => exact ⟨startsDigit_digits digits rest, skipSpace_digits digits rest⟩
  | range digits _ _ _ _ =>
    rw [List.append_assoc]
    exact ⟨startsDigit_digits digits _, skipSpace_digits digits _⟩

theorem IsItem.ne_nil (isItem : IsItem item range) : item ≠ [] := by
  rintro rfl
  have starts := (isItem.starts []).1
  cases starts

theorem readRange_split {start : Text} (number : Digits start)
    (read : readRange (digitsValue start) (skipSpace text) = .ok (range, rest)) :
    ∃ item after, IsItem item range ∧ Spaces after ∧ start ++ text = item ++ (after ++ rest) := by
  obtain ⟨before, blank, split⟩ := skipSpace_split text
  have single : ((digitsValue start, digitsValue start), skipSpace text) = (range, rest) →
      ∃ item after, IsItem item range ∧ Spaces after ∧
        start ++ text = item ++ (after ++ rest) := by
    intro same
    cases same
    exact ⟨start, before, .number number, blank, by rw [← split]⟩
  cases here : skipSpace text with
  | nil =>
    rw [here] at read
    exact single (by rw [here]; exact Except.ok.inj read)
  | cons c tail =>
    rw [here, readRange] at read
    by_cases dash : c = minus
    · subst dash
      rw [if_pos rfl, readRangeEnd] at read
      by_cases digit : startsDigit (skipSpace tail) = true
      · rw [if_pos digit] at read
        cases found : readIndex (skipSpace tail) with
        | none =>
          rw [found] at read
          cases read
        | some result =>
          obtain ⟨value, behind⟩ := result
          rw [found] at read
          dsimp only at read
          by_cases reversed : value < digitsValue start
          · rw [if_pos reversed] at read
            cases read
          · rw [if_neg reversed] at read
            cases read
            obtain ⟨last, lastNumber, lastSplit, rfl⟩ := readIndex_split digit found
            obtain ⟨after, afterBlank, afterSplit⟩ := skipSpace_split tail
            refine ⟨_, [], .range number blank afterBlank lastNumber (Nat.le_of_not_lt reversed),
              nofun, ?_⟩
            rw [split, here, afterSplit, lastSplit]
            simp
      · rw [if_neg digit] at read
        cases read
    · rw [if_neg dash] at read
      exact single (by rw [here]; exact Except.ok.inj read)

theorem takeItem_split (first : startsDigit text = true)
    (taken : takeItem system text = .ok (range, rest)) :
    ∃ item after, IsItem item range ∧ Spaces after ∧ text = item ++ (after ++ rest) ∧
      Within system range := by
  unfold takeItem at taken
  cases read : readItem text with
  | error error =>
    rw [read] at taken
    cases taken
  | ok result =>
    obtain ⟨⟨start, last⟩, behind⟩ := result
    rw [read] at taken
    dsimp only at taken
    by_cases large : (start : Int) > system.maxCpuIndex ∨ (last : Int) > system.maxCpuIndex
    · rw [if_pos large] at taken
      cases taken
    rw [if_neg large] at taken
    by_cases wide : last ≥ cpuSetsize
    · rw [if_pos wide] at taken
      cases taken
    rw [if_neg wide] at taken
    cases taken
    unfold readItem at read
    cases found : readIndex text with
    | none =>
      rw [found] at read
      cases read
    | some result =>
      obtain ⟨value, tail⟩ := result
      rw [found] at read
      obtain ⟨digits, number, rfl, rfl⟩ := readIndex_split first found
      obtain ⟨item, after, isItem, blank, split⟩ := readRange_split number read
      exact ⟨item, after, isItem, blank, split,
        Int.not_lt.mp fun above => large (.inr above), Nat.lt_of_not_le wide⟩

/-- What may stand behind an item: white space up to the end or a comma. -/
def EndsItem (rest : Text) : Prop :=
  startsDigit rest = false ∧ (skipSpace rest).head? ≠ some minus

theorem readRange_end (start : Nat) (ends : (skipSpace rest).head? ≠ some minus) :
    readRange start (skipSpace rest) = .ok ((start, start), skipSpace rest) := by
  cases here : skipSpace rest with
  | nil => rfl
  | cons c tail =>
    rw [here] at ends
    exact if_neg fun dash => ends (congrArg some dash)

theorem startsDigit_spaces {spaces : Text} (blank : Spaces spaces)
    (other : startsDigit rest = false) : startsDigit (spaces ++ rest) = false := by
  cases spaces with
  | nil => exact other
  | cons space spaces =>
    cases digit : isDigit space with
    | false => exact digit
    | true =>
      have blank := blank space List.mem_cons_self
      rw [NumberText.isSpace_digit digit] at blank
      cases blank

theorem skipSpace_minus (rest : Text) : skipSpace (minus :: rest) = minus :: rest := rfl

theorem takeItem_item (isItem : IsItem item range) (within : Within system range)
    (ends : EndsItem rest) :
    ∃ behind, takeItem system (item ++ rest) = .ok (range, behind) ∧
      skipSpace behind = skipSpace rest := by
  have ordered := isItem.ordered
  obtain ⟨index, setsize⟩ := within
  have limits : range.1 ≤ intMax ∧ range.2 ≤ intMax := by
    unfold cpuSetsize at setsize
    unfold intMax
    omega
  have read : ∃ behind, readItem (item ++ rest) = .ok (range, behind) ∧
      skipSpace behind = skipSpace rest := by
    unfold readItem
    cases isItem with
    | number digits =>
      rw [readIndex_digits digits ends.1 limits.1]
      exact ⟨_, readRange_end _ ends.2, skipSpace_idem rest⟩
    | @range start before after last number blank afterBlank lastNumber ordered =>
      have dash (rest : Text) : startsDigit (minus :: rest) = false := rfl
      rw [List.append_assoc, List.append_assoc, List.cons_append, List.append_assoc,
        readIndex_digits number (startsDigit_spaces blank (dash _)) limits.1]
      dsimp only
      rw [skipSpace_append blank, skipSpace_minus, readRange, if_pos rfl, readRangeEnd,
        skipSpace_append afterBlank, skipSpace_digits lastNumber,
        if_pos (startsDigit_digits lastNumber rest),
        readIndex_digits lastNumber ends.1 limits.2]
      exact ⟨rest, if_neg (Nat.not_lt.mpr ordered), rfl⟩
  obtain ⟨behind, read, same⟩ := read
  refine ⟨behind, ?_, same⟩
  unfold takeItem
  rw [read]
  dsimp only
  rw [if_neg (by omega), if_neg (Nat.not_le.mpr setsize)]

theorem endsItem_last {after : Text} (blank : Spaces after) : EndsItem after := by
  refine ⟨List.append_nil after ▸ startsDigit_spaces blank rfl, ?_⟩
  rw [skipSpace_spaces blank]
  nofun

theorem skipSpace_comma (rest : Text) : skipSpace (comma :: rest) = comma :: rest := rfl

theorem endsItem_comma {after : Text} (blank : Spaces after) (rest : Text) :
    EndsItem (after ++ comma :: rest) := by
  refine ⟨startsDigit_spaces blank rfl, ?_⟩
  rw [skipSpace_append blank, skipSpace_comma]
  exact fun same => absurd (Option.some.inj same) (by decide)

end items

end MisrcGui.Record.AffinityList
