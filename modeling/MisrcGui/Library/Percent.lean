import Mathlib.Data.List.Basic

/-! Percent escapes over bytes. A predicate says which bytes stand for themselves;
the percent sign itself must not. -/
namespace Library.Percent

def percent : UInt8 := 37

def ascii (text : String) : List UInt8 := text.toList.map fun c => UInt8.ofNat c.toNat

/-- The characters that a text is written with. Those of a literal are found by `rfl`, and its
bytes come from them without decoding it. -/
structure Spelling (text : String) where
  chars : List Char
  spells : String.ofList chars = text

def Spelling.bytes {text : String} (spelling : Spelling text) : List UInt8 :=
  spelling.chars.map fun c => UInt8.ofNat c.toNat

theorem Spelling.ascii_eq {text : String} (spelling : Spelling text) :
    ascii text = spelling.bytes := by
  obtain ⟨chars, rfl⟩ := spelling
  rw [ascii, String.toList_ofList, bytes]

/-- Letters, digits, `-`, `_` and `.`. -/
def unreserved (c : UInt8) : Bool :=
  (97 ≤ c && c ≤ 122) || (65 ≤ c && c ≤ 90) || (48 ≤ c && c ≤ 57) ||
    c == 45 || c == 95 || c == 46

def hexDigit (n : Nat) : UInt8 := UInt8.ofNat (if n < 10 then 48 + n else 55 + n)

def hexValue (c : UInt8) : Option Nat :=
  if 48 ≤ c ∧ c ≤ 57 then some (c.toNat - 48)
  else if 97 ≤ c ∧ c ≤ 102 then some (c.toNat - 87)
  else if 65 ≤ c ∧ c ≤ 70 then some (c.toNat - 55)
  else none

def escapeByte (plain : UInt8 → Bool) (c : UInt8) : List UInt8 :=
  if plain c then [c] else [percent, hexDigit (c.toNat / 16), hexDigit (c.toNat % 16)]

def escape (plain : UInt8 → Bool) (text : List UInt8) : List UInt8 :=
  text.flatMap (escapeByte plain)

def unescape : List UInt8 → Option (List UInt8)
  | [] => some []
  | c :: rest =>
    if c = percent then
      match rest with
      | high :: low :: rest => do
        let a ← hexValue high
        let b ← hexValue low
        let tail ← unescape rest
        return UInt8.ofNat (16 * a + b) :: tail
      | _ => none
    else do
      let tail ← unescape rest
      return c :: tail

variable {plain : UInt8 → Bool}

theorem hexValue_hexDigit : ∀ n < 16, hexValue (hexDigit n) = some n := by
  decide

theorem escape_cons (c : UInt8) (text : List UInt8) :
    escape plain (c :: text) = escapeByte plain c ++ escape plain text := rfl

theorem unescape_cons {c : UInt8} (other : c ≠ percent) (rest : List UInt8) :
    unescape (c :: rest) = (unescape rest).map (c :: ·) := by
  conv_lhs => unfold unescape
  rw [if_neg other]
  cases unescape rest <;> rfl

theorem unescape_percent (high low : UInt8) (rest : List UInt8) :
    unescape (percent :: high :: low :: rest) =
      (hexValue high).bind fun a => (hexValue low).bind fun b =>
        (unescape rest).map (UInt8.ofNat (16 * a + b) :: ·) := by
  conv_lhs => unfold unescape
  simp only [if_pos, Option.bind_eq_bind, Option.pure_def]
  congr 1
  funext a
  congr 1
  funext b
  cases unescape rest <;> rfl

theorem unescape_escapeByte (escaped : plain percent = false) (c : UInt8) (rest : List UInt8) :
    unescape (escapeByte plain c ++ rest) = (unescape rest).map (c :: ·) := by
  rw [escapeByte]
  by_cases itself : plain c
  · have other : c ≠ percent := by
      rintro rfl
      rw [escaped] at itself
      contradiction
    rw [if_pos itself, List.singleton_append, unescape_cons other]
  · have high : c.toNat / 16 < 16 := by have := c.toNat_lt; omega
    have low : c.toNat % 16 < 16 := Nat.mod_lt _ (by decide)
    have whole : UInt8.ofNat (16 * (c.toNat / 16) + c.toNat % 16) = c := by
      rw [Nat.div_add_mod, UInt8.ofNat_toNat]
    rw [if_neg itself]
    simp only [List.cons_append, List.nil_append]
    rw [unescape_percent, hexValue_hexDigit _ high, hexValue_hexDigit _ low, Option.bind_some,
      Option.bind_some, whole]

theorem unescape_escape (escaped : plain percent = false) (text : List UInt8) :
    unescape (escape plain text) = some text := by
  induction text with
  | nil => rfl
  | cons c rest ih =>
    rw [escape_cons, unescape_escapeByte escaped, ih]
    rfl

theorem unescape_append {part decoded : List UInt8} (read : unescape part = some decoded)
    (rest : List UInt8) : unescape (part ++ rest) = (unescape rest).map (decoded ++ ·) := by
  fun_induction unescape part generalizing decoded with
  | case1 =>
    cases read
    simp
  | case2 high low part ih =>
    obtain ⟨a, first, read⟩ := Option.bind_eq_some_iff.mp read
    obtain ⟨b, second, read⟩ := Option.bind_eq_some_iff.mp read
    obtain ⟨tail, later, same⟩ := Option.bind_eq_some_iff.mp read
    cases same
    simp only [List.cons_append, unescape_percent, first, second, Option.bind_some, ih later,
      Option.map_map]
    rfl
  | case3 => cases read
  | case4 c part other ih =>
    obtain ⟨tail, later, same⟩ := Option.bind_eq_some_iff.mp read
    cases same
    rw [List.cons_append, unescape_cons other, ih later, Option.map_map]
    rfl

theorem mem_escape {text : List UInt8} {c : UInt8} (listed : c ∈ escape plain text) :
    plain c ∨ c = percent ∨ ∃ n < 16, c = hexDigit n := by
  obtain ⟨origin, -, found⟩ := List.mem_flatMap.mp listed
  rw [escapeByte] at found
  by_cases itself : plain origin
  · rw [if_pos itself, List.mem_singleton] at found
    exact .inl (found ▸ itself)
  · rw [if_neg itself] at found
    have high : origin.toNat / 16 < 16 := by have := origin.toNat_lt; omega
    have low : origin.toNat % 16 < 16 := Nat.mod_lt _ (by decide)
    rcases List.mem_cons.mp found with sign | found
    · exact .inr (.inl sign)
    · rcases List.mem_cons.mp found with first | second
      · exact .inr (.inr ⟨_, high, first⟩)
      · exact .inr (.inr ⟨_, low, List.mem_singleton.mp second⟩)

theorem not_mem_escape {c : UInt8} (reserved : plain c = false) (other : c ≠ percent)
    (notHex : ∀ n < 16, c ≠ hexDigit n) (text : List UInt8) : c ∉ escape plain text := by
  intro listed
  rcases mem_escape listed with itself | sign | ⟨n, small, same⟩
  · rw [reserved] at itself
    contradiction
  · exact other sign
  · exact notHex n small same

theorem length_escapeByte (c : UInt8) : (escapeByte plain c).length ≤ 3 := by
  rw [escapeByte]
  split <;> simp

theorem length_escape (text : List UInt8) : (escape plain text).length ≤ 3 * text.length := by
  induction text with
  | nil => exact Nat.le_refl _
  | cons c rest ih =>
    have first : (escapeByte plain c).length ≤ 3 := length_escapeByte c
    rw [escape_cons, List.length_append, List.length_cons]
    omega

end Library.Percent
