import MisrcGui.Library.NumberText
import MisrcGui.Library.Percent
import MisrcGui.Library.Terminated

/-! How `gui_settings.c` looks a key up in the text of a settings file. -/
namespace MisrcGui.Settings.ValueText
open Library.NumberText Library.Percent Library.Terminated
open Library.Terminated.Pointer (inside)

abbrev Text := List UInt8

/-- `FILE_PATH_MAX`, the size of the buffer for a value. -/
def filePathMax : Nat := 4096

def tab : UInt8 := 9
def newline : UInt8 := 10
def carriageReturn : UInt8 := 13
def space : UInt8 := 32
def quote : UInt8 := 34
def comma : UInt8 := 44
def slash : UInt8 := 47
def colon : UInt8 := 58
def backslash : UInt8 := 92
def letterU : UInt8 := 117
def openBrace : UInt8 := 123
def closeBrace : UInt8 := 125

def isBlank (c : UInt8) : Bool := c == space || c == tab

def isWhite (c : UInt8) : Bool := isBlank c || c == carriageReturn || c == newline

def isGap (c : UInt8) : Bool := isWhite c || c == openBrace || c == comma

/-- The digits of `gui_settings_hex4`, so many of them. -/
def hexDigits : Nat → Nat → Pointer → Checked (Option Nat)
  | 0, value, _ => .ok (some value)
  | n + 1, value, p => do
    let c ← p.load
    match hexValue c with
    | none => return none
    | some digit => hexDigits n (16 * value + digit) p.next

def hex4 (p : Pointer) : Checked (Option Nat) := hexDigits 4 0 p

def skipBody (escaped : Bool) (p : Pointer) : Checked (Pointer ⊕ Pointer) := do
  let c ← p.load
  if c = 0 ∨ c = quote then return .inr p
  else if escaped ∧ c = backslash then
    let d ← p.next.load
    return .inl (if d = 0 then p.next else p.next.next)
  else return .inl p.next

def skipString (escaped : Bool) (p : Pointer) : Checked Pointer :=
  loop (skipBody escaped) (p.rest.length + 1) p

def skipQuoted (escaped : Bool) (p : Pointer) : Checked (Option Pointer) := do
  let c ← p.load
  if c = quote then
    let p ← skipString escaped p.next
    let c ← p.load
    return if c = 0 then none else some p.next
  else return some p

def skipValue (escaped : Bool) (p : Pointer) : Checked (Option Pointer) := do
  match ← skipQuoted escaped p with
  | none => return none
  | some p =>
    let p ← scan (fun c => c != 0 && c != comma && c != closeBrace) p
    let c ← p.load
    return if c = closeBrace then none else some p

def readMember (key : Text) (escaped : Bool) (name : Pointer) :
    Checked (Pointer ⊕ Option Pointer) := do
  let p ← scan (fun c => c != 0 && c != quote) name
  let c ← p.load
  if c = 0 then return .inr none
  else
    let found := name.upTo p = key
    let p ← scan isBlank p.next
    let (c, p) ← p.fetch
    if c ≠ colon then return .inr none
    else
      let p ← scan isWhite p
      if found then return .inr (some p)
      else
        match ← skipValue escaped p with
        | none => return .inr none
        | some p => return .inl p

/-- One round of `gui_settings_value_start`. -/
def startBody (key : Text) (escaped : Bool) (p : Pointer) : Checked (Pointer ⊕ Option Pointer) := do
  let c ← p.load
  if c = 0 then return .inr none
  else
    let p ← scan isGap p
    let (c, name) ← p.fetch
    if c ≠ quote then return .inr none else readMember key escaped name

def valueStart (key : Text) (escaped : Bool) (p : Pointer) : Checked (Option Pointer) :=
  loop (startBody key escaped) (p.rest.length + 1) p

/-- What `find_value` returns, and `s_settings_value_too_long`. -/
structure Found where
  bytes : Text
  tooLong : Bool
deriving DecidableEq

inductive Decoded where
  | absent
  | tooLong
  | text (p : Pointer) (bytes : Text)
deriving DecidableEq

abbrev DecodeRound := (Pointer × Text) ⊕ Decoded

def put (p : Pointer) (held bytes : Text) : Checked DecodeRound := do
  if held.length + bytes.length ≥ filePathMax then return .inr .tooLong
  else
    let held ← store filePathMax held bytes
    return .inl (p, held)

def utf8Count (code : Nat) : Nat :=
  if code < 0x80 then 1 else if code < 0x800 then 2 else if code < 0x10000 then 3 else 4

def continuation (code : Nat) : Nat → Text
  | 0 => []
  | shift + 1 => UInt8.ofNat (0x80 ||| (code >>> (6 * shift) &&& 0x3f)) :: continuation code shift

def utf8 (code : Nat) : Text :=
  let count := utf8Count code
  if count = 1 then [UInt8.ofNat code]
  else
    let mark := if count = 2 then 0xc0 else if count = 3 then 0xe0 else 0xf0
    UInt8.ofNat (mark ||| code >>> (6 * (count - 1))) :: continuation code (count - 1)

def putCode (p : Pointer) (held : Text) (code : Nat) : Checked DecodeRound := do
  if code = 0 then return .inr .absent else put p held (utf8 code)

def decodeLow (p : Pointer) (held : Text) (high : Nat) : Checked DecodeRound := do
  let length ← p.strlen
  if length < 6 then return .inr .absent
  else
    let c ← p.load
    let d ← p.next.load
    if c ≠ backslash ∨ d ≠ letterU then return .inr .absent
    else
      match ← hex4 (p.forward 2) with
      | none => return .inr .absent
      | some low =>
        if low < 0xdc00 ∨ 0xdfff < low then return .inr .absent
        else putCode (p.forward 6) held (0x10000 + (high - 0xd800) * 2 ^ 10 + (low - 0xdc00))

/-- What follows `\u`. -/
def decodeUnicode (p : Pointer) (held : Text) : Checked DecodeRound := do
  let length ← p.strlen
  if length < 4 then return .inr .absent
  else
    match ← hex4 p with
    | none => return .inr .absent
    | some high =>
      if 0xd800 ≤ high ∧ high ≤ 0xdbff then decodeLow (p.forward 4) held high
      else if 0xdc00 ≤ high ∧ high ≤ 0xdfff then return .inr .absent
      else putCode (p.forward 4) held high

def unescaped (c : UInt8) : Option UInt8 :=
  if c = quote ∨ c = backslash ∨ c = slash then some c
  else if c = 98 then some 8
  else if c = 102 then some 12
  else if c = 110 then some newline
  else if c = 114 then some carriageReturn
  else if c = 116 then some tab
  else none

def decodeBody (escaped : Bool) (state : Pointer × Text) : Checked DecodeRound := do
  let c ← state.1.load
  if c = 0 ∨ c = quote then return .inr (.text state.1 state.2)
  else if escaped ∧ c = backslash then
    let (c, p) ← state.1.next.fetch
    if c = letterU then decodeUnicode p state.2
    else
      match unescaped c with
      | none => return .inr .absent
      | some c => put p state.2 [c]
  else put state.1.next state.2 [c]

def finish (held : Text) : Checked (Option Found) := do
  let _ ← store filePathMax held [0]
  return some ⟨held, false⟩

def readString (escaped : Bool) (p : Pointer) : Checked (Option Found) := do
  match ← loop (decodeBody escaped) (p.rest.length + 1) (p, []) with
  | .absent => return none
  | .tooLong => return some ⟨[], true⟩
  | .text p held =>
    let c ← p.load
    if c ≠ quote then return none else finish held

def literalBody (state : Pointer × Text) : Checked ((Pointer × Text) ⊕ Option Text) := do
  let c ← state.1.load
  if c = 0 ∨ c = comma ∨ c = newline ∨ c = closeBrace then return .inr (some state.2)
  else if state.2.length + 1 ≥ filePathMax then return .inr none
  else
    let held ← store filePathMax state.2 [c]
    return .inl (state.1.next, held)

def isTrail (c : UInt8) : Bool := isBlank c || c == carriageReturn

def readLiteral (p : Pointer) : Checked (Option Found) := do
  match ← loop literalBody (p.rest.length + 1) (p, []) with
  | none => return none
  | some held => finish (held.reverse.dropWhile isTrail).reverse

def versionKey : Text := ascii "settings_format_version"

/-- From version 2 on the strings are escaped. -/
def escapes : Option Pointer → Bool
  | none => false
  | some p => 2 ≤ atoi p.rest

def readValue (escaped : Bool) (p : Pointer) : Checked (Option Found) := do
  let c ← p.load
  if c = quote then readString escaped p.next else readLiteral p

def findValue (content key : Text) : Checked (Option Found) := do
  let version ← valueStart versionKey true (inside content)
  let escaped := escapes version
  match ← valueStart key escaped (inside content) with
  | none => return none
  | some p => readValue escaped p

/-! No lookup reads behind the terminator or writes behind the buffer, and each one ends. -/

def Within (text : Text) (p : Pointer) : Prop := ∃ rest, p = inside rest ∧ rest.length ≤ text.length

theorem scan_within (test : UInt8 → Bool) (stops : test 0 = false) (text : Text) :
    ∃ p, scan test (inside text) = .ok p ∧ Within text p :=
  ⟨_, scan_inside stops text, _, rfl, List.length_dropWhile_le test text⟩

theorem hexDigits_ok (n value : Nat) (text : Text) :
    ∃ r, hexDigits n value (inside text) = .ok r := by
  induction n generalizing value text with
  | zero => exact ⟨_, rfl⟩
  | succ n ih =>
    cases text with
    | nil => exact ⟨none, rfl⟩
    | cons c text =>
      simp only [hexDigits, Pointer.load, ok_bind, pure_eq_ok]
      cases hexValue c with
      | none => exact ⟨none, rfl⟩
      | some digit => exact ih _ _

theorem forward_inside {n : Nat} {text : Text} (short : n ≤ text.length) :
    (inside text).forward n = inside (text.drop n) := by
  induction n generalizing text with
  | zero => rfl
  | succ n ih =>
    cases text with
    | nil => exact absurd short (Nat.not_succ_le_zero n)
    | cons c text =>
      rw [List.length_cons] at short
      exact ih (Nat.le_of_succ_le_succ short)

theorem skipString_ok (escaped : Bool) (text : Text) :
    ∃ p, skipString escaped (inside text) = .ok p ∧ Within text p := by
  refine loop_of_measure (fun p => p.rest.length) (Within text) ?_
    ⟨text, rfl, Nat.le_refl _⟩ (Nat.lt_succ_self _)
  rintro - ⟨rest, rfl, short⟩
  cases rest with
  | nil => exact .inr ⟨inside [], rfl, [], rfl, short⟩
  | cons c rest =>
    rw [List.length_cons] at short
    simp only [skipBody, Pointer.load, ok_bind, pure_eq_ok]
    split
    · exact .inr ⟨_, rfl, _, rfl, short⟩
    split
    · cases rest with
      | nil => exact .inl ⟨_, rfl, ⟨[], rfl, by omega⟩, Nat.lt_succ_self _⟩
      | cons d rest =>
        rw [List.length_cons] at short
        by_cases last : d = 0
        · refine .inl ⟨inside (d :: rest), ?_, ⟨_, rfl, ?_⟩, Nat.lt_succ_self _⟩
          · rw [last]
            rfl
          · rw [List.length_cons]
            omega
        · refine .inl ⟨inside rest, ?_, ⟨_, rfl, by omega⟩, ?_⟩
          · show Except.ok (Sum.inl (if d = 0 then _ else _)) = _
            rw [if_neg last]
            rfl
          · show rest.length < (c :: d :: rest).length
            rw [List.length_cons, List.length_cons]
            omega
    · exact .inl ⟨_, rfl, ⟨_, rfl, by omega⟩, Nat.lt_succ_self _⟩

theorem skipQuoted_ok (escaped : Bool) (text : Text) :
    ∃ r, skipQuoted escaped (inside text) = .ok r ∧ ∀ p, r = some p → Within text p := by
  cases text with
  | nil =>
    exact ⟨some (inside []), rfl, fun p same => Option.some.inj same ▸ ⟨[], rfl, Nat.le_refl _⟩⟩
  | cons c text =>
    simp only [skipQuoted, Pointer.load, ok_bind]
    split
    · obtain ⟨-, ran, rest, rfl, short⟩ := skipString_ok escaped text
      have longer : rest.length ≤ (c :: text).length := Nat.le_succ_of_le short
      simp only [Pointer.next, ran, ok_bind]
      cases rest with
      | nil => exact ⟨none, rfl, nofun⟩
      | cons d rest =>
        simp only [ok_bind, pure_eq_ok]
        refine ⟨_, rfl, ?_⟩
        intro p same
        split at same
        · cases same
        · cases same
          exact ⟨rest, rfl, Nat.le_of_succ_le longer⟩
    · exact ⟨_, rfl, fun p same => Option.some.inj same ▸ ⟨_, rfl, Nat.le_refl _⟩⟩

theorem load_inside (text : Text) : ∃ c, (inside text).load = .ok c ∧ (c ≠ 0 → text ≠ []) := by
  cases text with
  | nil => exact ⟨0, rfl, fun other => absurd rfl other⟩
  | cons c text => exact ⟨c, rfl, fun _ => List.cons_ne_nil c text⟩

theorem skipValue_ok (escaped : Bool) (text : Text) :
    ∃ r, skipValue escaped (inside text) = .ok r ∧ ∀ p, r = some p → Within text p := by
  obtain ⟨quoted, ran, within⟩ := skipQuoted_ok escaped text
  simp only [skipValue, ran, ok_bind]
  cases quoted with
  | none => exact ⟨none, rfl, nofun⟩
  | some p =>
    obtain ⟨rest, rfl, short⟩ := within p rfl
    obtain ⟨-, scanned, last, rfl, shorter⟩ :=
      scan_within (fun c => c != 0 && c != comma && c != closeBrace) (by decide) rest
    obtain ⟨c, loaded, -⟩ := load_inside last
    simp only [scanned, loaded, ok_bind, pure_eq_ok]
    refine ⟨_, rfl, ?_⟩
    intro p same
    split at same
    · cases same
    · cases same
      exact ⟨last, rfl, le_trans shorter short⟩

def Proceeds (text : Text) : Pointer ⊕ Option Pointer → Prop
  | .inl p => Within text p
  | .inr none => True
  | .inr (some p) => Within text p

theorem readMember_ok (key : Text) (escaped : Bool) (text : Text) :
    ∃ r, readMember key escaped (inside text) = .ok r ∧ Proceeds text r := by
  obtain ⟨-, scanned, stop, rfl, short⟩ :=
    scan_within (fun c => c != 0 && c != quote) (by decide) text
  simp only [readMember, scanned, ok_bind]
  cases stop with
  | nil => exact ⟨.inr none, rfl, trivial⟩
  | cons c stop =>
    rw [List.length_cons] at short
    simp only [Pointer.load, ok_bind]
    split
    · exact ⟨.inr none, rfl, trivial⟩
    obtain ⟨-, blanks, sign, rfl, shorter⟩ := scan_within isBlank (by decide) stop
    simp only [Pointer.next, blanks, ok_bind]
    cases sign with
    | nil => exact ⟨.inr none, rfl, trivial⟩
    | cons d sign =>
      rw [List.length_cons] at shorter
      simp only [Pointer.fetch, Pointer.load, Pointer.next, ok_bind, pure_eq_ok]
      split
      · exact ⟨.inr none, rfl, trivial⟩
      obtain ⟨-, whites, value, rfl, less⟩ := scan_within isWhite (by decide) sign
      simp only [whites, ok_bind]
      split
      · exact ⟨_, rfl, value, rfl, by omega⟩
      obtain ⟨skipped, ran, within⟩ := skipValue_ok escaped value
      simp only [ran, ok_bind]
      cases skipped with
      | none => exact ⟨.inr none, rfl, trivial⟩
      | some p =>
        obtain ⟨last, rfl, least⟩ := within p rfl
        exact ⟨_, rfl, last, rfl, by omega⟩

theorem startBody_ok (key : Text) (escaped : Bool) (text : Text) :
    (∃ rest, startBody key escaped (inside text) = .ok (.inl (inside rest)) ∧
        rest.length < text.length) ∨
      ∃ r, startBody key escaped (inside text) = .ok (.inr r) ∧
        ∀ p, r = some p → Within text p := by
  have stop : ∃ r, (Except.ok (.inr none) : Checked (Pointer ⊕ Option Pointer)) = .ok (.inr r) ∧
      ∀ p, r = some p → Within text p := ⟨none, rfl, nofun⟩
  obtain ⟨c, loaded, -⟩ := load_inside text
  obtain ⟨-, gaps, name, rfl, short⟩ := scan_within isGap (by decide) text
  simp only [startBody, loaded, ok_bind, gaps, pure_eq_ok]
  split
  · exact .inr stop
  cases name with
  | nil => exact .inr stop
  | cons d name =>
    rw [List.length_cons] at short
    simp only [Pointer.fetch, Pointer.load, Pointer.next, ok_bind, pure_eq_ok]
    split
    · exact .inr stop
    obtain ⟨r, ran, proceeds⟩ := readMember_ok key escaped name
    rw [ran]
    cases r with
    | inl p =>
      obtain ⟨rest, rfl, less⟩ := proceeds
      exact .inl ⟨rest, rfl, by omega⟩
    | inr found =>
      refine .inr ⟨found, rfl, ?_⟩
      rintro p rfl
      obtain ⟨rest, rfl, less⟩ := proceeds
      exact ⟨rest, rfl, by omega⟩

theorem valueStart_ok (key : Text) (escaped : Bool) (text : Text) :
    ∃ r, valueStart key escaped (inside text) = .ok r ∧ ∀ p, r = some p → Within text p := by
  refine loop_of_measure (fun p => p.rest.length) (Within text) ?_
    ⟨text, rfl, Nat.le_refl _⟩ (Nat.lt_succ_self _)
  rintro - ⟨rest, rfl, short⟩
  rcases startBody_ok key escaped rest with ⟨next, ran, less⟩ | ⟨r, ran, within⟩
  · exact .inl ⟨_, ran, ⟨next, rfl, by omega⟩, less⟩
  · refine .inr ⟨r, ran, ?_⟩
    intro p same
    obtain ⟨last, rfl, least⟩ := within p same
    exact ⟨last, rfl, by omega⟩

/-- A round of the decoder goes on with less text and a value that leaves room for its
terminator, or ends. -/
def Decodes (text : Text) : DecodeRound → Prop
  | .inl (p, held) => (∃ rest, p = inside rest ∧ rest.length < text.length) ∧
      held.length < filePathMax
  | .inr (.text p held) => Within text p ∧ held.length < filePathMax
  | .inr _ => True

theorem put_ok {text rest held : Text} (shorter : rest.length < text.length) (bytes : Text) :
    ∃ r, put (inside rest) held bytes = .ok r ∧ Decodes text r := by
  rw [put]
  split
  · exact ⟨_, rfl, trivial⟩
  · rename_i room
    have fits : held.length + bytes.length ≤ filePathMax := by omega
    rw [store, if_pos fits]
    refine ⟨_, rfl, ⟨rest, rfl, shorter⟩, ?_⟩
    rw [List.length_append]
    omega

theorem putCode_ok {text rest held : Text} (shorter : rest.length < text.length) (code : Nat) :
    ∃ r, putCode (inside rest) held code = .ok r ∧ Decodes text r := by
  rw [putCode]
  split
  · exact ⟨_, rfl, trivial⟩
  · exact put_ok shorter _

theorem decodeLow_ok {text rest held : Text} (shorter : rest.length < text.length) (high : Nat) :
    ∃ r, decodeLow (inside rest) held high = .ok r ∧ Decodes text r := by
  simp only [decodeLow, Pointer.strlen, ok_bind, pure_eq_ok]
  split
  · exact ⟨_, rfl, trivial⟩
  rename_i long
  rw [not_lt] at long
  match rest, long with
  | c :: d :: more, long =>
    simp only [Pointer.load, Pointer.next, ok_bind]
    split
    · exact ⟨_, rfl, trivial⟩
    have two : (inside (c :: d :: more)).forward 2 = inside more := rfl
    have six : (inside (c :: d :: more)).forward 6 = inside (more.drop 4) := by
      rw [forward_inside long]
      rfl
    obtain ⟨low, read⟩ := hexDigits_ok 4 0 more
    rw [two, six, hex4, read, ok_bind]
    cases low with
    | none => exact ⟨_, rfl, trivial⟩
    | some low =>
      dsimp only
      split
      · exact ⟨_, rfl, trivial⟩
      · refine putCode_ok (lt_of_le_of_lt ?_ shorter) _
        rw [List.length_drop, List.length_cons, List.length_cons]
        omega

theorem decodeUnicode_ok {text rest held : Text} (shorter : rest.length < text.length) :
    ∃ r, decodeUnicode (inside rest) held = .ok r ∧ Decodes text r := by
  simp only [decodeUnicode, Pointer.strlen, ok_bind, pure_eq_ok]
  split
  · exact ⟨_, rfl, trivial⟩
  rename_i long
  rw [not_lt] at long
  obtain ⟨high, read⟩ := hexDigits_ok 4 0 rest
  have less : (rest.drop 4).length < text.length := by
    rw [List.length_drop]
    omega
  rw [hex4, read, ok_bind, forward_inside long]
  cases high with
  | none => exact ⟨_, rfl, trivial⟩
  | some high =>
    dsimp only
    split
    · exact decodeLow_ok less high
    split
    · exact ⟨_, rfl, trivial⟩
    · exact putCode_ok less high

theorem decodeBody_ok (escaped : Bool) (text : Text) {held : Text}
    (room : held.length < filePathMax) :
    ∃ r, decodeBody escaped (inside text, held) = .ok r ∧ Decodes text r := by
  cases text with
  | nil => exact ⟨.inr (.text (inside []) held), rfl, ⟨[], rfl, Nat.le_refl _⟩, room⟩
  | cons c text =>
    simp only [decodeBody, Pointer.load, Pointer.next, ok_bind, pure_eq_ok]
    split
    · exact ⟨_, rfl, ⟨_, rfl, Nat.le_refl _⟩, room⟩
    split
    · cases text with
      | nil => exact ⟨.inr .absent, rfl, trivial⟩
      | cons d text =>
        have less : text.length < (c :: d :: text).length := by
          rw [List.length_cons, List.length_cons]
          omega
        simp only [Pointer.fetch, Pointer.load, Pointer.next, ok_bind, pure_eq_ok]
        split
        · exact decodeUnicode_ok less
        cases unescaped d with
        | none => exact ⟨_, rfl, trivial⟩
        | some e => exact put_ok less _
    · exact put_ok (Nat.lt_succ_self _) _

theorem finish_ok {held : Text} (room : held.length < filePathMax) :
    finish held = .ok (some ⟨held, false⟩) := by
  have fits : held.length + [(0 : UInt8)].length ≤ filePathMax := room
  rw [finish, store, if_pos fits]
  rfl

theorem decode_ok (escaped : Bool) (text : Text) :
    ∃ r, loop (decodeBody escaped) (text.length + 1) (inside text, []) = .ok r ∧
      ∀ p held, r = .text p held → Within text p ∧ held.length < filePathMax := by
  refine loop_of_measure (fun state => state.1.rest.length)
    (fun state => Within text state.1 ∧ state.2.length < filePathMax) ?_
    ⟨⟨text, rfl, Nat.le_refl _⟩, show 0 < filePathMax by decide⟩ (Nat.lt_succ_self _)
  rintro ⟨-, held⟩ ⟨⟨rest, rfl, short⟩, room⟩
  obtain ⟨r, ran, decodes⟩ := decodeBody_ok escaped rest room
  cases r with
  | inl state =>
    obtain ⟨p, more⟩ := state
    obtain ⟨⟨last, rfl, less⟩, fits⟩ := decodes
    exact .inl ⟨_, ran, ⟨⟨last, rfl, by omega⟩, fits⟩, less⟩
  | inr decoded =>
    refine .inr ⟨decoded, ran, ?_⟩
    rintro p more rfl
    obtain ⟨⟨last, rfl, least⟩, fits⟩ := decodes
    exact ⟨⟨last, rfl, by omega⟩, fits⟩

/-- A value that was found fits into its buffer, with the terminator. -/
def Fits (r : Option Found) : Prop := ∀ found, r = some found → found.bytes.length < filePathMax

theorem readString_ok (escaped : Bool) (text : Text) :
    ∃ r, readString escaped (inside text) = .ok r ∧ Fits r := by
  obtain ⟨decoded, ran, within⟩ := decode_ok escaped text
  simp only [readString, Pointer.rest, ran, ok_bind]
  cases decoded with
  | absent => exact ⟨none, rfl, nofun⟩
  | tooLong => exact ⟨some ⟨[], true⟩, rfl, fun found same => Option.some.inj same ▸ by decide⟩
  | text p held =>
    obtain ⟨⟨rest, rfl, -⟩, room⟩ := within p held rfl
    obtain ⟨c, loaded, -⟩ := load_inside rest
    simp only [loaded, ok_bind, finish_ok room, pure_eq_ok]
    split
    · exact ⟨none, rfl, nofun⟩
    · exact ⟨_, rfl, fun found same => Option.some.inj same ▸ room⟩

theorem literal_ok (text : Text) :
    ∃ r, loop literalBody (text.length + 1) (inside text, []) = .ok r ∧
      ∀ held, r = some held → held.length < filePathMax := by
  refine loop_of_measure (fun state => state.1.rest.length)
    (fun state => Within text state.1 ∧ state.2.length < filePathMax) ?_
    ⟨⟨text, rfl, Nat.le_refl _⟩, show 0 < filePathMax by decide⟩ (Nat.lt_succ_self _)
  rintro ⟨-, held⟩ ⟨⟨rest, rfl, short⟩, room⟩
  dsimp only at room
  cases rest with
  | nil => exact .inr ⟨some held, rfl, fun same eq => Option.some.inj eq ▸ room⟩
  | cons c rest =>
    rw [List.length_cons] at short
    simp only [literalBody, Pointer.load, Pointer.next, ok_bind, pure_eq_ok]
    split
    · exact .inr ⟨some held, rfl, fun same eq => Option.some.inj eq ▸ room⟩
    split
    · exact .inr ⟨none, rfl, nofun⟩
    · rename_i more
      have fits : held.length + [c].length ≤ filePathMax := by
        rw [List.length_singleton]
        omega
      refine .inl ⟨(inside rest, held ++ [c]), ?_, ⟨⟨rest, rfl, by omega⟩, ?_⟩, Nat.lt_succ_self _⟩
      · rw [store, if_pos fits]
        rfl
      · show (held ++ [c]).length < filePathMax
        rw [List.length_append, List.length_singleton]
        omega

theorem readLiteral_ok (text : Text) : ∃ r, readLiteral (inside text) = .ok r ∧ Fits r := by
  obtain ⟨held, ran, short⟩ := literal_ok text
  simp only [readLiteral, Pointer.rest, ran, ok_bind]
  cases held with
  | none => exact ⟨none, rfl, nofun⟩
  | some held =>
    have less : ((held.reverse.dropWhile isTrail).reverse).length < filePathMax := by
      have dropped := List.length_dropWhile_le isTrail held.reverse
      have room := short held rfl
      rw [List.length_reverse] at dropped ⊢
      omega
    exact ⟨_, finish_ok less, fun found same => Option.some.inj same ▸ less⟩

theorem readValue_ok (escaped : Bool) (text : Text) :
    ∃ r, readValue escaped (inside text) = .ok r ∧ Fits r := by
  cases text with
  | nil => exact readLiteral_ok []
  | cons c text =>
    simp only [readValue, Pointer.load, Pointer.next, ok_bind]
    split
    · exact readString_ok escaped text
    · exact readLiteral_ok _

theorem findValue_ok (content key : Text) : ∃ r, findValue content key = .ok r ∧ Fits r := by
  obtain ⟨version, first, -⟩ := valueStart_ok versionKey true content
  obtain ⟨start, second, within⟩ := valueStart_ok key (escapes version) content
  simp only [findValue, first, second, ok_bind]
  cases start with
  | none => exact ⟨none, rfl, nofun⟩
  | some p =>
    obtain ⟨rest, rfl, -⟩ := within p rfl
    exact readValue_ok (escapes version) rest

end MisrcGui.Settings.ValueText
