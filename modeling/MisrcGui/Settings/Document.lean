import MisrcGui.Settings.ValueText

/-! The settings file as a list of keys with their values, and what a lookup finds in it. -/
namespace MisrcGui.Settings.Document
open Library.NumberText Library.Percent Library.Terminated ValueText
open Library.Terminated.Pointer (inside)

def lowerHex (n : Nat) : UInt8 := UInt8.ofNat (if n < 10 then 48 + n else 87 + n)

/-- `\u%04x` of a byte. -/
def unicodeEscape (c : UInt8) : Text :=
  [backslash, letterU, zero, zero, lowerHex (c.toNat / 16), lowerHex (c.toNat % 16)]

def escapeByte (c : UInt8) : Text :=
  if c = quote ∨ c = backslash then [backslash, c]
  else if c < 0x20 then unicodeEscape c
  else [c]

def escape (value : Text) : Text := value.flatMap escapeByte

/-- A value as `gui_settings_write_string` writes it, or as `fprintf` does. -/
inductive Written where
  | string (bytes : Text)
  | literal (text : Text)

def Written.text : Written → Text
  | .string bytes => quote :: (escape bytes ++ [quote])
  | .literal text => text

def Written.bytes : Written → Text
  | .string bytes => bytes
  | .literal text => text

structure Member where
  key : Text
  written : Written

def Member.front (m : Member) : Text := ascii "  \"" ++ m.key ++ ascii "\": "

def Member.line (m : Member) (comma : Bool) : Text :=
  m.front ++ m.written.text ++ ascii (if comma then ",\n" else "\n")

def membersText : List Member → Text
  | [] => []
  | [m] => m.line false
  | m :: rest => m.line true ++ membersText rest

def document (members : List Member) : Text :=
  ascii "\x7b\n" ++ membersText members ++ ascii "\x7d\n"

/-- A byte of a literal, which ends neither the value nor the file. -/
def plainByte (c : UInt8) : Bool :=
  c != 0 && c != comma && c != closeBrace && c != quote && !isWhite c

def Written.Sound : Written → Prop
  | .string bytes => 0 ∉ bytes ∧ bytes.length < filePathMax
  | .literal text => text ≠ [] ∧ text.all plainByte ∧ text.length < filePathMax

structure Member.Sound (m : Member) : Prop where
  key : m.key.all fun c => c != 0 && c != quote
  written : m.written.Sound

theorem skip_plain {c : UInt8} (other : c ≠ 0) (inner : c ≠ quote) (raw : c ≠ backslash)
    (rest : Text) : skipBody true (inside (c :: rest)) = .ok (.inl (inside rest)) := by
  simp only [skipBody, Pointer.load, ok_bind, pure_eq_ok]
  rw [if_neg (by simp [other, inner]), if_neg (by simp [raw])]
  rfl

theorem skip_escape {c : UInt8} (other : c ≠ 0) (rest : Text) :
    skipBody true (inside (backslash :: c :: rest)) = .ok (.inl (inside rest)) := by
  simp only [skipBody, Pointer.load, Pointer.next, ok_bind, pure_eq_ok]
  rw [if_neg (by decide), if_pos (by decide), if_neg other]

theorem lowerHex_plain :
    ∀ n < 16, lowerHex n ≠ 0 ∧ lowerHex n ≠ quote ∧ lowerHex n ≠ backslash := by
  decide

theorem hexValue_lowerHex : ∀ n < 16, hexValue (lowerHex n) = some n := by
  decide

theorem nibbles (c : UInt8) : c.toNat / 16 < 16 ∧ c.toNat % 16 < 16 := by
  have := c.toNat_lt
  omega

theorem skip_ends {value : Text} (clean : 0 ∉ value) (rest : Text) :
    Ends (skipBody true) (inside (escape value ++ quote :: rest)) (inside (quote :: rest)) := by
  induction value with
  | nil => exact .stop rfl
  | cons c value ih =>
    rw [List.mem_cons, not_or] at clean
    have later := ih clean.2
    have other : c ≠ 0 := Ne.symm clean.1
    rw [escape, List.flatMap_cons, List.append_assoc, escapeByte]
    split
    · exact .step (skip_escape other _) later
    rename_i ordinary
    rw [not_or] at ordinary
    split
    · obtain ⟨high, low⟩ := nibbles c
      have plain (n : Nat) (small : n < 16) (rest : Text) :
          skipBody true (inside (lowerHex n :: rest)) = .ok (.inl (inside rest)) :=
        skip_plain (lowerHex_plain n small).1 (lowerHex_plain n small).2.1
          (lowerHex_plain n small).2.2 rest
      refine .step (skip_escape (by decide) _) ?_
      refine .step (skip_plain (by decide) (by decide) (by decide) _) ?_
      refine .step (skip_plain (by decide) (by decide) (by decide) _) ?_
      exact .step (plain _ high _) (.step (plain _ low _) later)
    · exact .step (skip_plain other ordinary.1 ordinary.2 _) later

theorem skipString_escape {value : Text} (clean : 0 ∉ value) (rest : Text) :
    skipString true (inside (escape value ++ quote :: rest)) = .ok (inside (quote :: rest)) := by
  refine loop_eq_of_ends (skip_ends clean rest) ?_
  obtain ⟨p, ran, -⟩ := skipString_ok true (escape value ++ quote :: rest)
  exact ⟨p, ran⟩

theorem put_room {p : Pointer} {held : Text} {c : UInt8} (room : held.length + 1 < filePathMax) :
    put p held [c] = .ok (.inl (p, held ++ [c])) := by
  have fits : held.length + [c].length ≤ filePathMax := Nat.le_of_lt room
  have spare : ¬ held.length + [c].length ≥ filePathMax := Nat.not_le.mpr room
  rw [put, if_neg spare, store, if_pos fits]
  rfl

theorem utf8_ascii {c : UInt8} (control : c < 0x20) : utf8 c.toNat = [c] := by
  have small : c.toNat < 32 := control
  have one : utf8Count c.toNat = 1 := if_pos (by omega)
  rw [utf8, one, if_pos rfl, UInt8.ofNat_toNat]

theorem hex4_unicodeEscape (c : UInt8) (rest : Text) :
    hex4 (inside (zero :: zero :: lowerHex (c.toNat / 16) :: lowerHex (c.toNat % 16) :: rest)) =
      .ok (some c.toNat) := by
  obtain ⟨high, low⟩ := nibbles c
  have digit : hexValue zero = some 0 := by decide
  have whole : 16 * (16 * (16 * (16 * 0 + 0) + 0) + c.toNat / 16) + c.toNat % 16 = c.toNat := by
    omega
  simp only [hex4, hexDigits, Pointer.load, Pointer.next, ok_bind, digit,
    hexValue_lowerHex _ high, hexValue_lowerHex _ low, whole]

theorem decode_control {c : UInt8} {held : Text} (control : c < 0x20) (other : c ≠ 0)
    (room : held.length + 1 < filePathMax) (rest : Text) :
    decodeBody true (inside (unicodeEscape c ++ rest), held) =
      .ok (.inl (inside rest, held ++ [c])) := by
  have small : c.toNat < 32 := control
  have nonzero : c.toNat ≠ 0 := fun none => other (UInt8.toNat_inj.mp none)
  have enough : ¬ (zero :: zero :: lowerHex (c.toNat / 16) :: lowerHex (c.toNat % 16) ::
      rest).length < 4 := by
    simp only [List.length_cons]
    omega
  have unicode : decodeUnicode (inside (zero :: zero :: lowerHex (c.toNat / 16) ::
      lowerHex (c.toNat % 16) :: rest)) held = .ok (.inl (inside rest, held ++ [c])) := by
    simp only [decodeUnicode, Pointer.strlen, ok_bind]
    rw [if_neg enough, hex4_unicodeEscape, ok_bind]
    dsimp only
    rw [if_neg (by omega), if_neg (by omega), putCode, if_neg nonzero, utf8_ascii control]
    exact put_room room
  exact unicode

theorem decode_escape {c : UInt8} {held : Text} (special : c = quote ∨ c = backslash)
    (room : held.length + 1 < filePathMax) (rest : Text) :
    decodeBody true (inside (backslash :: c :: rest), held) =
      .ok (.inl (inside rest, held ++ [c])) := by
  rcases special with rfl | rfl
  · exact put_room room
  · exact put_room room

theorem decode_plain {c : UInt8} {held : Text} (other : c ≠ 0) (inner : c ≠ quote)
    (raw : c ≠ backslash) (room : held.length + 1 < filePathMax) (rest : Text) :
    decodeBody true (inside (c :: rest), held) = .ok (.inl (inside rest, held ++ [c])) := by
  simp only [decodeBody, Pointer.load, Pointer.next, ok_bind]
  rw [if_neg (by simp [other, inner]), if_neg (by simp [raw])]
  exact put_room room

theorem decode_ends {value held : Text} (clean : 0 ∉ value)
    (room : held.length + value.length < filePathMax) (rest : Text) :
    Ends (decodeBody true) (inside (escape value ++ quote :: rest), held)
      (.text (inside (quote :: rest)) (held ++ value)) := by
  induction value generalizing held with
  | nil =>
    rw [List.append_nil]
    exact .stop rfl
  | cons c value ih =>
    rw [List.mem_cons, not_or] at clean
    rw [List.length_cons] at room
    have other : c ≠ 0 := Ne.symm clean.1
    have one : held.length + 1 < filePathMax := by omega
    have whole : held ++ c :: value = held ++ [c] ++ value := List.append_cons held c value
    have more : (held ++ [c]).length + value.length < filePathMax := by
      rw [List.length_append, List.length_singleton]
      omega
    have later := ih clean.2 more
    rw [whole, escape, List.flatMap_cons, List.append_assoc, escapeByte]
    split
    · rename_i special
      exact .step (decode_escape special one _) later
    rename_i ordinary
    rw [not_or] at ordinary
    split
    · rename_i control
      exact .step (decode_control control other one _) later
    · exact .step (decode_plain other ordinary.1 ordinary.2 one _) later

theorem readString_escape {value : Text} (clean : 0 ∉ value) (short : value.length < filePathMax)
    (rest : Text) :
    readString true (inside (escape value ++ quote :: rest)) = .ok (some ⟨value, false⟩) := by
  have ran : loop (decodeBody true) ((escape value ++ quote :: rest).length + 1)
      (inside (escape value ++ quote :: rest), []) =
        .ok (.text (inside (quote :: rest)) value) := by
    have room : ([] : Text).length + value.length < filePathMax := by
      rw [List.length_nil, Nat.zero_add]
      exact short
    refine loop_eq_of_ends (decode_ends clean room rest) ?_
    obtain ⟨r, ended, -⟩ := decode_ok true (escape value ++ quote :: rest)
    exact ⟨r, ended⟩
  simp only [readString, Pointer.rest, ran, ok_bind, Pointer.load]
  rw [if_neg (fun differ => differ rfl)]
  exact finish_ok short

def Follows (rest : Text) : Prop := ∃ c more, rest = c :: more ∧ (c = comma ∨ c = newline)

theorem plainByte_spec {c : UInt8} (plain : plainByte c) :
    c ≠ 0 ∧ c ≠ comma ∧ c ≠ closeBrace ∧ c ≠ quote ∧ isWhite c = false := by
  simpa [plainByte, and_assoc] using plain

theorem plain_head {c : UInt8} {text : Text} (plain : (c :: text).all plainByte) : plainByte c :=
  List.all_eq_true.mp plain c List.mem_cons_self

theorem not_newline_of_plain {c : UInt8} (plain : plainByte c) : c ≠ newline := by
  rintro rfl
  exact absurd plain (by decide)

theorem literal_ends {text held rest : Text} (plain : text.all plainByte)
    (room : held.length + text.length < filePathMax) (follows : Follows rest) :
    Ends literalBody (inside (text ++ rest), held) (some (held ++ text)) := by
  induction text generalizing held with
  | nil =>
    obtain ⟨c, more, rfl, stop⟩ := follows
    rw [List.append_nil]
    refine .stop ?_
    simp only [literalBody, List.nil_append, Pointer.load, ok_bind]
    rw [if_pos (by tauto)]
    rfl
  | cons c text ih =>
    rw [List.length_cons] at room
    rw [List.all_cons, Bool.and_eq_true] at plain
    have here : plainByte c := plain.1
    obtain ⟨other, noComma, noBrace, -, -⟩ := plainByte_spec here
    have fits : held.length + [c].length ≤ filePathMax := by
      rw [List.length_singleton]
      omega
    have whole : held ++ c :: text = held ++ [c] ++ text := List.append_cons held c text
    rw [whole]
    have later : (held ++ [c]).length + text.length < filePathMax := by
      rw [List.length_append, List.length_singleton]
      omega
    refine .step ?_ (ih plain.2 later)
    simp only [literalBody, List.cons_append, Pointer.load, Pointer.next, ok_bind]
    rw [if_neg (by simp [other, noComma, noBrace, not_newline_of_plain here]), if_neg (by omega),
      store, if_pos fits]
    rfl

theorem trim_plain {text : Text} (plain : text.all plainByte) :
    (text.reverse.dropWhile isTrail).reverse = text := by
  have kept : text.reverse.dropWhile isTrail = text.reverse := by
    cases shape : text.reverse with
    | nil => rfl
    | cons c rest =>
      have listed : c ∈ text := List.mem_reverse.mp (shape ▸ List.mem_cons_self)
      have white := (plainByte_spec (List.all_eq_true.mp plain c listed)).2.2.2.2
      have trail : isTrail c = false := by
        simp only [isWhite, Bool.or_eq_false_iff] at white
        rw [isTrail, white.1.1, white.1.2]
        rfl
      rw [List.dropWhile_cons_of_neg (by rw [trail]; exact Bool.false_ne_true)]
  rw [kept, List.reverse_reverse]

theorem readLiteral_plain {text rest : Text} (plain : text.all plainByte)
    (short : text.length < filePathMax) (follows : Follows rest) :
    readLiteral (inside (text ++ rest)) = .ok (some ⟨text, false⟩) := by
  have room : ([] : Text).length + text.length < filePathMax := by
    rw [List.length_nil, Nat.zero_add]
    exact short
  have ran : loop literalBody ((text ++ rest).length + 1) (inside (text ++ rest), []) =
      .ok (some text) := by
    refine loop_eq_of_ends (literal_ends plain room follows) ?_
    obtain ⟨r, ended, -⟩ := literal_ok (text ++ rest)
    exact ⟨r, ended⟩
  simp only [readLiteral, Pointer.rest, ran, ok_bind, trim_plain plain]
  exact finish_ok short

def after : List Member → Text
  | [] => ascii "\n\x7d\n"
  | m :: rest => ascii ",\n" ++ (m.front ++ (m.written.text ++ after rest))

theorem document_cons (m : Member) (rest : List Member) :
    document (m :: rest) = ascii "\x7b\n" ++ (m.front ++ (m.written.text ++ after rest)) := by
  have lines : membersText (m :: rest) ++ ascii "\x7d\n" =
      m.front ++ (m.written.text ++ after rest) := by
    induction rest generalizing m with
    | nil =>
      rw [membersText, Member.line, List.append_assoc, List.append_assoc]
      rfl
    | cons next rest ih =>
      rw [membersText, List.append_assoc, ih, Member.line, List.append_assoc, List.append_assoc]
      · rfl
      · exact List.cons_ne_nil next rest
  rw [document, List.append_assoc, lines]

theorem after_follows (rest : List Member) : Follows (after rest) := by
  cases rest with
  | nil => exact ⟨newline, _, rfl, .inr rfl⟩
  | cons m rest => exact ⟨comma, _, rfl, .inl rfl⟩

theorem head_sound {written : Written} (sound : written.Sound) :
    ∃ c rest, written.text = c :: rest ∧ isWhite c = false := by
  cases written with
  | string bytes => exact ⟨quote, _, rfl, by decide⟩
  | literal text =>
    obtain ⟨filled, plain, -⟩ := sound
    cases text with
    | nil => exact absurd rfl filled
    | cons c rest => exact ⟨c, rest, rfl, (plainByte_spec (plain_head plain)).2.2.2.2⟩

theorem readValue_sound {written : Written} (sound : written.Sound) {rest : Text}
    (follows : Follows rest) :
    readValue true (inside (written.text ++ rest)) = .ok (some ⟨written.bytes, false⟩) := by
  cases written with
  | string bytes =>
    have shape : (Written.string bytes).text ++ rest =
        quote :: (escape bytes ++ quote :: rest) := by
      simp only [Written.text, List.cons_append, List.append_assoc, List.nil_append]
    rw [shape]
    exact readString_escape sound.1 sound.2 rest
  | literal text =>
    obtain ⟨filled, plain, short⟩ := sound
    have read := readLiteral_plain plain short follows
    cases text with
    | nil => exact absurd rfl filled
    | cons c text =>
      have raw : c ≠ quote := (plainByte_spec (plain_head plain)).2.2.2.1
      refine Eq.trans ?_ read
      exact if_neg raw

theorem skipQuoted_sound {written : Written} (sound : written.Sound) (rest : Text) :
    ∃ text : Text, text.all plainByte ∧
      skipQuoted true (inside (written.text ++ rest)) = .ok (some (inside (text ++ rest))) := by
  cases written with
  | string bytes =>
    refine ⟨[], rfl, ?_⟩
    have shape : (Written.string bytes).text ++ rest =
        quote :: (escape bytes ++ quote :: rest) := by
      simp only [Written.text, List.cons_append, List.append_assoc, List.nil_append]
    rw [shape]
    simp only [skipQuoted, Pointer.load, Pointer.next, ok_bind, if_true,
      skipString_escape sound.1 rest, pure_eq_ok]
    rfl
  | literal text =>
    obtain ⟨filled, plain, -⟩ := sound
    refine ⟨text, plain, ?_⟩
    cases text with
    | nil => exact absurd rfl filled
    | cons c text => exact if_neg (plainByte_spec (plain_head plain)).2.2.2.1

theorem skipValue_sound {written : Written} (sound : written.Sound) (rest : List Member) :
    skipValue true (inside (written.text ++ after rest)) =
      .ok (if rest = [] then none else some (inside (after rest))) := by
  obtain ⟨text, plain, quoted⟩ := skipQuoted_sound sound (after rest)
  have passed : ∀ c ∈ text, (c != 0 && c != comma && c != closeBrace) = true := by
    intro c listed
    obtain ⟨other, noComma, noBrace, -⟩ := plainByte_spec (List.all_eq_true.mp plain c listed)
    simp [other, noComma, noBrace]
  have scanned : scan (fun c => c != 0 && c != comma && c != closeBrace)
      (inside (text ++ after rest)) = .ok (inside ((after rest).dropWhile fun c =>
        c != 0 && c != comma && c != closeBrace)) := by
    rw [scan_inside (by decide), List.dropWhile_append_of_pos passed]
  simp only [skipValue, quoted, ok_bind, scanned]
  cases rest with
  | nil => rfl
  | cons m rest => rfl

theorem front_eq (m : Member) :
    m.front = space :: space :: quote :: (m.key ++ [quote, colon, space]) := by
  have opening : ascii "  \"" = [space, space, quote] := by decide
  have closing : ascii "\": " = [quote, colon, space] := by decide
  rw [Member.front, opening, closing]
  rfl

theorem readMember_sound {m : Member} (sound : m.Sound) (key : Text) (rest : List Member) :
    readMember key true
        (inside (m.key ++ quote :: colon :: space :: (m.written.text ++ after rest))) =
      .ok (if m.key = key then .inr (some (inside (m.written.text ++ after rest)))
        else if rest = [] then .inr none else .inl (inside (after rest))) := by
  have named : scan (fun c => c != 0 && c != quote)
      (inside (m.key ++ quote :: colon :: space :: (m.written.text ++ after rest))) =
        .ok (inside (quote :: colon :: space :: (m.written.text ++ after rest))) := by
    rw [scan_inside (by decide), List.dropWhile_append_of_pos (List.all_eq_true.mp sound.key)]
    rfl
  have blanks : scan isBlank (inside (colon :: space :: (m.written.text ++ after rest))) =
      .ok (inside (colon :: space :: (m.written.text ++ after rest))) := by
    rw [scan_inside (by decide)]
    rfl
  have whites : scan isWhite (inside (space :: (m.written.text ++ after rest))) =
      .ok (inside (m.written.text ++ after rest)) := by
    obtain ⟨c, text, shape, dark⟩ := head_sound sound.written
    rw [scan_inside (by decide), List.dropWhile_cons_of_pos (by decide), shape, List.cons_append,
      List.dropWhile_cons_of_neg (by rw [dark]; exact Bool.false_ne_true)]
  simp only [readMember, named, ok_bind, Pointer.load, Pointer.next, blanks, Pointer.fetch,
    whites, upTo_append, pure_eq_ok, skipValue_sound sound.written]
  rw [if_neg (by decide), if_neg (fun differ => differ rfl)]
  by_cases same : m.key = key
  · rw [if_pos same, if_pos same]
  · rw [if_neg same, if_neg same]
    cases rest with
    | nil => rfl
    | cons next rest => rfl

theorem startBody_sound {m : Member} (sound : m.Sound) (key : Text) {gap : Text} (filled : gap ≠ [])
    (gaps : gap.all isGap) (rest : List Member) :
    startBody key true (inside (gap ++ (m.front ++ (m.written.text ++ after rest)))) =
      .ok (if m.key = key then .inr (some (inside (m.written.text ++ after rest)))
        else if rest = [] then .inr none else .inl (inside (after rest))) := by
  have passed : scan isGap (inside (gap ++ (m.front ++ (m.written.text ++ after rest)))) =
      .ok (inside (quote :: (m.key ++ quote :: colon :: space ::
        (m.written.text ++ after rest)))) := by
    rw [scan_inside (by decide), List.dropWhile_append_of_pos (List.all_eq_true.mp gaps), front_eq]
    simp only [List.cons_append, List.append_assoc, List.nil_append]
    rw [List.dropWhile_cons_of_pos (by decide), List.dropWhile_cons_of_pos (by decide),
      List.dropWhile_cons_of_neg (by decide)]
  cases gap with
  | nil => exact absurd rfl filled
  | cons c gap =>
    have other : c ≠ 0 := by
      rintro rfl
      exact absurd (List.all_eq_true.mp gaps 0 List.mem_cons_self) (by decide)
    have loaded : (inside (c :: gap ++ (m.front ++ (m.written.text ++ after rest)))).load = .ok c :=
      rfl
    rw [startBody, loaded, ok_bind, if_neg other, passed]
    simp only [ok_bind, Pointer.fetch, Pointer.load, Pointer.next, pure_eq_ok]
    rw [if_neg (fun differ => differ rfl)]
    exact readMember_sound sound key rest

def locate (key : Text) : List Member → Option Pointer
  | [] => none
  | m :: rest =>
    if m.key = key then some (inside (m.written.text ++ after rest)) else locate key rest

theorem start_ends {m : Member} {rest : List Member} (sound : ∀ other ∈ m :: rest, other.Sound)
    (key : Text) {gap : Text} (filled : gap ≠ []) (gaps : gap.all isGap) :
    Ends (startBody key true) (inside (gap ++ (m.front ++ (m.written.text ++ after rest))))
      (locate key (m :: rest)) := by
  induction rest generalizing m gap with
  | nil =>
    have round := startBody_sound (sound m List.mem_cons_self) key filled gaps []
    refine .stop (round.trans ?_)
    rw [locate, locate]
    split
    · rfl
    · rfl
  | cons next rest ih =>
    have round := startBody_sound (sound m List.mem_cons_self) key filled gaps (next :: rest)
    by_cases same : m.key = key
    · rw [if_pos same] at round
      refine .stop (round.trans ?_)
      rw [locate, if_pos same]
    · rw [if_neg same, if_neg (List.cons_ne_nil next rest)] at round
      rw [locate, if_neg same]
      refine .step round ?_
      exact ih (fun other listed => sound other (List.mem_cons_of_mem m listed)) (by decide)
        (by decide)

theorem valueStart_document {members : List Member} (filled : members ≠ [])
    (sound : ∀ m ∈ members, m.Sound) (key : Text) :
    valueStart key true (inside (document members)) = .ok (locate key members) := by
  cases members with
  | nil => exact absurd rfl filled
  | cons m rest =>
    obtain ⟨r, ran, -⟩ := valueStart_ok key true (document (m :: rest))
    refine loop_eq_of_ends ?_ ⟨r, ran⟩
    rw [document_cons]
    exact start_ends sound key (by decide) (by decide)

theorem locate_eq (key : Text) (members : List Member) :
    locate key members = none ∧ members.find? (fun m => m.key = key) = none ∨
      ∃ m rest, locate key members = some (inside (m.written.text ++ after rest)) ∧
        members.find? (fun m => m.key = key) = some m := by
  induction members with
  | nil => exact .inl ⟨rfl, rfl⟩
  | cons m rest ih =>
    rw [locate, List.find?_cons]
    by_cases same : m.key = key
    · right
      refine ⟨m, rest, if_pos same, ?_⟩
      simp [same]
    · simpa [same] using ih

def version : Member := ⟨versionKey, .literal (ascii "2")⟩

theorem version_sound : version.Sound where
  key := by decide
  written := ⟨by decide, by decide, by decide⟩

/-- A lookup in a file finds what was written under the key, whatever the other strings hold. -/
theorem findValue_document {members : List Member} (sound : ∀ m ∈ members, m.Sound) (key : Text) :
    findValue (document (version :: members)) key =
      .ok (((version :: members).find? fun m => m.key = key).map fun m =>
        ⟨m.written.bytes, false⟩) := by
  have all : ∀ m ∈ version :: members, m.Sound := by
    intro m listed
    rcases List.mem_cons.mp listed with rfl | later
    · exact version_sound
    · exact sound m later
  have filled : version :: members ≠ [] := List.cons_ne_nil version members
  have first : locate versionKey (version :: members) =
      some (inside (ascii "2" ++ after members)) := if_pos rfl
  have number : escapes (some (inside (ascii "2" ++ after members))) = true := by
    obtain ⟨c, more, shape, follows⟩ := after_follows members
    have two : ascii "2" = printInt 2 := by decide
    have read : atoi (printInt 2 ++ after members) = 2 := by
      apply atoi_printInt
      intro d head
      rw [shape] at head
      cases Option.some.inj head
      rcases follows with rfl | rfl <;> rfl
    exact decide_eq_true (by rw [Pointer.rest, two, read])
  rw [findValue, valueStart_document filled all, ok_bind, first]
  simp only [number, valueStart_document filled all, ok_bind]
  rcases locate_eq key (version :: members) with ⟨absent, none⟩ | ⟨m, rest, here, found⟩
  · rw [absent, none]
    rfl
  · rw [here, found]
    have listed : m ∈ version :: members := List.mem_of_find?_eq_some found
    exact readValue_sound (all m listed).written (after_follows rest)

end MisrcGui.Settings.Document
