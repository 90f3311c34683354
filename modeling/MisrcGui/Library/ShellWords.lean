import Mathlib.Algebra.Order.BigOperators.Group.List
import Mathlib.Algebra.Order.Ring.Nat
import Mathlib.Data.List.Count

/-! How a POSIX shell splits a simple command into words, as far as literal words go:
blanks, double quotes and the backslash in them. A line with anything else in it, such as
an expansion, an operator or another kind of quote, has no reading here. -/
namespace Library.ShellWords

abbrev Text := List UInt8

def space : UInt8 := 32

def doubleQuote : UInt8 := 34

def dollar : UInt8 := 36

def backslash : UInt8 := 92

def backtick : UInt8 := 96

def newline : UInt8 := 10

def isBlank (c : UInt8) : Bool := c == space || c == 9

/-- Bytes that stand for themselves outside quotes: letters, digits and `%+,-./:@_`. -/
def ordinary (c : UInt8) : Bool :=
  (97 ≤ c && c ≤ 122) || (64 ≤ c && c ≤ 90) || (43 ≤ c && c ≤ 58) || c == 37 || c == 95

def escapable (c : UInt8) : Bool :=
  c == dollar || c == backtick || c == doubleQuote || c == backslash || c == newline

/-- `escaped` comes after a backslash in double quotes. -/
inductive Mode where
  | between
  | bare
  | quoted
  | escaped

def scan : Mode → Text → Text → Option (List Text)
  | .between, _, [] => some []
  | .bare, w, [] => some [w]
  | .quoted, _, [] => none
  | .escaped, _, [] => none
  | .between, _, c :: text =>
    if isBlank c then scan .between [] text
    else if c = doubleQuote then scan .quoted [] text
    else if ordinary c then scan .bare [c] text
    else none
  | .bare, w, c :: text =>
    if isBlank c then (scan .between [] text).map (w :: ·)
    else if c = doubleQuote then scan .quoted w text
    else if ordinary c then scan .bare (w ++ [c]) text
    else none
  | .quoted, w, c :: text =>
    if c = doubleQuote then scan .bare w text
    else if c = dollar ∨ c = backtick then none
    else if c = backslash then scan .escaped w text
    else scan .quoted (w ++ [c]) text
  | .escaped, w, c :: text =>
    if c = newline then scan .quoted w text
    else if escapable c then scan .quoted (w ++ [c]) text
    else scan .quoted (w ++ [backslash, c]) text

def words (line : Text) : Option (List Text) := scan .between [] line

/-- Whether a text between double quotes reads as itself, after a backslash or not. -/
def harmlessFrom : Bool → Text → Bool
  | escaped, [] => !escaped
  | true, c :: text => !escapable c && harmlessFrom false text
  | false, c :: text =>
    c != doubleQuote && c != dollar && c != backtick && harmlessFrom (c == backslash) text

def harmless (text : Text) : Bool := harmlessFrom false text

inductive Piece where
  | bare (text : Text)
  | quoted (text : Text)

def Piece.text : Piece → Text
  | .bare text => text
  | .quoted text => text

def Piece.source : Piece → Text
  | .bare text => text
  | .quoted text => doubleQuote :: (text ++ [doubleQuote])

def render : List Piece → Text
  | [] => []
  | [piece] => piece.source
  | piece :: next :: rest => piece.source ++ space :: render (next :: rest)

def Piece.Plain : Piece → Prop
  | .bare text => text ≠ [] ∧ ∀ c ∈ text, ordinary c
  | .quoted _ => True

variable {w text rest : Text} {ws : List Text} {pieces : List Piece}

theorem ordinary_ne {c : UInt8} (h : ordinary c) : isBlank c = false ∧ c ≠ doubleQuote := by
  constructor
  · unfold isBlank
    rw [Bool.or_eq_false_iff]
    constructor <;>
    · rw [beq_eq_false_iff_ne]
      rintro rfl
      exact absurd h (by decide)
  · rintro rfl
    exact absurd h (by decide)

theorem between_cons {c : UInt8} :
    scan .between w (c :: text) =
      if isBlank c then scan .between [] text
      else if c = doubleQuote then scan .quoted [] text
      else if ordinary c then scan .bare [c] text
      else none := rfl

theorem bare_cons {c : UInt8} :
    scan .bare w (c :: text) =
      if isBlank c then (scan .between [] text).map (w :: ·)
      else if c = doubleQuote then scan .quoted w text
      else if ordinary c then scan .bare (w ++ [c]) text
      else none := rfl

theorem quoted_cons {c : UInt8} :
    scan .quoted w (c :: text) =
      if c = doubleQuote then scan .bare w text
      else if c = dollar ∨ c = backtick then none
      else if c = backslash then scan .escaped w text
      else scan .quoted (w ++ [c]) text := rfl

theorem escaped_cons {c : UInt8} :
    scan .escaped w (c :: text) =
      if c = newline then scan .quoted w text
      else if escapable c then scan .quoted (w ++ [c]) text
      else scan .quoted (w ++ [backslash, c]) text := rfl

theorem scan_bare (plain : ∀ c ∈ text, ordinary c) :
    scan .bare w (text ++ rest) = scan .bare (w ++ text) rest := by
  induction text generalizing w with
  | nil => rw [List.nil_append, List.append_nil]
  | cons c text ih =>
    have first := plain c (List.mem_cons_self ..)
    obtain ⟨notBlank, notQuote⟩ := ordinary_ne first
    rw [List.cons_append, bare_cons, if_neg (by rw [notBlank]; decide), if_neg notQuote,
      if_pos first, ih fun d member => plain d (List.mem_cons_of_mem _ member), List.append_assoc]
    rfl

theorem scan_between_bare (some : text ≠ []) (plain : ∀ c ∈ text, ordinary c) :
    scan .between w (text ++ rest) = scan .bare text rest := by
  cases text with
  | nil => contradiction
  | cons c text =>
    have first := plain c (List.mem_cons_self ..)
    obtain ⟨notBlank, notQuote⟩ := ordinary_ne first
    rw [List.cons_append, between_cons, if_neg (by rw [notBlank]; decide), if_neg notQuote,
      if_pos first, scan_bare fun d member => plain d (List.mem_cons_of_mem _ member)]
    rfl

def inQuotes (escaped : Bool) : Mode := if escaped then .escaped else .quoted

def pending (escaped : Bool) : Text := if escaped then [backslash] else []

theorem scan_harmlessFrom {escaped : Bool} (h : harmlessFrom escaped text) :
    scan (inQuotes escaped) w (text ++ doubleQuote :: rest) =
      scan .bare (w ++ pending escaped ++ text) rest := by
  induction text generalizing w escaped with
  | nil =>
    cases escaped with
    | true => contradiction
    | false =>
      change scan .quoted w (doubleQuote :: rest) = _
      rw [quoted_cons, if_pos rfl]
      simp [pending]
  | cons c text ih =>
    cases escaped with
    | true =>
      rw [harmlessFrom, Bool.and_eq_true, Bool.not_eq_true'] at h
      have other : c ≠ newline := by
        rintro rfl
        exact absurd h.1 (by decide)
      change scan .escaped w (c :: (text ++ doubleQuote :: rest)) = _
      rw [escaped_cons, if_neg other, if_neg (by rw [h.1]; decide)]
      change scan (inQuotes false) _ _ = _
      rw [ih h.2]
      simp [pending]
    | false =>
      simp only [harmlessFrom, Bool.and_eq_true, bne_iff_ne] at h
      obtain ⟨⟨⟨notQuote, notDollar⟩, notTick⟩, later⟩ := h
      change scan .quoted w (c :: (text ++ doubleQuote :: rest)) = _
      rw [quoted_cons, if_neg notQuote, if_neg (not_or.mpr ⟨notDollar, notTick⟩)]
      by_cases slash : c = backslash
      · rw [if_pos slash]
        subst slash
        have later : harmlessFrom true text := later
        change scan (inQuotes true) _ _ = _
        rw [ih later]
        simp [pending]
      · rw [if_neg slash]
        rw [beq_eq_false_iff_ne.mpr slash] at later
        change scan (inQuotes false) _ _ = _
        rw [ih later]
        simp [pending]

theorem scan_piece {piece : Piece} (plain : piece.Plain)
    (safe : ∀ text, piece = .quoted text → harmless text) :
    scan .between w (piece.source ++ rest) = scan .bare piece.text rest := by
  cases piece with
  | bare text => exact scan_between_bare plain.1 plain.2
  | quoted text =>
    change scan .between w (doubleQuote :: (text ++ [doubleQuote] ++ rest)) = _
    rw [between_cons, if_neg (by decide), if_pos rfl, List.append_assoc]
    have safe : harmlessFrom false text := safe text rfl
    exact scan_harmlessFrom safe

theorem words_of_harmless (plain : ∀ piece ∈ pieces, piece.Plain)
    (safe : ∀ text, Piece.quoted text ∈ pieces → harmless text) :
    words (render pieces) = some (pieces.map Piece.text) := by
  unfold words
  induction pieces with
  | nil => rfl
  | cons piece pieces ih =>
    have first : ∀ rest, scan .between [] (piece.source ++ rest) = scan .bare piece.text rest := by
      intro rest
      apply scan_piece (plain piece (List.mem_cons_self ..))
      rintro text rfl
      exact safe text (List.mem_cons_self ..)
    cases pieces with
    | nil =>
      have alone := first []
      rw [List.append_nil] at alone
      rw [render, alone]
      rfl
    | cons next pieces =>
      have later := ih (fun piece member => plain piece (List.mem_cons_of_mem _ member))
        (fun text member => safe text (List.mem_cons_of_mem _ member))
      rw [render, first, bare_cons, if_pos (by decide), later]
      rfl

/-! What is read has no more bytes than the line, and every quote costs one. -/

def weight (ws : List Text) : Nat := (ws.map fun w => w.length + 1).sum

def Mode.extra : Mode → Nat
  | .escaped => 2
  | _ => 1

theorem weight_cons (w : Text) (ws : List Text) : weight (w :: ws) = w.length + 1 + weight ws := by
  rw [weight, List.map_cons, List.sum_cons]
  rfl

theorem weight_scan {mode : Mode} (read : scan mode w text = some ws) :
    weight ws + text.count doubleQuote ≤ w.length + text.length + mode.extra := by
  induction text generalizing mode w ws with
  | nil =>
    cases mode with
    | between =>
      cases read
      exact Nat.zero_le _
    | bare =>
      cases read
      rw [weight_cons]
      exact Nat.le_refl _
    | quoted | escaped => contradiction
  | cons c text ih =>
    rw [List.length_cons]
    have counted : (c :: text).count doubleQuote =
        text.count doubleQuote + if c = doubleQuote then 1 else 0 := by
      rw [List.count_cons]
      simp only [beq_iff_eq]
    rw [counted]
    have unquoted {c : UInt8} (h : isBlank c) : c ≠ doubleQuote := by
      rintro rfl
      exact absurd h (by decide)
    cases mode with
    | between =>
      rw [between_cons] at read
      split at read
      · rename_i blank
        have bound := ih read
        rw [if_neg (unquoted blank)]
        simp only [Mode.extra, List.length_nil] at bound ⊢
        omega
      · split at read
        · rename_i quote
          have bound := ih read
          rw [if_pos quote]
          simp only [Mode.extra, List.length_nil] at bound ⊢
          omega
        · split at read
          · rename_i quote _
            have bound := ih read
            rw [if_neg quote]
            simp only [Mode.extra, List.length_singleton] at bound ⊢
            omega
          · cases read
    | bare =>
      rw [bare_cons] at read
      split at read
      · rename_i blank
        obtain ⟨later, scanned, rfl⟩ := Option.map_eq_some_iff.mp read
        have bound := ih scanned
        rw [if_neg (unquoted blank), weight_cons]
        simp only [Mode.extra, List.length_nil] at bound ⊢
        omega
      · split at read
        · rename_i quote
          have bound := ih read
          rw [if_pos quote]
          simp only [Mode.extra] at bound ⊢
          omega
        · split at read
          · rename_i quote _
            have bound := ih read
            rw [if_neg quote]
            simp only [Mode.extra, List.length_append, List.length_singleton] at bound ⊢
            omega
          · cases read
    | quoted =>
      rw [quoted_cons] at read
      split at read
      · rename_i quote
        have bound := ih read
        rw [if_pos quote]
        simp only [Mode.extra] at bound ⊢
        omega
      · rename_i quote
        rw [if_neg quote]
        split at read
        · cases read
        · split at read
          · have bound := ih read
            simp only [Mode.extra] at bound ⊢
            omega
          · have bound := ih read
            simp only [Mode.extra, List.length_append, List.length_singleton] at bound ⊢
            omega
    | escaped =>
      have one : (if c = doubleQuote then 1 else 0) ≤ 1 := by split <;> omega
      rw [escaped_cons] at read
      split at read
      · have bound := ih read
        simp only [Mode.extra] at bound ⊢
        omega
      · split at read
        · have bound := ih read
          simp only [Mode.extra, List.length_append, List.length_singleton] at bound ⊢
          omega
        · rename_i plain
          have quote : c ≠ doubleQuote := by
            rintro rfl
            exact plain (by decide)
          have bound := ih read
          rw [if_neg quote]
          simp only [Mode.extra, List.length_append, List.length_cons, List.length_nil] at bound ⊢
          omega

def Piece.inner : Piece → Nat
  | .bare _ => 0
  | .quoted text => text.count doubleQuote

theorem count_ordinary (plain : ∀ c ∈ text, ordinary c) : text.count doubleQuote = 0 := by
  rw [List.count_eq_zero]
  intro member
  exact absurd (plain _ member) (by decide)

theorem source_measure {piece : Piece} (plain : piece.Plain) :
    piece.text.length + piece.source.count doubleQuote = piece.source.length + piece.inner := by
  cases piece with
  | bare text =>
    change text.length + text.count doubleQuote = text.length + 0
    rw [count_ordinary plain.2]
  | quoted text =>
    simp only [Piece.text, Piece.source, Piece.inner, List.count_cons, List.count_append,
      List.length_cons, List.length_append, List.count_nil, List.length_nil, beq_self_eq_true,
      if_true]
    omega

theorem render_measure (some : pieces ≠ []) (plain : ∀ piece ∈ pieces, piece.Plain) :
    weight (pieces.map Piece.text) + (render pieces).count doubleQuote =
      (render pieces).length + 1 + (pieces.map Piece.inner).sum := by
  induction pieces with
  | nil => contradiction
  | cons piece pieces ih =>
    have first := source_measure (plain piece (List.mem_cons_self ..))
    rw [List.map_cons, weight_cons, List.map_cons, List.sum_cons]
    cases pieces with
    | nil =>
      rw [render, List.map_nil, List.map_nil, List.sum_nil]
      change _ + 1 + 0 + _ = _
      omega
    | cons next pieces =>
      have later := ih (by simp) fun piece member => plain piece (List.mem_cons_of_mem _ member)
      have apart : (space :: render (next :: pieces)).count doubleQuote =
          (render (next :: pieces)).count doubleQuote := List.count_cons_of_ne (by decide)
      rw [render, List.count_append, apart, List.length_append, List.length_cons]
      omega

theorem no_inner_quote (plain : ∀ piece ∈ pieces, piece.Plain)
    (read : words (render pieces) = some (pieces.map Piece.text)) :
    ∀ text, Piece.quoted text ∈ pieces → doubleQuote ∉ text := by
  intro text member
  have some : pieces ≠ [] := List.ne_nil_of_mem member
  have bound := weight_scan read
  have exactly := render_measure some plain
  simp only [Mode.extra, List.length_nil] at bound
  have one : Piece.inner (.quoted text) ≤ (pieces.map Piece.inner).sum :=
    List.le_sum_of_mem (List.mem_map_of_mem member)
  rw [← List.count_eq_zero]
  change Piece.inner (.quoted text) = 0
  omega

theorem scan_extends {mode : Mode} (inside : mode ≠ .between) (read : scan mode w text = some ws) :
    ∃ more later, ws = (w ++ more) :: later := by
  have bare : Mode.bare ≠ .between := nofun
  have quoted : Mode.quoted ≠ .between := nofun
  have escaped : Mode.escaped ≠ .between := nofun
  induction text generalizing mode w with
  | nil =>
    cases mode with
    | between => contradiction
    | bare =>
      cases read
      exact ⟨[], [], by rw [List.append_nil]⟩
    | quoted | escaped => contradiction
  | cons c text ih =>
    have append {front : Text} (h : ∃ more later, ws = (w ++ front ++ more) :: later) :
        ∃ more later, ws = (w ++ more) :: later := by
      obtain ⟨more, later, rfl⟩ := h
      exact ⟨front ++ more, later, by rw [List.append_assoc]⟩
    cases mode with
    | between => contradiction
    | bare =>
      rw [bare_cons] at read
      split at read
      · obtain ⟨later, -, rfl⟩ := Option.map_eq_some_iff.mp read
        exact ⟨[], later, by rw [List.append_nil]⟩
      · split at read
        · exact ih quoted read
        · split at read
          · exact append (ih bare read)
          · cases read
    | quoted =>
      rw [quoted_cons] at read
      split at read
      · exact ih bare read
      · split at read
        · cases read
        · split at read
          · exact ih escaped read
          · exact append (ih quoted read)
    | escaped =>
      rw [escaped_cons] at read
      split at read
      · exact ih quoted read
      · split at read
        · exact append (ih quoted read)
        · exact append (ih quoted read)

/-- A text without a quote of its own: the closing quote is reached, with at most as many
bytes read as there are, or a backslash takes it into the word. -/
theorem scan_inQuotes {escaped : Bool} (quote : doubleQuote ∉ text)
    (read : scan (inQuotes escaped) w (text ++ doubleQuote :: rest) = some ws) :
    (∃ u, u.length ≤ text.length + (pending escaped).length ∧
      (u.length = text.length + (pending escaped).length → harmlessFrom escaped text) ∧
      scan .bare (w ++ u) rest = some ws) ∨
    ∃ u, scan .quoted (w ++ u ++ [doubleQuote]) rest = some ws := by
  induction text generalizing w escaped with
  | nil =>
    cases escaped with
    | true =>
      change scan .escaped w (doubleQuote :: rest) = _ at read
      rw [escaped_cons, if_neg (by decide), if_pos (by decide)] at read
      exact .inr ⟨[], by rw [List.append_nil]; exact read⟩
    | false =>
      change scan .quoted w (doubleQuote :: rest) = _ at read
      rw [quoted_cons, if_pos rfl] at read
      exact .inl ⟨[], Nat.le_refl _, fun _ => rfl, by rw [List.append_nil]; exact read⟩
  | cons c text ih =>
    rw [List.mem_cons, not_or] at quote
    have further (next : Bool) (front : Text)
        (shorter : front.length + (pending next).length ≤ 1 + (pending escaped).length)
        (full : front.length + (pending next).length = 1 + (pending escaped).length →
          harmlessFrom next text → harmlessFrom escaped (c :: text))
        (read : scan (inQuotes next) (w ++ front) (text ++ doubleQuote :: rest) = some ws) :
        (∃ u, u.length ≤ (c :: text).length + (pending escaped).length ∧
          (u.length = (c :: text).length + (pending escaped).length →
            harmlessFrom escaped (c :: text)) ∧
          scan .bare (w ++ u) rest = some ws) ∨
        ∃ u, scan .quoted (w ++ u ++ [doubleQuote]) rest = some ws := by
      rw [List.length_cons]
      rcases ih quote.2 read with ⟨u, bound, safe, closed⟩ | ⟨u, taken⟩
      · refine .inl ⟨front ++ u, ?_, ?_, ?_⟩
        · rw [List.length_append]
          omega
        · rw [List.length_append]
          intro same
          exact full (by omega) (safe (by omega))
        · rwa [← List.append_assoc]
      · exact .inr ⟨front ++ u, by rwa [← List.append_assoc w]⟩
    cases escaped with
    | true =>
      change scan .escaped w (c :: (text ++ doubleQuote :: rest)) = _ at read
      rw [escaped_cons] at read
      split at read
      · refine further false [] (by decide) (fun same => ?_) (by
          rw [List.append_nil]
          exact read)
        exact absurd same (by decide)
      · split at read
        · refine further false [c] (by simp [pending]) (fun same => ?_) read
          simp [pending] at same
        · rename_i plain
          refine further false [backslash, c] (Nat.le_refl _)
            (fun _ safe => ?_) read
          rw [harmlessFrom, safe]
          simpa using plain
    | false =>
      change scan .quoted w (c :: (text ++ doubleQuote :: rest)) = _ at read
      rw [quoted_cons, if_neg (Ne.symm quote.1)] at read
      split at read
      · cases read
      · rename_i plain
        have safe {next : Bool} (same : next = (c == backslash)) (h : harmlessFrom next text) :
            harmlessFrom false (c :: text) := by
          rw [not_or] at plain
          rw [harmlessFrom, ← same, h]
          simp [plain, Ne.symm quote.1]
        split at read
        · rename_i slash
          refine further true [] (by decide)
            (fun _ => safe (by simp [slash])) (by
              rw [List.append_nil]
              exact read)
        · rename_i other
          exact further false [c] (Nat.le_refl _)
            (fun _ => safe (by simp [other])) read

/-- The word a quoted piece begins is the piece itself only if the piece is harmless. -/
theorem harmless_of_scan {later : List Text} (quote : doubleQuote ∉ text)
    (ends : rest = [] ∨ ∃ more, rest = space :: more)
    (read : scan .between [] (Piece.source (.quoted text) ++ rest) = some (text :: later)) :
    harmless text ∧ scan .bare text rest = some (text :: later) := by
  change scan .between [] (doubleQuote :: (text ++ [doubleQuote] ++ rest)) = _ at read
  rw [between_cons, if_neg (by decide), if_pos rfl, List.append_assoc] at read
  have read : scan (inQuotes false) [] (text ++ doubleQuote :: rest) = some (text :: later) := read
  rcases scan_inQuotes quote read with ⟨u, -, safe, closed⟩ | ⟨u, taken⟩
  · rw [List.nil_append] at closed
    have same : u = text := by
      rcases ends with rfl | ⟨more, rfl⟩
      · cases closed
        rfl
      · rw [bare_cons, if_pos (by decide)] at closed
        obtain ⟨ws, scanned, same⟩ := Option.map_eq_some_iff.mp closed
        exact (List.cons.inj same).1
    subst same
    exact ⟨safe rfl, closed⟩
  · have inside : Mode.quoted ≠ .between := nofun
    obtain ⟨more, others, same⟩ := scan_extends inside taken
    have inside : doubleQuote ∈ text := by
      rw [(List.cons.inj same).1]
      simp
    exact absurd inside quote

theorem scan_bare_space {later : List Text}
    (read : scan .bare w (space :: text) = some (w :: later)) :
    scan .between [] text = some later := by
  rw [bare_cons, if_pos (by decide)] at read
  obtain ⟨ws, scanned, same⟩ := Option.map_eq_some_iff.mp read
  rw [scanned, (List.cons.inj same).2]

theorem harmless_of_words (plain : ∀ piece ∈ pieces, piece.Plain)
    (quotes : ∀ text, Piece.quoted text ∈ pieces → doubleQuote ∉ text)
    (read : words (render pieces) = some (pieces.map Piece.text)) :
    ∀ text, Piece.quoted text ∈ pieces → harmless text := by
  unfold words at read
  induction pieces with
  | nil => nofun
  | cons piece pieces ih =>
    have plain_later := fun piece member => plain piece (List.mem_cons_of_mem _ member)
    have quotes_later := fun text member => quotes text (List.mem_cons_of_mem _ member)
    have split : ∃ rest, render (piece :: pieces) = piece.source ++ rest ∧
        (rest = [] ∨ ∃ more, rest = space :: more) ∧
        (pieces = [] ∨ rest = space :: render pieces) := by
      cases pieces with
      | nil => exact ⟨[], by rw [render, List.append_nil], .inl rfl, .inl rfl⟩
      | cons next pieces => exact ⟨_, rfl, .inr ⟨_, rfl⟩, .inr rfl⟩
    obtain ⟨rest, shape, ends, tail⟩ := split
    rw [shape, List.map_cons] at read
    have here : (∀ text, piece = .quoted text → harmless text) ∧
        scan .bare piece.text rest = some (piece.text :: pieces.map Piece.text) := by
      cases piece with
      | bare text =>
        have own := plain _ (List.mem_cons_self ..)
        rw [Piece.source, scan_between_bare own.1 own.2] at read
        exact ⟨nofun, read⟩
      | quoted text =>
        obtain ⟨safe, after⟩ :=
          harmless_of_scan (quotes text (List.mem_cons_self ..)) ends read
        refine ⟨fun other same => ?_, after⟩
        cases same
        exact safe
    intro text member
    rcases List.mem_cons.mp member with first | later
    · exact here.1 text first.symm
    · rcases tail with rfl | rfl
      · contradiction
      · exact ih plain_later quotes_later (scan_bare_space here.2) text later

theorem words_iff (plain : ∀ piece ∈ pieces, piece.Plain) :
    words (render pieces) = some (pieces.map Piece.text) ↔
      ∀ text, Piece.quoted text ∈ pieces → harmless text := by
  constructor
  · intro read
    exact harmless_of_words plain (no_inner_quote plain read) read
  · exact words_of_harmless plain

theorem harmlessFrom_split {front : Text} {c : UInt8} {escaped : Bool}
    (plain : escapable c = false) :
    harmlessFrom escaped (front ++ c :: text) =
      (harmlessFrom escaped (front ++ [c]) && harmless text) := by
  induction front generalizing escaped with
  | nil =>
    have other : (c == backslash) = false := by
      rw [beq_eq_false_iff_ne]
      rintro rfl
      exact absurd plain (by decide)
    cases escaped with
    | true =>
      rw [List.nil_append, List.nil_append, harmlessFrom, harmlessFrom, plain]
      rfl
    | false =>
      rw [List.nil_append, List.nil_append, harmlessFrom, harmlessFrom, other, harmlessFrom,
        Bool.not_false, Bool.and_true]
      rfl
  | cons d front ih =>
    rw [List.cons_append, List.cons_append]
    cases escaped with
    | true | false => simp only [harmlessFrom, ih, Bool.and_assoc]

theorem harmless_split {front : Text} {c : UInt8} (plain : escapable c = false) :
    harmless (front ++ c :: text) = (harmless (front ++ [c]) && harmless text) :=
  harmlessFrom_split plain

theorem harmless_iff (noBackslash : backslash ∉ text) :
    harmless text ↔ ∀ c ∈ text, c ≠ doubleQuote ∧ c ≠ dollar ∧ c ≠ backtick := by
  induction text with
  | nil => exact iff_of_true rfl nofun
  | cons c text ih =>
    rw [List.mem_cons, not_or] at noBackslash
    have other : (c == backslash) = false := beq_eq_false_iff_ne.mpr (Ne.symm noBackslash.1)
    unfold harmless
    rw [harmlessFrom, other, List.forall_mem_cons, ← ih noBackslash.2]
    simp only [Bool.and_eq_true, bne_iff_ne, and_assoc]
    rfl

theorem harmless_of_plain (plain : ∀ c ∈ text, escapable c = false) : harmless text := by
  have apart {d : UInt8} (special : escapable d) : d ∉ text := by
    intro member
    rw [plain d member] at special
    contradiction
  rw [harmless_iff (apart (by decide))]
  intro c member
  refine ⟨?_, ?_, ?_⟩ <;>
  · rintro rfl
    exact apart (by decide) member

end Library.ShellWords
