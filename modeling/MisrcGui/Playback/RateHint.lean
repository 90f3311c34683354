import MisrcGui.Library.NumberText
import MisrcGui.Library.Percent

/-! The `<n>msps` hint in a path (`gui_playback_extract_msps_hint`). -/
namespace MisrcGui.Playback.RateHint
open Library NumberText
open Library.Percent (ascii)

abbrev Text := List UInt8

def toLower (c : UInt8) : UInt8 := if 65 ≤ c ∧ c ≤ 90 then c + 32 else c

def msps : Text := ascii "msps"

def startsMsps (text : Text) : Bool := msps.isPrefixOf (text.map toLower)

/-- The value of a run of digits, of fewer than 64 bytes and above zero. -/
def runValue (run : Text) : Option ℚ :=
  if run.length < 64 then
    match strtod run with
    | some v => if 0 < v.value then some v.value else none
    | none => none
  else none

/-- `run` is the run of digits and at most one point that ends here; empty outside a run. -/
def scan (run : Text) (seenDot : Bool) : Text → Option ℚ
  | [] => none
  | c :: text =>
    if run = [] then
      if isDigit c then scan [c] false text else scan [] false text
    else if isDigit c then scan (run ++ [c]) seenDot text
    else if c = point ∧ !seenDot then scan (run ++ [c]) true text
    else
      match (if startsMsps (c :: text) then runValue run else none) with
      | some v => some v
      | none => scan [] false text

def extractMspsHint (path : Text) : Option ℚ := scan [] false path

variable {run text rest : Text} {seenDot : Bool} {sep : UInt8}

def Separates (sep : UInt8) : Prop :=
  isDigit sep = false ∧ sep ≠ point ∧ toLower sep ∉ msps

theorem startsMsps_append (apart : Separates sep) :
    startsMsps (text ++ sep :: rest) = startsMsps text := by
  have outside : ∀ needle : Text, toLower sep ∉ needle →
      needle.isPrefixOf ((text ++ sep :: rest).map toLower) =
        needle.isPrefixOf (text.map toLower) := by
    intro needle
    induction needle generalizing text with
    | nil => intro _; rw [List.isPrefixOf_nil_left, List.isPrefixOf_nil_left]
    | cons c needle ih =>
      intro other
      rw [List.mem_cons, not_or] at other
      cases text with
      | nil =>
        rw [List.nil_append, List.map_cons, List.isPrefixOf_cons_cons, List.map_nil,
          List.isPrefixOf_cons_nil, beq_eq_false_iff_ne.mpr (Ne.symm other.1), Bool.false_and]
      | cons d text =>
        rw [List.cons_append, List.map_cons, List.map_cons, List.isPrefixOf_cons_cons,
          List.isPrefixOf_cons_cons, ih other.2]
  exact outside msps apart.2.2

theorem scan_append (apart : Separates sep) :
    scan run seenDot (text ++ sep :: rest) =
      (scan run seenDot text).or (extractMspsHint rest) := by
  have unit : startsMsps (sep :: rest) = false := by
    have bare : startsMsps ([] ++ sep :: rest) = startsMsps [] := startsMsps_append apart
    rw [List.nil_append] at bare
    rw [bare]
    rfl
  induction text generalizing run seenDot with
  | nil =>
    rw [List.nil_append, scan, scan, Option.none_or]
    by_cases empty : run = []
    · rw [if_pos empty, if_neg (by rw [apart.1]; decide), extractMspsHint]
    · rw [if_neg empty, if_neg (by rw [apart.1]; decide), if_neg fun both => apart.2.1 both.1,
        unit]
      rfl
  | cons c text ih =>
    rw [List.cons_append, scan, scan, ← List.cons_append, startsMsps_append apart]
    by_cases empty : run = []
    · rw [if_pos empty, if_pos empty]
      split <;> exact ih
    · rw [if_neg empty, if_neg empty]
      split
      · exact ih
      · split
        · exact ih
        · cases (if startsMsps (c :: text) then runValue run else none) with
          | some v => rfl
          | none => exact ih

theorem extractMspsHint_append (apart : Separates sep) :
    extractMspsHint (text ++ sep :: rest) =
      (extractMspsHint text).or (extractMspsHint rest) := scan_append apart

theorem scan_digits {digits : Text} (some : run ≠ []) (all : ∀ c ∈ digits, isDigit c) :
    scan run seenDot (digits ++ text) = scan (run ++ digits) seenDot text := by
  induction digits generalizing run with
  | nil => rw [List.nil_append, List.append_nil]
  | cons c digits ih =>
    rw [List.cons_append, scan, if_neg some, if_pos (all c (List.mem_cons_self ..)),
      ih (by simp) fun d member => all d (List.mem_cons_of_mem _ member), List.append_assoc]
    rfl

theorem extractMspsHint_digits {digits : Text} (some : digits ≠ [])
    (all : ∀ c ∈ digits, isDigit c) :
    extractMspsHint (digits ++ text) = scan digits false text := by
  cases digits with
  | nil => contradiction
  | cons c digits =>
    rw [extractMspsHint, List.cons_append, scan, if_pos rfl, if_pos (all c (List.mem_cons_self ..)),
      scan_digits (by simp) fun d member => all d (List.mem_cons_of_mem _ member)]
    rfl

theorem scan_point {digits : Text} (some : run ≠ []) (all : ∀ c ∈ digits, isDigit c) :
    scan run false (point :: digits ++ text) = scan (run ++ point :: digits) true text := by
  rw [List.cons_append, scan, if_neg some, if_neg (by decide), if_pos ⟨rfl, rfl⟩,
    scan_digits (by simp) all, List.append_assoc]
  rfl

theorem scan_msps (some : run ≠ []) :
    scan run seenDot (msps ++ text) = (runValue run).or (extractMspsHint (msps.tail ++ text)) := by
  have unit : startsMsps (msps ++ text) = true := by
    rw [startsMsps, List.map_append, List.isPrefixOf_iff_prefix]
    exact List.prefix_append msps (text.map toLower)
  change scan run seenDot (109 :: (msps.tail ++ text)) = _
  rw [scan, if_neg some, if_neg (by decide), if_neg fun both => absurd both.1 (by decide)]
  change (match (if startsMsps (msps ++ text) then runValue run else none) with
    | Option.some v => Option.some v
    | none => scan [] false (msps.tail ++ text)) = _
  rw [unit, if_pos rfl]
  cases runValue run with
  | some v => rfl
  | none => rfl

end MisrcGui.Playback.RateHint
