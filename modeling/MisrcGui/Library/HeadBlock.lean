import MisrcGui.Library.Search

/-! Lines with their ends and an empty line behind them, and where a search finds that end. -/
namespace Library.HeadBlock
open Search

variable {Symbol : Type*}

/-- The lines, each ended by `cr lf`, and an empty line. -/
def block (cr lf : Symbol) (lines : List (List Symbol)) : List Symbol :=
  lines.flatMap (· ++ [cr, lf]) ++ [cr, lf]

variable {cr lf : Symbol}

/-- A proper line: not empty, and without the symbol that begins its end. -/
def Proper (cr : Symbol) (line : List Symbol) : Prop := line ≠ [] ∧ cr ∉ line

theorem head?_block {line : List Symbol} {lines : List (List Symbol)} (proper : Proper cr line)
    (rest : List Symbol) : (block cr lf (line :: lines) ++ rest).head? ≠ some cr := by
  cases line with
  | nil => exact absurd rfl proper.1
  | cons c line =>
    intro first
    exact proper.2 (Option.some.inj first ▸ List.mem_cons_self)

variable [DecidableEq Symbol]

theorem breakAt_append {needle text front rest : List Symbol} (some_needle : needle ≠ [])
    (found : breakAt needle text = some (front, rest)) (more : List Symbol) :
    breakAt needle (text ++ more) = some (front, rest ++ more) := by
  induction text generalizing front with
  | nil =>
    rw [breakAt, if_neg some_needle] at found
    cases found
  | cons c text ih =>
    rw [breakAt] at found
    rw [List.cons_append, breakAt]
    split at found
    · rename_i here
      cases found
      obtain ⟨tail, shape⟩ := List.isPrefixOf_iff_prefix.mp here
      have longer : needle.isPrefixOf (c :: (text ++ more)) = true := by
        rw [List.isPrefixOf_iff_prefix, ← List.cons_append, ← shape, List.append_assoc]
        exact List.prefix_append _ _
      rw [if_pos longer, ← List.cons_append, ← shape, List.append_assoc, List.drop_left,
        List.drop_left]
    · rename_i elsewhere
      obtain ⟨⟨later, tail⟩, inside, same⟩ := Option.map_eq_some_iff.mp found
      cases same
      -- the needle fits into the text, so that more symbols cannot complete it earlier
      have fits := congrArg List.length (breakAt_eq inside)
      have shorter : ¬ needle.isPrefixOf (c :: (text ++ more)) = true := by
        intro here
        apply elsewhere
        rw [List.isPrefixOf_iff_prefix] at here ⊢
        rw [← List.cons_append] at here
        refine List.prefix_of_prefix_length_le here (List.prefix_append _ _) ?_
        rw [List.length_append, List.length_append] at fits
        rw [List.length_cons]
        omega
      rw [if_neg shorter, ih inside]
      rfl

theorem breakAt_line (apart : cr ≠ lf) {line next : List Symbol} (plain : cr ∉ line)
    (started : next.head? ≠ some cr) :
    breakAt [cr, lf, cr, lf] (line ++ cr :: lf :: next) =
      (breakAt [cr, lf, cr, lf] next).map fun found => (line ++ [cr, lf] ++ found.1, found.2) := by
  induction line with
  | nil =>
    have atEnd : ¬ [cr, lf, cr, lf].isPrefixOf (cr :: lf :: next) = true := by
      rw [List.isPrefixOf_iff_prefix]
      rintro ⟨tail, shape⟩
      cases shape
      exact started rfl
    have inside : ¬ [cr, lf, cr, lf].isPrefixOf (lf :: next) = true := by
      rw [List.isPrefixOf_iff_prefix]
      rintro ⟨tail, shape⟩
      exact apart (List.cons.inj shape).1
    rw [List.nil_append, breakAt, if_neg atEnd, breakAt, if_neg inside, Option.map_map]
    rfl
  | cons c line ih =>
    have other : c ≠ cr := fun same => plain (same ▸ List.mem_cons_self)
    have here : ¬ [cr, lf, cr, lf].isPrefixOf (c :: (line ++ cr :: lf :: next)) = true := by
      rw [List.isPrefixOf_iff_prefix]
      rintro ⟨tail, shape⟩
      exact other (List.cons.inj shape).1.symm
    rw [List.cons_append, breakAt, if_neg here,
      ih fun inside => plain (List.mem_cons_of_mem _ inside), Option.map_map]
    rfl

theorem breakAt_block (apart : cr ≠ lf) {lines : List (List Symbol)} (some_line : lines ≠ [])
    (proper : ∀ line ∈ lines, Proper cr line) (rest : List Symbol) :
    ∃ front, block cr lf lines = front ++ [cr, lf, cr, lf] ∧
      breakAt [cr, lf, cr, lf] (block cr lf lines ++ rest) = some (front, rest) := by
  induction lines with
  | nil => exact absurd rfl some_line
  | cons line lines ih =>
    have shape : block cr lf (line :: lines) = line ++ cr :: lf :: block cr lf lines := by
      simp [block]
    have plain := (proper line List.mem_cons_self).2
    cases lines with
    | nil =>
      refine ⟨line, by rw [shape]; rfl, ?_⟩
      rw [shape, List.append_assoc]
      clear ih shape proper some_line
      induction line with
      | nil =>
        have here : [cr, lf, cr, lf].isPrefixOf (cr :: lf :: cr :: lf :: rest) = true := by
          simp
        exact if_pos here
      | cons c line ih =>
        have other : c ≠ cr := fun same => plain (same ▸ List.mem_cons_self)
        have elsewhere : ¬ [cr, lf, cr, lf].isPrefixOf
            (c :: (line ++ (cr :: lf :: block cr lf [] ++ rest))) = true := by
          rw [List.isPrefixOf_iff_prefix]
          rintro ⟨tail, same⟩
          exact other (List.cons.inj same).1.symm
        rw [List.cons_append, breakAt, if_neg elsewhere,
          ih fun inside => plain (List.mem_cons_of_mem _ inside)]
        rfl
    | cons second lines =>
      obtain ⟨front, same, found⟩ := ih (by simp) fun line inside =>
        proper line (List.mem_cons_of_mem _ inside)
      have next := proper second (List.mem_cons_of_mem _ List.mem_cons_self)
      refine ⟨line ++ [cr, lf] ++ front, ?_, ?_⟩
      · rw [shape, same]
        simp
      · rw [shape, List.append_assoc, List.cons_append, List.cons_append,
          breakAt_line apart plain (head?_block next rest), found]
        rfl

theorem breakAt_short (apart : cr ≠ lf) {lines : List (List Symbol)} (some_line : lines ≠ [])
    (proper : ∀ line ∈ lines, Proper cr line) {text : List Symbol}
    (inside : text <+: block cr lf lines) (short : text.length < (block cr lf lines).length) :
    breakAt [cr, lf, cr, lf] text = none := by
  cases found : breakAt [cr, lf, cr, lf] text with
  | none => rfl
  | some place =>
    obtain ⟨more, shape⟩ := inside
    obtain ⟨front, -, whole⟩ := breakAt_block apart some_line proper []
    have early := breakAt_append (List.cons_ne_nil _ _) found more
    rw [shape, ← List.append_nil (block cr lf lines), whole] at early
    have behind : [] = place.2 ++ more := congrArg Prod.snd (Option.some.inj early)
    have none_more : more = [] := (List.append_eq_nil_iff.mp behind.symm).2
    rw [none_more, List.append_nil] at shape
    rw [shape] at short
    exact absurd short (Nat.lt_irrefl _)

end Library.HeadBlock
