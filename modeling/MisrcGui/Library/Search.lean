import Mathlib.Data.List.Basic

/-! The first place where one text occurs in another. -/
namespace Library.Search

variable {Symbol : Type*} [DecidableEq Symbol]

def breakAt (needle : List Symbol) : List Symbol → Option (List Symbol × List Symbol)
  | [] => if needle = [] then some ([], []) else none
  | c :: text =>
    if needle.isPrefixOf (c :: text) then some ([], (c :: text).drop needle.length)
    else (breakAt needle text).map fun found => (c :: found.1, found.2)

variable {needle text front rest : List Symbol}

theorem breakAt_eq (found : breakAt needle text = some (front, rest)) :
    text = front ++ needle ++ rest := by
  induction text generalizing front with
  | nil =>
    simp only [breakAt] at found
    split at found
    · rename_i empty
      cases found
      rw [empty]
      rfl
    · contradiction
  | cons c text ih =>
    simp only [breakAt] at found
    split at found
    · rename_i here
      cases found
      obtain ⟨rest, shape⟩ := List.isPrefixOf_iff_prefix.mp here
      rw [← shape, List.drop_left, List.nil_append]
    · obtain ⟨⟨front, rest⟩, later, same⟩ := Option.map_eq_some_iff.mp found
      cases same
      rw [ih later]
      rfl

def Clear (needle front : List Symbol) : Prop :=
  ∀ rest, breakAt needle (front ++ rest) =
    (breakAt needle rest).map fun found => (front ++ found.1, found.2)

theorem clear_nil (needle : List Symbol) : Clear needle [] := by
  intro rest
  rw [List.nil_append]
  cases breakAt needle rest <;> rfl

theorem Clear.append {first last : List Symbol} (left : Clear needle first)
    (right : Clear needle last) : Clear needle (first ++ last) := by
  intro rest
  rw [List.append_assoc, left, right, Option.map_map]
  congr 1
  funext found
  rw [Function.comp_apply, List.append_assoc]

theorem Clear.cons {c : Symbol} (clear : Clear needle front)
    (elsewhere : ∀ rest, ¬ needle.isPrefixOf (c :: (front ++ rest)) = true) :
    Clear needle (c :: front) := by
  intro rest
  rw [List.cons_append, breakAt, if_neg (elsewhere rest), clear, Option.map_map]
  rfl

theorem clear_of_first {c : Symbol} (first : needle.head? = some c) (absent : c ∉ front) :
    Clear needle front := by
  induction front with
  | nil => exact clear_nil needle
  | cons d front ih =>
    apply Clear.cons (ih fun inside => absent (List.mem_cons_of_mem _ inside))
    intro rest here
    obtain ⟨tail, shape⟩ := List.isPrefixOf_iff_prefix.mp here
    cases needle with
    | nil => cases first
    | cons e needle =>
      have same : e = c := Option.some.inj first
      exact absent (same ▸ (List.cons.inj shape).1 ▸ List.mem_cons_self)

def apart (needle front : List Symbol) : Bool :=
  front.tails.all fun tail => tail = [] || !needle.isPrefixOf tail && !tail.isPrefixOf needle

theorem clear_of_apart (never : apart needle front) : Clear needle front := by
  induction front with
  | nil => exact clear_nil needle
  | cons c front ih =>
    rw [apart, List.tails, List.all_cons, Bool.and_eq_true] at never
    apply Clear.cons (ih never.2)
    intro rest here
    have differ : needle.isPrefixOf (c :: front) = false ∧
        (c :: front).isPrefixOf needle = false := by
      simpa using never.1
    rw [List.isPrefixOf_iff_prefix] at here
    rcases List.prefix_or_prefix_of_prefix here (List.prefix_append (c :: front) rest) with
      inside | beyond
    · rw [List.isPrefixOf_iff_prefix.mpr inside] at differ
      exact absurd differ.1 nofun
    · rw [List.isPrefixOf_iff_prefix.mpr beyond] at differ
      exact absurd differ.2 nofun

theorem Clear.found (clear : Clear needle front) (rest : List Symbol) :
    breakAt needle (front ++ (needle ++ rest)) = some (front, rest) := by
  have here : breakAt needle (needle ++ rest) = some ([], rest) := by
    cases needle with
    | nil =>
      cases rest with
      | nil => rfl
      | cons c rest => rfl
    | cons c needle =>
      have begins : (c :: needle).isPrefixOf (c :: (needle ++ rest)) = true := by
        rw [List.isPrefixOf_iff_prefix, ← List.cons_append]
        exact List.prefix_append _ _
      rw [List.cons_append, breakAt, if_pos begins, ← List.cons_append, List.drop_left]
  rw [clear, here, Option.map_some, List.append_nil]

end Library.Search
