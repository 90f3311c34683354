import Mathlib.Algebra.BigOperators.Group.Finset.Piecewise
import Mathlib.Data.Fintype.Basic

/-! How many of finitely many cells have a property, and what updating one cell does to
that number. -/
namespace Library

variable {Index Value : Type*} [Fintype Index]
  (holds : Value → Prop) [DecidablePred holds]

def census (cells : Index → Value) : Nat :=
  (Finset.univ.filter fun index => holds (cells index)).card

theorem census_update [DecidableEq Index] (cells : Index → Value) (index : Index) (value : Value) :
    census holds (Function.update cells index value) + (if holds (cells index) then 1 else 0) =
      census holds cells + if holds value then 1 else 0 := by
  unfold census
  rw [Finset.card_filter, Finset.card_filter,
    ← Finset.add_sum_erase Finset.univ _ (Finset.mem_univ index),
    ← Finset.add_sum_erase Finset.univ (fun other => if holds (cells other) then 1 else 0)
      (Finset.mem_univ index), Function.update_self]
  have rest : ∀ other ∈ Finset.univ.erase index,
      (if holds (Function.update cells index value other) then 1 else 0) =
        if holds (cells other) then 1 else 0 := by
    intro other member
    rw [Function.update_of_ne (Finset.ne_of_mem_erase member)]
  rw [Finset.sum_congr rfl rest]
  omega

theorem census_congr {left right : Index → Value}
    (same : ∀ index, holds (left index) ↔ holds (right index)) :
    census holds left = census holds right := by
  unfold census
  simp only [same]

theorem census_pos {cells : Index → Value} :
    0 < census holds cells ↔ ∃ index, holds (cells index) := by
  unfold census
  rw [Finset.card_pos, Finset.filter_nonempty_iff]
  simp

theorem census_eq_zero {cells : Index → Value} (none : ∀ index, ¬holds (cells index)) :
    census holds cells = 0 := by
  unfold census
  rw [Finset.card_eq_zero, Finset.filter_eq_empty_iff]
  exact fun index _ => none index

end Library
