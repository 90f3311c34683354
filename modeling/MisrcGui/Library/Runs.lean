import Mathlib.Data.List.Basic

/-! Maximal runs of a property along numbered places, and the list of their ends that a scan
collects from the left. -/
namespace Library.Runs

/-- The property holds from `first` on up to `last`, and at no place next to these. -/
structure Run (Holds : ℕ → Prop) (size first last : ℕ) : Prop where
  some : first < last
  inside : last ≤ size
  holds : ∀ place, first ≤ place → place < last → Holds place
  before : ∀ place, place + 1 = first → ¬Holds place
  after : last < size → ¬Holds last

/-- The ends of the accepted runs that start from `low` on and below `high`. -/
structure Ends (Holds : ℕ → Prop) (size : ℕ) (Accepts : ℕ → ℕ → Prop) (low high : ℕ)
    (ends : List ℕ) : Prop where
  increasing : ends.Pairwise (· < ·)
  exact : ∀ last, last ∈ ends ↔
    ∃ first, low ≤ first ∧ first < high ∧ Run Holds size first last ∧ Accepts first last

variable {Holds : ℕ → Prop} {size low high first last : ℕ} {Accepts : ℕ → ℕ → Prop}
  {ends : List ℕ}

/-- A later run starts behind the place that ended an earlier one. -/
theorem Run.apart {first' last' : ℕ} (run : Run Holds size first last)
    (later : Run Holds size first' last') (order : first < first') : last < first' := by
  by_contra inside
  exact later.before (first' - 1) (by omega) (run.holds _ (by omega) (by omega))

theorem Run.last_unique {last' : ℕ} (run : Run Holds size first last)
    (other : Run Holds size first last') : last = last' := by
  have start := run.some
  have start' := other.some
  rcases Nat.lt_trichotomy last last' with less | same | more
  · exact absurd (other.holds last (by omega) less) (run.after (by have := other.inside; omega))
  · exact same
  · exact absurd (run.holds last' (by omega) more) (other.after (by have := run.inside; omega))

theorem Ends.nil (past : high ≤ low) : Ends Holds size Accepts low high [] where
  increasing := .nil
  exact := by
    intro last
    constructor
    · exact nofun
    · rintro ⟨first, above, below, -⟩
      omega

/-- No run starts here. -/
theorem Ends.skip (none : ∀ last, ¬Run Holds size low last)
    (later : Ends Holds size Accepts (low + 1) high ends) :
    Ends Holds size Accepts low high ends where
  increasing := later.increasing
  exact := by
    intro last
    rw [later.exact]
    constructor
    · rintro ⟨first, above, rest⟩
      exact ⟨first, Nat.le_of_succ_le above, rest⟩
    · rintro ⟨first, above, below, run, accepted⟩
      have apart : first ≠ low := fun same => none last (same ▸ run)
      exact ⟨first, by omega, below, run, accepted⟩

theorem Run.starts_behind {first' last' : ℕ} (run : Run Holds size low last)
    (other : Run Holds size first' last') (above : low ≤ first') :
    first' = low ∧ last' = last ∨ last + 1 ≤ first' := by
  rcases Nat.eq_or_lt_of_le above with rfl | later
  · exact .inl ⟨rfl, other.last_unique run⟩
  · exact .inr (run.apart other later)

/-- A run is passed that is not accepted. -/
theorem Ends.pass (run : Run Holds size low last) (refused : ¬Accepts low last)
    (later : Ends Holds size Accepts (last + 1) high ends) :
    Ends Holds size Accepts low high ends where
  increasing := later.increasing
  exact := by
    intro place
    rw [later.exact]
    constructor
    · rintro ⟨first, above, rest⟩
      have := run.some
      exact ⟨first, by omega, rest⟩
    · rintro ⟨first, above, below, other, accepted⟩
      rcases run.starts_behind other above with ⟨rfl, rfl⟩ | behind
      · contradiction
      · exact ⟨first, behind, below, other, accepted⟩

/-- The end of an accepted run comes before those of the runs behind it. -/
theorem Ends.cons (run : Run Holds size low last) (inside : low < high)
    (accepted : Accepts low last) (later : Ends Holds size Accepts (last + 1) high ends) :
    Ends Holds size Accepts low high (last :: ends) where
  increasing := by
    refine List.pairwise_cons.mpr ⟨fun place listed => ?_, later.increasing⟩
    obtain ⟨first, above, -, other, -⟩ := (later.exact place).mp listed
    have := other.some
    omega
  exact := by
    intro place
    rw [List.mem_cons, later.exact]
    constructor
    · rintro (rfl | ⟨first, above, rest⟩)
      · exact ⟨low, Nat.le_refl low, inside, run, accepted⟩
      · have := run.some
        exact ⟨first, by omega, rest⟩
    · rintro ⟨first, above, below, other, allowed⟩
      rcases run.starts_behind other above with ⟨-, same⟩ | behind
      · exact .inl same
      · exact .inr ⟨first, behind, below, other, allowed⟩

end Library.Runs
