import Mathlib.Order.Nat

/-! Stretches of a sequence of timed samples over which a condition holds and the clock does not
step back: what a hold timer measures. -/
namespace Library.HoldWindow

variable {Time : Type*} [Preorder Time]

/-- From `first` to `last`. -/
structure Window (good : ℕ → Prop) (time : ℕ → Time) (first last : ℕ) : Prop where
  ordered : first ≤ last
  good : ∀ i, first ≤ i → i ≤ last → good i
  steady : ∀ i, first ≤ i → i < last → time i ≤ time (i + 1)

variable {good : ℕ → Prop} {time : ℕ → Time} {first last : ℕ}

theorem Window.single {i : ℕ} (here : good i) : Window good time i i :=
  ⟨Nat.le_refl i, fun _ low high => Nat.le_antisymm low high ▸ here,
    fun _ low high => absurd low (Nat.not_le_of_lt high)⟩

theorem Window.extend (window : Window good time first last) (here : good (last + 1))
    (forward : time last ≤ time (last + 1)) : Window good time first (last + 1) := by
  refine ⟨Nat.le_succ_of_le window.ordered, fun i low high => ?_, fun i low high => ?_⟩
  · rcases Nat.lt_or_eq_of_le high with inside | rfl
    · exact window.good i low (Nat.le_of_lt_succ inside)
    · exact here
  · rcases Nat.lt_or_eq_of_le (Nat.le_of_lt_succ high) with inside | rfl
    · exact window.steady i low inside
    · exact forward

theorem Window.time_le (window : Window good time first last) : time first ≤ time last := by
  obtain ⟨ordered, -, steady⟩ := window
  obtain ⟨count, rfl⟩ := Nat.exists_eq_add_of_le ordered
  clear ordered
  induction count with
  | zero => exact le_refl _
  | succ count ih =>
    have before := ih fun i low high => steady i low (Nat.lt_succ_of_lt high)
    exact le_trans before (steady (first + count) (Nat.le_add_right _ _) (Nat.lt_succ_self _))

end Library.HoldWindow
