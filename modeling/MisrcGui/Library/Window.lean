import Mathlib.Data.List.Basic

/-! Contiguous windows of an infinite stream. -/
namespace Library.Window

variable {Symbol : Type*}

/-- `symbols` is what the stream shows from `start` on. -/
def IsWindow (stream : ℕ → Symbol) (start : ℕ) (symbols : List Symbol) : Prop :=
  ∀ index (inside : index < symbols.length), symbols[index] = stream (start + index)

variable {stream : ℕ → Symbol} {start : ℕ}

@[simp] theorem isWindow_nil : IsWindow stream start [] :=
  fun _ inside => absurd inside (Nat.not_lt_zero _)

@[simp] theorem isWindow_cons {symbol : Symbol} {rest : List Symbol} :
    IsWindow stream start (symbol :: rest) ↔
      symbol = stream start ∧ IsWindow stream (start + 1) rest := by
  constructor
  · intro window
    refine ⟨window 0 (Nat.zero_lt_succ _), fun index inside => ?_⟩
    have shown := window (index + 1) (Nat.succ_lt_succ inside)
    rwa [List.getElem_cons_succ, Nat.add_comm index, ← Nat.add_assoc] at shown
  · intro ⟨first, later⟩ index inside
    cases index with
    | zero => exact first
    | succ index =>
      rw [List.getElem_cons_succ, Nat.add_comm index, ← Nat.add_assoc]
      exact later index (Nat.lt_of_succ_lt_succ inside)

theorem IsWindow.congr {other : ℕ} (symbols : List Symbol)
    (same : ∀ index, stream (start + index) = stream (other + index)) :
    IsWindow stream start symbols ↔ IsWindow stream other symbols := by
  unfold IsWindow
  simp only [same]

theorem isWindow_append {front rest : List Symbol} :
    IsWindow stream start (front ++ rest) ↔
      IsWindow stream start front ∧ IsWindow stream (start + front.length) rest := by
  induction front generalizing start with
  | nil => simp
  | cons symbol front ih =>
    rw [List.cons_append, isWindow_cons, ih, isWindow_cons, and_assoc, List.length_cons,
      Nat.add_assoc, Nat.add_comm 1]

/-- What the stream shows at `count` places from `start` on. -/
def window (stream : ℕ → Symbol) (start count : ℕ) : List Symbol :=
  (List.range count).map fun index => stream (start + index)

@[simp] theorem length_window (count : ℕ) : (window stream start count).length = count := by
  simp [window]

@[simp] theorem window_zero : window stream start 0 = [] := rfl

theorem window_add (first later : ℕ) : window stream start (first + later) =
    window stream start first ++ window stream (start + first) later := by
  rw [window, window, window, List.range_add, List.map_append, List.map_map]
  congr 2
  funext index
  simp only [Function.comp_apply, Nat.add_assoc]

theorem window_drop (start count skipped : ℕ) :
    (window stream start count).drop skipped =
      window stream (start + skipped) (count - skipped) := by
  rcases Nat.le_total skipped count with inside | outside
  · have split : count = skipped + (count - skipped) := by omega
    rw [split, window_add, Nat.add_sub_cancel_left, List.drop_left' (length_window skipped)]
  · rw [Nat.sub_eq_zero_of_le outside, window_zero, List.drop_of_length_le]
    rwa [length_window]

end Library.Window
