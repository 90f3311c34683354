import Mathlib.Algebra.BigOperators.Group.Finset.Basic
import Mathlib.Data.List.GetD
import Mathlib.Data.Nat.ModEq
import Mathlib.Tactic.Ring

/-! Lists as signals that are zero outside, finite impulse responses of them, decimation by two,
and the delay line that computes such a response while the signal grows. -/
namespace Library.Decimation

variable {K : Type*}

def extended [Zero K] (signal : List K) (time : ℤ) : K :=
  if 0 ≤ time then signal.getD time.toNat 0 else 0

section Extended

variable [Zero K] {signal : List K}

theorem extended_append {time : ℤ} (before : time < signal.length) (more : List K) :
    extended (signal ++ more) time = extended signal time := by
  unfold extended
  split
  · exact List.getD_append _ _ _ _ (by omega)
  · rfl

@[simp] theorem extended_concat (sample : K) :
    extended (signal ++ [sample]) signal.length = sample := by
  simp [extended]

theorem extended_nil (time : ℤ) : extended ([] : List K) time = 0 := by
  simp [extended]

end Extended

/-- A finite impulse response: each tap weighs the sample of its age. -/
def fir [Semiring K] (taps : ℕ → K) (count : ℕ) (signal : ℤ → K) (time : ℤ) : K :=
  ∑ age ∈ Finset.range count, taps age * signal (time - age)

def halved [Semiring K] (taps : ℕ → K) (count : ℕ) (signal : List K) : List K :=
  (List.range ((signal.length + 1) / 2)).map fun index : ℕ =>
    fir taps count (extended signal) (2 * index)

section Response

variable [Semiring K] {taps : ℕ → K} {count : ℕ} {signal : List K}

theorem fir_append {time : ℤ} (before : time < signal.length) (more : List K) :
    fir taps count (extended (signal ++ more)) time =
      fir taps count (extended signal) time := by
  apply Finset.sum_congr rfl
  intro age _
  rw [extended_append (by omega)]

@[simp] theorem length_halved : (halved taps count signal).length = (signal.length + 1) / 2 := by
  simp [halved]

@[simp] theorem halved_nil : halved taps count [] = [] := by simp [halved]

theorem halved_earlier (more : List K) :
    (List.range ((signal.length + 1) / 2)).map
        (fun index : ℕ => fir taps count (extended (signal ++ more)) (2 * index)) =
      halved taps count signal := by
  apply List.map_congr_left
  intro index inside
  have := List.mem_range.mp inside
  exact fir_append (by omega) more

theorem halved_concat_even (even : signal.length % 2 = 0) (sample : K) :
    halved taps count (signal ++ [sample]) = halved taps count signal ++
      [fir taps count (extended (signal ++ [sample])) signal.length] := by
  have more : ((signal ++ [sample]).length + 1) / 2 = (signal.length + 1) / 2 + 1 := by
    rw [List.length_append, List.length_singleton]
    omega
  have newest : 2 * (((signal.length + 1) / 2 : ℕ) : ℤ) = signal.length := by omega
  rw [halved, more, List.range_succ, List.map_append, halved_earlier, List.map_singleton, newest]

theorem halved_concat_odd (odd : signal.length % 2 = 1) (sample : K) :
    halved taps count (signal ++ [sample]) = halved taps count signal := by
  have same : ((signal ++ [sample]).length + 1) / 2 = (signal.length + 1) / 2 := by
    rw [List.length_append, List.length_singleton]
    omega
  rw [halved, same, halved_earlier]

end Response

/-! A ring of `size` cells that holds the newest samples. -/

section DelayLine

variable [Zero K] {size : ℕ} {history : ℕ → K} {signal : List K}

/-- The cell written `age` writes ago holds the sample of that age. -/
def Holds (size : ℕ) (history : ℕ → K) (signal : List K) : Prop :=
  ∀ age, 0 < age → age ≤ size →
    history ((signal.length + size - age) % size) = extended signal (signal.length - age)

theorem holds_nil (zero : ∀ cell, history cell = 0) : Holds size history [] := by
  intro age _ _
  rw [zero, extended_nil]

theorem cell_ne {newest age : ℕ} (some_age : 0 < age) (inside : age < size) :
    (newest + size - age) % size ≠ newest % size := by
  intro same
  have whole : newest + size - age + age = newest + size := by omega
  have agree : newest + size - age + age ≡ newest + size - age [MOD size] := by
    rw [whole]
    exact (Nat.add_mod_right newest size).trans same.symm
  have divides := (Nat.modEq_zero_iff_dvd).mp (Nat.ModEq.add_left_cancel' (newest + size - age)
    (agree.trans (by rw [Nat.add_zero])))
  exact absurd (Nat.le_of_dvd some_age divides) (by omega)

theorem Holds.push (holds : Holds size history signal) (sample : K) :
    Holds size (Function.update history (signal.length % size) sample) (signal ++ [sample]) := by
  intro age some_age inside
  rw [List.length_append, List.length_singleton]
  obtain newest | older := Nat.eq_or_lt_of_le some_age
  · have cell : signal.length + 1 + size - age = signal.length + size := by omega
    have time : ((signal.length + 1 : ℕ) : ℤ) - age = signal.length := by omega
    rw [cell, Nat.add_mod_right, Function.update_self, time, extended_concat]
  · have cell : signal.length + 1 + size - age = signal.length + size - (age - 1) := by omega
    have time : ((signal.length + 1 : ℕ) : ℤ) - age = signal.length - (age - 1 : ℕ) := by omega
    rw [cell, Function.update_of_ne (cell_ne (by omega) (by omega)),
      holds (age - 1) (by omega) (by omega), time, extended_append (by omega)]

theorem Holds.read {sample : K} (holds : Holds size history (signal ++ [sample])) {lag : ℕ}
    (inside : lag < size) :
    history ((signal.length % size + size - lag) % size) =
      extended (signal ++ [sample]) (signal.length - lag) := by
  have found := holds (lag + 1) (by omega) inside
  have cell : (signal ++ [sample]).length + size - (lag + 1) = signal.length + (size - lag) := by
    rw [List.length_append, List.length_singleton]
    omega
  have time : ((signal ++ [sample]).length : ℤ) - (lag + 1 : ℕ) = signal.length - lag := by
    rw [List.length_append, List.length_singleton]
    omega
  have start : signal.length % size + size - lag = signal.length % size + (size - lag) := by omega
  rw [cell, time] at found
  rw [start, Nat.mod_add_mod, found]

end DelayLine

end Library.Decimation
