import Mathlib.Data.List.Induction

/-! Loops that check a stream symbol by symbol and stop at the first bad one. -/
namespace Library.Scanner

variable {State Symbol : Type*} (step : State → Symbol → Except State State)

/-- The state after the last symbol read, and whether all were good. -/
def scan : State → List Symbol → State × Bool
  | state, [] => (state, true)
  | state, symbol :: rest =>
    match step state symbol with
    | .ok next => scan next rest
    | .error failed => (failed, false)

def reached : Except State State → State
  | .ok next => next
  | .error failed => failed

@[simp] theorem scan_nil (state : State) : scan step state [] = (state, true) := rfl

theorem scan_ok {state next : State} {symbol : Symbol} (h : step state symbol = .ok next)
    (rest : List Symbol) : scan step state (symbol :: rest) = scan step next rest := by
  rw [scan, h]

theorem scan_error {state failed : State} {symbol : Symbol}
    (h : step state symbol = .error failed) (rest : List Symbol) :
    scan step state (symbol :: rest) = (failed, false) := by
  rw [scan, h]

theorem scan_append (state : State) (front rest : List Symbol) :
    scan step state (front ++ rest) =
      if (scan step state front).2 then scan step (scan step state front).1 rest
      else scan step state front := by
  induction front generalizing state with
  | nil => simp
  | cons symbol front ih =>
    cases h : step state symbol with
    | ok next => rw [List.cons_append, scan_ok step h, scan_ok step h, ih]
    | error failed =>
      rw [List.cons_append, scan_error step h, scan_error step h]
      rfl

theorem scan_snoc {state : State} {front : List Symbol} {symbol : Symbol}
    (h : (scan step state (front ++ [symbol])).2 = true) :
    (scan step state front).2 = true ∧
      step (scan step state front).1 symbol = .ok (scan step state (front ++ [symbol])).1 := by
  rw [scan_append] at h ⊢
  cases good : (scan step state front).2 with
  | false =>
    rw [good, if_neg Bool.false_ne_true] at h
    exact absurd (good.symm.trans h) Bool.false_ne_true
  | true =>
    rw [good, if_pos rfl] at h
    cases last : step (scan step state front).1 symbol with
    | error failed =>
      rw [scan_error step last] at h
      exact absurd h Bool.false_ne_true
    | ok next => simp [scan, last]

theorem scan_front {state : State} {front rest : List Symbol}
    (h : (scan step state (front ++ rest)).2 = true) : (scan step state front).2 = true := by
  rw [scan_append] at h
  by_contra bad
  rw [if_neg bad] at h
  exact bad h

/-- A failure that the state remembers refuses every later chunk. -/
def feed (failed : State → Bool) (state : State) (chunk : List Symbol) : State × Bool :=
  if failed state then (state, false) else scan step state chunk

def feedChunks {Verdict : Type*} (feed : State → List Symbol → State × Verdict)
    (start : State × Verdict) (chunks : List (List Symbol)) : State × Verdict :=
  chunks.foldl (fun reached chunk => feed reached.1 chunk) start

variable {step} {failed : State → Bool}

def Sticky (step : State → Symbol → Except State State) (failed : State → Bool) : Prop :=
  ∀ state symbol, failed state = false →
    match step state symbol with
    | .ok next => failed next = false
    | .error next => failed next = true

theorem scan_remembers (sticky : Sticky step failed) (symbols : List Symbol) {state : State}
    (running : failed state = false) :
    failed (scan step state symbols).1 = !(scan step state symbols).2 := by
  induction symbols generalizing state with
  | nil => exact running
  | cons symbol rest ih =>
    have kept := sticky state symbol running
    cases h : step state symbol with
    | ok next =>
      rw [h] at kept
      rw [scan_ok step h, ih kept]
    | error next =>
      rw [h] at kept
      rw [scan_error step h, kept]
      rfl

theorem feed_append (sticky : Sticky step failed) (state : State) (front rest : List Symbol) :
    feed step failed (feed step failed state front).1 rest =
      feed step failed state (front ++ rest) := by
  cases running : failed state with
  | true => simp [feed, running]
  | false =>
    have remembered := scan_remembers sticky front running
    simp only [feed, running, Bool.false_eq_true, if_false, scan_append]
    cases good : (scan step state front).2 with
    | true => simp [remembered, good]
    | false =>
      simp only [remembered, good, Bool.not_false, if_true, Bool.false_eq_true, if_false]
      rw [← good]

theorem feedChunks_eq {Verdict : Type*} {feed : State → List Symbol → State × Verdict}
    (append : ∀ state front rest, feed (feed state front).1 rest = feed state (front ++ rest))
    (state : State) (chunks : List (List Symbol)) :
    feedChunks feed (feed state []) chunks = feed state chunks.flatten := by
  induction chunks using List.reverseRecOn with
  | nil => rfl
  | append_singleton chunks chunk ih =>
    unfold feedChunks at ih ⊢
    rw [List.foldl_append, List.foldl_cons, List.foldl_nil, ih, append]
    simp

theorem exists_ok_guarded {bad : Prop} [Decidable bad] {refused : State}
    {result : Except State State} {Next : State → Prop} :
    (∃ next, (if bad then .error refused else result) = Except.ok next ∧ Next next) ↔
      ¬bad ∧ ∃ next, result = .ok next ∧ Next next := by
  by_cases h : bad <;> simp [h]

/-- The rule of residual languages: a scanner accepts a family of languages, one for
each valid state, when every step takes a state's language to its residual. -/
theorem scan_accepts {Valid : State → Prop} {Language : State → List Symbol → Prop}
    (empty : ∀ state, Valid state → Language state [])
    (residual : ∀ state, Valid state → ∀ symbol rest, Language state (symbol :: rest) ↔
      ∃ next, step state symbol = .ok next ∧ Language next rest)
    (continues : ∀ state, Valid state → ∀ symbol next, step state symbol = .ok next →
      Valid next)
    (symbols : List Symbol) {state : State} (valid : Valid state) :
    (scan step state symbols).2 = true ↔ Language state symbols := by
  induction symbols generalizing state with
  | nil => exact ⟨fun _ => empty state valid, fun _ => rfl⟩
  | cons symbol rest ih =>
    rw [residual state valid]
    cases h : step state symbol with
    | ok next =>
      have later := continues state valid symbol next h
      rw [scan_ok step h, ih later]
      simp
    | error next =>
      rw [scan_error step h]
      simp

end Library.Scanner
