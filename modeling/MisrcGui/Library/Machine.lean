import Mathlib.Data.Option.Basic

/-! Transition systems given by a partial step function. A schedule is a list
of actions; a run is the state it ends in. A guarded machine takes the same
steps, but only from states in which the guard allows the action. -/
namespace Library.Machine

variable {State Action : Type*}

def run (step : State → Action → Option State) : State → List Action → Option State
  | state, [] => some state
  | state, action :: rest => (step state action).bind fun next => run step next rest

def guarded (allowed : State → Action → Bool)
    (step : State → Action → Option State) : State → Action → Option State :=
  fun state action => if allowed state action then step state action else none

@[simp] theorem run_nil (step : State → Action → Option State) (state : State) :
    run step state [] = some state := rfl

@[simp] theorem run_cons (step : State → Action → Option State) (state : State)
    (action : Action) (rest : List Action) :
    run step state (action :: rest) =
      (step state action).bind fun next => run step next rest := rfl

theorem run_append (step : State → Action → Option State) (state : State)
    (first rest : List Action) :
    run step state (first ++ rest) =
      (run step state first).bind fun next => run step next rest := by
  induction first generalizing state with
  | nil => rfl
  | cons action first ih =>
    rw [List.cons_append, run_cons, run_cons, Option.bind_assoc]
    congr 1
    funext next
    exact ih next

variable {state : State} {action : Action} {schedule : List Action} {Goal : State → Prop}

theorem guarded_eq_some {allowed : State → Action → Bool} {step : State → Action → Option State}
    {next : State} :
    guarded allowed step state action = some next ↔
      allowed state action ∧ step state action = some next := by
  unfold guarded
  split <;> simp_all

theorem run_invariant {step : State → Action → Option State} (Invariant : State → Prop)
    (preserved : ∀ state action next, Invariant state → step state action = some next →
      Invariant next) {last : State} (start : Invariant state)
    (h : run step state schedule = some last) : Invariant last := by
  induction schedule generalizing state with
  | nil =>
    cases h
    exact start
  | cons action rest ih =>
    obtain ⟨next, taken, tail⟩ := Option.bind_eq_some_iff.mp h
    exact ih (preserved state action next start taken) tail

theorem run_rank {step : State → Action → Option State} (Invariant : State → Prop)
    (rank : State → Nat) (lowers : ∀ state action next, Invariant state →
      step state action = some next → Invariant next ∧ rank next < rank state) {last : State}
    (start : Invariant state) (h : run step state schedule = some last) :
    Invariant last ∧ schedule.length + rank last ≤ rank state := by
  induction schedule generalizing state with
  | nil =>
    cases h
    exact ⟨start, by simp⟩
  | cons action rest ih =>
    obtain ⟨next, taken, tail⟩ := Option.bind_eq_some_iff.mp h
    have first := lowers state action next start taken
    have later := ih first.1 tail
    refine ⟨later.1, ?_⟩
    rw [List.length_cons]
    omega

theorem replicate_invariant {step : State → Action → Option State} (Invariant : State → Prop)
    (preserved : ∀ state next, Invariant state → step state action = some next → Invariant next)
    {turns : Nat} {last : State} (start : Invariant state)
    (h : run step state (List.replicate turns action) = some last) : Invariant last := by
  induction turns generalizing state with
  | zero =>
    cases h
    exact start
  | succ turns ih =>
    obtain ⟨next, taken, tail⟩ := Option.bind_eq_some_iff.mp h
    exact ih (preserved state next start taken) tail

theorem replicate_total {step : State → Action → Option State} (Invariant : State → Prop)
    (possible : ∀ state, Invariant state → ∃ next, step state action = some next ∧ Invariant next)
    (turns : Nat) (start : Invariant state) :
    ∃ last, run step state (List.replicate turns action) = some last ∧ Invariant last := by
  induction turns generalizing state with
  | zero => exact ⟨state, rfl, start⟩
  | succ turns ih =>
    obtain ⟨next, taken, kept⟩ := possible state start
    obtain ⟨last, ran, invariant⟩ := ih kept
    refine ⟨last, ?_, invariant⟩
    rw [List.replicate_succ, run_cons, taken]
    exact ran

theorem replicate_reaches {step : State → Action → Option State} (Invariant Goal : State → Prop)
    (rank : State → Nat) (lowers : ∀ state, Invariant state → Goal state ∨
      ∃ next, step state action = some next ∧ Invariant next ∧ rank next < rank state)
    (start : Invariant state) :
    ∃ turns last, run step state (List.replicate turns action) = some last ∧
      Invariant last ∧ Goal last := by
  induction measure : rank state using Nat.strongRecOn generalizing state with
  | ind bound ih =>
    rcases lowers state start with goal | ⟨next, taken, kept, lower⟩
    · exact ⟨0, state, rfl, start, goal⟩
    · rw [measure] at lower
      obtain ⟨turns, last, ran, reached⟩ := ih (rank next) lower kept rfl
      refine ⟨turns + 1, last, ?_, reached⟩
      rw [List.replicate_succ, run_cons, taken]
      exact ran

theorem run_of_guarded {allowed : State → Action → Bool} {step : State → Action → Option State}
    {last : State} (h : run (guarded allowed step) state schedule = some last) :
    run step state schedule = some last := by
  induction schedule generalizing state with
  | nil => exact h
  | cons action rest ih =>
    obtain ⟨next, taken, tail⟩ := Option.bind_eq_some_iff.mp h
    rw [run_cons, (guarded_eq_some.mp taken).2]
    exact ih tail

/-- The cost rule: when exactly the steps that the guard refuses raise a cost, a run
is a run of the guarded machine if and only if it costs nothing. -/
theorem run_guarded_iff {allowed : State → Action → Bool} {step : State → Action → Option State}
    (Invariant : State → Prop) (cost : State → Nat)
    (priced : ∀ state action next, Invariant state → step state action = some next →
      Invariant next ∧ cost next = cost state + if allowed state action then 0 else 1)
    {last : State} (start : Invariant state)
    (h : run step state schedule = some last) :
    cost state ≤ cost last ∧
      (run (guarded allowed step) state schedule = some last ↔ cost last = cost state) := by
  induction schedule generalizing state with
  | nil =>
    cases h
    exact ⟨Nat.le_refl _, iff_of_true rfl rfl⟩
  | cons action rest ih =>
    obtain ⟨next, taken, tail⟩ := Option.bind_eq_some_iff.mp h
    obtain ⟨kept, price⟩ := priced state action next start taken
    obtain ⟨rises, free⟩ := ih kept tail
    rw [run_cons, guarded]
    by_cases fine : allowed state action
    · rw [if_pos fine] at price ⊢
      rw [taken, Option.bind_some, free]
      omega
    · rw [if_neg fine] at price ⊢
      refine ⟨by omega, iff_of_false nofun (by omega)⟩

/-- The simulation rule: when each step of a machine is matched by some run of
a second machine, every run is. The invariant may use the guard of the first. -/
theorem run_simulation {Abstract Event : Type*} {step : State → Action → Option State}
    {spec : Abstract → Event → Option Abstract} (view : State → Abstract)
    (Invariant : State → Prop)
    (matched : ∀ state action next, Invariant state → step state action = some next →
      Invariant next ∧ ∃ events, run spec (view state) events = some (view next))
    {last : State} (start : Invariant state)
    (h : run step state schedule = some last) :
    ∃ events, run spec (view state) events = some (view last) := by
  induction schedule generalizing state with
  | nil =>
    cases h
    exact ⟨[], rfl⟩
  | cons action rest ih =>
    obtain ⟨next, taken, tail⟩ := Option.bind_eq_some_iff.mp h
    obtain ⟨kept, first, hfirst⟩ := matched state action next start taken
    obtain ⟨later, hlater⟩ := ih kept tail
    refine ⟨first ++ later, ?_⟩
    rw [run_append, hfirst]
    exact hlater

def CanReach (step : State → Action → Option State) (state : State) (Goal : State → Prop) : Prop :=
  ∃ schedule last, run step state schedule = some last ∧ Goal last

theorem CanReach.now {step : State → Action → Option State} (goal : Goal state) :
    CanReach step state Goal := ⟨[], state, rfl, goal⟩

theorem CanReach.after {step : State → Action → Option State} {next : State}
    (taken : step state action = some next) (later : CanReach step next Goal) :
    CanReach step state Goal := by
  obtain ⟨schedule, last, ran, goal⟩ := later
  refine ⟨action :: schedule, last, ?_, goal⟩
  rw [run_cons, taken]
  exact ran

theorem CanReach.trans {step : State → Action → Option State} {Middle : State → Prop}
    (first : CanReach step state Middle)
    (second : ∀ middle, Middle middle → CanReach step middle Goal) :
    CanReach step state Goal := by
  obtain ⟨early, middle, ran, reached⟩ := first
  obtain ⟨late, last, continued, goal⟩ := second middle reached
  refine ⟨early ++ late, last, ?_, goal⟩
  rw [run_append, ran]
  exact continued

theorem CanReach.preserving {step : State → Action → Option State} (Invariant : State → Prop)
    (preserved : ∀ state action next, Invariant state → step state action = some next →
      Invariant next) (start : Invariant state) (path : CanReach step state Goal) :
    CanReach step state fun last => Invariant last ∧ Goal last := by
  obtain ⟨schedule, last, ran, goal⟩ := path
  exact ⟨schedule, last, ran, run_invariant Invariant preserved start ran, goal⟩

theorem CanReach.relax {strict weak : State → Action → Bool}
    {step : State → Action → Option State}
    (weaker : ∀ state action, strict state action → weak state action)
    (path : CanReach (guarded strict step) state Goal) :
    CanReach (guarded weak step) state Goal := by
  obtain ⟨schedule, last, ran, goal⟩ := path
  refine ⟨schedule, last, ?_, goal⟩
  clear goal
  induction schedule generalizing state with
  | nil => exact ran
  | cons action rest ih =>
    obtain ⟨next, taken, tail⟩ := Option.bind_eq_some_iff.mp ran
    obtain ⟨permitted, moved⟩ := guarded_eq_some.mp taken
    rw [run_cons, guarded_eq_some.mpr ⟨weaker state action permitted, moved⟩]
    exact ih tail

theorem CanReach.descend {step : State → Action → Option State} (Invariant Goal : State → Prop)
    (rank : State → Nat) (nearer : ∀ state, Invariant state → Goal state ∨
      CanReach step state fun next => Invariant next ∧ rank next < rank state)
    (start : Invariant state) : CanReach step state Goal := by
  induction measure : rank state using Nat.strongRecOn generalizing state with
  | ind bound ih =>
    rcases nearer state start with goal | closer
    · exact .now goal
    · refine closer.trans fun next ⟨kept, lower⟩ => ih (rank next) ?_ kept rfl
      rwa [measure] at lower

end Library.Machine
