import MisrcGui.Library.Machine

/-! The tap handshake of one direct channel, one atomic access of `tap_enabled` or
`tap_inflight` a step. The control thread starts and stops recordings; the
capture thread pushes, alone or in latched groups. -/
namespace MisrcGui.Record.TapHandshake
open Library

/-- `enabling` is between the two stores of `tap_enable`; `waiting` is the loop of
`tap_wait_idle`, which returns to `idle`. -/
inductive Control where
  | idle
  | enabling
  | recording
  | waiting
deriving DecidableEq

/-- Places inside `gui_record_direct_push` and inside a group from
`tap_iteration_enter` to `tap_iteration_leave`. The push body runs in `pushing`
and `groupPushing`. -/
inductive Capture where
  | outside
  | pushEntered
  | pushing
  | pushLeaving
  | groupEntered
  | group (latched : Bool)
  | groupPushing
deriving DecidableEq

structure State where
  enabled : Bool
  inflight : Int
  control : Control
  capture : Capture
deriving DecidableEq

def initial : State := ⟨false, 0, .idle, .outside⟩

inductive Action where
  | clearContext
  | tapEnable
  | tapDisable
  | waitIdle
  | push
  | enter
  | loadEnabled
  | pushLatched (latchedOn : Bool)
  | pushInner
  | leave
deriving DecidableEq

/-- `gui_record_start` clears the context with `memset`; `tap_enable` resets the
counter once more before it sets the flag. A latched push is made only if its own
channel was latched; `gui_cxadc.c` also asks the other channel. -/
def step (state : State) : Action → Option State
  | .clearContext =>
    match state.control with
    | .idle => some { state with enabled := false, inflight := 0 }
    | _ => none
  | .tapEnable =>
    match state.control with
    | .idle => some { state with inflight := 0, control := .enabling }
    | .enabling => some { state with enabled := true, control := .recording }
    | _ => none
  | .tapDisable =>
    match state.control with
    | .idle => some { state with enabled := false }
    | .recording => some { state with enabled := false, control := .waiting }
    | _ => none
  | .waitIdle =>
    match state.control with
    | .waiting => if state.inflight ≠ 0 then some state else some { state with control := .idle }
    | _ => none
  | .push =>
    match state.capture with
    | .outside => some { state with inflight := state.inflight + 1, capture := .pushEntered }
    | _ => none
  | .enter =>
    match state.capture with
    | .outside => some { state with inflight := state.inflight + 1, capture := .groupEntered }
    | _ => none
  | .loadEnabled =>
    match state.capture with
    | .pushEntered =>
      let next : Capture := if state.enabled then .pushing else .pushLeaving
      some { state with capture := next }
    | .groupEntered => some { state with capture := .group state.enabled }
    | _ => none
  | .pushLatched latchedOn =>
    match state.capture with
    | .group latched =>
      if latched && latchedOn then some { state with capture := .groupPushing }
      else some state
    | _ => none
  | .pushInner =>
    match state.capture with
    | .pushing => some { state with capture := .pushLeaving }
    | .groupPushing => some { state with capture := .group true }
    | _ => none
  | .leave =>
    match state.capture with
    | .pushLeaving | .group _ =>
      some { state with inflight := state.inflight - 1, capture := .outside }
    | _ => none

/-- The counter is reset only while the capture thread is outside every push and
every group. -/
def resetsIdle (state : State) : Action → Bool
  | .clearContext => state.capture == .outside
  | .tapEnable => state.control != .idle || state.capture == .outside
  | _ => true

def pushRuns : Capture → Bool
  | .pushing | .groupPushing => true
  | _ => false

/-- From the return of `tap_wait_idle` until the next `tap_enable` sets the flag no
push runs, and a wait with the capture thread outside returns. -/
structure Quiesces (state : State) : Prop where
  nonnegative : 0 ≤ state.inflight
  quiet : state.control = .idle ∨ state.control = .enabling → pushRuns state.capture = false
  balanced : state.capture = .outside → state.inflight = 0
  returns : state.control = .waiting → state.capture = .outside →
    (step state .waitIdle).map State.control = some .idle

def sawEnabled : Capture → Bool
  | .pushing | .group true | .groupPushing => true
  | _ => false

structure Inv (state : State) : Prop where
  counted : state.inflight = if state.capture = .outside then 0 else 1
  armed : state.enabled = true → state.control = .recording
  covered : sawEnabled state.capture →
    state.control = .recording ∨ state.control = .waiting

variable {state next : State} {action : Action}

theorem initial_inv : Inv initial where
  counted := rfl
  armed := by simp [initial]
  covered := by simp [initial, sawEnabled]

theorem Inv.outside (inv : Inv state) (out : state.capture = .outside) :
    state.inflight = 0 := by
  rw [inv.counted, if_pos out]

theorem Inv.outside_of_zero (inv : Inv state) (zero : state.inflight = 0) :
    state.capture = .outside := by
  by_contra inside
  rw [inv.counted, if_neg inside] at zero
  contradiction

theorem step_inv (inv : Inv state) (allowed : resetsIdle state action)
    (h : step state action = some next) : Inv next := by
  obtain ⟨counted, armed, covered⟩ := inv
  cases action with
  | clearContext =>
    have out : state.capture = .outside := by simpa [resetsIdle] using allowed
    simp only [step] at h
    split at h
    · cases h
      exact ⟨by simp [out], by simp, covered⟩
    · contradiction
  | tapEnable =>
    simp only [step] at h
    split at h
    · rename_i idle
      have out : state.capture = .outside := by simpa [resetsIdle, idle] using allowed
      cases h
      refine ⟨by simp [out], fun enabled => ?_, by simp [out, sawEnabled]⟩
      exact absurd (idle.symm.trans (armed enabled)) (by decide)
    · cases h
      exact ⟨counted, fun _ => rfl, fun _ => .inl rfl⟩
    · contradiction
  | tapDisable =>
    simp only [step] at h
    split at h
    · cases h
      exact ⟨counted, by simp, covered⟩
    · cases h
      exact ⟨counted, by simp, fun _ => .inr rfl⟩
    · contradiction
  | waitIdle =>
    simp only [step] at h
    split at h
    · rename_i waiting
      split at h
      · cases h
        exact ⟨counted, armed, covered⟩
      · rename_i zero
        have out := Inv.outside_of_zero ⟨counted, armed, covered⟩ (by simpa using zero)
        cases h
        refine ⟨counted, fun enabled => ?_, by simp [out, sawEnabled]⟩
        exact absurd (waiting.symm.trans (armed enabled)) (by decide)
    · contradiction
  | push | enter =>
    simp only [step] at h
    split at h
    · rename_i out
      cases h
      exact ⟨by simp [counted, out], armed, by simp [sawEnabled]⟩
    · contradiction
  | loadEnabled =>
    simp only [step] at h
    split at h
    · rename_i entered
      cases h
      cases flag : state.enabled with
      | false => exact ⟨by simp [counted, entered], by simp, by simp [sawEnabled]⟩
      | true =>
        exact ⟨by simp [counted, entered], fun _ => armed flag, fun _ => .inl (armed flag)⟩
    · rename_i entered
      cases h
      refine ⟨by simp [counted, entered], armed, fun saw => .inl (armed ?_)⟩
      cases flag : state.enabled with
      | false => simp [flag, sawEnabled] at saw
      | true => rfl
    · contradiction
  | pushLatched latchedOn =>
    simp only [step] at h
    split at h
    · rename_i latched inGroup
      split at h
      · rename_i both
        cases h
        have on : latched = true := by
          simp only [Bool.and_eq_true] at both
          exact both.1
        have saw : sawEnabled state.capture := by simp [inGroup, on, sawEnabled]
        exact ⟨by simp [counted, inGroup], armed, fun _ => covered saw⟩
      · cases h
        exact ⟨counted, armed, covered⟩
    · contradiction
  | pushInner =>
    simp only [step] at h
    split at h
    · rename_i pushing
      cases h
      exact ⟨by simp [counted, pushing], armed, by simp [sawEnabled]⟩
    · rename_i pushing
      cases h
      have saw : sawEnabled state.capture := by simp [pushing, sawEnabled]
      exact ⟨by simp [counted, pushing], armed, fun _ => covered saw⟩
    · contradiction
  | leave =>
    simp only [step] at h
    split at h
    · rename_i leaving
      cases h
      exact ⟨by simp [counted, leaving], armed, by simp [sawEnabled]⟩
    · rename_i leaving
      cases h
      exact ⟨by simp [counted, leaving], armed, by simp [sawEnabled]⟩
    · contradiction

theorem Inv.quiesces (inv : Inv state) : Quiesces state where
  nonnegative := by
    rw [inv.counted]
    split <;> decide
  quiet := by
    intro stopped
    by_contra runs
    have saw : sawEnabled state.capture := by
      revert runs
      cases state.capture <;> simp [pushRuns, sawEnabled]
    rcases stopped with idle | enabling <;> rcases inv.covered saw with same | same <;>
      simp_all
  balanced := inv.outside
  returns := by
    intro waiting out
    simp [step, waiting, inv.outside out]

/-- In every run that resets the counter only while the capture thread is outside,
the handshake holds. -/
theorem handshake_holds (schedule : List Action) (last : State)
    (h : Machine.run (Machine.guarded resetsIdle step) initial schedule = some last) :
    Quiesces last := by
  refine Inv.quiesces (Machine.run_invariant Inv ?_ initial_inv h)
  intro state action next inv taken
  obtain ⟨allowed, taken⟩ := Machine.guarded_eq_some.mp taken
  exact step_inv inv allowed taken

/-- A group is entered before the flag is set; the reset in `tap_enable` falls
between the increment and the decrement. -/
def resetInGroup : List Action :=
  [.clearContext, .enter, .tapEnable, .tapEnable, .loadEnabled, .leave]

theorem counter_negative :
    ¬∀ (schedule : List Action) (last : State),
      Machine.run step initial schedule = some last → Quiesces last := by
  intro claim
  have kept := claim resetInGroup ⟨true, -1, .recording, .outside⟩ (by decide)
  exact absurd kept.nonnegative (by decide)

/-- Two recordings; a latched push is running when the first is stopped. -/
def twoRecordings : List Action :=
  [.clearContext, .tapEnable, .tapEnable, .enter, .loadEnabled, .pushLatched true,
    .tapDisable, .waitIdle, .pushInner, .leave, .waitIdle, .tapDisable,
    .clearContext, .tapEnable, .push, .tapEnable, .loadEnabled, .tapDisable,
    .waitIdle, .pushInner, .leave, .waitIdle]

theorem handshake_holds_twice : Quiesces
    ((Machine.run (Machine.guarded resetsIdle step) initial twoRecordings).get
      (by decide)) :=
  handshake_holds twoRecordings _ (Option.some_get _).symm

end MisrcGui.Record.TapHandshake
