import MisrcGui.Library.Machine

/-! Network mode transitions of `gui_net.c`: the UI thread writes `settings.net_mode`
and asks for a transition, a worker chases the value. Each access of
`s_transition_running` and of `net_mode` is a step, and so is each call of
`gui_net_apply_mode`. -/
namespace MisrcGui.Net.ModeTransition
open Library

def modeLocal : Int := 0
def modeServer : Int := 1
def modeClient : Int := 2
def modeMonitorServer : Int := 3
def modeMonitorClient : Int := 4
def modeLast : Int := modeMonitorClient

def normalizeMode (mode : Int) : Int :=
  if mode = modeMonitorServer then modeServer
  else if mode < modeLocal ∨ mode > modeLast then modeLocal
  else mode

/-- The branch of `gui_net_apply_mode` that runs for a target. -/
def appliedMode (want : Int) : Int :=
  if want = modeMonitorClient then modeMonitorClient
  else if want = modeServer then modeServer
  else if want = modeClient then modeClient
  else modeLocal

/-- Places of `gui_ui_net_mode_apply` and `gui_net_request_apply_mode`. -/
inductive Ui where
  | idle
  | chosen (cur : Int)
  | requesting (prev : Int) (force : Bool)
  | joining (prev : Int) (force : Bool)
  | preparing (prev : Int) (force : Bool)
  | raising
  | creating
deriving DecidableEq

/-- Places of `net_transition_thread`; `exited` is a finished thread that nobody
has joined, or no thread. -/
inductive Worker where
  | starting
  | looking (applied : Int) (force : Bool)
  | applying (applied want : Int)
  | marking (prev applied : Int)
  | leaving (applied : Int)
  | dropping (applied : Int) (reenum : Bool)
  | closing (reenum : Bool)
  | exited
deriving DecidableEq

/-- `written` and `lastApplied` record what the UI wrote last and which mode the
last `gui_net_apply_mode` set up. -/
structure State where
  netMode : Int
  transitionRunning : Bool
  transitionThreadStarted : Bool
  transitionReenumerate : Bool
  transitionPrevMode : Int
  transitionForce : Bool
  reenumeratePending : Bool
  ui : Ui
  worker : Worker
  written : Int
  lastApplied : Int
deriving DecidableEq

/-- `gui_net_apply_mode`; the old server id is replaced in the settings. -/
def applyMode (state : State) : State :=
  let want := if state.netMode = modeMonitorServer then modeServer else state.netMode
  { state with netMode := want, lastApplied := appliedMode want }

inductive UiAction where
  | choose
  | write (next : Int) (force : Bool)
  | request
deriving DecidableEq

/-- `request` is the next step of `gui_net_request_apply_mode`: the test of the
running flag, the join, the parameters, the flag, the thread. -/
def uiStep (state : State) : UiAction → Option State
  | .choose =>
    match state.ui with
    | .idle => some { state with ui := .chosen state.netMode }
    | _ => none
  | .write next force =>
    match state.ui with
    | .chosen cur =>
      some { state with netMode := next, written := next, ui := .requesting cur force }
    | _ => none
  | .request =>
    match state.ui with
    | .requesting prev force =>
      if state.transitionRunning then some { state with ui := .idle }
      else some { state with ui := .joining prev force }
    | .joining prev force =>
      if state.transitionThreadStarted then
        if state.worker = .exited then
          some { state with transitionThreadStarted := false, ui := .preparing prev force }
        else none
      else some { state with ui := .preparing prev force }
    | .preparing prev force =>
      some { state with
        transitionPrevMode := normalizeMode prev
        transitionForce := force
        transitionReenumerate := false
        ui := .raising }
    | .raising => some { state with transitionRunning := true, ui := .creating }
    | .creating =>
      some { state with worker := .starting, transitionThreadStarted := true, ui := .idle }
    | _ => none

/-- One step of `net_transition_thread`. -/
def workerStep (state : State) : Option State :=
  match state.worker with
  | .starting =>
    some { state with
      worker := .looking (normalizeMode state.transitionPrevMode) state.transitionForce }
  | .looking applied force =>
    let want := normalizeMode state.netMode
    if !force && want == applied then some { state with worker := .leaving applied }
    else some { state with worker := .applying applied want }
  | .applying applied want => some { applyMode state with worker := .marking applied want }
  | .marking prev applied =>
    let again := applied == modeLocal || prev == modeClient || prev == modeMonitorClient
    some { state with
      transitionReenumerate := again || state.transitionReenumerate
      worker := .looking applied false }
  | .leaving applied =>
    some { state with
      transitionReenumerate := false
      worker := .dropping applied state.transitionReenumerate }
  | .dropping _ reenum =>
    some { state with transitionRunning := false, worker := .closing reenum }
  | .closing reenum =>
    some { state with
      reenumeratePending := reenum || state.reenumeratePending
      worker := .exited }
  | .exited => none

inductive Action where
  | ui (action : UiAction)
  | worker
deriving DecidableEq

def step (state : State) : Action → Option State
  | .ui action => uiStep state action
  | .worker => workerStep state

/-- The UI is outside `gui_net_request_apply_mode` and has written nothing that it
has not asked for. -/
def Ui.quiet : Ui → Bool
  | .idle | .chosen _ => true
  | _ => false

/-- The worker has read a target equal to the mode it holds to be applied, and has
not cleared the running flag. -/
def Worker.decided : Worker → Option Int
  | .leaving applied | .dropping applied _ => some applied
  | _ => none

/-- Two things must not happen. The UI finds the flag of a worker that has already
decided to stop, with another target in the settings. The worker finds the target
equal to its own `applied` when another mode is the one set up last. -/
def chases (state : State) : Action → Bool
  | .ui .request =>
    match state.ui, state.worker.decided with
    | .requesting _ _, some applied => normalizeMode state.netMode = applied
    | _, _ => true
  | .worker =>
    match state.worker with
    | .looking applied false =>
      normalizeMode state.netMode ≠ applied || state.lastApplied = applied
    | _ => true
  | _ => true

def Converged (state : State) : Prop :=
  state.transitionRunning = false → state.ui.quiet →
    state.lastApplied = normalizeMode state.written

@[simp] theorem normalizeMode_applyMode (state : State) :
    normalizeMode (applyMode state).netMode = normalizeMode state.netMode := by
  by_cases old : state.netMode = modeMonitorServer
  · simp only [applyMode, old, if_true]
    rfl
  · simp only [applyMode, if_neg old]

def Worker.running : Worker → Bool
  | .starting | .looking _ _ | .applying _ _ | .marking _ _ | .leaving _ | .dropping _ _ => true
  | .closing _ | .exited => false

/-- Inside `gui_net_request_apply_mode`, past the test of the running flag. -/
def Ui.launching : Ui → Bool
  | .joining _ _ | .preparing _ _ | .raising | .creating => true
  | _ => false

structure Inv (state : State) : Prop where
  target : normalizeMode state.netMode = normalizeMode state.written
  flag : state.transitionRunning = (state.worker.running || state.ui == .creating)
  alone : state.ui.launching → state.worker.running = false
  converged : Converged state
  stopped : ∀ applied, state.worker.decided = some applied →
    state.lastApplied = applied ∧ (state.ui.quiet → normalizeMode state.netMode = applied)

variable {state next : State} {action : Action}

theorem Inv.runs (inv : Inv state) (running : state.worker.running) :
    state.transitionRunning = true := by
  rw [inv.flag, running, Bool.true_or]

theorem uiStep_inv {action : UiAction} (inv : Inv state) (allowed : chases state (.ui action))
    (h : uiStep state action = some next) : Inv next := by
  have inv' := inv
  obtain ⟨target, flag, alone, converged, stopped⟩ := inv'
  cases action with
  | choose =>
    cases place : state.ui <;> simp only [uiStep, place] at h <;> cases h
    rw [place] at flag
    refine ⟨target, flag, nofun, fun ended _ => ?_, fun applied decided => ?_⟩
    · exact converged ended (by rw [place]; rfl)
    · have before := stopped applied decided
      exact ⟨before.1, fun _ => before.2 (by rw [place]; rfl)⟩
  | write mode force =>
    cases place : state.ui <;> simp only [uiStep, place] at h <;> cases h
    rw [place] at flag
    exact ⟨rfl, flag, nofun, nofun, fun applied decided => ⟨(stopped applied decided).1, nofun⟩⟩
  | request =>
    cases place : state.ui with
    | idle | chosen cur => simp [uiStep, place] at h
    | requesting prev force =>
      simp only [uiStep, place] at h
      rw [place] at flag
      split at h
      · rename_i running
        cases h
        refine ⟨target, flag, nofun, fun ended => absurd (running.symm.trans ended) (by decide),
          fun applied decided => ⟨(stopped applied decided).1, fun _ => ?_⟩⟩
        simp only [chases, place, show state.worker.decided = some applied from decided,
          decide_eq_true_eq] at allowed
        exact allowed
      · rename_i ended
        cases h
        refine ⟨target, flag, fun _ => ?_, nofun,
          fun applied decided => ⟨(stopped applied decided).1, nofun⟩⟩
        exact Bool.eq_false_iff.mpr fun running => ended (inv.runs running)
    | joining prev force =>
      have ended := alone (by rw [place]; rfl)
      rw [place] at flag
      simp only [uiStep, place] at h
      split at h
      · split at h
        · cases h
          exact ⟨target, flag, fun _ => ended, nofun,
            fun applied decided => ⟨(stopped applied decided).1, nofun⟩⟩
        · contradiction
      · cases h
        exact ⟨target, flag, fun _ => ended, nofun,
          fun applied decided => ⟨(stopped applied decided).1, nofun⟩⟩
    | preparing prev force =>
      have ended := alone (by rw [place]; rfl)
      rw [place] at flag
      simp only [uiStep, place] at h
      cases h
      exact ⟨target, flag, fun _ => ended, nofun,
        fun applied decided => ⟨(stopped applied decided).1, nofun⟩⟩
    | raising =>
      have ended := alone (by rw [place]; rfl)
      simp only [uiStep, place] at h
      cases h
      exact ⟨target, by simp, fun _ => ended, nofun,
        fun applied decided => ⟨(stopped applied decided).1, nofun⟩⟩
    | creating =>
      have raised : state.transitionRunning = true := by rw [flag, place]; simp
      simp only [uiStep, place] at h
      cases h
      exact ⟨target, raised, nofun, fun ended => absurd (raised.symm.trans ended) (by decide),
        nofun⟩

theorem Inv.working (inv : Inv state) (running : state.worker.running)
    (target : normalizeMode next.netMode = normalizeMode state.netMode)
    (written : next.written = state.written)
    (flag : next.transitionRunning = state.transitionRunning) (ui : next.ui = state.ui)
    (stays : next.worker.running)
    (stopped : ∀ applied, next.worker.decided = some applied →
      next.lastApplied = applied ∧ (next.ui.quiet → normalizeMode next.netMode = applied)) :
    Inv next where
  target := by rw [target, written, inv.target]
  flag := by rw [flag, inv.runs running, stays, Bool.true_or]
  alone := by
    intro launching
    rw [ui] at launching
    exact absurd (running.symm.trans (inv.alone launching)) (by decide)
  converged := by
    intro ended
    rw [flag, inv.runs running] at ended
    contradiction
  stopped := stopped

theorem workerStep_inv (inv : Inv state) (allowed : chases state .worker)
    (h : workerStep state = some next) : Inv next := by
  cases place : state.worker with
  | starting | marking =>
    have running : state.worker.running := by rw [place]; rfl
    simp only [workerStep, place] at h
    cases h
    exact inv.working running rfl rfl rfl rfl rfl nofun
  | looking applied force =>
    have running : state.worker.running := by rw [place]; rfl
    simp only [workerStep, place] at h
    split at h
    · rename_i stops
      rw [Bool.and_eq_true, Bool.not_eq_true', beq_iff_eq] at stops
      obtain ⟨unforced, same⟩ := stops
      subst unforced
      simp only [chases, place, same, ne_eq, not_true_eq_false, decide_false, Bool.false_or,
        decide_eq_true_eq] at allowed
      cases h
      refine inv.working running rfl rfl rfl rfl rfl fun kept decided => ?_
      cases decided
      exact ⟨allowed, fun _ => same⟩
    · cases h
      exact inv.working running rfl rfl rfl rfl rfl nofun
  | applying applied want =>
    have running : state.worker.running := by rw [place]; rfl
    simp only [workerStep, place] at h
    cases h
    exact inv.working running (normalizeMode_applyMode state) rfl rfl rfl rfl nofun
  | leaving applied =>
    have running : state.worker.running := by rw [place]; rfl
    have held := inv.stopped applied (by rw [place]; rfl)
    simp only [workerStep, place] at h
    cases h
    refine inv.working running rfl rfl rfl rfl rfl fun kept decided => ?_
    cases decided
    exact held
  | dropping applied reenum =>
    have running : state.worker.running := by rw [place]; rfl
    have held := inv.stopped applied (by rw [place]; rfl)
    have waiting : state.ui ≠ .creating := by
      intro creating
      have ended := inv.alone (by rw [creating]; rfl)
      exact absurd (running.symm.trans ended) (by decide)
    simp only [workerStep, place] at h
    cases h
    refine ⟨inv.target, ?_, fun _ => rfl, fun _ quiet => ?_, nofun⟩
    · simp [Worker.running, waiting]
    · exact held.1.trans ((held.2 quiet).symm.trans inv.target)
  | closing reenum =>
    have flag := inv.flag
    rw [place] at flag
    simp only [workerStep, place] at h
    cases h
    exact ⟨inv.target, flag, fun _ => rfl, inv.converged, nofun⟩
  | exited => simp [workerStep, place] at h

theorem step_inv (inv : Inv state) (allowed : chases state action)
    (h : step state action = some next) : Inv next := by
  cases action with
  | ui action => exact uiStep_inv inv allowed h
  | worker => exact workerStep_inv inv allowed h

end MisrcGui.Net.ModeTransition
