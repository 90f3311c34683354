import Mathlib.Data.List.Infix
import MisrcGui.Library.Machine
import MisrcGui.Library.Percent

/-! Remote record commands of `gui_monitor_transport.c`: HTTP workers put commands
into one slot, the main thread takes, executes and reports them. Each locked
section is a step. -/
namespace MisrcGui.Net.RecordCommands
open Library
open Library.Percent (ascii unreserved)

/-- `g_record_result` and `net_cmd_monitor_record`, under one lock. Result codes
are 0 for done, 1 for failed, 2 for awaiting confirmation. -/
structure Slot where
  nextId : UInt64
  pendingId : UInt64
  completedId : UInt64
  resultCode : Nat
  detail : List UInt8
  command : Int

/-- `gui_monitor_server_queue_record`; the id 0 is never given out. -/
def queueRecord (slot : Slot) (command : Int) : Slot × UInt64 :=
  if command < 1 ∨ command > 3 then (slot, 0)
  else
    let next := slot.nextId + 1
    let id := if next = 0 then next + 1 else next
    ({ slot with nextId := id, pendingId := id, command := command }, id)

/-- `gui_monitor_server_take_record`: the command, with its id when there is one. -/
def takeRecord (slot : Slot) : Slot × Int × UInt64 :=
  if slot.command = 0 then (slot, 0, 0)
  else ({ slot with command := 0, pendingId := 0 }, slot.command, slot.pendingId)

/-- The loop of `gui_monitor_server_record_result`: what does not fit is left out. -/
def encodeDetail (cap : Nat) (encoded : List UInt8) : List UInt8 → List UInt8
  | [] => encoded
  | c :: rest =>
    if encoded.length + 4 < cap then encodeDetail cap (encoded ++ Percent.escapeByte unreserved c) rest
    else encoded

def detailCap : Nat := 256

def recordResult (slot : Slot) (id : UInt64) (result : Nat) (detail : List UInt8) : Slot :=
  if id = 0 then slot
  else { slot with
    completedId := id
    resultCode := result
    detail := encodeDetail detailCap [] detail }

/-- What `gui_net_poll_commands` reads of the application. -/
structure App where
  isCapturing : Bool
  isRecording : Bool
  statusMessage : List UInt8
  outputPath : List UInt8

/-- What the calls of one execution return; `status` is the message that
`gui_app_start_recording` leaves. -/
structure Calls where
  localSaveBegin : Int
  startRecording : Int
  status : List UInt8

/-- `snprintf` into a buffer of `cap` bytes. -/
def printed (cap : Nat) (text : List UInt8) : List UInt8 := text.take (cap - 1)

def reasonCap : Nat := 384

def refusal (app : App) (status : List UInt8) : List UInt8 :=
  let detail := if status = [] then ascii "recording did not start" else status
  let reason := printed reasonCap detail
  if ascii "Output directory" <:+: detail ∧ app.outputPath ≠ [] then
    reason ++ printed (reasonCap - reason.length) (ascii " (" ++ app.outputPath ++ ascii ")")
  else reason

/-- The execution of a command in `gui_net_poll_commands`: result and reason. -/
def execute (app : App) (calls : Calls) (command : Int) : App × Nat × List UInt8 :=
  if command = 3 then
    if app.isRecording then ({ app with isRecording := false }, 0, []) else (app, 0, [])
  else if !app.isCapturing then (app, 1, ascii "Start capture first")
  else if app.isRecording then (app, 1, ascii "Recording is already running")
  else if command ≠ 2 ∨ calls.localSaveBegin = 0 then
    let started := { app with statusMessage := calls.status }
    if calls.startRecording = 0 then ({ started with isRecording := true }, 0, [])
    else (started, if calls.startRecording = 1 then 2 else 1, refusal app calls.status)
  else
    let reason := ascii "Local Save rejected: receiver unavailable"
    ({ app with statusMessage := reason }, 1, reason)

structure Performed where
  id : UInt64
  command : Int
  result : Nat
  reason : List UInt8

inductive Main where
  | polling
  | taken (command : Int) (id : UInt64)
  | performed (last : Performed)

/-- `queued` holds what was put into the slot, with the ids returned; `executed`
and `published` hold what the main thread has done and reported. -/
structure State where
  slot : Slot
  app : App
  main : Main
  queued : List (UInt64 × Int)
  executed : List Performed
  published : List (UInt64 × Nat × List UInt8)

def initial (nextId : UInt64) (app : App) : State :=
  ⟨⟨nextId, 0, 0, 0, [], 0⟩, app, .polling, [], [], []⟩

/-- `world` stands for what the rest of the program does to the application. -/
inductive Action where
  | queue (command : Int)
  | take
  | execute (calls : Calls)
  | publish
  | world (app : App)

def step (state : State) : Action → Option State
  | .queue command =>
    let (slot, id) := queueRecord state.slot command
    if id = 0 then some { state with slot := slot }
    else some { state with slot := slot, queued := state.queued ++ [(id, command)] }
  | .take =>
    match state.main with
    | .polling =>
      let (slot, command, id) := takeRecord state.slot
      if command = 0 then some { state with slot := slot }
      else some { state with slot := slot, main := .taken command id }
    | _ => none
  | .execute calls =>
    match state.main with
    | .taken command id =>
      let (app, result, reason) := execute state.app calls command
      let done : Performed := ⟨id, command, result, reason⟩
      some { state with
        app := app
        main := .performed done
        executed := state.executed ++ [done] }
    | _ => none
  | .publish =>
    match state.main with
    | .performed done =>
      let slot := recordResult state.slot done.id done.result done.reason
      let report := (done.id, done.result, encodeDetail detailCap [] done.reason)
      some { state with
        slot := slot
        main := .polling
        published := if done.id = 0 then state.published else state.published ++ [report] }
    | _ => none
  | .world app => some { state with app := app }

def State.drained (state : State) : Prop :=
  state.slot.command = 0 ∧ state.main matches .polling

def Performed.order (done : Performed) : UInt64 × Int := (done.id, done.command)

def Performed.report (done : Performed) : UInt64 × Nat × List UInt8 :=
  (done.id, done.result, encodeDetail detailCap [] done.reason)

/-- Every id has had its own command executed once and in order, and the results
published are those of the executions under their ids. -/
structure Served (state : State) : Prop where
  executed : state.executed.map Performed.order = state.queued
  published : state.published = state.executed.map Performed.report

/-- The settings handler refuses a request while another one waits; this is the
same condition for record commands. -/
def slotFree (state : State) : Action → Bool
  | .queue command => command < 1 || command > 3 || state.slot.command == 0
  | _ => true

variable {state next : State} {action : Action}

def Slot.waiting (slot : Slot) : List (UInt64 × Int) :=
  if slot.command = 0 then [] else [(slot.pendingId, slot.command)]

def Main.held : Main → List (UInt64 × Int)
  | .taken command id => [(id, command)]
  | _ => []

def Main.unreported : Main → List Performed
  | .performed done => [done]
  | _ => []

def State.reachable (state : State) : List (UInt64 × Int) :=
  state.executed.map Performed.order ++ state.main.held ++ state.slot.waiting

structure Inv (state : State) : Prop where
  ordered : state.reachable.Sublist state.queued
  named : ∀ order ∈ state.reachable, order.1 ≠ 0
  reported : state.published ++ state.main.unreported.map Performed.report =
    state.executed.map Performed.report

def State.lost (state : State) : Nat := state.queued.length - state.reachable.length

theorem initial_inv (nextId : UInt64) (app : App) : Inv (initial nextId app) :=
  ⟨List.Sublist.refl _, nofun, rfl⟩

theorem queueRecord_rejects (slot : Slot) {command : Int} (outside : command < 1 ∨ command > 3) :
    queueRecord slot command = (slot, 0) := if_pos outside

theorem queueRecord_accepts (slot : Slot) {command : Int} (inside : ¬(command < 1 ∨ command > 3)) :
    (queueRecord slot command).2 ≠ 0 ∧
      (queueRecord slot command).1.waiting = [((queueRecord slot command).2, command)] := by
  have some : command ≠ 0 := by omega
  rw [queueRecord, if_neg inside]
  refine ⟨?_, if_neg some⟩
  show (if slot.nextId + 1 = 0 then slot.nextId + 1 + 1 else slot.nextId + 1) ≠ 0
  by_cases wraps : slot.nextId + 1 = 0
  · rw [if_pos wraps, wraps]
    decide
  · rwa [if_neg wraps]

theorem takeRecord_spec (slot : Slot) :
    (takeRecord slot).1.waiting = [] ∧
      slot.waiting = if (takeRecord slot).2.1 = 0 then []
        else [((takeRecord slot).2.2, (takeRecord slot).2.1)] := by
  by_cases empty : slot.command = 0
  · simp [takeRecord, Slot.waiting, empty]
  · simp [takeRecord, Slot.waiting, empty]

@[simp] theorem waiting_recordResult (slot : Slot) (id : UInt64) (result : Nat)
    (detail : List UInt8) : (recordResult slot id result detail).waiting = slot.waiting := by
  rw [recordResult]
  split <;> rfl

theorem isEmpty_waiting (slot : Slot) : slot.waiting.isEmpty = (slot.command == 0) := by
  rw [Slot.waiting]
  split <;> simp_all

/-- A step keeps the commands that can still be executed, or it puts a new one in
the place of what waits. -/
theorem step_reachable (h : step state action = some next) :
    (next.queued = state.queued ∧ next.reachable = state.reachable ∧ slotFree state action) ∨
      ∃ order : UInt64 × Int, order.1 ≠ 0 ∧
        next.queued = state.queued ++ [order] ∧
        next.reachable = state.executed.map Performed.order ++ state.main.held ++ [order] ∧
        slotFree state action = state.slot.waiting.isEmpty := by
  cases action with
  | queue command =>
    by_cases outside : command < 1 ∨ command > 3
    · simp only [step, queueRecord_rejects _ outside, if_true] at h
      cases h
      exact .inl ⟨rfl, rfl, by simp [slotFree, outside]⟩
    · obtain ⟨fresh, waits⟩ := queueRecord_accepts state.slot outside
      simp only [step, if_neg fresh] at h
      cases h
      refine .inr ⟨_, fresh, rfl, ?_, ?_⟩
      · show _ ++ _ ++ (queueRecord state.slot command).1.waiting = _
        rw [waits]
      · have inside : (decide (command < 1) || decide (command > 3)) = false := by simpa using outside
        rw [isEmpty_waiting, slotFree, inside, Bool.false_or]
  | take =>
    obtain ⟨empty, moved⟩ := takeRecord_spec state.slot
    cases place : state.main with
    | taken command id | performed last => simp [step, place] at h
    | polling =>
      simp only [step, place] at h
      refine .inl ?_
      by_cases nothing : (takeRecord state.slot).2.1 = 0
      · rw [if_pos nothing] at h moved
        cases h
        exact ⟨rfl, by simp only [State.reachable, empty, moved, place], rfl⟩
      · rw [if_neg nothing] at h moved
        cases h
        refine ⟨rfl, ?_, rfl⟩
        simp only [State.reachable, empty, moved, place, Main.held, List.append_nil]
  | execute calls =>
    cases place : state.main with
    | polling | performed last => simp [step, place] at h
    | taken command id =>
      simp only [step, place] at h
      cases h
      refine .inl ⟨rfl, ?_, rfl⟩
      simp [State.reachable, place, Main.held, Performed.order]
  | publish =>
    cases place : state.main with
    | polling | taken command id => simp [step, place] at h
    | performed last =>
      simp only [step, place] at h
      cases h
      refine .inl ⟨rfl, ?_, rfl⟩
      simp [State.reachable, place, Main.held]
  | world app =>
    cases h
    exact .inl ⟨rfl, rfl, rfl⟩

theorem step_reported (inv : Inv state) (h : step state action = some next) :
    next.published ++ next.main.unreported.map Performed.report =
      next.executed.map Performed.report := by
  have reported := inv.reported
  cases action with
  | queue command =>
    by_cases outside : command < 1 ∨ command > 3
    · simp only [step, queueRecord_rejects _ outside, if_true] at h
      cases h
      exact reported
    · simp only [step, if_neg (queueRecord_accepts state.slot outside).1] at h
      cases h
      exact reported
  | take =>
    cases place : state.main with
    | taken command id | performed last => simp [step, place] at h
    | polling =>
      rw [place] at reported
      simp only [step, place] at h
      split at h
      · cases h
        exact reported
      · cases h
        exact reported
  | execute calls =>
    cases place : state.main with
    | polling | performed last => simp [step, place] at h
    | taken command id =>
      rw [place] at reported
      simp only [step, place] at h
      cases h
      simp only [Main.unreported, List.map_nil, List.append_nil] at reported
      simp only [Main.unreported, reported, List.map_append]
  | publish =>
    cases place : state.main with
    | polling | taken command id => simp [step, place] at h
    | performed last =>
      rw [place] at reported
      simp only [Main.unreported, List.map_singleton] at reported
      have named : last.id ≠ 0 := by
        have member : last.report ∈ state.executed.map Performed.report := by
          rw [← reported]
          exact List.mem_append_right _ (List.mem_singleton_self _)
        obtain ⟨done, listed, same⟩ := List.mem_map.mp member
        have id : done.id = last.id := congrArg Prod.fst same
        rw [← id]
        refine inv.named done.order (List.mem_append_left _ (List.mem_append_left _ ?_))
        exact List.mem_map_of_mem listed
      simp only [step, place] at h
      cases h
      simp only [if_neg named, Main.unreported, List.map_nil, List.append_nil]
      exact reported
  | world app =>
    cases h
    exact reported

theorem step_inv (inv : Inv state) (h : step state action = some next) : Inv next := by
  rcases step_reachable h with ⟨queued, reachable, -⟩ | ⟨order, fresh, queued, reachable, -⟩
  · refine ⟨?_, ?_, step_reported inv h⟩
    · rw [queued, reachable]
      exact inv.ordered
    · rw [reachable]
      exact inv.named
  · have earlier : (state.executed.map Performed.order ++ state.main.held).Sublist
        state.reachable := List.sublist_append_left _ _
    refine ⟨?_, ?_, step_reported inv h⟩
    · rw [queued, reachable]
      exact (earlier.trans inv.ordered).append_right _
    · rw [reachable]
      intro entry listed
      rcases List.mem_append.mp listed with old | new
      · exact inv.named entry (earlier.subset old)
      · rw [List.mem_singleton.mp new]
        exact fresh

theorem length_waiting (slot : Slot) :
    slot.waiting.length = if slot.waiting.isEmpty then 0 else 1 := by
  rw [Slot.waiting]
  split <;> rfl

theorem step_lost (inv : Inv state) (h : step state action = some next) :
    next.lost = state.lost + if slotFree state action then 0 else 1 := by
  rcases step_reachable h with ⟨queued, reachable, free⟩ | ⟨order, -, queued, reachable, free⟩
  · rw [State.lost, queued, reachable, if_pos free]
    rfl
  · have bound := inv.ordered.length_le
    have held : state.reachable.length =
        (state.executed.map Performed.order ++ state.main.held).length +
          state.slot.waiting.length := List.length_append
    rw [State.lost, State.lost, queued, reachable, free, ← length_waiting, held,
      List.length_append, List.length_append, List.length_singleton]
    rw [held] at bound
    omega

theorem State.drained.reachable (drained : state.drained) :
    state.reachable = state.executed.map Performed.order := by
  obtain ⟨empty, polling⟩ := drained
  cases place : state.main with
  | polling => simp [State.reachable, Slot.waiting, empty, place, Main.held]
  | taken command id | performed last => simp [place] at polling

theorem Inv.published (inv : Inv state) (drained : state.drained) :
    state.published = state.executed.map Performed.report := by
  have reported := inv.reported
  obtain ⟨-, polling⟩ := drained
  cases place : state.main with
  | polling => simpa [place, Main.unreported] using reported
  | taken command id | performed last => simp [place] at polling

theorem Inv.served (inv : Inv state) (drained : state.drained) :
    Served state ↔ state.lost = 0 := by
  have reached := drained.reachable
  have bound := inv.ordered.length_le
  constructor
  · intro served
    rw [State.lost, reached, served.executed, Nat.sub_self]
  · intro none
    have length : state.reachable.length = state.queued.length := by
      rw [State.lost] at none
      omega
    exact ⟨reached ▸ inv.ordered.eq_of_length length, inv.published drained⟩

/-- In a run after which the main thread has polled, the commands are served if and
only if each was put into an empty slot. -/
theorem commands_served (nextId : UInt64) (app : App) (schedule : List Action) (last : State)
    (h : Machine.run step (initial nextId app) schedule = some last) (drained : last.drained) :
    Served last ↔ Machine.run (Machine.guarded slotFree step) (initial nextId app) schedule =
      some last := by
  have inv : Inv last :=
    Machine.run_invariant Inv (fun _ _ _ inv taken => step_inv inv taken)
      (initial_inv nextId app) h
  have priced := Machine.run_guarded_iff Inv State.lost
    (fun _ _ _ inv taken => ⟨step_inv inv taken, step_lost inv taken⟩)
    (initial_inv nextId app) h
  rw [inv.served drained]
  exact priced.2.symm

def idleApp : App := ⟨true, false, [], []⟩

def startsOk : Calls := ⟨0, 0, []⟩

def twoClients : List Action :=
  [.queue 1, .queue 3, .take, .execute startsOk, .publish, .take]

theorem first_command_lost :
    ¬∀ (nextId : UInt64) (app : App) (schedule : List Action) (last : State),
      Machine.run step (initial nextId app) schedule = some last → last.drained → Served last := by
  intro claim
  have served := claim 0 idleApp twoClients _ rfl ⟨rfl, rfl⟩
  exact absurd (congrArg List.length served.executed) (by decide)

def twoPolls : List Action :=
  [.queue 1, .take, .execute startsOk, .publish, .queue 3, .take, .execute startsOk, .publish]

theorem commands_served_twoPolls :
    ∃ last, Machine.run step (initial 0 idleApp) twoPolls = some last ∧ last.drained ∧
      (Served last ↔
        Machine.run (Machine.guarded slotFree step) (initial 0 idleApp) twoPolls = some last) :=
  ⟨_, rfl, ⟨rfl, rfl⟩, commands_served 0 idleApp twoPolls _ rfl ⟨rfl, rfl⟩⟩

end MisrcGui.Net.RecordCommands
