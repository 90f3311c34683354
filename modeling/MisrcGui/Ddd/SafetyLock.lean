import MisrcGui.Library.Lockout
import MisrcGui.Ddd.Collection

/-! The safety lock of `gui_ddd_v1.c`: enumerations and the open, start and stop of the
one session, over any devices, control replies and fates of the USB queue. -/
namespace MisrcGui.Ddd.SafetyLock
open Library
open Lockout (Phase)
open Collection

/-- `gone` is a thread that has ended and is not joined yet. -/
inductive CaptureThread where
  | absent
  | running
  | gone
deriving DecidableEq

/-- One end of a session: what became of its device, and whether its path was locked. -/
structure End where
  usbPath : String
  stopped : Bool
  locked : Bool
deriving DecidableEq

/-- The statics of `gui_ddd_v1.c`; a handle is the path it was opened at, and `abandoned` is
`s_ddd_async_abandoned`. `strayThreads` have lost their place in `app->ddd_thread`.
`history` and `ends` are ghost. -/
structure State where
  handle : Option String
  usbPath : String
  collection : CollectionState
  lockPhase : Phase
  lockedPath : String
  orphan : Bool
  abandoned : Bool
  dddRunning : Bool
  dddThread : CaptureThread
  strayThreads : Nat
  devices : String → Device
  replies : Nat → Reply
  transfers : Nat
  history : List (Lockout.Event String)
  ends : List End

def initial (devices : String → Device) (replies : Nat → Reply) : State where
  handle := none
  usbPath := ""
  collection := collectionStateInit
  lockPhase := .free
  lockedPath := ""
  orphan := false
  abandoned := false
  dddRunning := false
  dddThread := .absent
  strayThreads := 0
  devices
  replies
  transfers := 0
  history := []
  ends := []

/-- An entry of `misrc_device_list_t`. -/
structure DeviceInfo where
  ddd : Bool
  dddProfile : DeviceProfile
  dddUsbPath : String

def present (devices : List DeviceInfo) (usbPath : String) : Bool :=
  devices.any fun device =>
    device.ddd && device.dddProfile == .protocolV1 && device.dddUsbPath == usbPath

def observeEnumeration (state : State) (complete : Bool) (devices : List DeviceInfo) : State :=
  if !complete then state
  else
    let state := { state with history := state.history ++ [.observed (present devices)] }
    if state.lockPhase = .free || state.lockedPath = "" then state
    else if state.lockPhase = .waitDisappearance && !present devices state.lockedPath then
      { state with lockPhase := .waitReappearance }
    else if state.lockPhase = .waitReappearance && present devices state.lockedPath then
      { state with lockPhase := .free, lockedPath := "" }
    else state

def pathLocked (state : State) (usbPath : String) : Bool :=
  state.lockPhase ≠ .free && usbPath == state.lockedPath

def lockActivePath (state : State) : State :=
  if state.usbPath = "" then state
  else
    { state with
      lockedPath := state.usbPath
      lockPhase := .waitDisappearance
      history := state.history ++ [.locked state.usbPath] }

/-- Whether `gui_ddd_async_run` leaves its queue behind, and what each later look at the
queue finds: `has_unreaped`, the two calls of `try_reclaim`, and `abandon`. -/
structure Reaping where
  unreaped : Bool
  pendingAtControl : Bool
  pendingAtReclaim : Bool
  pendingAtClose : Bool
  pendingAtAbandon : Bool

/-- The capture thread is joined; one that had ended before has left its orphan already. -/
def join (state : State) (reaping : Reaping) : State :=
  { state with
    dddThread := .absent
    orphan :=
      if state.dddThread = .running then state.orphan || reaping.unreaped else state.orphan }

def syncControlAllowed (state : State) (reaping : Reaping) : Bool × State :=
  if state.orphan && reaping.pendingAtControl then (false, state)
  else if state.orphan then
    if reaping.pendingAtReclaim then (false, state) else (true, { state with orphan := false })
  else (true, state)

/-- The end of `ddd_v1_close`. -/
def forgetHandle (state : State) : State :=
  { state with handle := none, usbPath := "", collection := collectionStateInit }

def close (state : State) (reaping : Reaping) : State :=
  if state.orphan then
    if !reaping.pendingAtClose || !reaping.pendingAtAbandon then
      forgetHandle { state with orphan := false }
    else if !state.abandoned then
      forgetHandle { state with orphan := false, abandoned := true }
    else state
  else forgetHandle state

structure UsbAnswers where
  contextInitialised : Bool
  listed : Bool
  matchCount : Nat
  linkSpeedAllowed : Bool
  exactEndpoint : Bool
  opened : Bool
  claimed : Bool

def openRefused (state : State) (stableUsbPath : String) : Bool :=
  stableUsbPath == "" || state.abandoned || pathLocked state stableUsbPath

def openDevice (state : State) (stableUsbPath : String) (usb : UsbAnswers) (reaping : Reaping) :
    State :=
  if openRefused state stableUsbPath then state
  else if !usb.contextInitialised then state
  else if !usb.listed || usb.matchCount ≠ 1 || !usb.linkSpeedAllowed || !usb.exactEndpoint
      || !usb.opened then
    close state reaping
  else
    let state := { state with handle := some stableUsbPath }
    if !usb.claimed then close state reaping
    else
      { state with
        usbPath := stableUsbPath
        history := state.history ++ [.granted stableUsbPath] }

def State.link (state : State) : Link :=
  ⟨(state.handle.map state.devices).getD ⟨fun _ => 0, false⟩, state.replies, state.transfers⟩

def State.after (state : State) (outcome : Outcome) : State :=
  { state with
    collection := outcome.state
    devices :=
      match state.handle with
      | some path => Function.update state.devices path outcome.link.device
      | none => state.devices
    transfers := outcome.link.transfers }

/-- The record of an end, for the session that was open before it. -/
def State.ended (state session : State) : State :=
  { state with
    ends := state.ends ++ [⟨session.usbPath,
      match session.handle with
      | some path => !(state.devices path).collecting
      | none => false,
      pathLocked state session.usbPath⟩] }

structure StartAnswers where
  bufferReady : Bool
  extractionStarted : Bool
  threadCreated : Bool
  streamReady : Bool
  reaping : Reaping

/-- `ddd_collection_rollback_v1`, and the lock when it fails. -/
def rollBack (state : State) : State :=
  let outcome := collectionRollback state.collection state.link
  let state := state.after outcome
  if outcome.result ≠ .ok then lockActivePath state else state

/-- How a stop and a start whose stream does not come end: the device is controlled only
when no callback is left. -/
def endCapture (joined : State) (reaping : Reaping) (control : State → State) : State :=
  let (allowed, state) := syncControlAllowed joined reaping
  close (if !allowed then lockActivePath state else control state) reaping

def launch (state : State) : State :=
  { state with
    dddRunning := true
    strayThreads := state.strayThreads + (if state.dddThread = .running then 1 else 0)
    dddThread := .running }

/-- `gui_ddd_v1_start` from the configured device on. -/
def startCapture (state : State) (answers : StartAnswers) : State :=
  if !answers.threadCreated then
    close (rollBack { state with dddRunning := false }) answers.reaping
  else
    let started := launch state
    if answers.streamReady then started
    else
      endCapture (join { started with dddRunning := false } answers.reaping) answers.reaping
        rollBack

def startAccepted (state : State) (decimation : UInt8) : Bool :=
  state.handle.isSome && decimationIsSupported decimation

def start (state : State) (testMode : Bool) (decimation : UInt8) (answers : StartAnswers) :
    State :=
  if !startAccepted state decimation then state
  else if !answers.bufferReady || !answers.extractionStarted then close state answers.reaping
  else
    let outcome := collectionStart state.link testMode decimation
    let configured := state.after outcome
    if outcome.result ≠ .ok then
      let attempted := outcome.state.rollbackAttempted
      let failed :=
        if attempted && !outcome.state.rollbackSucceeded then lockActivePath configured
        else configured
      let closed := close failed answers.reaping
      -- a device of which only the identity was read has not been touched
      if attempted then closed.ended state else closed
    else
      let last := startCapture configured answers
      if answers.threadCreated && answers.streamReady then last else last.ended state

/-- `ddd_collection_stop_v1`, and the rollback when it fails. -/
def stopCollection (state : State) : State :=
  let outcome := collectionStop state.collection state.link
  let state := state.after outcome
  if outcome.result ≠ .ok then rollBack state else state

def stop (state : State) (reaping : Reaping) : State :=
  if state.handle.isNone && !state.dddRunning then state
  else
    (endCapture (join { state with dddRunning := false } reaping) reaping stopCollection).ended
      state

/-- Besides the calls: the capture thread ends by itself, also one that nothing joins, and a
device loses its power. -/
inductive Action where
  | enumerate (complete : Bool) (devices : List DeviceInfo)
  | openPath (stableUsbPath : String) (usb : UsbAnswers) (reaping : Reaping)
  | start (testMode : Bool) (decimation : UInt8) (answers : StartAnswers)
  | stop (reaping : Reaping)
  | threadEnds (unreaped failed : Bool)
  | strayEnds (unreaped : Bool)
  | powerCycle (usbPath : String) (registers : UInt8 → UInt8)

def step (state : State) : Action → Option State
  | .enumerate complete devices => some (observeEnumeration state complete devices)
  | .openPath stableUsbPath usb reaping => some (openDevice state stableUsbPath usb reaping)
  | .start testMode decimation answers => some (start state testMode decimation answers)
  | .stop reaping => some (stop state reaping)
  | .threadEnds unreaped failed =>
    if state.dddThread = .running then
      some { state with
        dddThread := .gone
        dddRunning := state.dddRunning && !failed
        orphan := state.orphan || unreaped }
    else none
  | .strayEnds unreaped =>
    if state.strayThreads = 0 then none
    else some { state with
      strayThreads := state.strayThreads - 1
      orphan := state.orphan || unreaped }
  | .powerCycle usbPath registers =>
    some { state with devices := Function.update state.devices usbPath ⟨registers, false⟩ }

def rollbackFails (state : State) : Bool :=
  (collectionRollback state.collection state.link).result ≠ .ok

/-- The end of a capture locks its path, and no open is refused for good by an abandoned
queue. -/
def endLocks (joined : State) (reaping : Reaping) (controlFails : State → Bool) : Bool :=
  if (syncControlAllowed joined reaping).1 then controlFails (syncControlAllowed joined reaping).2
  else !(reaping.pendingAtClose && reaping.pendingAtAbandon)

def stopFails (state : State) : Bool :=
  let outcome := collectionStop state.collection state.link
  outcome.result ≠ .ok && rollbackFails (state.after outcome)

def stopLocks (state : State) (reaping : Reaping) : Bool :=
  endLocks (join { state with dddRunning := false } reaping) reaping stopFails

def startLocks (state : State) (testMode : Bool) (decimation : UInt8) (answers : StartAnswers) :
    Bool :=
  let outcome := collectionStart state.link testMode decimation
  let configured := state.after outcome
  if outcome.result ≠ .ok then
    outcome.state.rollbackAttempted && !outcome.state.rollbackSucceeded
  else if !answers.threadCreated then rollbackFails configured
  else !answers.streamReady &&
    endLocks (join { launch configured with dddRunning := false } answers.reaping)
      answers.reaping rollbackFails

def otherLocked (state : State) : Bool :=
  state.lockPhase ≠ .free && state.lockedPath ≠ state.usbPath

/-- No device is opened under a capture that is not stopped, none is configured over such a
capture or while it is collecting, and no end locks its path while another one is locked. -/
def keepsLock (state : State) : Action → Bool
  | .openPath stableUsbPath _ _ =>
    openRefused state stableUsbPath || state.dddThread == .absent
  | .start testMode decimation answers =>
    !startAccepted state decimation || state.dddThread == .absent &&
      (!(answers.bufferReady && answers.extractionStarted) ||
        !state.link.device.collecting &&
          !(otherLocked state && startLocks state testMode decimation answers))
  | .stop reaping => !(otherLocked state && stopLocks state reaping)
  | _ => true

/-- Every grant after a lock of its path has the replug in between, and every end of a
session has left its device stopped or its path locked. -/
structure NeverForgotten (state : State) : Prop where
  kept : Lockout.Kept state.history
  ends : ∀ last ∈ state.ends, last.stopped = true ∨ last.locked = true

def Slot (state : State) : Prop :=
  ∀ path, Lockout.phaseOf path state.history =
    if path = state.lockedPath then state.lockPhase else .free

def Remembered (state : State) : Prop :=
  state.collection.profile = .protocolV1 → state.link.device.collecting = true →
    state.collection.recorded = true

structure Inv (state : State) : Prop extends NeverForgotten state where
  named : ∀ path, state.handle = some path → state.usbPath = path ∧ path ≠ ""
  idle : state.dddThread = .absent → state.dddRunning = false ∧ state.orphan = false ∧
    state.collection.profile ≠ .protocolV1
  capturing : state.dddThread ≠ .absent → state.handle.isSome = true
  remembered : Remembered state
  quarantined : state.abandoned = true → state.handle = none
  noStray : state.strayThreads = 0
  lockNamed : state.lockPhase ≠ .free → state.lockedPath ≠ ""
  slot : state.abandoned = false → Slot state

/-- A session at its end: nothing runs for it any more, and its handle is still open. -/
structure Ready (state : State) (path : String) : Prop extends NeverForgotten state where
  handle : state.handle = some path
  usbPath : state.usbPath = path
  nonempty : path ≠ ""
  thread : state.dddThread = .absent
  halted : state.dddRunning = false
  noStray : state.strayThreads = 0
  admitted : state.abandoned = false
  lockNamed : state.lockPhase ≠ .free → state.lockedPath ≠ ""
  slot : Slot state

structure Settled (state : State) (reaping : Reaping) : Prop extends NeverForgotten state where
  thread : state.dddThread = .absent
  halted : state.dddRunning = false
  noStray : state.strayThreads = 0
  admitted : state.abandoned = false
  lockNamed : state.lockPhase ≠ .free → state.lockedPath ≠ ""
  slot : Slot state ∨
    state.orphan = true ∧ (reaping.pendingAtClose && reaping.pendingAtAbandon) = true

def Safe (state : State) (path : String) : Prop :=
  (state.devices path).collecting = false ∨ pathLocked state path = true

section
variable {state session : State} {path : String} {reaping : Reaping}

theorem close_eq (admitted : state.abandoned = false) :
    close state reaping = forgetHandle { state with
      orphan := false
      abandoned := state.orphan && (reaping.pendingAtClose && reaping.pendingAtAbandon) } := by
  unfold close
  cases orphan : state.orphan with
  | false =>
    simp [forgetHandle, admitted, orphan]
  | true =>
    cases atClose : reaping.pendingAtClose <;> cases atAbandon : reaping.pendingAtAbandon <;>
      simp [forgetHandle, admitted]

theorem Settled.closed (settled : Settled state reaping) : Inv (close state reaping) := by
  rw [close_eq settled.admitted]
  constructor
  · exact ⟨settled.kept, settled.ends⟩
  · simp [forgetHandle]
  · intro _
    exact ⟨settled.halted, rfl, by simp [forgetHandle, collectionStateInit]⟩
  · intro capturing
    exact absurd settled.thread capturing
  · intro profile
    simp [forgetHandle, collectionStateInit] at profile
  · simp [forgetHandle]
  · exact settled.noStray
  · exact settled.lockNamed
  · intro reopened
    cases settled.slot with
    | inl slot => exact slot
    | inr pending =>
      simp [forgetHandle, pending.1, pending.2] at reopened

theorem Inv.ended (inv : Inv state) (handle : session.handle = some path)
    (usbPath : session.usbPath = path) (safe : Safe state path) : Inv (state.ended session) := by
  have ends : ∀ last ∈ (state.ended session).ends, last.stopped = true ∨ last.locked = true := by
    intro last member
    simp only [State.ended, List.mem_append, List.mem_singleton] at member
    cases member with
    | inl earlier => exact inv.ends last earlier
    | inr newest =>
      subst newest
      simpa [handle, usbPath, Safe] using safe
  exact ⟨⟨inv.kept, ends⟩, inv.named, inv.idle, inv.capturing, inv.remembered, inv.quarantined,
    inv.noStray, inv.lockNamed, inv.slot⟩

theorem close_safe (admitted : state.abandoned = false) (safe : Safe state path) :
    Safe (close state reaping) path := by
  rw [close_eq admitted]
  exact safe

theorem Ready.settled (ready : Ready state path) : Settled state reaping :=
  ⟨ready.toNeverForgotten, ready.thread, ready.halted, ready.noStray, ready.admitted,
    ready.lockNamed, Or.inl ready.slot⟩

theorem lockActivePath_locks (usbPath : state.usbPath = path) (nonempty : path ≠ "") :
    pathLocked (lockActivePath state) path = true := by
  subst usbPath
  simp [lockActivePath, pathLocked, nonempty]

theorem lockActivePath_slot (slot : Slot state) (nonempty : state.usbPath ≠ "")
    (alone : otherLocked state = false) : Slot (lockActivePath state) := by
  intro path
  have before := slot path
  simp only [lockActivePath, nonempty, if_false, Lockout.phaseOf_snoc, Lockout.advance]
  by_cases same : path = state.usbPath
  · simp [same]
  · simp only [same, Ne.symm same, if_false, before]
    by_cases held : path = state.lockedPath
    · subst held
      simpa [otherLocked, same] using alone
    · simp [held]

/-- Locking at the end of a session: no other path is locked, or the abandoned queue refuses
every later open. -/
theorem Ready.lock (ready : Ready state path)
    (spared : otherLocked state = true →
      state.orphan = true ∧ (reaping.pendingAtClose && reaping.pendingAtAbandon) = true) :
    Settled (lockActivePath state) reaping := by
  have nonempty : state.usbPath ≠ "" := by
    rw [ready.usbPath]
    exact ready.nonempty
  have slot : Slot (lockActivePath state) ∨
      state.orphan = true ∧ (reaping.pendingAtClose && reaping.pendingAtAbandon) = true := by
    cases other : otherLocked state with
    | false => exact Or.inl (lockActivePath_slot ready.slot nonempty other)
    | true => exact Or.inr (spared other)
  have kept : Lockout.Kept (state.history ++ [.locked state.usbPath]) :=
    ready.kept.snoc nofun
  unfold lockActivePath at slot ⊢
  rw [if_neg nonempty] at slot ⊢
  exact ⟨⟨kept, ready.ends⟩, ready.thread, ready.halted, ready.noStray, ready.admitted,
    fun _ => nonempty, slot⟩

theorem link_device (handle : state.handle = some path) :
    state.link.device = state.devices path := by
  simp [State.link, handle]

theorem after_devices (handle : state.handle = some path) (outcome : Outcome) :
    (state.after outcome).devices path = outcome.link.device := by
  simp [State.after, handle]

theorem Ready.after (ready : Ready state path) (outcome : Outcome) :
    Ready (state.after outcome) path :=
  ⟨⟨ready.kept, ready.ends⟩, ready.handle, ready.usbPath, ready.nonempty, ready.thread,
    ready.halted, ready.noStray, ready.admitted, ready.lockNamed, ready.slot⟩

/-! The control transfers at an end. -/

theorem rollback_halts {collection : CollectionState} {link : Link}
    (remembered : collection.profile = .protocolV1 → link.device.collecting = true →
      collection.recorded = true)
    (ok : (collectionRollback collection link).result = .ok) :
    (collectionRollback collection link).link.device.collecting = false := by
  by_cases profile : collection.profile = .protocolV1
  · have safe := collectionRollback_safe profile (remembered profile)
    have succeeded : (collectionRollback collection link).state.rollbackSucceeded = true := by
      unfold collectionRollback at ok ⊢
      rw [if_neg (not_not.mpr profile)] at ok ⊢
      exact decide_eq_true ok
    exact (safe.rolledBack succeeded).2
  · simp [collectionRollback, profile] at ok

theorem stop_halts {collection : CollectionState} {link : Link}
    (remembered : collection.profile = .protocolV1 → link.device.collecting = true →
      collection.recorded = true)
    (ok : (collectionStop collection link).result = .ok) :
    (collectionStop collection link).link.device.collecting = false := by
  by_cases profile : collection.profile = .protocolV1
  · by_cases recorded : collection.recorded = true
    · by_cases stopped : (controlOut link (.collection false)).1 = true
      · have halted := controlOut_reported stopped
        simp [collectionStop, profile, recorded, stopped, halted, Device.obey]
      · simp [collectionStop, profile, recorded, stopped] at ok
    · have idle : link.device.collecting = false := by
        by_contra running
        exact recorded (remembered profile (by simpa using running))
      simp [collectionStop, profile, recorded, idle]
  · simp [collectionStop, profile] at ok

theorem stop_failed {collection : CollectionState} {link : Link}
    (failed : (collectionStop collection link).result ≠ .ok) :
    (collectionStop collection link).state = collection ∧
      ((collectionStop collection link).link.device.collecting = true →
        link.device.collecting = true) := by
  by_cases profile : collection.profile = .protocolV1
  · by_cases recorded : collection.recorded = true
    · by_cases stopped : (controlOut link (.collection false)).1 = true
      · simp [collectionStop, profile, recorded, stopped] at failed
      · simp only [collectionStop, profile, recorded, stopped, ne_eq, not_true_eq_false,
          if_false, Bool.not_true, Bool.false_eq_true, Bool.not_false, if_true, true_and]
        intro running
        cases controlOut_stop link with
        | inl same => rwa [same] at running
        | inr halted =>
          rw [halted] at running
          exact absurd running nofun
    · simp [collectionStop, profile, recorded] at failed
  · simp [collectionStop, profile]

theorem Ready.rollBack (ready : Ready state path) (remembered : Remembered state)
    (spared : (otherLocked state && rollbackFails state) = false) :
    Settled (rollBack state) reaping ∧ Safe (rollBack state) path := by
  have after := ready.after (collectionRollback state.collection state.link)
  unfold SafetyLock.rollBack
  dsimp only
  by_cases ok : (collectionRollback state.collection state.link).result = .ok
  · rw [if_neg (not_not.mpr ok)]
    refine ⟨after.settled, Or.inl ?_⟩
    rw [after_devices ready.handle]
    exact rollback_halts remembered ok
  · rw [if_pos ok]
    constructor
    · apply after.lock
      intro other
      have same : otherLocked state = true := other
      simp [same, rollbackFails, ok] at spared
    · exact Or.inr (lockActivePath_locks after.usbPath ready.nonempty)

theorem Ready.stopCollection (ready : Ready state path) (remembered : Remembered state)
    (spared : (otherLocked state && stopFails state) = false) :
    Settled (stopCollection state) reaping ∧ Safe (stopCollection state) path := by
  have after := ready.after (collectionStop state.collection state.link)
  unfold SafetyLock.stopCollection
  dsimp only
  by_cases ok : (collectionStop state.collection state.link).result = .ok
  · rw [if_neg (not_not.mpr ok)]
    refine ⟨after.settled, Or.inl ?_⟩
    rw [after_devices ready.handle]
    exact stop_halts remembered ok
  · rw [if_pos ok]
    obtain ⟨same, slower⟩ := stop_failed ok
    apply after.rollBack
    · intro profile running
      rw [link_device after.handle, after_devices ready.handle] at running
      have before : state.collection.profile = .protocolV1 := same ▸ profile
      have recorded := remembered before (slower running)
      rwa [← same] at recorded
    · rw [Bool.and_eq_false_imp] at spared ⊢
      intro other
      have fails := spared other
      simpa [stopFails, ok] using fails

theorem syncControlAllowed_refused (h : (syncControlAllowed state reaping).1 = false) :
    (syncControlAllowed state reaping).2 = state ∧ state.orphan = true := by
  unfold syncControlAllowed at h ⊢
  by_cases orphan : state.orphan = true
  · by_cases atControl : reaping.pendingAtControl = true
    · simp [orphan, atControl]
    · by_cases atReclaim : reaping.pendingAtReclaim = true
      · simp [orphan, atControl, atReclaim]
      · simp [orphan, atControl, atReclaim] at h
  · simp [orphan] at h

theorem syncControlAllowed_reclaims (h : (syncControlAllowed state reaping).1 = true) :
    (syncControlAllowed state reaping).2 = { state with orphan := false } := by
  unfold syncControlAllowed at h ⊢
  by_cases orphan : state.orphan = true
  · by_cases atControl : reaping.pendingAtControl = true
    · simp [orphan, atControl] at h
    · by_cases atReclaim : reaping.pendingAtReclaim = true
      · simp [orphan, atControl, atReclaim] at h
      · simp [orphan, atControl, atReclaim]
  · cases state
    simp_all

theorem endCapture_settled {control : State → State} {controlFails : State → Bool}
    (ready : Ready state path) (remembered : Remembered state)
    (spared : (otherLocked state && endLocks state reaping controlFails) = false)
    (controlled : ∀ allowed : State, Ready allowed path → Remembered allowed →
      (otherLocked allowed && controlFails allowed) = false →
        Settled (control allowed) reaping ∧ Safe (control allowed) path) :
    Inv (endCapture state reaping control) ∧ Safe (endCapture state reaping control) path := by
  unfold endCapture
  unfold endLocks at spared
  cases allowed : (syncControlAllowed state reaping).1 with
  | false =>
    have held := syncControlAllowed_refused allowed
    simp only [allowed, Bool.not_false, if_true, held.1]
    have settled : Settled (lockActivePath state) reaping := by
      apply ready.lock
      intro other
      rw [other, allowed] at spared
      exact ⟨held.2, by simpa using spared⟩
    refine ⟨settled.closed, close_safe settled.admitted (Or.inr ?_)⟩
    exact lockActivePath_locks ready.usbPath ready.nonempty
  | true =>
    simp only [allowed, Bool.not_true, Bool.false_eq_true, if_false]
    have reclaimed := syncControlAllowed_reclaims allowed
    rw [reclaimed] at spared ⊢
    have freed : Ready { state with orphan := false } path :=
      ⟨⟨ready.kept, ready.ends⟩, ready.handle, ready.usbPath, ready.nonempty, ready.thread,
        ready.halted, ready.noStray, ready.admitted, ready.lockNamed, ready.slot⟩
    rw [allowed, if_pos rfl] at spared
    have outcome := controlled _ freed remembered spared
    exact ⟨outcome.1.closed, close_safe outcome.1.admitted outcome.2⟩

/-! The steps. -/

theorem observeEnumeration_complete {devices : List DeviceInfo}
    (lockNamed : state.lockPhase ≠ .free → state.lockedPath ≠ "") :
    observeEnumeration state true devices = { state with
      history := state.history ++ [.observed (present devices)]
      lockPhase := state.lockPhase.observe (present devices state.lockedPath)
      lockedPath :=
        if state.lockPhase = .waitReappearance && present devices state.lockedPath then ""
        else state.lockedPath } := by
  unfold observeEnumeration
  simp only [Bool.not_true, Bool.false_eq_true, if_false]
  cases phase : state.lockPhase with
  | free => simp [Phase.observe]
  | waitDisappearance | waitReappearance =>
    have nonempty := lockNamed (by simp [phase])
    cases present devices state.lockedPath <;> simp [nonempty, Phase.observe]

theorem observeEnumeration_slot {devices : List DeviceInfo} (slot : Slot state)
    (lockNamed : state.lockPhase ≠ .free → state.lockedPath ≠ "") :
    Slot (observeEnumeration state true devices) := by
  rw [observeEnumeration_complete lockNamed]
  intro path
  rw [Lockout.phaseOf_snoc, slot path]
  simp only [Lockout.advance]
  by_cases held : path = state.lockedPath
  · rw [if_pos held, ← held]
    by_cases back : (state.lockPhase = .waitReappearance && present devices path) = true
    · rw [if_pos back]
      simp only [Bool.and_eq_true, decide_eq_true_eq] at back
      simp [back.1, back.2, Phase.observe]
    · rw [if_neg back, if_pos rfl]
  · rw [if_neg held]
    by_cases back : (state.lockPhase = .waitReappearance && present devices state.lockedPath) =
        true
    · simp only [Bool.and_eq_true, decide_eq_true_eq] at back
      simp [back.1, back.2, Phase.observe]
    · rw [if_neg back, if_neg held]
      rfl

theorem Inv.observeEnumeration (inv : Inv state) (complete : Bool) (devices : List DeviceInfo) :
    Inv (observeEnumeration state complete devices) := by
  cases complete with
  | false => exact inv
  | true =>
    have slot : state.abandoned = false → Slot (SafetyLock.observeEnumeration state true devices) :=
      fun admitted => observeEnumeration_slot (inv.slot admitted) inv.lockNamed
    have named : state.lockPhase.observe (present devices state.lockedPath) ≠ .free →
        (if state.lockPhase = .waitReappearance && present devices state.lockedPath then ""
        else state.lockedPath) ≠ "" := by
      intro locked
      cases phase : state.lockPhase <;> cases seen : present devices state.lockedPath <;>
        simp_all [Phase.observe, inv.lockNamed]
    rw [observeEnumeration_complete inv.lockNamed] at slot ⊢
    exact ⟨⟨inv.kept.snoc (by simp), inv.ends⟩, inv.named, inv.idle, inv.capturing, inv.remembered,
      inv.quarantined, inv.noStray, named, slot⟩

theorem Inv.settled (inv : Inv state) (thread : state.dddThread = .absent)
    (admitted : state.abandoned = false) (handle : Option String) :
    Settled { state with handle } reaping :=
  ⟨⟨inv.kept, inv.ends⟩, thread, (inv.idle thread).1, inv.noStray, admitted, inv.lockNamed,
    Or.inl (inv.slot admitted)⟩

theorem Inv.openDevice (inv : Inv state) (stableUsbPath : String) (usb : UsbAnswers)
    (allowed : (openRefused state stableUsbPath || state.dddThread == .absent) = true) :
    Inv (openDevice state stableUsbPath usb reaping) := by
  unfold SafetyLock.openDevice
  by_cases refused : openRefused state stableUsbPath = true
  · rw [if_pos refused]
    exact inv
  · have thread : state.dddThread = .absent := by simpa [refused] using allowed
    have accepted : stableUsbPath ≠ "" ∧ state.abandoned = false ∧
        pathLocked state stableUsbPath = false := by
      simpa [openRefused, and_assoc] using refused
    obtain ⟨nonempty, admitted, unlocked⟩ := accepted
    have closing : ∀ handle, Settled { state with handle } reaping :=
      inv.settled thread admitted
    rw [if_neg refused]
    split
    · exact inv
    · split
      · exact (closing state.handle).closed
      · dsimp only
        split
        · exact (closing (some stableUsbPath)).closed
        · have free : Lockout.phaseOf stableUsbPath state.history = .free := by
            rw [inv.slot admitted stableUsbPath]
            by_cases held : stableUsbPath = state.lockedPath
            · simpa [pathLocked, held] using unlocked
            · rw [if_neg held]
          constructor
          · refine ⟨inv.kept.snoc ?_, inv.ends⟩
            intro key granted
            cases granted
            exact free
          · intro path handle
            cases handle
            exact ⟨rfl, nonempty⟩
          · exact inv.idle
          · intro capturing
            exact absurd thread capturing
          · intro profile
            exact absurd profile (inv.idle thread).2.2
          · intro abandoned
            simp [admitted] at abandoned
          · exact inv.noStray
          · exact inv.lockNamed
          · intro _ path
            rw [Lockout.phaseOf_snoc]
            exact inv.slot admitted path

theorem Inv.admitted (inv : Inv state) (handle : state.handle = some path) :
    state.abandoned = false := by
  by_contra abandoned
  have closed := inv.quarantined (by simpa using abandoned)
  simp [closed] at handle

theorem Inv.ready (inv : Inv state) (handle : state.handle = some path) (orphan : Bool) :
    Ready { state with dddThread := .absent, dddRunning := false, orphan } path :=
  ⟨⟨inv.kept, inv.ends⟩, handle, (inv.named path handle).1, (inv.named path handle).2, rfl, rfl,
    inv.noStray, inv.admitted handle, inv.lockNamed, inv.slot (inv.admitted handle)⟩

theorem Inv.ready_idle (inv : Inv state) (handle : state.handle = some path)
    (thread : state.dddThread = .absent) : Ready state path :=
  ⟨⟨inv.kept, inv.ends⟩, handle, (inv.named path handle).1, (inv.named path handle).2, thread,
    (inv.idle thread).1, inv.noStray, inv.admitted handle, inv.lockNamed,
    inv.slot (inv.admitted handle)⟩

theorem Inv.stop (inv : Inv state)
    (allowed : (!(otherLocked state && stopLocks state reaping)) = true) :
    Inv (stop state reaping) := by
  unfold SafetyLock.stop
  rcases Option.eq_none_or_eq_some state.handle with handle | ⟨path, handle⟩
  · have idle : state.dddThread = .absent := by
      by_contra capturing
      have opened := inv.capturing capturing
      simp [handle] at opened
    rw [if_pos (by simp [handle, (inv.idle idle).1])]
    exact inv
  · rw [Bool.not_eq_true'] at allowed
    rw [if_neg (by simp [handle])]
    have finished := endCapture_settled (inv.ready handle _) inv.remembered allowed
      fun _ ready remembered spared => ready.stopCollection remembered spared
    exact finished.1.ended handle (inv.named path handle).1 finished.2

theorem Ready.launched (ready : Ready state path) (remembered : Remembered state)
    (thread : state.dddThread = .absent) : Inv (launch state) := by
  constructor
  · exact ⟨ready.kept, ready.ends⟩
  · intro opened handle
    have same : path = opened := by
      simpa [launch, ready.handle] using handle
    exact same ▸ ⟨ready.usbPath, ready.nonempty⟩
  · exact nofun
  · intro _
    simp [launch, ready.handle]
  · exact remembered
  · intro abandoned
    exact absurd abandoned (by simp [launch, ready.admitted])
  · simp [launch, ready.noStray, thread]
  · exact ready.lockNamed
  · exact fun _ => ready.slot

theorem Ready.startCapture (ready : Ready state path) (remembered : Remembered state)
    (answers : StartAnswers)
    (spared : (otherLocked state && (if !answers.threadCreated then rollbackFails state
      else !answers.streamReady &&
        endLocks (join { launch state with dddRunning := false } answers.reaping)
          answers.reaping rollbackFails)) = false) :
    Inv (startCapture state answers) ∧
      ((answers.threadCreated && answers.streamReady) = false →
        Safe (startCapture state answers) path) := by
  unfold SafetyLock.startCapture
  cases created : answers.threadCreated with
  | false =>
    have halted : { state with dddRunning := false } = state := by
      have already := ready.halted
      cases state
      simp_all
    simp only [created, Bool.not_false, if_true, halted] at spared ⊢
    have rolled : Settled (SafetyLock.rollBack state) answers.reaping ∧
        Safe (SafetyLock.rollBack state) path := ready.rollBack remembered spared
    exact ⟨rolled.1.closed, fun _ => close_safe rolled.1.admitted rolled.2⟩
  | true =>
    have launched := ready.launched remembered ready.thread
    cases streamReady : answers.streamReady with
    | true =>
      simp only [Bool.not_true, Bool.false_eq_true, if_false, if_true]
      exact ⟨launched, fun failed => absurd failed (by simp)⟩
    | false =>
      simp only [created, streamReady, Bool.not_true, Bool.not_false, Bool.true_and,
        Bool.false_eq_true, if_false] at spared ⊢
      have finished := endCapture_settled (launched.ready ready.handle _) remembered spared
        fun _ ready remembered spared => ready.rollBack remembered spared
      exact ⟨finished.1, fun _ => finished.2⟩

theorem Inv.start (inv : Inv state) {testMode : Bool} {decimation : UInt8}
    {answers : StartAnswers}
    (allowed : keepsLock state (.start testMode decimation answers) = true) :
    Inv (start state testMode decimation answers) := by
  unfold SafetyLock.start
  by_cases accepted : startAccepted state decimation = true
  · simp only [keepsLock, accepted, Bool.not_true, Bool.false_or, Bool.and_eq_true,
      beq_iff_eq] at allowed
    obtain ⟨thread, allowed⟩ := allowed
    obtain ⟨path, handle⟩ : ∃ path, state.handle = some path := by
      simp only [startAccepted, Bool.and_eq_true] at accepted
      exact Option.isSome_iff_exists.mp accepted.1
    rw [if_neg (by simp [accepted])]
    by_cases begins : (answers.bufferReady && answers.extractionStarted) = true
    · simp only [begins, Bool.not_true, Bool.false_or, Bool.and_eq_true,
        Bool.not_eq_true'] at allowed
      obtain ⟨quiet, spared⟩ := allowed
      have sound := collectionStart_sound decimation testMode quiet
      have configured := (inv.ready_idle handle thread).after
        (collectionStart state.link testMode decimation)
      rw [if_neg (by simpa using begins)]
      dsimp only
      by_cases ok : (collectionStart state.link testMode decimation).result = .ok
      · rw [if_neg (not_not.mpr ok)]
        have remembered : Remembered
            (state.after (collectionStart state.link testMode decimation)) := by
          intro _ running
          rw [link_device configured.handle, after_devices handle] at running
          exact (sound.safe.remembered running).2
        simp only [startLocks, ok, ne_eq, not_true_eq_false, if_false] at spared
        have captured := configured.startCapture remembered answers spared
        split
        · exact captured.1
        · next failed =>
          exact captured.1.ended handle (inv.named path handle).1
            (captured.2 (by simpa using failed))
      · rw [if_pos ok]
        simp only [startLocks, ne_eq, ok, not_false_eq_true, if_true] at spared
        cases attempted :
            (collectionStart state.link testMode decimation).state.rollbackAttempted with
        | false =>
          simp only [Bool.false_and, Bool.false_eq_true, if_false]
          exact configured.settled.closed
        | true =>
          simp only [attempted, Bool.true_and, if_true] at spared ⊢
          cases succeeded :
              (collectionStart state.link testMode decimation).state.rollbackSucceeded with
          | true =>
            simp only [Bool.not_true, Bool.false_eq_true, if_false]
            have safe : Safe (state.after (collectionStart state.link testMode decimation))
                path := by
              apply Or.inl
              rw [after_devices handle]
              exact (sound.safe.rolledBack succeeded).2
            exact configured.settled.closed.ended handle (inv.named path handle).1
              (close_safe configured.admitted safe)
          | false =>
            simp only [succeeded, Bool.not_false, Bool.and_true, if_true] at spared ⊢
            have alone : otherLocked
                (state.after (collectionStart state.link testMode decimation)) = false := spared
            have settled : Settled (lockActivePath _) answers.reaping :=
              configured.lock fun other => absurd other (by simp [alone])
            have locked := lockActivePath_locks configured.usbPath configured.nonempty
            exact settled.closed.ended handle (inv.named path handle).1
              (close_safe settled.admitted (Or.inr locked))
    · rw [if_pos (by rw [← Bool.not_and]; simp [begins])]
      exact (inv.settled thread (inv.admitted handle) state.handle).closed
  · rw [if_pos (by simp [accepted])]
    exact inv

theorem Inv.threadEnds (inv : Inv state) (unreaped failed : Bool)
    (running : state.dddThread = .running) :
    Inv { state with
      dddThread := .gone
      dddRunning := state.dddRunning && !failed
      orphan := state.orphan || unreaped } := by
  have opened := inv.capturing (by simp [running])
  exact ⟨⟨inv.kept, inv.ends⟩, inv.named, nofun, fun _ => opened, inv.remembered,
    inv.quarantined, inv.noStray, inv.lockNamed, inv.slot⟩

theorem Inv.powerCycle (inv : Inv state) (usbPath : String) (registers : UInt8 → UInt8) :
    Inv { state with devices := Function.update state.devices usbPath ⟨registers, false⟩ } := by
  have remembered : Remembered
      { state with devices := Function.update state.devices usbPath ⟨registers, false⟩ } := by
    intro profile running
    apply inv.remembered profile
    rcases Option.eq_none_or_eq_some state.handle with handle | ⟨path, handle⟩
    · simp [State.link, handle] at running
    · by_cases same : path = usbPath
      · simp [State.link, handle, same] at running
      · simpa [State.link, handle, same] using running
  exact ⟨⟨inv.kept, inv.ends⟩, inv.named, inv.idle, inv.capturing, remembered, inv.quarantined,
    inv.noStray, inv.lockNamed, inv.slot⟩

theorem Inv.step {next : State} {action : Action} (inv : Inv state)
    (taken : Machine.guarded keepsLock step state action = some next) : Inv next := by
  obtain ⟨allowed, taken⟩ := Machine.guarded_eq_some.mp taken
  cases action with
  | enumerate complete devices =>
    cases taken
    exact inv.observeEnumeration complete devices
  | openPath stableUsbPath usb reaping =>
    cases taken
    exact inv.openDevice stableUsbPath usb allowed
  | start testMode decimation answers =>
    cases taken
    exact inv.start allowed
  | stop reaping =>
    cases taken
    exact inv.stop allowed
  | threadEnds unreaped failed =>
    obtain ⟨running, taken⟩ := Option.ite_none_right_eq_some.mp taken
    cases taken
    exact inv.threadEnds unreaped failed running
  | strayEnds unreaped =>
    obtain ⟨stray, taken⟩ := Option.ite_none_left_eq_some.mp taken
    exact absurd inv.noStray stray
  | powerCycle usbPath registers =>
    cases taken
    exact inv.powerCycle usbPath registers

end

theorem Inv.initial (devices : String → Device) (replies : Nat → Reply) :
    Inv (initial devices replies) := by
  constructor
  · exact ⟨Lockout.Kept.nil, by simp [SafetyLock.initial]⟩
  · exact nofun
  · intro _
    simp [SafetyLock.initial, collectionStateInit]
  · intro capturing
    exact absurd rfl capturing
  · intro profile
    simp [SafetyLock.initial, collectionStateInit] at profile
  · exact nofun
  · rfl
  · intro locked
    exact absurd rfl locked
  · intro _ path
    exact (ite_self _).symm

/-- In every run in which each step meets the condition, no lock is forgotten and no end of
a session leaves a device that is neither stopped nor locked. -/
theorem lock_never_forgotten (devices : String → Device) (replies : Nat → Reply)
    {schedule : List Action} {last : State}
    (h : Machine.run (Machine.guarded keepsLock step) (initial devices replies) schedule =
      some last) :
    NeverForgotten last :=
  (Machine.run_invariant Inv (fun _ _ _ inv taken => inv.step taken)
    (Inv.initial devices replies) h).toNeverForgotten

/-! Two paths, at which every device is stopped at first. -/

def available : UsbAnswers := ⟨true, true, 1, true, true, true, true⟩

def reaped : Reaping := ⟨false, false, false, false, false⟩

def comes : StartAnswers := ⟨true, true, true, true, reaped⟩

def captureAt (path : String) : List Action :=
  [.openPath path available reaped, .start true 2 comes, .stop reaped]

/-- The fates of an unverified stop: B5(stop) is reported failed twice. -/
def stopFates : List (Bool × UInt8) :=
  [(false, 0), (false, 0), (true, 0), (true, 0), (true, 0), (true, 1)]

def replugged : List Action :=
  [.powerCycle "1-1" fun _ => 0, .enumerate true [],
    .enumerate true [⟨true, .protocolV1, "1-1"⟩]]

theorem lock_never_forgotten_replug :
    ∃ last, Machine.run (Machine.guarded keepsLock step)
        (initial (fun _ => ⟨fun _ => 0, false⟩)
          (scripted (startFates ++ stopFates ++ startFates)))
        (captureAt "1-1" ++ replugged ++ captureAt "1-1") = some last ∧ NeverForgotten last := by
  have runs : (Machine.run (Machine.guarded keepsLock step)
      (initial (fun _ => ⟨fun _ => 0, false⟩)
        (scripted (startFates ++ stopFates ++ startFates)))
      (captureAt "1-1" ++ replugged ++ captureAt "1-1")).isSome = true := by
    decide +kernel
  obtain ⟨last, h⟩ := Option.isSome_iff_exists.mp runs
  exact ⟨last, h, lock_never_forgotten _ _ h⟩

/-- The stops at two paths are both unverified; the lock of the second replaces the first,
and the first is opened again without any enumeration. -/
theorem first_lock_forgotten :
    ∃ last, Machine.run step
        (initial (fun _ => ⟨fun _ => 0, false⟩)
          (scripted (startFates ++ stopFates ++ startFates ++ stopFates)))
        (captureAt "1-1" ++ captureAt "1-2" ++ [.openPath "1-1" available reaped]) = some last ∧
      (last.devices "1-1").collecting = true ∧ ¬NeverForgotten last := by
  have runs : (Machine.run step
      (initial (fun _ => ⟨fun _ => 0, false⟩)
        (scripted (startFates ++ stopFates ++ startFates ++ stopFates)))
      (captureAt "1-1" ++ captureAt "1-2" ++ [.openPath "1-1" available reaped])).map
        (fun last => (last.history, (last.devices "1-1").collecting)) =
      some ([.granted "1-1", .locked "1-1", .granted "1-2", .locked "1-2", .granted "1-1"],
        true) := by
    rfl
  obtain ⟨last, h, holds⟩ := Option.map_eq_some_iff.mp runs
  obtain ⟨history, collecting⟩ := Prod.mk.injEq .. ▸ holds
  refine ⟨last, h, collecting, fun forgotten => ?_⟩
  obtain ⟨before, back, after, seen, _⟩ :=
    forgotten.kept [.granted "1-1"] "1-1" [.granted "1-2", .locked "1-2"] [] history
  have member : Lockout.Event.observed back ∈
      [Lockout.Event.granted "1-2", Lockout.Event.locked "1-2"] := by
    rw [seen]
    simp
  simp at member

end MisrcGui.Ddd.SafetyLock
