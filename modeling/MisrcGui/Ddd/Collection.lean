import MisrcGui.Library.Machine

/-! Starting, stopping and rolling back a collection, from `ddd_protocol.c`. A control
transfer that is reported failed may have reached the device all the same. -/
namespace MisrcGui.Ddd.Collection
open Library

inductive ProtocolResult where
  | ok
  | unsupportedProfile
  | unsupportedDecimation
  | controlFailure
  | identityMismatch
  | readbackMismatch
deriving DecidableEq

inductive DeviceProfile where
  | notDdd
  | legacy
  | protocolV1
  | unsupported
deriving DecidableEq

def registerMapVersion : Nat := 0x01
def registerImageRole : Nat := 0x0B
def registerTestMode : UInt8 := 0x10
def registerDecimation : UInt8 := 0x12
def identityLength : Nat := 12
def identityValue : UInt8 := 0x44
def supportedRegisterMap : UInt8 := 2
def applicationImageRole : UInt8 := 1
def decimationFullRate : UInt8 := 1
def decimationHalfRate : UInt8 := 2
def converterSampleRateHz : Nat := 40000000

structure Device where
  registers : UInt8 → UInt8
  collecting : Bool

/-- `DDD_REQUEST_COLLECTION` and `DDD_REQUEST_REGISTER_WRITE`. -/
inductive Request where
  | collection (on : Bool)
  | registerWrite (address value : UInt8)

def Device.obey (device : Device) : Request → Device
  | .collection on => { device with collecting := on }
  | .registerWrite address value =>
    { device with registers := Function.update device.registers address value }

/-- The fate of one control transfer: what the caller is told, whether an output takes
effect although it is reported failed, and what an input brings back. -/
structure Reply where
  reported : Bool
  effective : Bool
  data : Nat → UInt8

structure Link where
  device : Device
  replies : Nat → Reply
  transfers : Nat

def controlOut (link : Link) (request : Request) : Bool × Link :=
  let reply := link.replies link.transfers
  (reply.reported,
    { link with
      device :=
        if reply.reported || reply.effective then link.device.obey request else link.device
      transfers := link.transfers + 1 })

def controlIn (link : Link) : Option (Nat → UInt8) × Link :=
  let reply := link.replies link.transfers
  (if reply.reported then some reply.data else none,
    { link with transfers := link.transfers + 1 })

def writeRegister (link : Link) (address value : UInt8) : Bool × Link :=
  controlOut link (.registerWrite address value)

def readRegister (link : Link) : Option UInt8 × Link :=
  ((controlIn link).1.map (· 0), (controlIn link).2)

structure CollectionState where
  profile : DeviceProfile
  decimationFactor : UInt8
  sampleRateHz : Nat
  testMode : Bool
  configured : Bool
  collectionStartAttempted : Bool
  collectionActive : Bool
  rollbackAttempted : Bool
  rollbackSucceeded : Bool
  identity : List UInt8

def collectionStateInit : CollectionState :=
  ⟨.notDdd, 0, 0, false, false, false, false, false, false, List.replicate identityLength 0⟩

def CollectionState.recorded (state : CollectionState) : Bool :=
  state.collectionStartAttempted || state.collectionActive

def decimationIsSupported (factor : UInt8) : Bool :=
  factor == decimationFullRate || factor == decimationHalfRate

def sampleRateHz (factor : UInt8) : Nat :=
  if decimationIsSupported factor then converterSampleRateHz / factor.toNat else 0

def identityIsSupported (identity : Nat → UInt8) : Bool :=
  identity 0 == identityValue && identity registerMapVersion == supportedRegisterMap &&
    identity registerImageRole == applicationImageRole

def restoreSafeDefaults (link : Link) : ProtocolResult × Link :=
  let (testWritten, link) := writeRegister link registerTestMode 0
  let (decimationWritten, link) := writeRegister link registerDecimation decimationFullRate
  let (testMode, link) := readRegister link
  let (decimation, link) := readRegister link
  let transferFailed :=
    !testWritten || !decimationWritten || testMode.isNone || decimation.isNone
  let mismatch := testMode.any (· != 0) || decimation.any (· != decimationFullRate)
  (if transferFailed then .controlFailure else if mismatch then .readbackMismatch else .ok, link)

/-- What an operation leaves: its result, the state and the link. -/
structure Outcome where
  result : ProtocolResult
  state : CollectionState
  link : Link

def collectionRollback (state : CollectionState) (link : Link) : Outcome :=
  if state.profile ≠ .protocolV1 then ⟨.unsupportedProfile, state, link⟩
  else
    let (stopOk, link) :=
      if state.recorded then controlOut link (.collection false) else (true, link)
    let (restore, link) := restoreSafeDefaults link
    let result := if stopOk then restore else .controlFailure
    ⟨result,
      { state with
        rollbackAttempted := true
        collectionStartAttempted := if stopOk then false else state.collectionStartAttempted
        collectionActive := if stopOk then false else state.collectionActive
        configured := false
        rollbackSucceeded := decide (result = .ok) },
      link⟩

/-- The rollback of a partial start keeps the start's own result. -/
def abandon (result : ProtocolResult) (state : CollectionState) (link : Link) : Outcome :=
  { collectionRollback state link with result }

/-- The end of `ddd_collection_start_v1`: B5(start). -/
def beginCollection (state : CollectionState) (link : Link) : Outcome :=
  let state := { state with configured := true, collectionStartAttempted := true }
  let (started, link) := controlOut link (.collection true)
  if started then ⟨.ok, { state with collectionActive := true }, link⟩
  else abandon .controlFailure state link

def verifyRegisters (state : CollectionState) (link : Link) (testMode decimation : UInt8) :
    Outcome :=
  let (testRead, link) := readRegister link
  match testRead with
  | none => abandon .controlFailure state link
  | some readback =>
    if readback ≠ testMode then abandon .readbackMismatch state link
    else
      let (decimationRead, link) := readRegister link
      match decimationRead with
      | none => abandon .controlFailure state link
      | some readback =>
        if readback ≠ decimation then abandon .readbackMismatch state link
        else beginCollection state link

def writeRegisters (state : CollectionState) (link : Link) (testMode decimation : UInt8) :
    Outcome :=
  let (testWritten, link) := writeRegister link registerTestMode testMode
  if !testWritten then abandon .controlFailure state link
  else
    let (decimationWritten, link) := writeRegister link registerDecimation decimation
    if !decimationWritten then abandon .controlFailure state link
    else verifyRegisters state link testMode decimation

def testModeValue (testMode : Bool) : UInt8 := if testMode then 1 else 0

def collectionStart (link : Link) (testMode : Bool) (decimation : UInt8) : Outcome :=
  let state := { collectionStateInit with
    profile := .protocolV1
    testMode
    decimationFactor := decimation
    sampleRateHz := sampleRateHz decimation }
  if !decimationIsSupported decimation then ⟨.unsupportedDecimation, state, link⟩
  else
    let (identity, link) := controlIn link
    match identity with
    | none => ⟨.controlFailure, state, link⟩
    | some identity =>
      if !identityIsSupported identity then ⟨.identityMismatch, state, link⟩
      else
        let state := { state with identity := (List.range identityLength).map identity }
        writeRegisters state link (testModeValue testMode) decimation

def collectionStop (state : CollectionState) (link : Link) : Outcome :=
  if state.profile ≠ .protocolV1 then ⟨.unsupportedProfile, state, link⟩
  else if !state.recorded then ⟨.ok, state, link⟩
  else
    let (stopped, link) := controlOut link (.collection false)
    if !stopped then ⟨.controlFailure, state, link⟩
    else
      ⟨.ok, { state with collectionStartAttempted := false, collectionActive := false }, link⟩

inductive Operation where
  | start (testMode : Bool) (decimation : UInt8)
  | stop
  | rollback
deriving DecidableEq

structure System where
  state : CollectionState
  link : Link
  last : Option (Operation × ProtocolResult)

def initial (registers : UInt8 → UInt8) (replies : Nat → Reply) : System :=
  ⟨collectionStateInit, ⟨⟨registers, false⟩, replies, 0⟩, none⟩

def perform (system : System) : Operation → Outcome
  | .start testMode decimation => collectionStart system.link testMode decimation
  | .stop => collectionStop system.state system.link
  | .rollback => collectionRollback system.state system.link

def step (system : System) (operation : Operation) : Option System :=
  let outcome := perform system operation
  some ⟨outcome.state, outcome.link, some (operation, outcome.result)⟩

def startsStopped (system : System) : Operation → Bool
  | .start _ _ => !system.link.device.collecting
  | .stop | .rollback => true

def Device.Configured (device : Device) (testMode decimation : UInt8) : Prop :=
  device.registers registerTestMode = testMode ∧ device.registers registerDecimation = decimation

/-- The device is running only on record, and a rollback that says so has made it safe. -/
structure Safe (state : CollectionState) (device : Device) : Prop where
  remembered : device.collecting = true → state.profile = .protocolV1 ∧ state.recorded = true
  rolledBack : state.rollbackSucceeded = true →
    device.Configured 0 decimationFullRate ∧ device.collecting = false

structure Remembers (system : System) : Prop where
  safe : Safe system.state system.link.device
  stopAttempted : system.link.device.collecting = true →
    (collectionStop system.state system.link).link.transfers = system.link.transfers + 1
  started : ∀ testMode decimation, system.last = some (.start testMode decimation, .ok) →
    system.link.device.Configured (testModeValue testMode) decimation ∧
      system.link.device.collecting = true

section
variable {link : Link} {state : CollectionState}

theorem controlOut_reported {request : Request} (h : (controlOut link request).1 = true) :
    (controlOut link request).2.device = link.device.obey request := by
  have reported : (link.replies link.transfers).reported = true := h
  simp [controlOut, reported]

@[simp] theorem writeRegister_collecting (address value : UInt8) :
    (writeRegister link address value).2.device.collecting = link.device.collecting := by
  unfold writeRegister controlOut
  dsimp only
  split <;> rfl

theorem writeRegister_reported {address value : UInt8}
    (h : (writeRegister link address value).1 = true) :
    (writeRegister link address value).2.device.registers =
      Function.update link.device.registers address value := by
  unfold writeRegister at h ⊢
  rw [controlOut_reported h]
  rfl

theorem controlOut_stop (link : Link) :
    (controlOut link (.collection false)).2.device = link.device ∨
      (controlOut link (.collection false)).2.device =
        { link.device with collecting := false } := by
  unfold controlOut
  dsimp only
  split
  · exact Or.inr rfl
  · exact Or.inl rfl

@[simp] theorem controlIn_device : (controlIn link).2.device = link.device := rfl

@[simp] theorem readRegister_device : (readRegister link).2.device = link.device := rfl

/-- Two writes that both went through leave both values, the addresses being different. -/
theorem writes_configure {testMode decimation : UInt8}
    (first : (writeRegister link registerTestMode testMode).1 = true)
    (second : (writeRegister (writeRegister link registerTestMode testMode).2
      registerDecimation decimation).1 = true) :
    (writeRegister (writeRegister link registerTestMode testMode).2
      registerDecimation decimation).2.device.Configured testMode decimation := by
  have distinct : registerTestMode ≠ registerDecimation := by decide
  constructor
  · rw [writeRegister_reported second, Function.update_of_ne distinct,
      writeRegister_reported first, Function.update_self]
  · rw [writeRegister_reported second, Function.update_self]

@[simp] theorem restoreSafeDefaults_collecting :
    (restoreSafeDefaults link).2.device.collecting = link.device.collecting := by
  simp [restoreSafeDefaults]

theorem restoreSafeDefaults_ok (h : (restoreSafeDefaults link).1 = .ok) :
    (restoreSafeDefaults link).2.device.Configured 0 decimationFullRate := by
  by_cases first : (writeRegister link registerTestMode 0).1 = true
  · by_cases second : (writeRegister (writeRegister link registerTestMode 0).2
        registerDecimation decimationFullRate).1 = true
    · exact writes_configure first second
    · simp [restoreSafeDefaults, second] at h
  · simp [restoreSafeDefaults, first] at h

@[simp] theorem collectionRollback_profile :
    (collectionRollback state link).state.profile = state.profile := by
  unfold collectionRollback
  split <;> rfl

/-- The three ways through a rollback: nothing on record, a stop that went through, and a
stop reported failed, which leaves the record as it is. -/
theorem collectionRollback_safe (profile : state.profile = .protocolV1)
    (remembered : link.device.collecting = true → state.recorded = true) :
    Safe (collectionRollback state link).state (collectionRollback state link).link.device := by
  by_cases recorded : state.recorded = true
  · by_cases stopped : (controlOut link (.collection false)).1 = true
    · have halted : (controlOut link (.collection false)).2.device.collecting = false := by
        rw [controlOut_reported stopped]
        rfl
      constructor
      · simp [collectionRollback, profile, recorded, halted]
      · intro succeeded
        have restored : (restoreSafeDefaults (controlOut link (.collection false)).2).1 = .ok := by
          simpa [collectionRollback, profile, recorded, stopped] using succeeded
        have configured := restoreSafeDefaults_ok restored
        simpa [collectionRollback, profile, recorded, halted] using configured
    · constructor
      · intro _
        have attempted : (collectionRollback state link).state.collectionStartAttempted =
            state.collectionStartAttempted := by
          simp [collectionRollback, profile, recorded, stopped]
        have active : (collectionRollback state link).state.collectionActive =
            state.collectionActive := by
          simp [collectionRollback, profile, recorded, stopped]
        rw [collectionRollback_profile, CollectionState.recorded, attempted, active]
        exact ⟨profile, recorded⟩
      · simp [collectionRollback, profile, recorded, stopped]
  · have halted : link.device.collecting = false := by
      by_contra running
      exact recorded (remembered (by simpa using running))
    constructor
    · simp [collectionRollback, profile, recorded, halted]
    · intro succeeded
      have restored : (restoreSafeDefaults link).1 = .ok := by
        simpa [collectionRollback, profile, recorded] using succeeded
      have configured := restoreSafeDefaults_ok restored
      simpa [collectionRollback, profile, recorded, halted] using configured

structure Outcome.Sound (outcome : Outcome) (testMode decimation : UInt8) : Prop where
  safe : Safe outcome.state outcome.link.device
  started : outcome.result = .ok →
    outcome.link.device.Configured testMode decimation ∧ outcome.link.device.collecting = true

variable {testMode decimation : UInt8}

theorem abandon_sound {result : ProtocolResult} (failed : result ≠ .ok)
    (profile : state.profile = .protocolV1)
    (remembered : link.device.collecting = true → state.recorded = true) :
    (abandon result state link).Sound testMode decimation := by
  constructor
  · exact collectionRollback_safe profile remembered
  · intro ok
    exact absurd ok failed

theorem beginCollection_sound (profile : state.profile = .protocolV1)
    (untouched : state.rollbackSucceeded = false)
    (configured : link.device.Configured testMode decimation) :
    (beginCollection state link).Sound testMode decimation := by
  by_cases started : (controlOut link (.collection true)).1 = true
  · have device := controlOut_reported started
    unfold beginCollection
    simp only [started, if_true]
    constructor
    · constructor
      · intro _
        exact ⟨profile, rfl⟩
      · intro succeeded
        exact absurd succeeded (by simp [untouched])
    · intro _
      simp only [device]
      exact ⟨configured, rfl⟩
  · unfold beginCollection
    simp only [started]
    -- the attempt is on record before the transfer, so its fate does not matter
    exact abandon_sound (by decide) profile fun _ => rfl

theorem verifyRegisters_sound (profile : state.profile = .protocolV1)
    (untouched : state.rollbackSucceeded = false)
    (halted : link.device.collecting = false)
    (configured : link.device.Configured testMode decimation) :
    (verifyRegisters state link testMode decimation).Sound testMode decimation := by
  unfold verifyRegisters
  dsimp only
  split
  · apply abandon_sound (by decide) profile
    simp [halted]
  · split
    · apply abandon_sound (by decide) profile
      simp [halted]
    · split
      · apply abandon_sound (by decide) profile
        simp [halted]
      · split
        · apply abandon_sound (by decide) profile
          simp [halted]
        · exact beginCollection_sound profile untouched configured

theorem writeRegisters_sound (profile : state.profile = .protocolV1)
    (untouched : state.rollbackSucceeded = false)
    (halted : link.device.collecting = false) :
    (writeRegisters state link testMode decimation).Sound testMode decimation := by
  unfold writeRegisters
  dsimp only
  split
  · apply abandon_sound (by decide) profile
    simp [halted]
  · next first =>
    split
    · apply abandon_sound (by decide) profile
      simp [halted]
    · next second =>
      apply verifyRegisters_sound profile untouched
      · simpa using halted
      · exact writes_configure (by simpa using first) (by simpa using second)

theorem collectionStart_sound (decimation : UInt8) (asked : Bool)
    (halted : link.device.collecting = false) :
    (collectionStart link asked decimation).Sound (testModeValue asked) decimation := by
  have quiet : ∀ state : CollectionState, state.rollbackSucceeded = false →
      Safe state link.device := fun state untouched =>
    ⟨by simp [halted], by simp [untouched]⟩
  unfold collectionStart
  dsimp only
  split
  · exact ⟨quiet _ rfl, nofun⟩
  · split
    · exact ⟨quiet _ rfl, nofun⟩
    · split
      · exact ⟨quiet _ rfl, nofun⟩
      · exact writeRegisters_sound rfl rfl halted

theorem collectionStop_safe (safe : Safe state link.device) :
    Safe (collectionStop state link).state (collectionStop state link).link.device := by
  have attempted : Safe state (controlOut link (.collection false)).2.device := by
    cases controlOut_stop link with
    | inl same =>
      rw [same]
      exact safe
    | inr halted =>
      rw [halted]
      exact ⟨nofun, fun succeeded => ⟨(safe.rolledBack succeeded).1, rfl⟩⟩
  unfold collectionStop
  split
  · exact safe
  · split
    · exact safe
    · dsimp only
      split
      · exact attempted
      · next stopped =>
        have reported : (controlOut link (.collection false)).1 = true := by simpa using stopped
        have halted := controlOut_reported reported
        constructor
        · simp [halted, Device.obey]
        · exact attempted.rolledBack

theorem Safe.stop_attempted (safe : Safe state link.device)
    (running : link.device.collecting = true) :
    (collectionStop state link).link.transfers = link.transfers + 1 := by
  obtain ⟨profile, recorded⟩ := safe.remembered running
  unfold collectionStop
  simp only [profile, recorded, ne_eq, not_true_eq_false, if_false, Bool.not_true,
    Bool.false_eq_true]
  split <;> rfl

/-- Only a state that no start has set up is not of profile v1, and over it nothing runs. -/
theorem collectionRollback_kept (safe : Safe state link.device) :
    Safe (collectionRollback state link).state (collectionRollback state link).link.device := by
  by_cases profile : state.profile = .protocolV1
  · exact collectionRollback_safe profile fun running => (safe.remembered running).2
  · simp only [collectionRollback, profile, ne_eq, not_false_eq_true, if_true]
    exact safe

end

theorem step_remembers {system next : System} {operation : Operation}
    (before : Remembers system)
    (h : Machine.guarded startsStopped step system operation = some next) :
    Remembers next := by
  obtain ⟨allowed, taken⟩ := Machine.guarded_eq_some.mp h
  cases taken
  cases operation with
  | start testMode decimation =>
    have halted : system.link.device.collecting = false := by
      simpa [startsStopped] using allowed
    have sound := collectionStart_sound decimation testMode halted
    apply Remembers.mk sound.safe sound.safe.stop_attempted
    intro asked factor last
    simp only [perform, Option.some.injEq, Prod.mk.injEq, Operation.start.injEq] at last
    obtain ⟨⟨rfl, rfl⟩, ok⟩ := last
    exact sound.started ok
  | stop =>
    have safe := collectionStop_safe before.safe
    exact ⟨safe, safe.stop_attempted, nofun⟩
  | rollback =>
    have safe := collectionRollback_kept before.safe
    exact ⟨safe, safe.stop_attempted, nofun⟩

/-- In every run that makes no start over a running collection, the state records a running
device, a start that reports success has configured and started it, and a rollback that
reports success has left it stopped at the defaults. -/
theorem collection_remembered (registers : UInt8 → UInt8) (replies : Nat → Reply)
    {schedule : List Operation} {last : System}
    (h : Machine.run (Machine.guarded startsStopped step) (initial registers replies) schedule =
      some last) :
    Remembers last := by
  apply Machine.run_invariant Remembers (fun _ _ _ before taken => step_remembers before taken)
    ?_ h
  exact ⟨⟨nofun, nofun⟩, nofun, nofun⟩

/-- The fates of the transfers in their order, with the byte a register read brings back; a
failed transfer has no effect here, and the identity is the supported one. -/
def scripted (fates : List (Bool × UInt8)) (index : Nat) : Reply :=
  let (reported, byte) := fates.getD index (true, 0)
  ⟨reported, reported, fun address =>
    if address = registerMapVersion then supportedRegisterMap
    else if address = registerImageRole then applicationImageRole
    else byte⟩

def startFates : List (Bool × UInt8) :=
  [(true, identityValue), (true, 0), (true, 0), (true, 1), (true, 2), (true, 0)]

theorem collection_remembered_start_stop :
    ∃ last, Machine.run (Machine.guarded startsStopped step)
        (initial (fun _ => 0) (scripted startFates)) [.start true 2, .stop] = some last ∧
      Remembers last := by
  have runs : (Machine.run (Machine.guarded startsStopped step)
      (initial (fun _ => 0) (scripted startFates)) [.start true 2, .stop]).isSome := by decide
  obtain ⟨last, h⟩ := Option.isSome_iff_exists.mp runs
  exact ⟨last, h, collection_remembered _ _ h⟩

/-- A stop fails and is kept on record; the next start clears the record and fails at the
identity, and the rollback after it sends no stop and reports success. -/
theorem running_device_forgotten :
    ∃ last, Machine.run step
        (initial (fun _ => 0)
          (scripted (startFates ++
            [(false, 0), (false, 0), (true, 0), (true, 0), (true, 0), (true, 1)])))
        [.start true 2, .stop, .start true 2, .rollback] = some last ∧
      last.link.device.collecting = true ∧ last.state.recorded = false ∧
        last.state.rollbackSucceeded = true := by
  have runs : (Machine.run step
      (initial (fun _ => 0)
        (scripted (startFates ++
          [(false, 0), (false, 0), (true, 0), (true, 0), (true, 0), (true, 1)])))
      [.start true 2, .stop, .start true 2, .rollback]).any
        (fun last => last.link.device.collecting && !last.state.recorded &&
          last.state.rollbackSucceeded) = true := by
    decide
  obtain ⟨last, h, holds⟩ := (Option.any_eq_true _ _).mp runs
  simp only [Bool.and_eq_true, Bool.not_eq_true'] at holds
  exact ⟨last, h, holds.1.1, holds.1.2, holds.2⟩

end MisrcGui.Ddd.Collection
