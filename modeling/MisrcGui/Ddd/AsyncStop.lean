import MisrcGui.Ddd.AsyncOrder

/-! A plain stop of the asynchronous queue: every transfer comes back whole inside the event
pump, every block is accepted, nothing is late. -/
namespace MisrcGui.Ddd.Async
open Library

variable {Block : Type} {queue : Queue Block} {engine next : Engine Block}
  {cancelResults : CancelResults}

/-- The run of a healthy device and consumer. Callbacks are made by the event pump. -/
def healthy (engine : Engine Block) : Action Block → Bool
  | .submitInitial rc | .resubmit rc => decide (0 ≤ rc)
  | .loopTop _ => true
  | .consumeReady accepted => accepted
  | .check clock => !clock.drainLate && !clock.reapLate
  | .pumpReturns rc => decide (0 ≤ rc) || rc == errorInterrupted
  | .callback _ status actualLength _ =>
    engine.point == .pump && status == .completed && actualLength == transferBytes
  | .telemetryCallback => engine.point == .pump
  | .stop => true

/-- The flag does not fall while the loop, which took it for raised in this pass, hands
blocks on with no transfer in flight. -/
def stopsInFlight (engine : Engine Block) : Action Block → Bool
  | .stop => !(engine.running && consuming engine.point && engine.queue.inFlight == 0)
  | _ => true

def plainStep (cancelResults : CancelResults) (engine : Engine Block) (action : Action Block) :
    Option (Engine Block) :=
  Machine.guarded (fun engine action => healthy engine action && stopsInFlight engine action)
    (step cancelResults) engine action

def completeSlots (queue : Queue Block) : Nat :=
  census (fun slot : Slot Block => slot.state = .complete) queue.slots

/-- The ids between the two counters are those of the slots in use. -/
structure Flow (queue : Queue Block) : Prop where
  balance : queue.completedTransfers + queue.inFlight = queue.nextSubmitId
  waiting : queue.completedTransfers = queue.nextConsumeId + completeSlots queue
  live : ∀ id, queue.nextConsumeId ≤ id → id < queue.nextSubmitId →
    (queue.slots (slotOf id)).submissionId = id ∧
      ((queue.slots (slotOf id)).state = .submitted ∨
        (queue.slots (slotOf id)).state = .complete)
  bound : queue.nextSubmitId ≤ queue.nextConsumeId + transferCount
  submitted : queue.submittedCount = queue.nextSubmitId

theorem slotOf_inj {base left right : Nat} (hleft : base ≤ left ∧ left < base + transferCount)
    (hright : base ≤ right ∧ right < base + transferCount) (same : slotOf left = slotOf right) :
    left = right := by
  simp only [slotOf, Fin.mk.injEq, transferCount] at *
  omega

theorem completeSlots_update (slots : Fin transferCount → Slot Block)
    (index : Fin transferCount) (slot : Slot Block) :
    census (fun slot : Slot Block => slot.state = .complete)
        (Function.update slots index slot) +
      (if (slots index).state = .complete then 1 else 0) =
    census (fun slot : Slot Block => slot.state = .complete) slots +
      (if slot.state = .complete then 1 else 0) :=
  census_update _ slots index slot

variable {index : Fin transferCount}

theorem Flow.launch (flow : Flow queue) (turn : index = slotOf queue.nextSubmitId)
    (room : queue.nextSubmitId < queue.nextConsumeId + transferCount)
    (idle : (queue.slots index).state ≠ .complete) : Flow (queue.launch index) := by
  refine ⟨?_, ?_, ?_, room, congrArg Nat.succ flow.submitted⟩
  · have balance := flow.balance
    show queue.completedTransfers + (queue.inFlight + 1) = queue.nextSubmitId + 1
    omega
  · have moved := completeSlots_update queue.slots index
      { queue.slots index with
        submissionId := queue.nextSubmitId
        state := .submitted
        actualLength := 0
        cancelRequested := false }
    rw [if_neg idle, if_neg (by exact nofun)] at moved
    exact flow.waiting.trans (congrArg _ moved.symm)
  · intro id above below
    by_cases new : id = queue.nextSubmitId
    · have there : (queue.launch index).slots (slotOf id) =
          { queue.slots index with
            submissionId := queue.nextSubmitId
            state := .submitted
            actualLength := 0
            cancelRequested := false } := by
        rw [new, ← turn]
        exact Function.update_self ..
      rw [there]
      exact ⟨new.symm, .inl rfl⟩
    · have old : id < queue.nextSubmitId := Nat.lt_of_le_of_ne (Nat.le_of_lt_succ below) new
      have apart : slotOf id ≠ index := by
        intro same
        exact new (slotOf_inj ⟨above, old.trans room⟩ ⟨above.trans old.le, room⟩
          (same.trans turn))
      have here : (queue.launch index).slots (slotOf id) = queue.slots (slotOf id) :=
        Function.update_of_ne apart _ _
      rw [here]
      exact flow.live id above old

theorem Flow.retire (flow : Flow queue)
    (complete : (queue.slots (slotOf queue.nextConsumeId)).state = .complete) :
    Flow (queue.retire (slotOf queue.nextConsumeId)) := by
  refine ⟨flow.balance, ?_, ?_, ?_, flow.submitted⟩
  · have moved := completeSlots_update queue.slots (slotOf queue.nextConsumeId)
      { queue.slots (slotOf queue.nextConsumeId) with state := .retired }
    rw [if_pos complete, if_neg (by exact nofun)] at moved
    have fewer : completeSlots (queue.retire (slotOf queue.nextConsumeId)) + 1 =
        completeSlots queue := moved
    have waiting := flow.waiting
    show queue.completedTransfers = queue.nextConsumeId + 1 + completeSlots (queue.retire _)
    omega
  · intro id above below
    have bound := flow.bound
    have below : id < queue.nextSubmitId := below
    have above : queue.nextConsumeId + 1 ≤ id := above
    have apart : slotOf id ≠ slotOf queue.nextConsumeId := by
      intro same
      have here : queue.nextConsumeId ≤ id ∧ id < queue.nextConsumeId + transferCount :=
        ⟨by omega, by omega⟩
      have equal := slotOf_inj here ⟨le_rfl, by omega⟩ same
      omega
    have here : (queue.retire (slotOf queue.nextConsumeId)).slots (slotOf id) =
        queue.slots (slotOf id) := Function.update_of_ne apart _ _
    rw [here]
    exact flow.live id (Nat.le_of_succ_le above) below
  · have bound := flow.bound
    show queue.nextSubmitId ≤ queue.nextConsumeId + 1 + transferCount
    omega

theorem Flow.reap (flow : Flow queue) {actualLength : Nat} {block : Block}
    (submitted : (queue.slots index).state = .submitted) (counted : queue.inFlight ≠ 0) :
    Flow (queue.reap index .complete actualLength block) := by
  refine ⟨?_, ?_, ?_, flow.bound, flow.submitted⟩
  · have balance := flow.balance
    show queue.completedTransfers + 1 + (queue.inFlight - 1) = queue.nextSubmitId
    omega
  · have moved := completeSlots_update queue.slots index
      { queue.slots index with state := .complete, actualLength, buffer := some block }
    rw [if_neg (by rw [submitted]; exact nofun), if_pos rfl] at moved
    have more : completeSlots (queue.reap index .complete actualLength block) =
        completeSlots queue + 1 := moved
    rw [more, ← Nat.add_assoc]
    exact congrArg Nat.succ flow.waiting
  · intro id above below
    by_cases same : slotOf id = index
    · have there : (queue.reap index .complete actualLength block).slots (slotOf id) =
          { queue.slots index with state := .complete, actualLength, buffer := some block } := by
        rw [same]
        exact Function.update_self ..
      rw [there]
      exact ⟨same ▸ (flow.live id above below).1, .inr rfl⟩
    · have here : (queue.reap index .complete actualLength block).slots (slotOf id) =
          queue.slots (slotOf id) := Function.update_of_ne same _ _
      rw [here]
      exact flow.live id above below

/-- While the flag is up every consumed block's slot is submitted again. -/
def full (engine : Engine Block) : Prop :=
  match engine.point with
  | .submitting next => engine.queue.nextSubmitId = next ∧ engine.queue.nextConsumeId = 0
  | .resubmit index =>
    engine.captureRunning = true → index = slotOf engine.queue.nextSubmitId ∧
      engine.queue.nextSubmitId + 1 = engine.queue.nextConsumeId + transferCount
  | _ => engine.captureRunning = true →
    engine.queue.nextSubmitId = engine.queue.nextConsumeId + transferCount

/-- The loop's copy of the flag is old only while transfers are in flight. -/
def sampled (engine : Engine Block) : Prop :=
  match engine.point with
  | .consumeTop | .resubmit _ => engine.running = true →
    engine.captureRunning = true ∨ 0 < engine.queue.inFlight
  | .check => (engine.running = true → 0 < engine.queue.inFlight) ∧
    (engine.queue.inFlight = 0 →
      engine.queue.completedTransfers = engine.queue.consumedTransfers)
  | .finished => engine.queue.inFlight = 0 ∧ engine.telemetryInFlight = false ∧
    engine.queue.completedTransfers = engine.queue.consumedTransfers
  | _ => True

structure Steady (engine : Engine Block) : Prop where
  sound : EngineSound engine
  flow : Flow engine.queue
  unfailed : engine.failed = false
  success : engine.result.code = .success
  uncancelled : engine.cancelIssued = false
  accepting : engine.captureRunning = true → engine.acceptingSubmissions = true
  full : full engine
  sampled : sampled engine

theorem start_steady : Steady (start : Engine Block) where
  sound := start_sound
  flow := by
    have none : completeSlots (start : Engine Block).queue = 0 :=
      census_eq_zero _ fun _ => nofun
    exact ⟨rfl, none.symm, fun _ _ below => absurd below (Nat.not_lt_zero _), Nat.zero_le _, rfl⟩
  unfailed := rfl
  success := rfl
  uncancelled := rfl
  accepting := fun _ => rfl
  full := ⟨rfl, rfl⟩
  sampled := trivial

theorem submitSlot_accepted {rc : Int} (accepted : 0 ≤ rc) :
    submitSlot engine index rc = { engine with queue := engine.queue.launch index } :=
  if_neg (Int.not_lt.mpr accepted)

theorem submitInitial_steady (steady : Steady engine) {first : Nat} {rc : Int}
    (accepted : 0 ≤ rc) (point : engine.point = .submitting first)
    (sound : EngineSound (submitInitial cancelResults engine first rc)) :
    Steady (submitInitial cancelResults engine first rc) := by
  have begun := steady.full
  unfold Async.full at begun
  rw [point] at begun
  unfold submitInitial at sound ⊢
  split_ifs at sound ⊢ with inside refused
  · exact absurd accepted (Int.not_le.mpr refused)
  · rw [submitSlot_accepted accepted] at sound ⊢
    have turn : (⟨first, inside⟩ : Fin transferCount) = slotOf engine.queue.nextSubmitId := by
      rw [begun.1, slotOf, Fin.mk.injEq]
      exact (Nat.mod_eq_of_lt inside).symm
    have unused := steady.sound.unstarted first point ⟨first, inside⟩ le_rfl
    refine ⟨sound, steady.flow.launch turn ?_ (unused ▸ nofun), steady.unfailed, steady.success,
      steady.uncancelled, steady.accepting, ?_, trivial⟩
    · rw [begun.1, begun.2, Nat.zero_add]
      exact inside
    · exact ⟨congrArg Nat.succ begun.1, begun.2⟩
  · have bound := steady.flow.bound
    rw [begun.1, begun.2, Nat.zero_add] at bound
    have whole : first = transferCount := Nat.le_antisymm bound (Nat.le_of_not_lt inside)
    have ready : (!engine.failed && engine.queue.submittedCount == transferCount) = true := by
      rw [steady.unfailed, steady.flow.submitted, begun.1, whole]
      rfl
    unfold queueReady at sound ⊢
    rw [if_pos ready] at sound ⊢
    refine ⟨sound, steady.flow, steady.unfailed, steady.success, steady.uncancelled,
      steady.accepting, fun _ => ?_, trivial⟩
    show engine.queue.nextSubmitId = engine.queue.nextConsumeId + transferCount
    rw [begun.1, begun.2, whole, Nat.zero_add]

theorem loopTop_steady (steady : Steady engine) (telemetryDue : Bool)
    (point : engine.point = .loopTop) (sound : EngineSound (loopTop engine telemetryDue)) :
    Steady (loopTop engine telemetryDue) := by
  have ahead := steady.full
  unfold Async.full at ahead
  rw [point] at ahead
  have place : (loopTop engine telemetryDue).point = .consumeTop := by
    simp [loopTop, steady.unfailed]
  refine ⟨sound, steady.flow, steady.unfailed, steady.success, steady.uncancelled, ?_, ?_, ?_⟩
  · intro running
    have running : engine.captureRunning = true := running
    simp [loopTop, running, steady.accepting running]
  · unfold Async.full
    rw [place]
    exact ahead
  · unfold Async.sampled
    rw [place]
    exact fun running => .inl running

theorem next_in_use (steady : Steady engine) (point : engine.point = .consumeTop)
    (undrained : stopDrainComplete engine.captureRunning engine.queue = false) :
    (engine.queue.slots (slotOf engine.queue.nextConsumeId)).submissionId =
        engine.queue.nextConsumeId ∧
      ((engine.queue.slots (slotOf engine.queue.nextConsumeId)).state = .submitted ∨
        (engine.queue.slots (slotOf engine.queue.nextConsumeId)).state = .complete) := by
  have ahead := steady.full
  unfold Async.full at ahead
  rw [point] at ahead
  have balance := steady.flow.balance
  have waiting := steady.flow.waiting
  have consumed := steady.sound.sound.consumed
  have above : engine.queue.nextConsumeId < engine.queue.nextSubmitId := by
    cases running : engine.captureRunning with
    | true =>
      have room := ahead running
      have positive : 0 < transferCount := by decide
      omega
    | false =>
      simp only [stopDrainComplete, running, Bool.not_false, Bool.true_and,
        Bool.and_eq_false_iff, beq_eq_false_iff_ne] at undrained
      omega
  exact steady.flow.live _ le_rfl above

/-- What a pass of `consume_ready` does in a steady engine. -/
theorem consumeReady_eq (cancelResults : CancelResults) (steady : Steady engine)
    (point : engine.point = .consumeTop) :
    (stopDrainComplete engine.captureRunning engine.queue = true ∧
        consumeReady cancelResults engine true = { engine with point := .check }) ∨
      (engine.queue.inFlight ≠ 0 ∧
        consumeReady cancelResults engine true = { engine with point := .check }) ∨
      ((engine.queue.slots (slotOf engine.queue.nextConsumeId)).state = .complete ∧
        consumeReady cancelResults engine true =
          { engine with
            queue := engine.queue.retire (slotOf engine.queue.nextConsumeId)
            point := .resubmit (slotOf engine.queue.nextConsumeId) }) := by
  cases drained : stopDrainComplete engine.captureRunning engine.queue with
  | true => exact .inl ⟨rfl, by simp [consumeReady, drained]⟩
  | false =>
    have next := next_in_use steady point drained
    rcases next.2 with submitted | complete
    · have waits : orderPolicyPeek engine.queue = .wait := by
        simp [orderPolicyPeek, next.1, submitted]
      exact .inr (.inl ⟨steady.sound.sound.inFlight_ne submitted,
        by simp [consumeReady, drained, waits]⟩)
    · have ready : orderPolicyPeek engine.queue = .ready := by
        simp [orderPolicyPeek, next.1, complete]
      exact .inr (.inr ⟨complete, by simp [consumeReady, drained, ready]⟩)

theorem consumeReady_steady (steady : Steady engine) (point : engine.point = .consumeTop)
    (sound : EngineSound (consumeReady cancelResults engine true)) :
    Steady (consumeReady cancelResults engine true) := by
  have ahead := steady.full
  have copy := steady.sampled
  unfold Async.full at ahead
  unfold Async.sampled at copy
  rw [point] at ahead copy
  dsimp only at ahead copy
  rcases consumeReady_eq cancelResults steady point with
    ⟨drained, stays⟩ | ⟨flying, stays⟩ | ⟨complete, hands⟩
  · simp only [stopDrainComplete, Bool.and_eq_true, Bool.not_eq_true', beq_iff_eq] at drained
    rw [stays] at sound ⊢
    refine ⟨sound, steady.flow, steady.unfailed, steady.success, steady.uncancelled,
      steady.accepting, ahead, fun running => ?_, fun _ => drained.2⟩
    exact (copy running).resolve_left (by simp [drained.1.1])
  · rw [stays] at sound ⊢
    exact ⟨sound, steady.flow, steady.unfailed, steady.success, steady.uncancelled,
      steady.accepting, ahead, fun _ => Nat.pos_of_ne_zero flying,
      fun none => absurd none flying⟩
  · rw [hands] at sound ⊢
    refine ⟨sound, steady.flow.retire complete, steady.unfailed, steady.success,
      steady.uncancelled, steady.accepting, fun running => ?_, copy⟩
    have room : engine.queue.nextSubmitId = engine.queue.nextConsumeId + transferCount :=
      ahead running
    refine ⟨?_, ?_⟩
    · show slotOf engine.queue.nextConsumeId = slotOf engine.queue.nextSubmitId
      rw [room, slotOf, slotOf, Fin.mk.injEq, Nat.add_mod_right]
    · show engine.queue.nextSubmitId + 1 = engine.queue.nextConsumeId + 1 + transferCount
      omega

theorem resubmit_steady (steady : Steady engine) {rc : Int} (accepted : 0 ≤ rc)
    (point : engine.point = .resubmit index)
    (sound : EngineSound (resubmit cancelResults engine index rc)) :
    Steady (resubmit cancelResults engine index rc) := by
  have ahead := steady.full
  have copy := steady.sampled
  unfold Async.full at ahead
  unfold Async.sampled at copy
  rw [point] at ahead copy
  dsimp only at ahead copy
  have retired := (steady.sound.retired index point).1
  cases running : engine.captureRunning with
  | true =>
    have again : shouldResubmit engine = true := by
      simp [shouldResubmit, running, steady.accepting running, steady.unfailed]
    have submits : resubmit cancelResults engine index rc =
        { engine with queue := engine.queue.launch index, point := .consumeTop } := by
      simp [resubmit, again, submitSlot_accepted accepted, Int.not_lt.mpr accepted]
    have room := (ahead running).2
    rw [submits] at sound ⊢
    refine ⟨sound, steady.flow.launch (ahead running).1 (by omega) (retired ▸ nofun),
      steady.unfailed, steady.success, steady.uncancelled, steady.accepting, fun _ => room,
      fun _ => .inr (Nat.succ_pos _)⟩
  | false =>
    have stays : resubmit cancelResults engine index rc =
        { engine with point := .consumeTop } := by
      simp [resubmit, shouldResubmit, running]
    rw [stays] at sound ⊢
    refine ⟨sound, steady.flow, steady.unfailed, steady.success, steady.uncancelled,
      steady.accepting, ?_, copy⟩
    intro up
    exact absurd (running.symm.trans up) Bool.false_ne_true

theorem checkLoop_eq (steady : Steady engine) {clock : Clock}
    (early : (!clock.drainLate && !clock.reapLate) = true) (point : engine.point = .check) :
    checkLoop cancelResults engine clock =
      if stopDrainComplete engine.running engine.queue && !engine.telemetryInFlight then
        finish engine
      else { engine with point := .pump } := by
  have copy := steady.sampled
  unfold Async.sampled at copy
  rw [point] at copy
  have flying : (engine.running && engine.queue.inFlight == 0) = false := by
    cases running : engine.running with
    | false => rfl
    | true => simp [(copy.1 running).ne']
  simp only [Bool.and_eq_true, Bool.not_eq_true'] at early
  simp [checkLoop, steady.unfailed, early, steady.uncancelled, flying]

theorem checkLoop_steady (steady : Steady engine) {clock : Clock}
    (early : (!clock.drainLate && !clock.reapLate) = true) (point : engine.point = .check)
    (sound : EngineSound (checkLoop cancelResults engine clock)) :
    Steady (checkLoop cancelResults engine clock) := by
  have ahead := steady.full
  unfold Async.full at ahead
  rw [point] at ahead
  rw [checkLoop_eq steady early point] at sound ⊢
  split_ifs at sound ⊢ with drained
  · simp only [stopDrainComplete, Bool.and_eq_true, Bool.not_eq_true', beq_iff_eq] at drained
    exact ⟨sound, steady.flow, steady.unfailed, steady.success, steady.uncancelled,
      steady.accepting, ahead, drained.1.1.2, drained.2, drained.1.2⟩
  · exact ⟨sound, steady.flow, steady.unfailed, steady.success, steady.uncancelled,
      steady.accepting, ahead, trivial⟩

theorem pumpReturns_eq (cancelResults : CancelResults) (engine : Engine Block) {rc : Int}
    (fine : (decide (0 ≤ rc) || rc == errorInterrupted) = true) :
    pumpReturns cancelResults engine rc = { engine with point := .loopTop } := by
  simp only [Bool.or_eq_true, decide_eq_true_eq, beq_iff_eq] at fine
  apply if_neg
  omega

theorem pumpReturns_steady (steady : Steady engine) {rc : Int}
    (fine : (decide (0 ≤ rc) || rc == errorInterrupted) = true) (point : engine.point = .pump)
    (sound : EngineSound (pumpReturns cancelResults engine rc)) :
    Steady (pumpReturns cancelResults engine rc) := by
  have ahead := steady.full
  unfold Async.full at ahead
  rw [point] at ahead
  rw [pumpReturns_eq cancelResults engine fine] at sound ⊢
  exact ⟨sound, steady.flow, steady.unfailed, steady.success, steady.uncancelled,
    steady.accepting, ahead, trivial⟩

theorem transferCallback_steady (steady : Steady engine) {status : TransferStatus}
    {actualLength : Nat} {block : Block}
    (whole :
      (engine.point == .pump && status == .completed && actualLength == transferBytes) = true)
    (pending : engine.queue.pending index = true)
    (sound : EngineSound (transferCallback engine index status actualLength block)) :
    Steady (transferCallback engine index status actualLength block) := by
  simp only [Bool.and_eq_true, beq_iff_eq] at whole
  obtain ⟨⟨point, completed⟩, exact⟩ := whole
  have ahead := steady.full
  unfold Async.full at ahead
  rw [point] at ahead
  have submitted := (steady.sound.sound.owned index).mp pending
  have flying := steady.sound.sound.inFlight_ne submitted
  have returns : transferCallback engine index status actualLength block =
      { engine with queue := engine.queue.reap index .complete actualLength block } := by
    simp [transferCallback, submitted, flying, completed, exact]
  rw [returns] at sound ⊢
  refine ⟨sound, steady.flow.reap submitted flying, steady.unfailed, steady.success,
    steady.uncancelled, steady.accepting, ?_, ?_⟩
  · unfold Async.full
    dsimp only
    rw [point]
    exact ahead
  · unfold Async.sampled
    dsimp only
    rw [point]
    trivial

theorem stop_steady (steady : Steady engine)
    (inFlight : (!(engine.running && consuming engine.point && engine.queue.inFlight == 0)) =
      true) (sound : EngineSound { engine with captureRunning := false }) :
    Steady { engine with captureRunning := false } := by
  have ahead := steady.full
  have copy := steady.sampled
  refine ⟨sound, steady.flow, steady.unfailed, steady.success, steady.uncancelled, nofun, ?_, ?_⟩
  · unfold Async.full at ahead ⊢
    cases point : engine.point <;> simp only [point] at ahead ⊢
    · exact ahead
    all_goals exact nofun
  · unfold Async.sampled at copy ⊢
    cases point : engine.point <;> simp only [point] at copy ⊢
    · intro running
      simpa [running, point, consuming, Nat.pos_iff_ne_zero] using inFlight
    · intro running
      simpa [running, point, consuming, Nat.pos_iff_ne_zero] using inFlight
    · exact copy
    · exact copy

theorem step_steady (steady : Steady engine) (action : Action Block)
    (h : plainStep cancelResults engine action = some next) : Steady next := by
  obtain ⟨allowed, taken⟩ := Machine.guarded_eq_some.mp h
  rw [Bool.and_eq_true] at allowed
  have sound := step_sound steady.sound action taken
  cases action with
  | submitInitial rc =>
    obtain ⟨_, point, rfl⟩ := step_some taken
    exact submitInitial_steady steady (of_decide_eq_true allowed.1) point sound
  | loopTop telemetryDue =>
    obtain ⟨point, rfl⟩ := step_some taken
    exact loopTop_steady steady telemetryDue point sound
  | consumeReady accepted =>
    have accepts : accepted = true := allowed.1
    subst accepts
    obtain ⟨point, rfl⟩ := step_some taken
    exact consumeReady_steady steady point sound
  | resubmit rc =>
    obtain ⟨_, point, rfl⟩ := step_some taken
    exact resubmit_steady steady (of_decide_eq_true allowed.1) point sound
  | check clock =>
    obtain ⟨point, rfl⟩ := step_some taken
    exact checkLoop_steady steady allowed.1 point sound
  | pumpReturns rc =>
    obtain ⟨point, rfl⟩ := step_some taken
    exact pumpReturns_steady steady allowed.1 point sound
  | callback index status actualLength block =>
    obtain ⟨pending, rfl⟩ := step_some taken
    exact transferCallback_steady steady allowed.1 pending sound
  | telemetryCallback =>
    obtain ⟨-, rfl⟩ := step_some taken
    have point : engine.point = .pump := by simpa [healthy] using allowed.1
    refine ⟨sound, steady.flow, steady.unfailed, steady.success, steady.uncancelled,
      steady.accepting, steady.full, ?_⟩
    unfold Async.sampled
    dsimp only
    rw [point]
    trivial
  | stop =>
    obtain ⟨-, rfl⟩ := step_some taken
    exact stop_steady steady allowed.2 sound

/-- The flag is down, the queue has been submitted once, and every transfer is back. -/
structure Quiet (engine : Engine Block) : Prop where
  down : engine.captureRunning = false
  begun : ∀ next, engine.point ≠ .submitting next
  landed : engine.queue.inFlight = 0
  silent : engine.telemetryInFlight = false

def rank (engine : Engine Block) : Nat :=
  match engine.point with
  | .submitting _ | .finished => 0
  | .check => 1
  | .consumeTop => 2 * completeSlots engine.queue + 2
  | .resubmit _ | .loopTop => 2 * completeSlots engine.queue + 3
  | .pump => 2 * completeSlots engine.queue + 4

theorem quiet_step (steady : Steady engine) (quiet : Quiet engine) (action : Action Block)
    (h : plainStep cancelResults engine action = some next) :
    Quiet next ∧ rank next < rank engine := by
  obtain ⟨allowed, taken⟩ := Machine.guarded_eq_some.mp h
  rw [Bool.and_eq_true] at allowed
  cases action with
  | submitInitial rc =>
    obtain ⟨_, point, -⟩ := step_some taken
    exact absurd point (quiet.begun _)
  | loopTop telemetryDue =>
    obtain ⟨point, rfl⟩ := step_some taken
    have place : (loopTop engine telemetryDue).point = .consumeTop := by
      simp [loopTop, steady.unfailed]
    refine ⟨⟨quiet.down, fun _ => place ▸ nofun, quiet.landed, ?_⟩, ?_⟩
    · simp [loopTop, quiet.silent, quiet.down]
    · unfold rank
      rw [place, point]
      exact Nat.lt_succ_self _
  | consumeReady accepted =>
    have accepts : accepted = true := allowed.1
    subst accepts
    obtain ⟨point, rfl⟩ := step_some taken
    have bound : rank engine = 2 * completeSlots engine.queue + 2 := by
      unfold rank
      rw [point]
    rcases consumeReady_eq cancelResults steady point with
      ⟨-, stays⟩ | ⟨flying, -⟩ | ⟨complete, hands⟩
    · rw [stays, bound]
      exact ⟨⟨quiet.down, nofun, quiet.landed, quiet.silent⟩, Nat.succ_lt_succ (Nat.succ_pos _)⟩
    · exact absurd quiet.landed flying
    · have before := steady.flow.waiting
      have after := (steady.flow.retire complete).waiting
      have fewer : engine.queue.completedTransfers = engine.queue.nextConsumeId + 1 +
        completeSlots (engine.queue.retire (slotOf engine.queue.nextConsumeId)) := after
      rw [hands, bound]
      refine ⟨⟨quiet.down, nofun, quiet.landed, quiet.silent⟩, ?_⟩
      show 2 * completeSlots (engine.queue.retire _) + 3 < _
      omega
  | resubmit rc =>
    obtain ⟨_, point, rfl⟩ := step_some taken
    have stays : ∀ index, resubmit cancelResults engine index rc =
        { engine with point := .consumeTop } := by
      simp [resubmit, shouldResubmit, quiet.down]
    rw [stays]
    refine ⟨⟨quiet.down, nofun, quiet.landed, quiet.silent⟩, ?_⟩
    unfold rank
    rw [point]
    exact Nat.lt_succ_self _
  | check clock =>
    obtain ⟨point, rfl⟩ := step_some taken
    have copy := steady.sampled
    unfold Async.sampled at copy
    rw [point] at copy
    have stale : engine.running = false := by
      cases running : engine.running with
      | false => rfl
      | true => exact absurd quiet.landed (copy.1 running).ne'
    have drained : (stopDrainComplete engine.running engine.queue &&
        !engine.telemetryInFlight) = true := by
      simp [stopDrainComplete, stale, quiet.landed, copy.2 quiet.landed, quiet.silent]
    rw [checkLoop_eq steady allowed.1 point, if_pos drained]
    refine ⟨⟨quiet.down, nofun, quiet.landed, quiet.silent⟩, ?_⟩
    unfold rank
    rw [point]
    exact Nat.zero_lt_one
  | pumpReturns rc =>
    obtain ⟨point, rfl⟩ := step_some taken
    rw [pumpReturns_eq cancelResults engine allowed.1]
    refine ⟨⟨quiet.down, nofun, quiet.landed, quiet.silent⟩, ?_⟩
    unfold rank
    rw [point]
    exact Nat.lt_succ_self _
  | callback index status actualLength block =>
    obtain ⟨pending, -⟩ := step_some taken
    have submitted := (steady.sound.sound.owned index).mp pending
    exact absurd quiet.landed (steady.sound.sound.inFlight_ne submitted)
  | telemetryCallback =>
    simp [step, quiet.silent] at taken
  | stop =>
    simp [step, quiet.down] at taken

theorem quiet_enabled (cancelResults : CancelResults) (quiet : Quiet engine)
    (unfinished : engine.point ≠ .finished) :
    ∃ action next, plainStep cancelResults engine action = some next := by
  have goes (action : Action Block)
      (allowed : healthy engine action = true ∧ stopsInFlight engine action = true)
      (taken : (step cancelResults engine action).isSome) :
      ∃ action next, plainStep cancelResults engine action = some next := by
    obtain ⟨next, h⟩ := Option.isSome_iff_exists.mp taken
    exact ⟨action, next, Machine.guarded_eq_some.mpr ⟨Bool.and_eq_true _ _ ▸ allowed, h⟩⟩
  cases point : engine.point with
  | submitting index => exact absurd point (quiet.begun index)
  | loopTop => exact goes (.loopTop false) ⟨rfl, rfl⟩ (by simp [step, point])
  | consumeTop => exact goes (.consumeReady true) ⟨rfl, rfl⟩ (by simp [step, point])
  | resubmit index => exact goes (.resubmit 0) ⟨rfl, rfl⟩ (by simp [step, point])
  | check => exact goes (.check ⟨false, false⟩) ⟨rfl, rfl⟩ (by simp [step, point])
  | pump => exact goes (.pumpReturns 0) ⟨rfl, rfl⟩ (by simp [step, point])
  | finished => exact absurd point unfinished

/-- In a healthy run whose stop meets the condition no failure is ever reported, the run
ends with every completed block consumed and nothing in flight, and once the flag is down
and every transfer is back it does end, within `rank` steps. -/
theorem plain_stop_succeeds (cancelResults : CancelResults) (schedule : List (Action Block))
    (last : Engine Block)
    (h : Machine.run (plainStep cancelResults) start schedule = some last) :
    last.failed = false ∧ last.result.code = .success ∧
      (last.point = .finished → last.queue.inFlight = 0 ∧ last.telemetryInFlight = false ∧
        last.queue.consumedTransfers = last.queue.completedTransfers) ∧
      (Quiet last → ∀ more final,
        Machine.run (plainStep cancelResults) last more = some final →
        more.length ≤ rank last ∧ (final.point = .finished ∨
          ∃ action next, plainStep cancelResults final action = some next)) := by
  have steady : Steady last := Machine.run_invariant Steady
    (fun _ action _ kept taken => step_steady kept action taken) start_steady h
  refine ⟨steady.unfailed, steady.success, fun point => ?_, fun quiet more final later => ?_⟩
  · have ends := steady.sampled
    unfold Async.sampled at ends
    rw [point] at ends
    exact ⟨ends.1, ends.2.1, ends.2.2.symm⟩
  · have ranked := Machine.run_rank (fun engine => Steady engine ∧ Quiet engine) rank
      (fun engine action next kept taken =>
        have quieter := quiet_step kept.1 kept.2 action taken
        ⟨⟨step_steady kept.1 action taken, quieter.1⟩, quieter.2⟩) ⟨steady, quiet⟩ later
    refine ⟨Nat.le_of_add_right_le ranked.2, ?_⟩
    by_cases point : final.point = .finished
    · exact .inl point
    · exact .inr (quiet_enabled cancelResults ranked.1.2 point)

/-- The whole queue is submitted, the loop goes round once, and every transfer comes back. -/
def allComplete : List (Action Unit) :=
  (List.finRange transferCount).map fun index => .callback index .completed transferBytes ()

def submitAll : List (Action Unit) :=
  List.replicate (transferCount + 1) (.submitInitial 0) ++
    [.loopTop false, .consumeReady true, .check ⟨false, false⟩]

def drain : List (Action Unit) :=
  (List.replicate transferCount [.consumeReady true, .resubmit 0]).flatten ++
    [.consumeReady true, .check ⟨false, false⟩]

/-- The flag falls in the event pump. -/
theorem plain_stop_succeeds_in_pump :
    ∃ last : Engine Unit, Machine.run (plainStep fun _ => 0) start
        (submitAll ++ allComplete ++ [.stop, .pumpReturns 0, .loopTop false] ++ drain) =
          some last ∧
      last.point = .finished ∧ last.result.code = .success ∧
        last.queue.consumedTransfers = transferCount := by
  have runs : (Machine.run (plainStep fun _ => 0) start
      (submitAll ++ allComplete ++ [.stop, .pumpReturns 0, .loopTop false] ++ drain)).any
        (fun last : Engine Unit => last.point == .finished &&
          last.queue.consumedTransfers == transferCount) = true := by
    decide +kernel
  obtain ⟨last, h, holds⟩ := (Option.any_eq_true _ _).mp runs
  have safe := plain_stop_succeeds _ _ last h
  simp only [Bool.and_eq_true, beq_iff_eq] at holds
  exact ⟨last, h, holds.1, safe.2.1, holds.2⟩

/-- The flag falls right after the loop has looked at it, with every transfer back: the
blocks are all consumed, and the run reports an order failure. -/
theorem stop_order_failure :
    ∃ last : Engine Unit, Machine.run (Machine.guarded healthy (step fun _ => 0)) start
        (submitAll ++ allComplete ++ [.pumpReturns 0, .loopTop false, .stop] ++ drain) =
          some last ∧
      last.failed = true ∧ last.result.code = .orderFailure ∧
        last.queue.consumedTransfers = last.queue.completedTransfers := by
  have runs : (Machine.run (Machine.guarded healthy (step fun _ => 0)) start
      (submitAll ++ allComplete ++ [.pumpReturns 0, .loopTop false, .stop] ++ drain)).any
        (fun last : Engine Unit => last.failed && last.result.code == .orderFailure &&
          last.queue.consumedTransfers == last.queue.completedTransfers) = true := by
    decide +kernel
  obtain ⟨last, h, holds⟩ := (Option.any_eq_true _ _).mp runs
  simp only [Bool.and_eq_true, beq_iff_eq] at holds
  exact ⟨last, h, holds.1.1, holds.1.2, holds.2⟩

end MisrcGui.Ddd.Async
