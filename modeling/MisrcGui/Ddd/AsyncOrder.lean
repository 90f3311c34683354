import MisrcGui.Library.Census
import MisrcGui.Ddd.AsyncQueue

/-! Delivery of the asynchronous queue. -/
namespace MisrcGui.Ddd.Async
open Library

variable {Block : Type} {queue : Queue Block}

def submittedSlots (queue : Queue Block) : Nat :=
  census (fun slot : Slot Block => slot.state = .submitted) queue.slots

structure Sound (queue : Queue Block) : Prop where
  counted : queue.inFlight = submittedSlots queue
  owned : ∀ index, queue.pending index = true ↔ (queue.slots index).state = .submitted
  assigned : ∀ index, (queue.slots index).state ≠ .unused →
    (queue.slots index).submissionId < queue.nextSubmitId
  distinct : ∀ left right, (queue.slots left).state ≠ .unused →
    (queue.slots right).state ≠ .unused →
    (queue.slots left).submissionId = (queue.slots right).submissionId → left = right
  fresh : ∀ entry ∈ queue.completed, entry.1 < queue.nextSubmitId
  once : (queue.completed.map Prod.fst).Nodup
  awaited : ∀ index, (queue.slots index).state = .submitted →
    (queue.slots index).submissionId ∉ queue.completed.map Prod.fst
  held : ∀ index, (queue.slots index).state = .complete →
    (queue.slots index).actualLength = transferBytes ∧
      ∃ block, (queue.slots index).buffer = some block ∧
        ((queue.slots index).submissionId, block) ∈ queue.completed
  kept : ∀ entry ∈ queue.completed, entry.1 < queue.handed.length ∨
    ∃ index, (queue.slots index).state = .complete ∧
      (queue.slots index).submissionId = entry.1 ∧ (queue.slots index).buffer = some entry.2
  ordered : queue.handed.map Delivery.submissionId = List.range queue.handed.length
  whole : ∀ delivery ∈ queue.handed, delivery.size = transferBytes ∧
    ∃ block, delivery.block = some block ∧
      (delivery.submissionId, block) ∈ queue.completed
  accepted : queue.nextConsumeId ≤ queue.handed.length
  consumed : queue.consumedTransfers = queue.nextConsumeId

theorem Sound.inFlight_ne (sound : Sound queue) {index : Fin transferCount}
    (h : (queue.slots index).state = .submitted) : queue.inFlight ≠ 0 := by
  have some_submitted := (census_pos (fun slot : Slot Block => slot.state = .submitted)).mpr
    ⟨index, h⟩
  rw [sound.counted]
  exact some_submitted.ne'

theorem submittedSlots_update (slots : Fin transferCount → Slot Block)
    (index : Fin transferCount) (slot : Slot Block) :
    census (fun slot : Slot Block => slot.state = .submitted)
        (Function.update slots index slot) +
      (if (slots index).state = .submitted then 1 else 0) =
    census (fun slot : Slot Block => slot.state = .submitted) slots +
      (if slot.state = .submitted then 1 else 0) :=
  census_update _ slots index slot

section
variable {slots : Fin transferCount → Slot Block} {index : Fin transferCount} {slot : Slot Block}

theorem used_of_update (used : (slots index).state ≠ .unused) (other : Fin transferCount)
    (h : (Function.update slots index slot other).state ≠ .unused) :
    (slots other).state ≠ .unused := by
  by_cases same : other = index
  · exact same ▸ used
  · rwa [Function.update_of_ne same] at h

theorem submissionId_update (same : slot.submissionId = (slots index).submissionId)
    (other : Fin transferCount) :
    (Function.update slots index slot other).submissionId = (slots other).submissionId := by
  rcases eq_or_ne other index with rfl | apart
  · rw [Function.update_self, same]
  · rw [Function.update_of_ne apart]

end

variable {state : SlotState} {before : Queue Block} (rc : Int)

theorem mem_reap_completed {index : Fin transferCount} {actualLength : Nat} {block : Block}
    {entry : Nat × Block} :
    entry ∈ (queue.reap index state actualLength block).completed ↔
      entry ∈ queue.completed ∨
        state = .complete ∧ entry = ((queue.slots index).submissionId, block) := by
  unfold Queue.reap
  by_cases h : state = .complete <;> simp [h]

theorem Sound.reap (sound : Sound queue) {index : Fin transferCount} {actualLength : Nat}
    {block : Block} (submitted : (queue.slots index).state = .submitted)
    (settled : state ≠ .submitted ∧ state ≠ .unused)
    (exact : state = .complete → actualLength = transferBytes) :
    Sound (queue.reap index state actualLength block) := by
  have here : ∀ other, other ≠ index →
      (queue.reap index state actualLength block).slots other = queue.slots other :=
    fun other h => Function.update_of_ne h _ _
  have there : (queue.reap index state actualLength block).slots index =
      { queue.slots index with state, actualLength, buffer := some block } :=
    Function.update_self ..
  have used : ∀ other, ((queue.reap index state actualLength block).slots other).state ≠
      .unused → (queue.slots other).state ≠ .unused :=
    used_of_update (submitted ▸ nofun)
  have named : ∀ other, ((queue.reap index state actualLength block).slots other).submissionId =
      (queue.slots other).submissionId :=
    submissionId_update rfl
  refine ⟨?_, ?_, ?_, ?_, ?_, ?_, ?_, ?_, ?_, ?_, ?_, ?_, ?_⟩
  · have moved := submittedSlots_update queue.slots index
      { queue.slots index with state, actualLength, buffer := some block }
    rw [if_pos submitted, if_neg settled.1] at moved
    have counted := sound.counted
    unfold submittedSlots at counted
    show queue.inFlight - 1 = census _ (Function.update queue.slots index _)
    omega
  · intro other
    by_cases h : other = index
    · subst h
      rw [there]
      simp [Queue.reap, settled.1]
    · rw [here other h, ← sound.owned]
      simp [Queue.reap, h]
  · intro other h
    rw [named]
    exact sound.assigned other (used other h)
  · intro left right hleft hright
    rw [named, named]
    exact sound.distinct left right (used left hleft) (used right hright)
  · intro entry member
    rcases mem_reap_completed.mp member with old | ⟨-, rfl⟩
    · exact sound.fresh entry old
    · exact sound.assigned index (submitted ▸ nofun)
  · unfold Queue.reap
    by_cases h : state = .complete
    · rw [if_pos h, List.map_append]
      exact sound.once.append (List.nodup_singleton _)
        (List.disjoint_singleton.mpr (sound.awaited index submitted))
    · rw [if_neg h]
      exact sound.once
  · intro other h
    have apart : other ≠ index := by
      rintro rfl
      rw [there] at h
      exact settled.1 h
    rw [here other apart] at h
    rw [named, List.mem_map]
    rintro ⟨entry, member, same⟩
    rcases mem_reap_completed.mp member with old | ⟨-, rfl⟩
    · exact sound.awaited other h (List.mem_map.mpr ⟨entry, old, same⟩)
    · exact apart (sound.distinct other index (h ▸ nofun) (submitted ▸ nofun) same.symm)
  · intro other h
    by_cases same : other = index
    · subst same
      rw [there] at h ⊢
      exact ⟨exact h, block, rfl, mem_reap_completed.mpr (.inr ⟨h, rfl⟩)⟩
    · rw [here other same] at h ⊢
      obtain ⟨size, held, hbuffer, member⟩ := sound.held other h
      exact ⟨size, held, hbuffer, mem_reap_completed.mpr (.inl member)⟩
  · intro entry member
    rcases mem_reap_completed.mp member with old | ⟨complete, rfl⟩
    · refine (sound.kept entry old).imp_right ?_
      rintro ⟨other, h, same⟩
      have apart : other ≠ index := by
        rintro rfl
        rw [submitted] at h
        cases h
      exact ⟨other, by rw [here other apart]; exact ⟨h, same⟩⟩
    · exact .inr ⟨index, by rw [there]; exact ⟨complete, rfl, rfl⟩⟩
  · exact sound.ordered
  · intro delivery member
    obtain ⟨size, held, same, old⟩ := sound.whole delivery member
    exact ⟨size, held, same, mem_reap_completed.mpr (.inl old)⟩
  · exact sound.accepted
  · exact sound.consumed

theorem Sound.assign (sound : Sound queue) {index : Fin transferCount} {next : Queue Block}
    (idle : (queue.slots index).state = .unused ∨ (queue.slots index).state = .retired)
    (outcome : state = .submitted ∨ state = .failed)
    (slots : next.slots = (queue.assign index state).slots)
    (ids : next.nextSubmitId = queue.nextSubmitId + 1)
    (counted : next.inFlight = queue.inFlight + if state = .submitted then 1 else 0)
    (owned : next.pending index = true ↔ state = .submitted)
    (others : ∀ other, other ≠ index → next.pending other = queue.pending other)
    (completed : next.completed = queue.completed) (handed : next.handed = queue.handed)
    (accepted : next.nextConsumeId = queue.nextConsumeId)
    (consumed : next.consumedTransfers = queue.consumedTransfers) : Sound next := by
  have here : ∀ other, other ≠ index → next.slots other = queue.slots other := by
    intro other h
    rw [slots]
    exact Function.update_of_ne h _ _
  have there : (next.slots index).state = state ∧
      (next.slots index).submissionId = queue.nextSubmitId := by
    rw [slots]
    simp [Queue.assign]
  have started : state ≠ .unused ∧ state ≠ .complete := by
    rcases outcome with rfl | rfl <;> exact ⟨nofun, nofun⟩
  have settled : ¬(queue.slots index).state = .submitted ∧
      ¬(queue.slots index).state = .complete := by
    rcases idle with h | h <;> rw [h] <;> exact ⟨nofun, nofun⟩
  refine ⟨?_, ?_, ?_, ?_, ?_, ?_, ?_, ?_, ?_, ?_, ?_, ?_, ?_⟩
  · have moved := submittedSlots_update queue.slots index
      { queue.slots index with
        submissionId := queue.nextSubmitId
        state
        actualLength := 0
        cancelRequested := false }
    rw [if_neg settled.1] at moved
    rw [counted, sound.counted, submittedSlots, submittedSlots, slots]
    exact moved.symm
  · intro other
    by_cases h : other = index
    · subst h
      rw [owned, there.1]
    · rw [others other h, here other h]
      exact sound.owned other
  · intro other h
    by_cases same : other = index
    · subst same
      rw [there.2, ids]
      exact Nat.lt_succ_self _
    · rw [here other same] at h ⊢
      rw [ids]
      exact Nat.lt_succ_of_lt (sound.assigned other h)
  · intro left right hleft hright same
    by_cases isLeft : left = index <;> by_cases isRight : right = index
    · rw [isLeft, isRight]
    · subst isLeft
      rw [there.2, here right isRight] at same
      rw [here right isRight] at hright
      exact absurd same.symm (sound.assigned right hright).ne
    · subst isRight
      rw [there.2, here left isLeft] at same
      rw [here left isLeft] at hleft
      exact absurd same (sound.assigned left hleft).ne
    · rw [here left isLeft] at hleft same
      rw [here right isRight] at hright same
      exact sound.distinct left right hleft hright same
  · intro entry member
    rw [completed] at member
    rw [ids]
    exact Nat.lt_succ_of_lt (sound.fresh entry member)
  · rw [completed]
    exact sound.once
  · intro other h
    rw [completed]
    by_cases same : other = index
    · subst same
      rw [there.2, List.mem_map]
      rintro ⟨entry, member, named⟩
      exact (sound.fresh entry member).ne named
    · rw [here other same] at h ⊢
      exact sound.awaited other h
  · intro other h
    have apart : other ≠ index := by
      rintro rfl
      exact started.2 (there.1.symm.trans h)
    rw [here other apart] at h ⊢
    rw [completed]
    exact sound.held other h
  · intro entry member
    rw [completed] at member
    rw [handed]
    refine (sound.kept entry member).imp_right ?_
    rintro ⟨other, h, same⟩
    have apart : other ≠ index := by
      rintro rfl
      exact settled.2 h
    exact ⟨other, by rw [here other apart]; exact ⟨h, same⟩⟩
  · rw [handed]
    exact sound.ordered
  · rw [handed, completed]
    exact sound.whole
  · rw [accepted, handed]
    exact sound.accepted
  · rw [consumed, accepted]
    exact sound.consumed

theorem Sound.launch (sound : Sound queue) {index : Fin transferCount}
    (idle : (queue.slots index).state = .unused ∨ (queue.slots index).state = .retired) :
    Sound (queue.launch index) := by
  refine sound.assign idle (.inl rfl) rfl rfl rfl ?_ ?_ rfl rfl rfl rfl
  · simp [Queue.launch]
  · intro other h
    exact Function.update_of_ne h _ _

theorem Sound.refuse (sound : Sound queue) {index : Fin transferCount}
    (idle : (queue.slots index).state = .unused ∨ (queue.slots index).state = .retired) :
    Sound (queue.assign index .failed) := by
  have free : ¬queue.pending index = true := by
    rw [sound.owned]
    rcases idle with h | h <;> rw [h] <;> exact nofun
  exact sound.assign idle (.inr rfl) rfl rfl rfl (by simp [Queue.assign, free])
    (fun _ _ => rfl) rfl rfl rfl rfl

theorem Sound.hand (sound : Sound queue) {index : Fin transferCount}
    (complete : (queue.slots index).state = .complete)
    (turn : (queue.slots index).submissionId = queue.handed.length)
    (outcome : state = .retired ∨ state = .failed) : Sound (queue.hand index state) := by
  have here : ∀ other, other ≠ index →
      (queue.hand index state).slots other = queue.slots other :=
    fun other h => Function.update_of_ne h _ _
  have there : (queue.hand index state).slots index = { queue.slots index with state } :=
    Function.update_self ..
  have settled : state ≠ .submitted ∧ state ≠ .complete ∧ state ≠ .unused := by
    rcases outcome with rfl | rfl <;> exact ⟨nofun, nofun, nofun⟩
  have longer : (queue.hand index state).handed.length = queue.handed.length + 1 :=
    List.length_append
  have used : ∀ other, ((queue.hand index state).slots other).state ≠ .unused →
      (queue.slots other).state ≠ .unused :=
    used_of_update (complete ▸ nofun)
  have named : ∀ other, ((queue.hand index state).slots other).submissionId =
      (queue.slots other).submissionId :=
    submissionId_update rfl
  have waiting : ∀ other, ((queue.hand index state).slots other).state = .submitted ↔
      (queue.slots other).state = .submitted := by
    intro other
    by_cases h : other = index
    · subst h
      rw [there, complete]
      exact ⟨fun h => absurd h settled.1, nofun⟩
    · rw [here other h]
  refine ⟨?_, ?_, ?_, ?_, ?_, ?_, ?_, ?_, ?_, ?_, ?_, ?_, ?_⟩
  · have same : submittedSlots (queue.hand index state) = submittedSlots queue :=
      census_congr _ waiting
    rw [same]
    exact sound.counted
  · intro other
    rw [waiting]
    exact sound.owned other
  · intro other h
    rw [named]
    exact sound.assigned other (used other h)
  · intro left right hleft hright
    rw [named, named]
    exact sound.distinct left right (used left hleft) (used right hright)
  · exact sound.fresh
  · exact sound.once
  · intro other h
    rw [named]
    exact sound.awaited other ((waiting other).mp h)
  · intro other h
    have apart : other ≠ index := by
      rintro rfl
      rw [there] at h
      exact settled.2.1 h
    rw [here other apart] at h ⊢
    exact sound.held other h
  · intro entry member
    rw [longer]
    rcases sound.kept entry member with before | ⟨other, h, same⟩
    · exact .inl (Nat.lt_succ_of_lt before)
    · by_cases isTurn : other = index
      · subst isTurn
        rw [← same.1, turn]
        exact .inl (Nat.lt_succ_self _)
      · exact .inr ⟨other, by rw [here other isTurn]; exact ⟨h, same⟩⟩
  · rw [longer, List.range_succ, ← sound.ordered, ← turn]
    exact List.map_append
  · intro delivery member
    rcases List.mem_append.mp member with old | new
    · exact sound.whole delivery old
    · rw [List.mem_singleton.mp new]
      exact sound.held index complete
  · rw [longer]
    exact Nat.le_succ_of_le sound.accepted
  · exact sound.consumed

theorem Sound.retire (sound : Sound queue) {index : Fin transferCount}
    (complete : (queue.slots index).state = .complete)
    (turn : (queue.slots index).submissionId = queue.handed.length) :
    Sound (queue.retire index) := by
  have handed := sound.hand complete turn (.inl rfl)
  have longer : (queue.retire index).handed.length = queue.handed.length + 1 :=
    List.length_append
  refine { handed with accepted := ?_, consumed := ?_ }
  · rw [longer]
    exact Nat.succ_le_succ sound.accepted
  · exact congrArg Nat.succ sound.consumed

theorem request_slot (queue : Queue Block) (index : Fin transferCount) :
    (queue.request.slots index).state = (queue.slots index).state ∧
      (queue.request.slots index).submissionId = (queue.slots index).submissionId ∧
      (queue.request.slots index).actualLength = (queue.slots index).actualLength ∧
      (queue.request.slots index).buffer = (queue.slots index).buffer := by
  unfold Queue.request
  by_cases h : (queue.slots index).state = .submitted <;> simp [h]

theorem Sound.request (sound : Sound queue) : Sound queue.request := by
  have same := request_slot queue
  refine ⟨?_, ?_, ?_, ?_, sound.fresh, sound.once, ?_, ?_, ?_, sound.ordered, sound.whole,
    sound.accepted, sound.consumed⟩
  · have unmoved : submittedSlots queue.request = submittedSlots queue :=
      census_congr _ fun index => by rw [(same index).1]
    rw [unmoved]
    exact sound.counted
  · intro index
    rw [(same index).1]
    exact sound.owned index
  · intro index
    rw [(same index).1, (same index).2.1]
    exact sound.assigned index
  · intro left right
    rw [(same left).1, (same left).2.1, (same right).1, (same right).2.1]
    exact sound.distinct left right
  · intro index
    rw [(same index).1, (same index).2.1]
    exact sound.awaited index
  · intro index
    rw [(same index).1, (same index).2.1, (same index).2.2.1, (same index).2.2.2]
    exact sound.held index
  · intro entry member
    refine (sound.kept entry member).imp_right ?_
    rintro ⟨index, h⟩
    exact ⟨index, by rw [(same index).1, (same index).2.1, (same index).2.2.2]; exact h⟩

section
variable {engine : Engine Block} {code : ResultCode} {libusbError : Int}
  {status : TransferStatus} {actualLength submissionId : Nat}

@[simp] theorem latchFailure_queue :
    (latchFailure engine code libusbError status actualLength submissionId).queue =
      engine.queue := by
  unfold latchFailure
  split <;> rfl

@[simp] theorem latchFailure_point :
    (latchFailure engine code libusbError status actualLength submissionId).point =
      engine.point := by
  unfold latchFailure
  split <;> rfl

@[simp] theorem latchFailure_failed :
    (latchFailure engine code libusbError status actualLength submissionId).failed = true := by
  unfold latchFailure
  split
  · assumption
  · rfl

end

theorem cancelInFlight_keeps (cancelResults : CancelResults) (engine : Engine Block) :
    (cancelInFlight cancelResults engine).point = engine.point ∧
      (engine.failed = true → (cancelInFlight cancelResults engine).failed = true) ∧
      ((cancelInFlight cancelResults engine).queue = engine.queue ∨
        (cancelInFlight cancelResults engine).queue = engine.queue.request) := by
  unfold cancelInFlight
  by_cases issued : engine.cancelIssued = true
  · rw [if_pos issued]
    exact ⟨rfl, id, .inl rfl⟩
  · rw [if_neg issued]
    dsimp only
    split
    · simp
    · exact ⟨rfl, id, .inr rfl⟩

/-- Points at which the block that was handed on last has been accepted. -/
def consuming : Point → Bool
  | .consumeTop | .resubmit _ => true
  | _ => false

structure EngineSound (engine : Engine Block) : Prop where
  sound : Sound engine.queue
  current : engine.queue.handed.length = engine.queue.nextConsumeId ∨
    engine.failed = true ∧ consuming engine.point = false
  unstarted : ∀ next, engine.point = .submitting next → ∀ index : Fin transferCount,
    next ≤ index.val → (engine.queue.slots index).state = .unused
  retired : ∀ index, engine.point = .resubmit index →
    (engine.queue.slots index).state = .retired ∧
      (engine.queue.slots index).submissionId < engine.queue.nextConsumeId

theorem start_sound : EngineSound (start : Engine Block) where
  sound := by
    have unused : submittedSlots (start : Engine Block).queue = 0 :=
      census_eq_zero _ fun _ => nofun
    exact ⟨unused.symm, fun _ => ⟨nofun, nofun⟩, fun _ h => absurd rfl h,
      fun _ _ h => absurd rfl h, nofun, List.nodup_nil, fun _ => nofun, fun _ => nofun, nofun, rfl,
      nofun, le_rfl, rfl⟩
  current := .inl rfl
  unstarted := fun _ _ _ _ => rfl
  retired := nofun

section
variable {cancelResults : CancelResults} {engine next : Engine Block}

theorem EngineSound.of_point (sound : Sound next.queue)
    (current : next.queue.handed.length = next.queue.nextConsumeId ∨
      next.failed = true ∧ consuming next.point = false)
    (place : next.point = .loopTop ∨ next.point = .consumeTop ∨ next.point = .check ∨
      next.point = .pump ∨ next.point = .finished) : EngineSound next := by
  refine ⟨sound, current, ?_, ?_⟩
  · intro index h
    rw [h] at place
    simp at place
  · intro index h
    rw [h] at place
    simp at place

theorem EngineSound.latch (inv : EngineSound engine) {code : ResultCode} {libusbError : Int}
    {status : TransferStatus} {actualLength submissionId : Nat} :
    EngineSound
      (latchFailure engine code libusbError status actualLength submissionId) := by
  refine ⟨?_, ?_, ?_, ?_⟩
  · rw [latchFailure_queue]
    exact inv.sound
  · rw [latchFailure_queue, latchFailure_point, latchFailure_failed]
    exact inv.current.imp_right fun h => ⟨rfl, h.2⟩
  · rw [latchFailure_queue, latchFailure_point]
    exact inv.unstarted
  · rw [latchFailure_queue, latchFailure_point]
    exact inv.retired

theorem EngineSound.cancel (inv : EngineSound engine) :
    EngineSound (cancelInFlight cancelResults engine) := by
  obtain ⟨point, failed, queue⟩ := cancelInFlight_keeps cancelResults engine
  have same := request_slot engine.queue
  rcases queue with queue | queue
  · refine ⟨?_, ?_, ?_, ?_⟩
    · rw [queue]
      exact inv.sound
    · rw [queue, point]
      exact inv.current.imp_right fun h => ⟨failed h.1, h.2⟩
    · rw [queue, point]
      exact inv.unstarted
    · rw [queue, point]
      exact inv.retired
  · refine ⟨?_, ?_, ?_, ?_⟩
    · rw [queue]
      exact inv.sound.request
    · rw [queue, point]
      exact inv.current.imp_right fun h => ⟨failed h.1, h.2⟩
    · intro next h index
      rw [queue, (same index).1]
      exact inv.unstarted next (point ▸ h) index
    · intro index h
      rw [queue, (same index).1, (same index).2.1]
      exact inv.retired index (point ▸ h)

theorem Sound.submit (sound : Sound engine.queue) {index : Fin transferCount} (rc : Int)
    (idle : (engine.queue.slots index).state = .unused ∨
      (engine.queue.slots index).state = .retired) :
    Sound (submitSlot engine index rc).queue := by
  unfold submitSlot
  split
  · rw [latchFailure_queue]
    exact sound.refuse idle
  · exact sound.launch idle

theorem submitSlot_keeps (engine : Engine Block) (index : Fin transferCount) (rc : Int) :
    (submitSlot engine index rc).point = engine.point ∧
      (submitSlot engine index rc).queue.handed = engine.queue.handed ∧
      (submitSlot engine index rc).queue.nextConsumeId = engine.queue.nextConsumeId ∧
      (engine.failed = true → (submitSlot engine index rc).failed = true) ∧
      ∀ other, other ≠ index →
        (submitSlot engine index rc).queue.slots other = engine.queue.slots other := by
  unfold submitSlot
  split
  · refine ⟨latchFailure_point, ?_, ?_, fun _ => latchFailure_failed, fun other h => ?_⟩
    · rw [latchFailure_queue]
      rfl
    · rw [latchFailure_queue]
      rfl
    · rw [latchFailure_queue]
      exact Function.update_of_ne h _ _
  · exact ⟨rfl, rfl, rfl, id, fun other h => Function.update_of_ne h _ _⟩

theorem EngineSound.elsewhere (sound : Sound engine.queue)
    (current : engine.queue.handed.length = engine.queue.nextConsumeId ∨
      engine.failed = true)
    (queue : next.queue = engine.queue)
    (failed : engine.failed = true → next.failed = true)
    (place : next.point = .loopTop ∨ next.point = .check ∨ next.point = .pump ∨
      next.point = .finished) : EngineSound next := by
  have idle : consuming next.point = false := by
    rcases place with h | h | h | h <;> rw [h] <;> rfl
  refine EngineSound.of_point (queue ▸ sound) ?_ (place.imp_right .inr)
  rw [queue]
  exact current.imp_right fun h => ⟨failed h, idle⟩

theorem EngineSound.latched (inv : EngineSound engine) :
    engine.queue.handed.length = engine.queue.nextConsumeId ∨ engine.failed = true :=
  inv.current.imp_right And.left

theorem queueReady_sound (sound : Sound engine.queue)
    (current : engine.queue.handed.length = engine.queue.nextConsumeId ∨
      engine.failed = true) : EngineSound (queueReady cancelResults engine) := by
  unfold queueReady
  split_ifs
  · exact .elsewhere sound current rfl id (.inl rfl)
  · apply EngineSound.cancel
    exact .elsewhere sound current latchFailure_queue (fun _ => latchFailure_failed) (.inl rfl)
  · apply EngineSound.cancel
    exact .elsewhere sound current rfl id (.inl rfl)

theorem submitInitial_sound (inv : EngineSound engine) {first : Nat} (rc : Int)
    (point : engine.point = .submitting first) :
    EngineSound (submitInitial cancelResults engine first rc) := by
  have current := inv.latched
  unfold submitInitial
  split_ifs with inside refused
  · have unused := inv.unstarted first point ⟨first, inside⟩ le_rfl
    obtain ⟨-, handed, consumed, failed, -⟩ := submitSlot_keeps engine ⟨first, inside⟩ rc
    apply queueReady_sound (inv.sound.submit rc (.inl unused))
    rw [handed, consumed]
    exact current.imp_right failed
  · have unused := inv.unstarted first point ⟨first, inside⟩ le_rfl
    obtain ⟨-, handed, consumed, failed, others⟩ := submitSlot_keeps engine ⟨first, inside⟩ rc
    refine ⟨inv.sound.submit rc (.inl unused), ?_, ?_, nofun⟩
    · dsimp only
      rw [handed, consumed]
      exact current.imp_right fun h => ⟨failed h, rfl⟩
    · rintro next ⟨⟩ index above
      dsimp only
      rw [others index (by rintro rfl; exact absurd above (Nat.not_succ_le_self _))]
      exact inv.unstarted first point index ((Nat.le_succ _).trans above)
  · exact queueReady_sound inv.sound current

theorem loopTop_sound (inv : EngineSound engine) (telemetryDue : Bool) :
    EngineSound (loopTop engine telemetryDue) := by
  unfold loopTop
  by_cases failed : engine.failed = true
  · exact .elsewhere inv.sound inv.latched rfl id (.inr (.inl (if_pos failed)))
  · exact .of_point inv.sound (.inl (inv.latched.resolve_right failed))
      (.inr (.inl (if_neg failed)))

theorem peek_ready {queue : Queue Block} (ready : orderPolicyPeek queue = .ready) :
    (queue.slots (slotOf queue.nextConsumeId)).state = .complete ∧
      (queue.slots (slotOf queue.nextConsumeId)).submissionId = queue.nextConsumeId := by
  unfold orderPolicyPeek at ready
  dsimp only at ready
  split_ifs at ready with stale waits
  exact ⟨not_not.mp waits, not_not.mp stale⟩

theorem consumeReady_sound (inv : EngineSound engine) (accepted : Bool)
    (point : engine.point = .consumeTop) :
    EngineSound (consumeReady cancelResults engine accepted) := by
  have current := inv.current.resolve_right fun h => by
    rw [point] at h
    exact absurd h.2 (by decide)
  unfold consumeReady
  dsimp only
  split_ifs with drained accept
  · exact .elsewhere inv.sound inv.latched rfl id (.inr (.inl rfl))
  · split
    · exact .elsewhere inv.sound inv.latched rfl id (.inr (.inl rfl))
    · apply EngineSound.cancel
      exact .elsewhere inv.sound inv.latched latchFailure_queue (fun _ => latchFailure_failed)
        (.inr (.inl rfl))
    · rename_i ready
      have next := peek_ready ready
      have retired := inv.sound.retire next.1 (next.2.trans current.symm)
      refine ⟨retired, .inl ?_, nofun, ?_⟩
      · exact List.length_append.trans (congrArg Nat.succ current)
      · rintro index ⟨⟩
        have there : (engine.queue.retire (slotOf engine.queue.nextConsumeId)).slots
            (slotOf engine.queue.nextConsumeId) =
            { engine.queue.slots (slotOf engine.queue.nextConsumeId) with state := .retired } :=
          Function.update_self ..
        rw [there]
        exact ⟨rfl, Nat.lt_succ_of_le next.2.le⟩
  · split
    · exact .elsewhere inv.sound inv.latched rfl id (.inr (.inl rfl))
    · apply EngineSound.cancel
      exact .elsewhere inv.sound inv.latched latchFailure_queue (fun _ => latchFailure_failed)
        (.inr (.inl rfl))
    · rename_i ready
      have next := peek_ready ready
      have handed := inv.sound.hand next.1 (next.2.trans current.symm) (.inr rfl)
      apply EngineSound.cancel
      refine .of_point ?_ (.inr ⟨latchFailure_failed, rfl⟩) (.inr (.inr (.inl rfl)))
      dsimp only
      rw [latchFailure_queue]
      exact handed

theorem resubmit_sound (inv : EngineSound engine) {index : Fin transferCount} (rc : Int)
    (point : engine.point = .resubmit index) :
    EngineSound (resubmit cancelResults engine index rc) := by
  have current := inv.current.resolve_right fun h => by
    rw [point] at h
    exact absurd h.2 (by simp [consuming])
  have submitted := inv.sound.submit rc (.inr (inv.retired index point).1)
  obtain ⟨-, handed, consumed, -, -⟩ := submitSlot_keeps engine index rc
  have counted : (submitSlot engine index rc).queue.handed.length =
      (submitSlot engine index rc).queue.nextConsumeId := by
    rw [handed, consumed]
    exact current
  unfold resubmit
  split_ifs
  · apply EngineSound.cancel
    exact .elsewhere submitted (.inl counted) rfl id (.inr (.inl rfl))
  · exact .of_point submitted (.inl counted) (.inr (.inl rfl))
  · exact .of_point inv.sound (.inl current) (.inr (.inl rfl))

theorem checkLoop_sound (inv : EngineSound engine) (clock : Clock) :
    EngineSound (checkLoop cancelResults engine clock) := by
  have checked : EngineSound
      (if engine.failed then cancelInFlight cancelResults engine
      else if engine.stopping && (engine.queue.inFlight != 0 || engine.telemetryInFlight) &&
          clock.drainLate then
        cancelInFlight cancelResults
          (latchFailure engine .drainTimeout 0 .completed 0 engine.queue.nextConsumeId)
      else engine) := by
    split_ifs
    · exact inv.cancel
    · exact inv.latch.cancel
    · exact inv
  unfold checkLoop
  dsimp only
  generalize (if engine.failed then cancelInFlight cancelResults engine else _) = later
    at checked ⊢
  split_ifs
  · exact .elsewhere checked.sound checked.latched rfl id (.inr (.inr (.inr rfl)))
  · exact .elsewhere checked.sound checked.latched rfl id (.inr (.inr (.inr rfl)))
  · exact .elsewhere checked.sound checked.latched rfl id (.inr (.inr (.inr rfl)))
  · apply EngineSound.cancel
    exact .elsewhere checked.sound checked.latched latchFailure_queue
      (fun _ => latchFailure_failed) (.inl rfl)
  · exact .elsewhere checked.sound checked.latched rfl id (.inr (.inr (.inl rfl)))

theorem pumpReturns_sound (inv : EngineSound engine) (rc : Int) :
    EngineSound (pumpReturns cancelResults engine rc) := by
  unfold pumpReturns
  split_ifs
  · apply EngineSound.cancel
    exact .elsewhere inv.sound inv.latched latchFailure_queue (fun _ => latchFailure_failed)
      (.inl rfl)
  · exact .elsewhere inv.sound inv.latched rfl id (.inl rfl)

theorem EngineSound.reap (inv : EngineSound engine) {index : Fin transferCount}
    {actualLength : Nat} {block : Block}
    (submitted : (engine.queue.slots index).state = .submitted)
    (settled : state ≠ .submitted ∧ state ≠ .unused)
    (exact : state = .complete → actualLength = transferBytes) :
    EngineSound { engine with queue := engine.queue.reap index state actualLength block } := by
  have here : ∀ other, (engine.queue.slots other).state ≠ .submitted →
      (engine.queue.reap index state actualLength block).slots other =
        engine.queue.slots other := by
    intro other h
    exact Function.update_of_ne (by rintro rfl; exact h submitted) _ _
  refine ⟨inv.sound.reap submitted settled exact, inv.current, ?_, ?_⟩
  · intro next point other above
    have unused := inv.unstarted next point other above
    dsimp only
    rw [here other (unused ▸ nofun)]
    exact unused
  · intro other point
    have retired := inv.retired other point
    dsimp only
    rw [here other (retired.1 ▸ nofun)]
    exact retired

theorem transferCallback_sound (inv : EngineSound engine) {index : Fin transferCount}
    (status : TransferStatus) (actualLength : Nat) (block : Block)
    (pending : engine.queue.pending index = true) :
    EngineSound (transferCallback engine index status actualLength block) := by
  have submitted := (inv.sound.owned index).mp pending
  have expected : ¬((engine.queue.slots index).state ≠ .submitted ∨
      engine.queue.inFlight = 0) := by
    rintro (h | h)
    · exact h submitted
    · exact inv.sound.inFlight_ne submitted h
  unfold transferCallback
  dsimp only
  rw [if_neg expected]
  split_ifs with completed short cancelled
  · apply EngineSound.latch
    exact inv.reap submitted ⟨nofun, nofun⟩ nofun
  · exact inv.reap submitted ⟨nofun, nofun⟩ fun _ => not_not.mp short
  · exact inv.reap submitted ⟨nofun, nofun⟩ nofun
  · apply EngineSound.latch
    exact inv.reap submitted ⟨nofun, nofun⟩ nofun

theorem step_some {action : Action Block} (h : step cancelResults engine action = some next) :
    match action with
    | .submitInitial rc => ∃ first, engine.point = .submitting first ∧
        submitInitial cancelResults engine first rc = next
    | .loopTop telemetryDue => engine.point = .loopTop ∧ loopTop engine telemetryDue = next
    | .consumeReady accepted => engine.point = .consumeTop ∧
        consumeReady cancelResults engine accepted = next
    | .resubmit rc => ∃ index, engine.point = .resubmit index ∧
        resubmit cancelResults engine index rc = next
    | .check clock => engine.point = .check ∧ checkLoop cancelResults engine clock = next
    | .pumpReturns rc => engine.point = .pump ∧ pumpReturns cancelResults engine rc = next
    | .callback index status actualLength block => engine.queue.pending index = true ∧
        transferCallback engine index status actualLength block = next
    | .telemetryCallback => engine.telemetryInFlight = true ∧
        { engine with telemetryInFlight := false } = next
    | .stop => engine.captureRunning = true ∧ { engine with captureRunning := false } = next := by
  cases action <;> simp only [step] at h ⊢ <;> split at h <;> simp_all

theorem step_sound (inv : EngineSound engine) (action : Action Block)
    (h : step cancelResults engine action = some next) : EngineSound next := by
  cases action with
  | submitInitial rc =>
    obtain ⟨_, point, rfl⟩ := step_some h
    exact submitInitial_sound inv rc point
  | loopTop telemetryDue =>
    obtain ⟨-, rfl⟩ := step_some h
    exact loopTop_sound inv telemetryDue
  | consumeReady accepted =>
    obtain ⟨point, rfl⟩ := step_some h
    exact consumeReady_sound inv accepted point
  | resubmit rc =>
    obtain ⟨_, point, rfl⟩ := step_some h
    exact resubmit_sound inv rc point
  | check clock =>
    obtain ⟨-, rfl⟩ := step_some h
    exact checkLoop_sound inv clock
  | pumpReturns rc =>
    obtain ⟨-, rfl⟩ := step_some h
    exact pumpReturns_sound inv rc
  | callback index status actualLength block =>
    obtain ⟨pending, rfl⟩ := step_some h
    exact transferCallback_sound inv status actualLength block pending
  | telemetryCallback | stop =>
    obtain ⟨-, rfl⟩ := step_some h
    exact ⟨inv.sound, inv.current, inv.unstarted, inv.retired⟩

def Undisturbed (before after : Queue Block) (index : Fin transferCount) : Prop :=
  (after.slots index).submissionId = (before.slots index).submissionId ∧
    ((after.slots index).state = .submitted → (before.slots index).state = .submitted)

theorem Undisturbed.refl (queue : Queue Block) (index : Fin transferCount) :
    Undisturbed queue queue index := ⟨rfl, id⟩

theorem Undisturbed.latch {index : Fin transferCount} {code : ResultCode} {libusbError : Int}
    {status : TransferStatus} {actualLength submissionId : Nat}
    (h : Undisturbed before engine.queue index) :
    Undisturbed before
      (latchFailure engine code libusbError status actualLength submissionId).queue index := by
  rw [latchFailure_queue]
  exact h

theorem Undisturbed.cancel {index : Fin transferCount} (h : Undisturbed before engine.queue index) :
    Undisturbed before (cancelInFlight cancelResults engine).queue index := by
  have same := request_slot engine.queue index
  rcases (cancelInFlight_keeps cancelResults engine).2.2 with queue | queue
  · rw [queue]
    exact h
  · rw [queue]
    unfold Undisturbed
    rw [same.1, same.2.1]
    exact h

theorem reap_undisturbed {index other : Fin transferCount} {actualLength : Nat} {block : Block}
    (settled : state ≠ .submitted) :
    Undisturbed queue (queue.reap index state actualLength block) other := by
  by_cases h : other = index <;> simp [Undisturbed, Queue.reap, h, settled]

theorem hand_undisturbed {index other : Fin transferCount} (settled : state ≠ .submitted) :
    Undisturbed queue (queue.hand index state) other := by
  by_cases h : other = index <;> simp [Undisturbed, Queue.hand, h, settled]

theorem stray_undisturbed {index other : Fin transferCount} :
    Undisturbed queue (queue.stray index) other := by
  by_cases h : other = index <;> simp [Undisturbed, Queue.stray, h]

theorem queueReady_undisturbed {index : Fin transferCount}
    (h : Undisturbed before engine.queue index) :
    Undisturbed before (queueReady cancelResults engine).queue index := by
  unfold queueReady
  split_ifs
  · exact h
  · exact Undisturbed.cancel (Undisturbed.latch h)
  · exact Undisturbed.cancel h

theorem submitSlot_undisturbed {index other : Fin transferCount} (h : other ≠ index) :
    Undisturbed engine.queue (submitSlot engine index rc).queue other := by
  unfold Undisturbed
  rw [(submitSlot_keeps engine index rc).2.2.2.2 other h]
  exact ⟨rfl, id⟩

theorem submitInitial_undisturbed {first : Nat} {index : Fin transferCount}
    (h : index.val ≠ first) :
    Undisturbed engine.queue (submitInitial cancelResults engine first rc).queue index := by
  unfold submitInitial
  split_ifs with inside
  · exact queueReady_undisturbed (submitSlot_undisturbed rc (fun same => h (same ▸ rfl)))
  · exact submitSlot_undisturbed rc fun same => h (same ▸ rfl)
  · exact queueReady_undisturbed (Undisturbed.refl _ _)

theorem resubmit_undisturbed {index other : Fin transferCount} (h : other ≠ index) :
    Undisturbed engine.queue (resubmit cancelResults engine index rc).queue other := by
  unfold resubmit
  split_ifs
  · exact Undisturbed.cancel (submitSlot_undisturbed rc h)
  · exact submitSlot_undisturbed rc h
  · exact Undisturbed.refl _ _

theorem consumeReady_undisturbed (accepted : Bool) (index : Fin transferCount) :
    Undisturbed engine.queue (consumeReady cancelResults engine accepted).queue index := by
  unfold consumeReady
  dsimp only
  split_ifs
  · exact Undisturbed.refl _ _
  · split
    · exact Undisturbed.refl _ _
    · exact Undisturbed.cancel (Undisturbed.latch (Undisturbed.refl _ _))
    · exact hand_undisturbed nofun
  · split
    · exact Undisturbed.refl _ _
    · exact Undisturbed.cancel (Undisturbed.latch (Undisturbed.refl _ _))
    · apply Undisturbed.cancel
      apply Undisturbed.latch
      exact hand_undisturbed nofun

theorem checkLoop_undisturbed (clock : Clock) (index : Fin transferCount) :
    Undisturbed engine.queue (checkLoop cancelResults engine clock).queue index := by
  have checked : Undisturbed engine.queue
      (if engine.failed then cancelInFlight cancelResults engine
      else if engine.stopping && (engine.queue.inFlight != 0 || engine.telemetryInFlight) &&
          clock.drainLate then
        cancelInFlight cancelResults
          (latchFailure engine .drainTimeout 0 .completed 0 engine.queue.nextConsumeId)
      else engine).queue index := by
    split_ifs
    · exact Undisturbed.cancel (Undisturbed.refl _ _)
    · exact Undisturbed.cancel (Undisturbed.latch (Undisturbed.refl _ _))
    · exact Undisturbed.refl _ _
  unfold checkLoop
  dsimp only
  generalize (if engine.failed then cancelInFlight cancelResults engine else _) = later
    at checked ⊢
  split_ifs
  · exact checked
  · exact checked
  · exact checked
  · exact Undisturbed.cancel (Undisturbed.latch checked)
  · exact checked

theorem transferCallback_undisturbed {index other : Fin transferCount}
    (status : TransferStatus) (actualLength : Nat) (block : Block) :
    Undisturbed engine.queue
      (transferCallback engine index status actualLength block).queue other := by
  unfold transferCallback
  dsimp only
  split_ifs
  · apply Undisturbed.latch
    exact stray_undisturbed
  · apply Undisturbed.latch
    exact reap_undisturbed nofun
  · exact reap_undisturbed nofun
  · exact reap_undisturbed nofun
  · apply Undisturbed.latch
    exact reap_undisturbed nofun

theorem step_reassigned (inv : EngineSound engine) (action : Action Block)
    (h : step cancelResults engine action = some next) (index : Fin transferCount) :
    Undisturbed engine.queue next.queue index ∨
      (engine.queue.slots index).state = .unused ∨
      (engine.queue.slots index).state = .retired ∧
        (engine.queue.slots index).submissionId < engine.queue.nextConsumeId := by
  cases action with
  | submitInitial rc =>
    obtain ⟨first, point, rfl⟩ := step_some h
    by_cases turn : index.val = first
    · exact .inr (.inl (inv.unstarted first point index turn.ge))
    · exact .inl (submitInitial_undisturbed rc turn)
  | loopTop | telemetryCallback | stop =>
    obtain ⟨-, rfl⟩ := step_some h
    exact .inl (Undisturbed.refl _ _)
  | consumeReady accepted =>
    obtain ⟨-, rfl⟩ := step_some h
    exact .inl (consumeReady_undisturbed accepted index)
  | resubmit rc =>
    obtain ⟨slot, point, rfl⟩ := step_some h
    by_cases turn : index = slot
    · exact .inr (.inr (turn ▸ inv.retired slot point))
    · exact .inl (resubmit_undisturbed rc turn)
  | check clock =>
    obtain ⟨-, rfl⟩ := step_some h
    exact .inl (checkLoop_undisturbed clock index)
  | pumpReturns rc =>
    obtain ⟨-, rfl⟩ := step_some h
    unfold pumpReturns
    split_ifs
    · exact .inl (Undisturbed.cancel (Undisturbed.latch (Undisturbed.refl _ _)))
    · exact .inl (Undisturbed.refl _ _)
  | callback slot status actualLength block =>
    obtain ⟨-, rfl⟩ := step_some h
    exact .inl (transferCallback_undisturbed status actualLength block)

end

/-- The calls of `consume` carry the ids from zero on, each once, each a block that came
back whole; a whole block that was not handed on yet is held by its slot. -/
structure Delivers (queue : Queue Block) : Prop where
  counted : queue.inFlight = submittedSlots queue
  ordered : queue.handed.map Delivery.submissionId = List.range queue.handed.length
  whole : ∀ delivery ∈ queue.handed, delivery.size = transferBytes ∧
    ∃ block, delivery.block = some block ∧ (delivery.submissionId, block) ∈ queue.completed
  once : (queue.completed.map Prod.fst).Nodup
  kept : ∀ entry ∈ queue.completed,
    (∃ delivery ∈ queue.handed, delivery.submissionId = entry.1) ∨
      ∃ index, (queue.slots index).state = .complete ∧
        (queue.slots index).submissionId = entry.1 ∧
        (queue.slots index).buffer = some entry.2

theorem Sound.handed_of_lt (sound : Sound queue) {submissionId : Nat}
    (h : submissionId < queue.handed.length) :
    ∃ delivery ∈ queue.handed, delivery.submissionId = submissionId := by
  have member := List.mem_range.mpr h
  rw [← sound.ordered] at member
  exact List.mem_map.mp member

theorem Sound.delivers (sound : Sound queue) : Delivers queue where
  __ := sound
  kept := fun entry member => (sound.kept entry member).imp_left sound.handed_of_lt

/-- In every run blocks are delivered in order and exactly, the counter is the number of
submitted slots, and the next step gives a transfer only to a slot without one before or
with its block consumed. -/
theorem delivery_in_order (cancelResults : CancelResults) (schedule : List (Action Block))
    (last : Engine Block) (h : Machine.run (step cancelResults) start schedule = some last) :
    Delivers last.queue ∧
      ∀ action next, step cancelResults last action = some next → ∀ index,
        Undisturbed last.queue next.queue index ∨
          (last.queue.slots index).state = .unused ∨
          (last.queue.slots index).state = .retired ∧
            ∃ delivery ∈ last.queue.handed,
              delivery.submissionId = (last.queue.slots index).submissionId := by
  have inv : EngineSound last := Machine.run_invariant EngineSound
    (fun _ action _ kept taken => step_sound kept action taken) start_sound h
  refine ⟨inv.sound.delivers, fun action next taken index => ?_⟩
  apply (step_reassigned inv action taken index).imp_right
  apply Or.imp_right
  intro retired
  exact ⟨retired.1, inv.sound.handed_of_lt (retired.2.trans_le inv.sound.accepted)⟩

def swapped : List (Action Nat) :=
  List.replicate (transferCount + 1) (.submitInitial 0) ++
    [.loopTop false, .consumeReady true, .check ⟨false, false⟩,
      .callback (slotOf 1) .completed transferBytes 11,
      .callback (slotOf 0) .completed transferBytes 10, .pumpReturns 0, .loopTop false,
      .consumeReady true, .resubmit 0, .consumeReady true]

theorem delivery_in_order_swapped :
    ∃ last : Engine Nat, Machine.run (step fun _ => 0) start swapped = some last ∧
      Delivers last.queue := by
  have runs : (Machine.run (step fun _ => 0) start swapped).isSome := by decide +kernel
  obtain ⟨last, h⟩ := Option.isSome_iff_exists.mp runs
  exact ⟨last, h, (delivery_in_order _ swapped last h).1⟩

end MisrcGui.Ddd.Async
