import MisrcGui.RfPreview.InputCalls

/-! The accounting of the input queue: its indices, its durations, and the fate of every block. -/
namespace MisrcGui.RfPreview.InputAccounting
open Library InputQueue InputCalls
open Worker (queueSlots)

variable {s next : State} {id : Nat} {call : Call}

theorem holds_mono (holds : Holds s id call) (read : s.readIndex ≤ next.readIndex)
    (freed : s.freedDurationUs ≤ next.freedDurationUs) (write : next.writeIndex = s.writeIndex)
    (slots : next.slots = s.slots) (producer : next.producerDurationUs = s.producerDurationUs) :
    Holds next id call := by
  cases call with
  | storeDuration filled index | storeWrite filled index =>
    simp only [Holds, write, slot, slots, producer] at holds ⊢
    refine ⟨holds.1, by omega, holds.2.2.1, ?_⟩
    omega
  | loadRead | loadFreed | room | fill =>
    simp only [Holds, write, producer] at holds ⊢
    omega
  | _ => exact holds

theorem inv_goes (inv : Inv s) (worker : Video) (flush : Bool)
    (freed : freedTo s.readIndex worker.pc = freedUpTo s)
    (settled : settledTo s.readIndex worker.pc = settledUpTo s)
    (within : Within s.readIndex s.writeIndex worker.pc) :
    Inv { s with worker := worker, flushRequested := flush } where
  queue := by
    refine { inv.queue with freed := ?_, placed := within }
    show s.freedDurationUs = total (s.log.take (freedTo s.readIndex worker.pc))
    rw [freed]
    exact inv.queue.freed
  producers := { inv.producers with }
  fates := by
    refine { inv.fates with settled := ?_ }
    intro other
    show _ = (calls (s.log.take (settledTo s.readIndex worker.pc))).count other + _
    rw [settled]
    exact inv.fates.settled other

theorem inv_free (inv : Inv s) {index : Nat} {worker : Video} (low : s.readIndex ≤ index)
    (high : index < s.writeIndex) (before : freedUpTo s ≤ index + 1)
    (freed : freedTo s.readIndex worker.pc = index + 1)
    (settled : settledTo s.readIndex worker.pc = settledUpTo s)
    (within : Within s.readIndex s.writeIndex worker.pc) :
    Inv { s with worker := worker, freedDurationUs := (slot s index).durationEndUs } := by
  have ends : (slot s index).durationEndUs = total (s.log.take (index + 1)) :=
    inv.queue.ends index (slot s index) (inv.queue.intact index low high)
  have more : s.freedDurationUs ≤ (slot s index).durationEndUs := by
    rw [inv.queue.freed, ends]
    exact total_take_le s.log before
  refine ⟨{ inv.queue with freed := ?_, placed := within }, { inv.producers with
    holds := ?_, limit := ?_ }, { inv.fates with settled := ?_ }⟩
  · show (slot s index).durationEndUs =
      total (s.log.take (freedTo s.readIndex worker.pc))
    rw [freed]
    exact ends
  · intro owner busy
    exact holds_mono (inv.producers.holds owner busy) (Nat.le_refl _) more rfl rfl rfl
  · show s.producerDurationUs ≤ (slot s index).durationEndUs + queueMaxUs
    have limit := inv.producers.limit
    omega
  · intro other
    show _ = (calls (s.log.take (settledTo s.readIndex worker.pc))).count other + _
    rw [settled]
    exact inv.fates.settled other

theorem inv_settle (inv : Inv s) {target : Nat} (worker : Video) (fate : Fate)
    (low : s.readIndex ≤ target) (high : target ≤ s.writeIndex)
    (before : settledUpTo s = s.readIndex)
    (freed : freedTo s.readIndex worker.pc = freedUpTo s)
    (settled : settledTo s.readIndex worker.pc = target)
    (within : Within s.readIndex s.writeIndex worker.pc) :
    Inv { s with
      worker := worker
      dropped := s.dropped + if fate = .dropped then target - s.readIndex else 0
      pauseDrops := s.pauseDrops + if fate = .paused then target - s.readIndex else 0
      outcomes := settle s target fate } := by
  have length : ((s.log.take target).drop s.readIndex).length = target - s.readIndex := by
    rw [List.length_drop, List.length_take, inv.queue.logged]
    omega
  have fates (other : Fate) : ((settle s target fate).map Prod.snd).count other =
      lost other s + if fate = other then target - s.readIndex else 0 := by
    rw [settle, List.map_append, List.count_append, List.map_map]
    have same : (Prod.snd ∘ fun block : Slot => (block.call, fate)) = Function.const Slot fate :=
      rfl
    rw [same, List.map_const, length, List.count_replicate]
    simp only [beq_iff_eq]
    rfl
  refine ⟨{ inv.queue with freed := ?_, placed := within }, { inv.producers with },
    { inv.fates with settled := ?_, dropped := ?_, paused := ?_ }⟩
  · show s.freedDurationUs = total (s.log.take (freedTo s.readIndex worker.pc))
    rw [freed]
    exact inv.queue.freed
  · intro other
    show ((settle s target fate).map Prod.fst).count other =
      (calls (s.log.take (settledTo s.readIndex worker.pc))).count other + _
    have known := inv.fates.settled other
    have same : (Prod.fst ∘ fun block : Slot => (block.call, fate)) = Slot.call := rfl
    rw [before] at known
    rw [settled, ← take_stretch s.log low, calls_append, settle, List.map_append, List.map_map,
      same, List.count_append, List.count_append, known]
    show _ + (calls _).count other = _ + _ + (refused (s.calls other)).toNat
    omega
  · exact (fates .dropped).trans (congrArg (· + _) inv.fates.dropped)
  · exact (fates .paused).trans (congrArg (· + _) inv.fates.paused)

theorem inv_storeRead (inv : Inv s) {target : Nat} {worker : Video} (low : s.readIndex ≤ target)
    (high : target ≤ s.writeIndex) (freed : freedUpTo s = target) (settled : settledUpTo s = target)
    (freedNow : freedTo target worker.pc = target)
    (settledNow : settledTo target worker.pc = target)
    (within : Within target s.writeIndex worker.pc) :
    Inv { s with worker := worker, readIndex := target } := by
  have capacity := inv.queue.capacity
  refine ⟨⟨high, ?_, inv.queue.logged, inv.queue.ends, ?_, ?_, within⟩,
    { inv.producers with holds := ?_ }, { inv.fates with settled := ?_ }⟩
  · show s.writeIndex ≤ target + queueSlots
    omega
  · exact fun i later => inv.queue.intact i (Nat.le_trans low later)
  · show s.freedDurationUs =
      total (s.log.take (freedTo target worker.pc))
    rw [freedNow, ← freed]
    exact inv.queue.freed
  · intro owner busy
    exact holds_mono (inv.producers.holds owner busy) low (Nat.le_refl _) rfl rfl rfl
  · intro other
    show _ = (calls (s.log.take
      (settledTo target worker.pc))).count other + _
    rw [settledNow, ← settled]
    exact inv.fates.settled other

theorem workerStep_inv {yes : Bool} (inv : Inv s) (taken : workerStep s yes = some next) :
    Inv next := by
  have placed := inv.queue.placed
  have ordered := inv.queue.ordered
  -- places with nothing more freed, settled or released
  have turns (worker : Video) (flush : Bool)
      (freed : freedTo s.readIndex worker.pc = freedTo s.readIndex s.worker.pc)
      (settled : settledTo s.readIndex worker.pc = settledTo s.readIndex s.worker.pc)
      (within : Within s.readIndex s.writeIndex worker.pc) :
      Inv { s with worker := worker, flushRequested := flush } :=
    inv_goes inv worker flush freed settled within
  have moves (pc : WorkerPc) (freed : freedTo s.readIndex pc = freedTo s.readIndex s.worker.pc)
      (settled : settledTo s.readIndex pc = settledTo s.readIndex s.worker.pc)
      (within : Within s.readIndex s.writeIndex pc) : Inv (goes s pc) :=
    turns { s.worker with pc := pc } s.flushRequested freed settled within
  have freedHere : freedUpTo s = freedTo s.readIndex s.worker.pc := rfl
  have settledHere : settledUpTo s = settledTo s.readIndex s.worker.pc := rfl
  unfold workerStep at taken
  split at taken <;> rename_i here <;> rw [here] at placed turns moves freedHere settledHere
  · -- loadStop
    cases taken
    split <;> exact moves _ rfl rfl trivial
  · -- loadControl
    cases taken
    exact turns _ s.flushRequested rfl rfl trivial
  · -- loadPause
    cases taken
    refine turns ⟨_, _, _, _⟩ s.flushRequested ?_ ?_ ?_ <;> dsimp only <;> split <;>
      (try split) <;> first | rfl | trivial
  · -- scanWrite
    cases taken
    exact moves _ rfl rfl ⟨Nat.le_refl _, ordered, Nat.le_refl _⟩
  · -- scan
    rename_i applying index target
    obtain ⟨low, middle, high⟩ := placed
    dsimp only at taken
    split at taken
    · rename_i more
      cases taken
      exact inv_free inv low (by omega) (Nat.le_succ_of_le (Nat.le_of_eq freedHere)) rfl
        settledHere.symm ⟨by omega, more.1, high⟩
    · split at taken
      · cases taken
        exact moves _ rfl rfl ⟨low, by omega⟩
      · rename_i none
        cases taken
        have same : freedTo s.readIndex (afterScan applying) = index := by
          rw [not_not.mp none]
          cases applying <;> rfl
        refine moves _ same ?_ ?_ <;> cases applying <;> first | rfl | trivial
  · -- countPaused
    rename_i applying index
    cases taken
    exact inv_settle inv _ .paused placed.1 placed.2 settledHere freedHere.symm rfl placed
  · -- storePaused
    rename_i applying index
    cases taken
    refine inv_storeRead inv placed.1 placed.2 freedHere settledHere ?_ ?_ ?_ <;>
      cases applying <;> first | rfl | trivial
  · -- storeFlush
    cases taken
    exact turns _ false rfl rfl trivial
  · -- storePause
    cases taken
    exact turns _ s.flushRequested rfl rfl trivial
  · -- exchangeFlush
    cases taken
    refine turns ⟨_, _, _, _⟩ false ?_ ?_ ?_ <;> dsimp only <;> split <;> first | rfl | trivial
  · -- discard
    cases taken
    split
    · exact moves _ rfl rfl trivial
    · exact moves _ rfl rfl ⟨by omega, Nat.le_refl _⟩
  · -- countDiscard
    rename_i target
    cases taken
    exact inv_settle inv _ .dropped (Nat.le_of_lt placed.1) placed.2 settledHere freedHere.symm rfl
      placed
  · -- freeDiscard
    rename_i target
    cases taken
    obtain ⟨low, high⟩ := placed
    have last : target - 1 + 1 = target := by omega
    refine inv_free inv (by omega) (by omega) ?_ last.symm settledHere.symm ⟨low, high⟩
    rw [freedHere, last]
    exact Nat.le_of_lt low
  · -- loadWrite
    cases taken
    split
    · exact moves _ rfl rfl trivial
    · exact moves _ rfl rfl (by simp only [Within]; omega)
  · -- look
    cases taken
    split
    · exact moves _ rfl rfl trivial
    · split
      · exact moves _ rfl rfl placed
      · split <;> exact moves _ rfl rfl placed
  · -- countDropped
    cases taken
    have one : s.readIndex + 1 - s.readIndex = 1 := by omega
    have counted := inv_settle inv { s.worker with pc := .free } .dropped (Nat.le_succ _) placed
      settledHere freedHere.symm rfl placed
    rw [one] at counted
    exact counted
  · -- countPause
    cases taken
    have one : s.readIndex + 1 - s.readIndex = 1 := by omega
    have counted := inv_settle inv { s.worker with pc := .free } .paused (Nat.le_succ _) placed
      settledHere freedHere.symm rfl placed
    rw [one] at counted
    exact counted
  · -- budget
    cases taken
    split
    · exact moves _ rfl rfl placed
    · exact moves _ rfl rfl trivial
  · -- recheckPause
    cases taken
    split
    · exact moves _ rfl rfl placed
    · exact moves _ rfl rfl trivial
  · -- recheckControl
    cases taken
    split
    · exact moves _ rfl rfl placed
    · exact moves _ rfl rfl trivial
  · -- recheckStop
    cases taken
    split
    · exact moves _ rfl rfl trivial
    · exact moves _ rfl rfl placed
  · -- abandon
    cases taken
    split <;> exact moves _ rfl rfl trivial
  · -- process
    cases taken
    cases yes with
    | false =>
      exact inv_settle inv { s.worker with pc := .free } .unfit (Nat.le_succ _) placed settledHere
        freedHere.symm rfl placed
    | true =>
      exact inv_settle inv { s.worker with pc := .free } .decoded (Nat.le_succ _) placed
        settledHere freedHere.symm rfl placed
  · -- free
    cases taken
    exact inv_free inv (Nat.le_refl _) placed (Nat.le_succ_of_le (Nat.le_of_eq freedHere)) rfl
      settledHere.symm ⟨Nat.lt_succ_self _, placed⟩
  · -- storeRead
    rename_i target
    cases taken
    exact inv_storeRead inv (Nat.le_of_lt placed.1) placed.2 freedHere settledHere rfl rfl trivial
  · -- finished
    contradiction

theorem step_inv {action : Action} (inv : Inv s) (taken : step s action = some next) :
    Inv next := by
  cases action with
  | control =>
    cases taken
    exact inv.controls (s.control + 1) s.pauseControl s.stop s.flushRequested
  | pause paused =>
    simp only [step] at taken
    split at taken
    · cases taken
      exact inv
    · cases taken
      exact inv.controls s.control _ s.stop s.flushRequested
  | stop =>
    cases taken
    exact inv.controls s.control s.pauseControl true s.flushRequested
  | submit id r =>
    simp only [step] at taken
    split at taken
    · rename_i here
      cases taken
      have alike : Alike (.loadPause r) (s.calls id) := by
        rw [here]
        exact ⟨rfl, rfl, rfl, rfl⟩
      exact inv_moved inv alike fun busy => absurd busy (outside inv alike.flagged.symm)
    · contradiction
  | call id => exact callStep_inv inv taken
  | worker yes => exact workerStep_inv inv taken

structure Accounted (s : State) : Prop where
  slots : s.readIndex ≤ s.writeIndex ∧ s.writeIndex ≤ s.readIndex + queueSlots
  durations : s.producerDurationUs = s.freedDurationUs + total (counted s)
  time : total (counted s) ≤ queueMaxUs
  release : s.readIndex ≤ freedUpTo s ∧ freedUpTo s ≤ s.writeIndex
  intact : ∀ i, s.readIndex ≤ i → i < s.writeIndex → s.log[i]? = some (slot s i)
  reads : ∀ i ∈ reading s.readIndex s.worker.pc, s.readIndex ≤ i ∧ i < s.writeIndex
  writes : ∀ id, ∀ write ∈ writing (s.calls id), ∀ i, s.readIndex ≤ i → i < s.writeIndex →
    i % queueSlots ≠ write % queueSlots
  fates : ∀ id accepted, s.calls id = .ended accepted →
    (calls (waiting s)).count id + (s.outcomes.map Prod.fst).count id = 1
  dropped : lost .dropped s = s.dropped
  paused : lost .paused s = s.pauseDrops

theorem durations_counted (inv : Inv s) :
    s.producerDurationUs = s.freedDurationUs + total (counted s) := by
  have split := total_take_drop s.log (freedUpTo s)
  have sum := inv.producers.sum
  have freed := inv.queue.freed
  rw [total_append] at sum
  rw [counted, total_append]
  omega

theorem readIndex_le (queue : Queue s) : s.readIndex ≤ freedUpTo s := by
  have placed := queue.placed
  unfold freedUpTo
  cases pc : s.worker.pc <;> rw [pc] at placed <;>
    simp only [Within, freedTo] at placed ⊢ <;> omega

theorem reads_within {read write : Nat} {pc : WorkerPc} (within : Within read write pc) :
    ∀ i ∈ reading read pc, read ≤ i ∧ i < write := by
  intro i inside
  cases pc with
  | scan applying next target =>
    obtain ⟨low, middle, high⟩ := within
    simp only [reading] at inside
    split at inside
    · rw [List.mem_singleton] at inside
      omega
    · contradiction
  | countDiscard target | freeDiscard target =>
    obtain ⟨low, high⟩ := within
    have last : i = target - 1 := List.mem_singleton.mp inside
    omega
  | look | budget | recheckPause | recheckControl | recheckStop | process | free =>
    have last : i = read := List.mem_singleton.mp inside
    simp only [Within] at within
    omega
  | _ => contradiction

/-- A slot that a call fills is beyond those between the indices, all round the queue. -/
theorem writes_apart (inv : Inv s) {write i : Nat} (fills : write ∈ writing (s.calls id))
    (low : s.readIndex ≤ i) (high : i < s.writeIndex) : i % queueSlots ≠ write % queueSlots := by
  have flagged : inSection (s.calls id) = true := by
    revert fills
    cases s.calls id <;> first | exact fun _ => rfl | exact nofun
  have holds := inv.producers.holds id ((inv.producers.owned id).mp flagged)
  have room : write = s.writeIndex ∧ write < s.readIndex + queueSlots := by
    cases here : s.calls id with
    | fill r pause index | storeDuration filled index | storeWrite filled index =>
      rw [here] at holds fills
      cases List.mem_singleton.mp fills
      exact ⟨holds.1, holds.2.1⟩
    | _ =>
      rw [here] at fills
      contradiction
  obtain ⟨rfl, room⟩ := room
  unfold queueSlots at room ⊢
  omega

theorem fate_once (inv : Inv s) {accepted : Bool} (ended : s.calls id = .ended accepted) :
    (calls (waiting s)).count id + (s.outcomes.map Prod.fst).count id = 1 := by
  have once := inv.fates.once id
  have settled := inv.fates.settled id
  have whole : calls s.log = calls (s.log.take (settledUpTo s)) ++ calls (waiting s) := by
    rw [waiting, ← calls_append, List.take_append_drop]
  rw [whole, List.count_append] at once
  rw [ended] at once settled
  cases accepted <;>
    simp only [published, refused, Bool.toNat_true, Bool.toNat_false] at once settled <;> omega

theorem accounted (inv : Inv s) : Accounted s where
  slots := ⟨inv.queue.ordered, inv.queue.capacity⟩
  durations := durations_counted inv
  time := by
    have durations := durations_counted inv
    have limit := inv.producers.limit
    omega
  release := ⟨readIndex_le inv.queue, freedUpTo_le inv.queue⟩
  intact := inv.queue.intact
  reads := reads_within inv.queue.placed
  writes := fun _ _ fills _ low high => writes_apart inv fills low high
  fates := fun _ _ ended => fate_once inv ended
  __ := inv.fates

/-- In every state of every run. -/
theorem queue_accounted {schedule : List Action} {last : State}
    (run : Machine.run step init schedule = some last) : Accounted last :=
  accounted (Machine.run_invariant Inv (fun _ _ _ => step_inv) init_inv run)

def fullBlock : Request := ⟨true, 65536, some ⟨0, 16000000, 0, false⟩⟩

def submitted : List Action := .submit 0 fullBlock :: List.replicate 12 (.call 0)

/-- The worker takes the block up to its durations; there is no resampler for it. -/
def freed : List Action :=
  [false, false, false, false, false, false, true, false, false, false, false, false].map .worker

theorem queue_accounted_freed : ∃ last,
    Machine.run step init (submitted ++ freed) = some last ∧
      (last.freedDurationUs, last.outcomes) = (4096, [(0, .unfit)]) ∧ Accounted last := by
  have shown : (Machine.run step init (submitted ++ freed)).map
      (fun last => (last.freedDurationUs, last.outcomes)) = some (4096, [(0, .unfit)]) := by
    decide +kernel
  obtain ⟨last, run, values⟩ := Option.map_eq_some_iff.mp shown
  exact ⟨last, run, values, queue_accounted run⟩

def hasEnded : Call → Bool
  | .ended _ => true
  | _ => false

/-- A release frees the durations before it moves the read index, and a block without a resampler
is neither decoded nor counted. -/
theorem freed_between :
    (∃ schedule last, Machine.run step init schedule = some last ∧
      total (between last) ≠ last.producerDurationUs - last.freedDurationUs) ∧
    ∃ schedule last, Machine.run step init schedule = some last ∧
      hasEnded (last.calls 0) ∧ between last = [] ∧ (0, .decoded) ∉ last.outcomes ∧
        last.dropped = 0 ∧ last.pauseDrops = 0 := by
  constructor
  · have shown : (Machine.run step init (submitted ++ freed)).map (fun last =>
        (total (between last), last.producerDurationUs - last.freedDurationUs)) =
        some (4096, 0) := by
      decide +kernel
    obtain ⟨last, run, values⟩ := Option.map_eq_some_iff.mp shown
    simp only [Prod.mk.injEq] at values
    refine ⟨submitted ++ freed, last, run, ?_⟩
    rw [values.1, values.2]
    decide
  · have shown : (Machine.run step init (submitted ++ freed ++ [.worker false])).map (fun last =>
        ((hasEnded (last.calls 0), between last), last.outcomes, last.dropped, last.pauseDrops)) =
        some ((true, []), [(0, .unfit)], 0, 0) := by
      decide +kernel
    obtain ⟨last, run, values⟩ := Option.map_eq_some_iff.mp shown
    simp only [Prod.mk.injEq] at values
    obtain ⟨⟨ended, queue⟩, outcomes, dropped, paused⟩ := values
    refine ⟨_, last, run, ended, queue, ?_, dropped, paused⟩
    rw [outcomes]
    decide

end MisrcGui.RfPreview.InputAccounting
