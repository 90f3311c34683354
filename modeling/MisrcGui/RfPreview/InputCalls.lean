import MisrcGui.RfPreview.InputQueue

/-! The invariant of the input queue, and that the submitting calls keep it. -/
namespace MisrcGui.RfPreview.InputCalls
open Library InputQueue
open Worker (queueSlots)

theorem total_append (front rest : List Slot) :
    total (front ++ rest) = total front + total rest := by
  simp only [total, List.map_append, List.sum_append]

theorem total_take_drop (blocks : List Slot) (n : Nat) :
    total (blocks.take n) + total (blocks.drop n) = total blocks := by
  rw [← total_append, List.take_append_drop]

theorem total_take_le (blocks : List Slot) {m n : Nat} (le : m ≤ n) :
    total (blocks.take m) ≤ total (blocks.take n) := by
  have split := total_take_drop (blocks.take n) m
  rw [List.take_take, Nat.min_eq_left le] at split
  omega

def calls (blocks : List Slot) : List Nat := blocks.map Slot.call

theorem calls_append (front rest : List Slot) : calls (front ++ rest) = calls front ++ calls rest :=
  List.map_append

theorem take_stretch (blocks : List Slot) {m n : Nat} (le : m ≤ n) :
    blocks.take m ++ (blocks.take n).drop m = blocks.take n := by
  have first : (blocks.take n).take m = blocks.take m := by
    rw [List.take_take, Nat.min_eq_left le]
  rw [← first, List.take_append_drop]

def Within (read write : Nat) : WorkerPc → Prop
  | .scan _ next target => read ≤ next ∧ next ≤ target ∧ target ≤ write
  | .countPaused _ next | .storePaused _ next => read ≤ next ∧ next ≤ write
  | .countDiscard target | .freeDiscard target | .storeRead target => read < target ∧ target ≤ write
  | .look | .countDropped | .countPause | .budget | .recheckPause | .recheckControl | .recheckStop
  | .process | .free => read < write
  | _ => True

theorem Within.mono {read write later : Nat} {pc : WorkerPc} (within : Within read write pc)
    (more : write ≤ later) : Within read later pc := by
  cases pc <;> simp only [Within] at within ⊢ <;> omega

structure Queue (s : State) : Prop where
  ordered : s.readIndex ≤ s.writeIndex
  capacity : s.writeIndex ≤ s.readIndex + queueSlots
  logged : s.log.length = s.writeIndex
  ends : ∀ i block, s.log[i]? = some block → block.durationEndUs = total (s.log.take (i + 1))
  intact : ∀ i, s.readIndex ≤ i → i < s.writeIndex → s.log[i]? = some (slot s i)
  freed : s.freedDurationUs = total (s.log.take (freedUpTo s))
  placed : Within s.readIndex s.writeIndex s.worker.pc

def Holds (s : State) (id : Nat) : Call → Prop
  | .recheckPause _ _ | .loadWrite _ _ | .release | .refuse _ => True
  | .loadRead _ _ write => write = s.writeIndex
  | .loadFreed _ _ write read => write = s.writeIndex ∧ read ≤ s.readIndex
  | .room _ _ write read freed =>
    write = s.writeIndex ∧ read ≤ s.readIndex ∧ freed ≤ s.freedDurationUs
  | .fill r _ write => write = s.writeIndex ∧ write < s.readIndex + queueSlots ∧
    s.producerDurationUs + r.durationUs ≤ s.freedDurationUs + queueMaxUs
  | .storeDuration filled write => write = s.writeIndex ∧ write < s.readIndex + queueSlots ∧
    slot s write = filled ∧ filled.call = id ∧
    filled.durationEndUs = s.producerDurationUs + filled.durationUs ∧
    filled.durationEndUs ≤ s.freedDurationUs + queueMaxUs
  | .storeWrite filled write => write = s.writeIndex ∧ write < s.readIndex + queueSlots ∧
    slot s write = filled ∧ filled.call = id ∧ filled.durationEndUs = s.producerDurationUs
  | _ => False

/-- The calls between `atomic_flag_test_and_set` and `atomic_flag_clear`. -/
def inSection : Call → Bool
  | .recheckPause _ _ | .loadWrite _ _ | .loadRead _ _ _ | .loadFreed _ _ _ _ | .room _ _ _ _ _
  | .fill _ _ _ | .storeDuration _ _ | .storeWrite _ _ | .release | .refuse _ => true
  | _ => false

structure Producers (s : State) : Prop where
  owned : ∀ id, inSection (s.calls id) ↔ s.producerBusy = some id
  holds : ∀ id, s.producerBusy = some id → Holds s id (s.calls id)
  sum : s.producerDurationUs = total (s.log ++ pending s)
  limit : s.producerDurationUs ≤ s.freedDurationUs + queueMaxUs

def published : Call → Bool
  | .release | .ended true => true
  | _ => false

def refused : Call → Bool
  | .storeFlush | .ended false => true
  | _ => false

def lost (fate : Fate) (s : State) : Nat := (s.outcomes.map Prod.snd).count fate

structure Fates (s : State) : Prop where
  once : ∀ id, (calls s.log).count id = (published (s.calls id)).toNat
  settled : ∀ id, (s.outcomes.map Prod.fst).count id =
    (calls (s.log.take (settledUpTo s))).count id + (refused (s.calls id)).toNat
  dropped : lost .dropped s = s.dropped
  paused : lost .paused s = s.pauseDrops

structure Inv (s : State) : Prop where
  queue : Queue s
  producers : Producers s
  fates : Fates s

theorem init_inv : Inv init where
  queue := ⟨Nat.le_refl _, Nat.zero_le _, rfl, nofun, fun _ _ => nofun, rfl, trivial⟩
  producers := ⟨fun _ => ⟨nofun, nofun⟩, nofun, rfl, Nat.zero_le _⟩
  fates := ⟨fun _ => rfl, fun _ => rfl, rfl, rfl⟩

variable {s next : State} {id : Nat} {call : Call}

theorem freedUpTo_le (queue : Queue s) : freedUpTo s ≤ s.writeIndex := by
  have placed := queue.placed
  have ordered := queue.ordered
  unfold freedUpTo
  cases pc : s.worker.pc <;> rw [pc] at placed <;>
    simp only [Within, freedTo] at placed ⊢ <;> omega

theorem settledUpTo_le (queue : Queue s) : settledUpTo s ≤ s.writeIndex := by
  have placed := queue.placed
  have ordered := queue.ordered
  unfold settledUpTo
  cases pc : s.worker.pc <;> rw [pc] at placed <;>
    simp only [Within, settledTo] at placed ⊢ <;> omega

theorem moved_self : (moved s id call).calls id = call := Function.update_self _ _ _

theorem moved_other {other : Nat} (apart : other ≠ id) :
    (moved s id call).calls other = s.calls other := Function.update_of_ne apart _ _

theorem pending_moved (same : pendingOf call = pendingOf (s.calls id)) :
    pending (moved s id call) = pending s := by
  show s.producerBusy.elim [] _ = s.producerBusy.elim [] _
  cases s.producerBusy with
  | none => rfl
  | some owner =>
    by_cases here : owner = id
    · subst here
      exact (congrArg pendingOf moved_self).trans same
    · exact congrArg pendingOf (moved_other here)

theorem owned_moved (producers : Producers s) (flagged : inSection call = inSection (s.calls id))
    (other : Nat) : inSection ((moved s id call).calls other) ↔ s.producerBusy = some other := by
  by_cases here : other = id
  · subst here
    rw [moved_self, flagged]
    exact producers.owned other
  · rw [moved_other here]
    exact producers.owned other

theorem producers_moved (producers : Producers s)
    (flagged : inSection call = inSection (s.calls id))
    (same : pendingOf call = pendingOf (s.calls id))
    (holds : s.producerBusy = some id → Holds s id call) : Producers (moved s id call) where
  owned := owned_moved producers flagged
  holds := by
    intro owner busy
    by_cases here : owner = id
    · subst here
      rw [moved_self]
      exact holds busy
    · rw [moved_other here]
      exact producers.holds owner busy
  sum := by
    rw [pending_moved same]
    exact producers.sum
  limit := producers.limit

theorem fates_moved (fates : Fates s) (same : published call = published (s.calls id))
    (kept : refused call = refused (s.calls id)) : Fates (moved s id call) where
  once := by
    intro other
    by_cases here : other = id
    · subst here
      rw [moved_self, same]
      exact fates.once other
    · rw [moved_other here]
      exact fates.once other
  settled := by
    intro other
    by_cases here : other = id
    · subst here
      rw [moved_self, kept]
      exact fates.settled other
    · rw [moved_other here]
      exact fates.settled other
  __ := fates

structure Alike (call other : Call) : Prop where
  flagged : inSection call = inSection other
  pending : pendingOf call = pendingOf other
  published : published call = published other
  refused : refused call = refused other

theorem inv_moved (inv : Inv s) (alike : Alike call (s.calls id))
    (holds : s.producerBusy = some id → Holds s id call) : Inv (moved s id call) where
  queue := { inv.queue with }
  producers := producers_moved inv.producers alike.flagged alike.pending holds
  fates := fates_moved inv.fates alike.published alike.refused

theorem outside (inv : Inv s) (apart : inSection (s.calls id) = false) :
    s.producerBusy ≠ some id := by
  intro busy
  rw [(inv.producers.owned id).mpr busy] at apart
  contradiction

theorem inv_acquire (inv : Inv s) (free : s.producerBusy = none) (holds : Holds s id call)
    (enters : inSection call = true) (bare : pendingOf call = [])
    (same : published call = published (s.calls id)) (kept : refused call = refused (s.calls id)) :
    Inv { moved s id call with producerBusy := some id } where
  queue := { inv.queue with }
  fates := { fates_moved inv.fates same kept with }
  producers := by
    refine ⟨?_, ?_, ?_, inv.producers.limit⟩
    · intro other
      show inSection ((moved s id call).calls other) ↔ some id = some other
      by_cases here : other = id
      · subst here
        rw [moved_self, enters]
        exact iff_of_true rfl rfl
      · have out := inv.producers.owned other
        rw [free] at out
        rw [moved_other here]
        exact iff_of_false (fun inside => nomatch out.mp inside)
          fun same => here (Option.some.inj same).symm
    · rintro owner busy
      cases Option.some.inj busy
      show Holds s id ((moved s id call).calls id)
      rw [moved_self]
      exact holds
    · have none : pending s = [] := by rw [pending, free, Option.elim_none]
      have sum := inv.producers.sum
      rw [none] at sum
      show s.producerDurationUs = total (s.log ++ pendingOf ((moved s id call).calls id))
      rw [moved_self, bare]
      exact sum

theorem inv_release (inv : Inv s) (busy : s.producerBusy = some id)
    (leaves : inSection call = false) (bare : pendingOf (s.calls id) = [])
    (same : published call = published (s.calls id)) (kept : refused call = refused (s.calls id)) :
    Inv { moved s id call with producerBusy := none } where
  queue := { inv.queue with }
  fates := { fates_moved inv.fates same kept with }
  producers := by
    refine ⟨?_, by simp, ?_, inv.producers.limit⟩
    · intro other
      show inSection ((moved s id call).calls other) ↔ none = some other
      by_cases here : other = id
      · subst here
        rw [moved_self, leaves]
        exact iff_of_false (by simp) (by simp)
      · have out := inv.producers.owned other
        rw [busy] at out
        rw [moved_other here]
        exact iff_of_false (fun inside => here (Option.some.inj (out.mp inside)).symm) (by simp)
    · have none : pending s = [] := by
        rw [pending, busy]
        exact bare
      have sum := inv.producers.sum
      rw [none] at sum
      exact sum

theorem count_snoc {A : Type} [DecidableEq A] (list : List A) (a b : A) :
    (list ++ [a]).count b = list.count b + if a = b then 1 else 0 := by
  rw [List.count_append, List.count_singleton]
  simp only [beq_iff_eq]

theorem inv_lost (inv : Inv s) (fate : Fate) (out : inSection (s.calls id) = false)
    (before : refused (s.calls id) = false) (away : inSection call = false)
    (bare : pendingOf call = pendingOf (s.calls id)) (now : refused call = true)
    (same : published call = published (s.calls id)) :
    Inv { moved s id call with
      dropped := s.dropped + if fate = .dropped then 1 else 0
      pauseDrops := s.pauseDrops + if fate = .paused then 1 else 0
      outcomes := s.outcomes ++ [(id, fate)] } where
  queue := { inv.queue with }
  producers := { producers_moved inv.producers (away.trans out.symm) bare fun busy =>
    absurd busy (outside inv out) with }
  fates := by
    refine ⟨?_, ?_, ?_, ?_⟩
    · intro other
      show (calls s.log).count other = (published ((moved s id call).calls other)).toNat
      by_cases here : other = id
      · subst here
        rw [moved_self, same]
        exact inv.fates.once other
      · rw [moved_other here]
        exact inv.fates.once other
    · intro other
      show ((s.outcomes ++ [(id, fate)]).map Prod.fst).count other =
        (calls (s.log.take (settledUpTo s))).count other +
          (refused ((moved s id call).calls other)).toNat
      have settled := inv.fates.settled other
      rw [List.map_append, List.map_singleton, count_snoc, settled]
      by_cases here : other = id
      · subst here
        rw [moved_self, before, now, if_pos rfl]
        rfl
      · rw [moved_other here, if_neg (Ne.symm here), Nat.add_zero]
    · show ((s.outcomes ++ [(id, fate)]).map Prod.snd).count .dropped = _
      rw [List.map_append, List.map_singleton, count_snoc]
      exact congrArg (· + _) inv.fates.dropped
    · show ((s.outcomes ++ [(id, fate)]).map Prod.snd).count .paused = _
      rw [List.map_append, List.map_singleton, count_snoc]
      exact congrArg (· + _) inv.fates.paused

theorem inv_fill (inv : Inv s) {write : Nat} {filled : Slot} (busy : s.producerBusy = some id)
    (alike : Alike (.storeDuration filled write) (s.calls id)) (atEnd : write = s.writeIndex)
    (room : write < s.readIndex + queueSlots) (own : filled.call = id)
    (duration : filled.durationEndUs = s.producerDurationUs + filled.durationUs)
    (short : filled.durationEndUs ≤ s.freedDurationUs + queueMaxUs) :
    Inv { moved s id (.storeDuration filled write) with
      slots := Function.update s.slots (write % queueSlots) filled } where
  queue := by
    refine { inv.queue with intact := ?_ }
    intro i low high
    have high : i < s.writeIndex := high
    have low : s.readIndex ≤ i := low
    have apart : i % queueSlots ≠ write % queueSlots := by
      unfold queueSlots at room ⊢
      omega
    show s.log[i]? = some (Function.update s.slots (write % queueSlots) filled (i % queueSlots))
    rw [Function.update_of_ne apart]
    exact inv.queue.intact i low high
  fates := { fates_moved inv.fates alike.published alike.refused with }
  producers := by
    refine ⟨owned_moved inv.producers alike.flagged, ?_, ?_, inv.producers.limit⟩
    · intro owner taken
      have same : owner = id := Option.some.inj (taken.symm.trans busy)
      subst same
      show Holds _ owner ((moved s owner (.storeDuration filled write)).calls owner)
      rw [moved_self]
      exact ⟨atEnd, room, Function.update_self _ _ _, own, duration, short⟩
    · have sum := inv.producers.sum
      rw [← pending_moved alike.pending] at sum
      exact sum

theorem inv_count (inv : Inv s) {write : Nat} {filled : Slot} (busy : s.producerBusy = some id)
    (here : s.calls id = .storeDuration filled write) :
    Inv { moved s id (.storeWrite filled write) with
      producerDurationUs := filled.durationEndUs } := by
  have holds := inv.producers.holds id busy
  rw [here] at holds
  obtain ⟨atEnd, room, stored, own, duration, short⟩ := holds
  have flagged : inSection (.storeWrite filled write) = inSection (s.calls id) := by
    rw [here]
    rfl
  refine ⟨{ inv.queue with }, ⟨owned_moved inv.producers flagged, ?_, ?_, short⟩, ?_⟩
  · intro owner taken
    have same : owner = id := Option.some.inj (taken.symm.trans busy)
    subst same
    show Holds _ owner ((moved s owner (.storeWrite filled write)).calls owner)
    rw [moved_self]
    exact ⟨atEnd, room, stored, own, rfl⟩
  · have none : pending s = [] := by
      rw [pending, busy]
      exact congrArg pendingOf here
    have sum := inv.producers.sum
    rw [none, List.append_nil] at sum
    show filled.durationEndUs = total (s.log ++ s.producerBusy.elim [] _)
    rw [busy]
    show filled.durationEndUs =
      total (s.log ++ pendingOf ((moved s id (.storeWrite filled write)).calls id))
    rw [moved_self, total_append, ← sum, duration]
    rfl
  · exact { fates_moved inv.fates (by rw [here]; rfl) (by rw [here]; rfl) with }

theorem inv_publish (inv : Inv s) {write : Nat} {filled : Slot} (busy : s.producerBusy = some id)
    (here : s.calls id = .storeWrite filled write) :
    Inv { moved s id .release with writeIndex := write + 1, log := s.log ++ [filled] } := by
  have holds := inv.producers.holds id busy
  rw [here] at holds
  obtain ⟨rfl, room, stored, own, duration⟩ := holds
  have flagged : inSection .release = inSection (s.calls id) := by
    rw [here]
    rfl
  have logged := inv.queue.logged
  have sum : s.producerDurationUs = total (s.log ++ [filled]) := by
    have sum := inv.producers.sum
    rw [pending, busy] at sum
    rw [sum]
    exact congrArg (fun call => total (s.log ++ pendingOf call)) here
  have freed := freedUpTo_le inv.queue
  have settled := settledUpTo_le inv.queue
  have front {n : Nat} (old : n ≤ s.writeIndex) :
      (s.log ++ [filled]).take n = s.log.take n :=
    List.take_append_of_le_length (logged.symm ▸ old)
  refine ⟨⟨?_, ?_, ?_, ?_, ?_, ?_, ?_⟩, ⟨owned_moved inv.producers flagged, ?_, ?_, ?_⟩,
    ⟨?_, ?_, inv.fates.dropped, inv.fates.paused⟩⟩
  · exact Nat.le_succ_of_le inv.queue.ordered
  · exact room
  · show (s.log ++ [filled]).length = s.writeIndex + 1
    rw [List.length_append, logged]
    rfl
  · intro i block found
    show block.durationEndUs = total ((s.log ++ [filled]).take (i + 1))
    have found : (s.log ++ [filled])[i]? = some block := found
    by_cases old : i < s.log.length
    · rw [List.getElem?_append_left old] at found
      rw [front (logged ▸ old)]
      exact inv.queue.ends i block found
    · obtain ⟨bound, -⟩ := List.getElem?_eq_some_iff.mp found
      rw [List.length_append, List.length_singleton] at bound
      have last : i = s.log.length := by omega
      subst last
      rw [List.getElem?_concat_length] at found
      have whole : (s.log ++ [filled]).length ≤ s.log.length + 1 := Nat.le_of_eq List.length_append
      rw [← Option.some.inj found, duration, sum, List.take_of_length_le whole]
  · intro i low high
    show (s.log ++ [filled])[i]? = some (slot s i)
    have high : i < s.writeIndex + 1 := high
    by_cases old : i < s.writeIndex
    · rw [List.getElem?_append_left (logged.symm ▸ old)]
      exact inv.queue.intact i low old
    · have last : i = s.log.length := by omega
      rw [last, List.getElem?_concat_length, logged, stored]
  · show s.freedDurationUs = total ((s.log ++ [filled]).take (freedUpTo s))
    rw [front freed]
    exact inv.queue.freed
  · exact inv.queue.placed.mono (Nat.le_succ _)
  · intro owner taken
    have same : owner = id := Option.some.inj (taken.symm.trans busy)
    subst same
    show Holds _ owner ((moved s owner .release).calls owner)
    rw [moved_self]
    trivial
  · show s.producerDurationUs = total (s.log ++ [filled] ++ s.producerBusy.elim [] _)
    rw [busy]
    show s.producerDurationUs =
      total (s.log ++ [filled] ++ pendingOf ((moved s id .release).calls id))
    rw [moved_self, sum]
    exact congrArg total (List.append_nil _).symm
  · exact inv.producers.limit
  · intro other
    show (calls (s.log ++ [filled])).count other =
      (published ((moved s id .release).calls other)).toNat
    have once := inv.fates.once other
    rw [calls_append, calls, calls, List.map_singleton, count_snoc, own]
    by_cases same : other = id
    · subst same
      rw [here] at once
      rw [moved_self, if_pos rfl]
      exact congrArg (· + 1) once
    · rw [moved_other same, if_neg (Ne.symm same)]
      exact once
  · intro other
    show (s.outcomes.map Prod.fst).count other =
      (calls ((s.log ++ [filled]).take (settledUpTo s))).count other +
        (refused ((moved s id .release).calls other)).toNat
    rw [front settled]
    have settled := inv.fates.settled other
    by_cases same : other = id
    · subst same
      rw [here] at settled
      rw [moved_self]
      exact settled
    · rw [moved_other same]
      exact settled

theorem Inv.controls (inv : Inv s) (control pauseControl : Nat) (stop flush : Bool) :
    Inv { s with
      control := control
      pauseControl := pauseControl
      stop := stop
      flushRequested := flush } :=
  ⟨{ inv.queue with }, { inv.producers with }, { inv.fates with }⟩

theorem callStep_inv (inv : Inv s) (taken : callStep s id = some next) : Inv next := by
  -- a move that nothing else sees
  have moves {call : Call} (alike : Alike call (s.calls id))
      (holds : s.producerBusy = some id → Holds s id call) : Inv (moved s id call) :=
    inv_moved inv alike holds
  have without {call : Call} (alike : Alike call (s.calls id))
      (out : inSection (s.calls id) = false) : Inv (moved s id call) :=
    moves alike fun busy => absurd busy (outside inv out)
  have owner (inside : inSection (s.calls id) = true) : s.producerBusy = some id :=
    (inv.producers.owned id).mp inside
  have holds (inside : inSection (s.calls id) = true) : Holds s id (s.calls id) :=
    inv.producers.holds id (owner inside)
  unfold callStep at taken
  split at taken <;> rename_i here <;> rw [here] at moves without owner holds
  · -- idle
    contradiction
  · -- loadPause
    cases taken
    split <;> exact without ⟨rfl, rfl, rfl, rfl⟩ rfl
  · -- check
    cases taken
    split <;> exact without ⟨rfl, rfl, rfl, rfl⟩ rfl
  · -- acquire
    split at taken
    · cases taken
      exact without ⟨rfl, rfl, rfl, rfl⟩ rfl
    · rename_i free
      cases taken
      rw [Bool.not_eq_true, Option.isSome_eq_false_iff, Option.isNone_iff_eq_none] at free
      exact inv_acquire inv free trivial rfl rfl (congrArg published here).symm
        (congrArg refused here).symm
  · -- recheckPause
    cases taken
    split <;> exact moves ⟨rfl, rfl, rfl, rfl⟩ fun _ => trivial
  · -- loadWrite
    cases taken
    exact moves ⟨rfl, rfl, rfl, rfl⟩ fun _ => rfl
  · -- loadRead
    cases taken
    exact moves ⟨rfl, rfl, rfl, rfl⟩ fun _ => ⟨holds rfl, Nat.le_refl _⟩
  · -- loadFreed
    cases taken
    obtain ⟨write, read⟩ := holds rfl
    exact moves ⟨rfl, rfl, rfl, rfl⟩ fun _ => ⟨write, read, Nat.le_refl _⟩
  · -- room
    cases taken
    obtain ⟨write, read, freed⟩ := holds rfl
    split
    · exact moves ⟨rfl, rfl, rfl, rfl⟩ fun _ => trivial
    · rename_i space
      rw [not_or, not_or] at space
      refine moves ⟨rfl, rfl, rfl, rfl⟩ fun _ => ⟨write, ?_, ?_⟩
      · omega
      · omega
  · -- fill
    cases taken
    obtain ⟨write, room, short⟩ := holds rfl
    have alike (filled : Slot) (spot : Nat) : Alike (.storeDuration filled spot) (s.calls id) := by
      rw [here]
      exact ⟨rfl, rfl, rfl, rfl⟩
    exact inv_fill inv (owner rfl) (alike _ _) write room rfl rfl short
  · -- storeDuration
    cases taken
    exact inv_count inv (owner rfl) here
  · -- storeWrite
    cases taken
    exact inv_publish inv (owner rfl) here
  · -- release
    cases taken
    exact inv_release inv (owner rfl) rfl (congrArg pendingOf here) (congrArg published here).symm
      (congrArg refused here).symm
  · -- refuse
    rename_i paused
    cases taken
    cases paused <;> exact inv_release inv (owner rfl) rfl (congrArg pendingOf here)
      (congrArg published here).symm (congrArg refused here).symm
  · -- countPaused
    cases taken
    exact inv_lost inv .paused (congrArg inSection here) (congrArg refused here) rfl
      (congrArg pendingOf here).symm rfl (congrArg published here).symm
  · -- countDropped
    rename_i flush
    cases taken
    cases flush <;> exact inv_lost inv .dropped (congrArg inSection here) (congrArg refused here)
      rfl (congrArg pendingOf here).symm rfl (congrArg published here).symm
  · -- storeFlush
    cases taken
    have ended : Inv (moved s id (.ended false)) := without ⟨rfl, rfl, rfl, rfl⟩ rfl
    exact ended.controls s.control s.pauseControl s.stop true
  · -- ended
    contradiction

end MisrcGui.RfPreview.InputCalls
