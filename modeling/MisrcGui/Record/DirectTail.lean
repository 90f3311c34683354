import MisrcGui.Record.DirectRing

/-! The drain of the direct path at a stop. Once the tap is closed nothing enters
the ring or the spill, so the plain drain leaves both empty; the branch that
holds a failed block leaves the loop whatever they contain. -/
namespace MisrcGui.Record.DirectTail
open Library MisrcGui.Ring DirectPath DirectRing

variable {Cell : Type} {geometry : Geometry} {state next : State Cell} {io : Io}
  {enqueued : Bool}

/-- The writer has seen the stop in this round, or has left the loop. -/
def sawStop : Writer Cell → Bool
  | .pending stopping | .fillLevel stopping | .readBegin _ stopping
  | .spillBacklog stopping | .spillRead _ stopping => stopping
  | .exited => true
  | _ => false

def Drained (geometry : Geometry) (state : State Cell) : Writer Cell → Prop
  | .spillBacklog true | .spillRead _ true => contents geometry state.ring = []
  | .exited => state.lastFailed = false →
      contents geometry state.ring = [] ∧ state.spill = []
  | _ => True

structure Inv (geometry : Geometry) (state : State Cell) : Prop where
  sound : Sound geometry state
  idle : state.tapOpen = false → state.producer = .idle
  stopped : (!state.recordingActive || state.exitFlag) → state.tapOpen = false
  closed : sawStop state.writer → state.tapOpen = false
  drained : Drained geometry state state.writer

theorem initial_inv (buffer : Nat → Cell) : Inv geometry (initial buffer) where
  sound := initial_sound buffer
  idle := fun _ => rfl
  stopped := by simp [initial]
  closed := by simp [initial, sawStop]
  drained := trivial

theorem drained_of_running {writer : Writer Cell} (running : sawStop writer = false) :
    Drained geometry state writer := by
  cases writer with
  | spillBacklog stopping =>
    cases stopping with
    | true => simp [sawStop] at running
    | false => trivial
  | spillRead want stopping =>
    cases stopping with
    | true => simp [sawStop] at running
    | false => trivial
  | exited => simp [sawStop] at running
  | _ => trivial

theorem Inv.drained_congr (inv : Inv geometry state) (ring : next.ring = state.ring)
    (spill : next.spill = state.spill) (writer : next.writer = state.writer)
    (failed : next.lastFailed = state.lastFailed) :
    Drained geometry next next.writer := by
  have drained := inv.drained
  revert drained
  rw [writer]
  unfold Drained
  rw [ring, spill, failed]
  exact id

theorem pushInner_inv (inv : Inv geometry state)
    (h : pushInner geometry state enqueued = some next) : Inv geometry next := by
  have sound := pushInner_sound inv.sound h
  have busy : state.tapOpen = true := by
    by_contra shut
    have idle := inv.idle (by simpa using shut)
    simp [pushInner, idle] at h
  have running : sawStop state.writer = false := by
    by_contra saw
    have shut := inv.closed (by simpa using saw)
    exact absurd (busy.symm.trans shut) (by simp)
  obtain ⟨tap, active, exit, writer, -⟩ := pushInner_frame h
  refine ⟨sound, ?_, ?_, ?_, ?_⟩
  · rw [tap, busy]
    simp
  · rw [active, exit, tap]
    exact inv.stopped
  · rw [writer, running]
    simp
  · rw [writer]
    exact drained_of_running running

theorem writerThread_tail (inv : Inv geometry state)
    (allowed : drainedAtStop state (.write io))
    (h : writerThread geometry state io = some next) :
    (sawStop next.writer → state.tapOpen = false) ∧
      Drained geometry next next.writer := by
  have closed := inv.closed
  have drained := inv.drained
  have level := inv.sound.ring.fillLevel_eq
  cases here : state.writer with
  | exited => simp [writerThread, here] at h
  | loopHead =>
    simp only [writerThread, here] at h
    cases h
    refine ⟨fun saw => inv.stopped ?_, ?_⟩
    · dsimp only at saw
      split at saw <;> exact saw
    · dsimp only
      split <;> trivial
  | pending stopping =>
    simp only [here, sawStop] at closed
    simp only [writerThread, here] at h
    cases stopping with
    | false =>
      split at h
      · split at h
        · cases h
          exact ⟨by simp [endRound, sawStop], trivial⟩
        · contradiction
      · cases h
        exact ⟨by simp [endRound, sawStop], trivial⟩
    | true =>
      rw [if_pos (by simp [retryDue])] at h
      split at h
      · cases h
        refine ⟨fun _ => closed rfl, fun succeeded => ?_⟩
        have complete : io.complete (held state).length := by
          by_contra failed
          have outcome : (retry state io).lastFailed := by
            unfold retry
            rw [if_neg failed]
            simpa using failed
          exact absurd (outcome.symm.trans succeeded) (by simp)
        have empty : fillLevel state.ring = 0 ∧ state.spill = [] := by
          simpa [drainedAtStop, here, complete] using allowed
        rw [level] at empty
        change contents geometry (retry state io).ring = [] ∧ (retry state io).spill = []
        rw [retry_ring, retry_spill]
        exact ⟨List.eq_nil_of_length_eq_zero empty.1, empty.2⟩
      · contradiction
  | fillLevel stopping =>
    simp only [here, sawStop] at closed
    simp only [writerThread, here] at h
    cases h
    dsimp only
    split
    · exact ⟨closed, trivial⟩
    · rename_i empty
      refine ⟨closed, ?_⟩
      cases stopping with
      | false => trivial
      | true =>
        change contents geometry state.ring = []
        exact List.eq_nil_of_length_eq_zero (by omega)
  | readBegin want stopping =>
    have readable := inv.sound.readable
    simp only [here, taken] at readable
    simp only [writerThread, here, inv.sound.ring.rbReadPtr_eq, if_pos readable] at h
    cases h
    exact ⟨by simp [sawStop], trivial⟩
  | spillBacklog stopping =>
    simp only [here, sawStop] at closed
    simp only [here] at drained
    simp only [writerThread, here] at h
    cases h
    dsimp only
    split
    · exact ⟨closed, by cases stopping <;> exact drained⟩
    · rename_i empty
      cases stopping with
      | false => exact ⟨by simp [endRound, sawStop], trivial⟩
      | true =>
        have spill : state.spill = [] := List.eq_nil_of_length_eq_zero (by omega)
        exact ⟨fun _ => closed rfl, fun _ => ⟨drained, spill⟩⟩
  | spillRead want stopping =>
    simp only [writerThread, here] at h
    split at h
    · cases h
      exact ⟨by simp [sawStop], trivial⟩
    · rename_i failed
      cases h
      cases stopping with
      | false => exact ⟨by simp [endRound, sawStop], trivial⟩
      | true => exact absurd (by simpa [drainedAtStop, here] using allowed) failed
  | fwriteRing pointer len =>
    simp only [writerThread, here] at h
    split at h
    · cases h
      exact ⟨by simp [sawStop], trivial⟩
    · contradiction
  | readEnd pointer len complete =>
    simp only [writerThread, here] at h
    split at h <;> cases h <;> exact ⟨by simp [sawStop], trivial⟩
  | copyRing pointer len =>
    simp only [writerThread, here] at h
    cases h
    exact ⟨by simp [sawStop], trivial⟩
  | fwriteSpill data =>
    simp only [writerThread, here] at h
    split at h
    · split at h <;> cases h <;> exact ⟨by simp [sawStop], trivial⟩
    · contradiction

theorem step_inv (inv : Inv geometry state) {action : Action Cell}
    (idle : stopsIdle state action) (allowed : drainedAtStop state action)
    (h : step geometry state action = some next) : Inv geometry next := by
  have sound := step_sound inv.sound h
  cases action with
  | push data =>
    simp only [step] at h
    split at h
    · split at h <;> cases h
      · rename_i accepted
        have busy : state.tapOpen = true := by
          simp only [Bool.and_eq_true] at accepted
          exact accepted.1
        refine ⟨sound, ?_, inv.stopped, inv.closed, inv.drained_congr rfl rfl rfl rfl⟩
        simp [busy]
      · exact inv
    · contradiction
  | produce enqueued => exact pushInner_inv inv h
  | write io =>
    obtain ⟨tap, active, exit, producer⟩ := writerThread_frame h
    obtain ⟨closed, drained⟩ := writerThread_tail inv allowed h
    refine ⟨sound, ?_, ?_, ?_, drained⟩
    · rw [tap, producer]
      exact inv.idle
    · rw [active, exit, tap]
      exact inv.stopped
    · rw [tap]
      exact closed
  | closeTap =>
    simp only [step] at h
    split at h
    · rename_i waiting
      cases h
      exact ⟨sound, fun _ => waiting, fun _ => rfl, fun _ => rfl,
        inv.drained_congr rfl rfl rfl rfl⟩
    · contradiction
  | stop | exit =>
    cases h
    have shut : state.tapOpen = false := by simpa [stopsIdle] using idle
    exact ⟨sound, inv.idle, fun _ => shut, inv.closed, inv.drained_congr rfl rfl rfl rfl⟩

/-- What the tail drain rests on, a stop after the tap handshake included. -/
def drainedStep (state : State Cell) (action : Action Cell) : Bool :=
  stopsIdle state action && drainedAtStop state action

/-- In every run that stops with the tap idle, and whose held block at the stop is
the last of the data, the writer leaves nothing behind. -/
theorem tail_drained (geometry : Geometry) (buffer : Nat → Cell)
    (schedule : List (Action Cell)) (last : State Cell)
    (h : Machine.run (Machine.guarded drainedStep (step geometry)) (initial buffer)
      schedule = some last) : TailDrained geometry last := by
  have inv := Machine.run_invariant (Inv geometry) (fun state action next inv taken => by
    obtain ⟨allowed, taken⟩ := Machine.guarded_eq_some.mp taken
    simp only [drainedStep, Bool.and_eq_true] at allowed
    exact step_inv inv allowed.1 allowed.2 taken) (initial_inv buffer) h
  intro exited succeeded
  have drained := inv.drained
  rw [exited] at drained
  exact drained succeeded

/-- A block is held when a second push goes into the ring and the stop is seen;
the held block is written and the loop is left. -/
def heldAtStop : List (Action UInt8) :=
  .push [1] :: List.replicate 4 (.produce true) ++
    List.replicate 6 (.write ⟨0, 0, true, true⟩) ++
    .push [2] :: List.replicate 4 (.produce true) ++
    [.closeTap, .stop, .write ⟨1, 1, false, true⟩, .write ⟨1, 1, false, true⟩]

theorem tail_left_behind :
    ¬∀ (geometry : Geometry) (schedule : List (Action UInt8)) (last : State UInt8),
      Machine.run (Machine.guarded stopsIdle (step geometry)) (initial fun _ => 0)
        schedule = some last → TailDrained geometry last := by
  intro claim
  have outcome : (Machine.run (Machine.guarded stopsIdle (step page))
      (initial fun _ => 0) heldAtStop).map (fun last =>
        (last.writer, last.lastFailed, contents page last.ring)) =
          some (.exited, false, [2]) := by decide +kernel
  obtain ⟨last, reached, fields⟩ := Option.map_eq_some_iff.mp outcome
  obtain ⟨exited, fields⟩ := Prod.mk.inj fields
  obtain ⟨succeeded, left⟩ := Prod.mk.inj fields
  have drained := (claim page heldAtStop last reached exited succeeded).1
  rw [left] at drained
  exact absurd drained (by simp)

/-- The held block is written before the stop and the rest is drained after it. -/
def recoveredBeforeStop : List (Action UInt8) :=
  .push [1] :: List.replicate 4 (.produce true) ++
    List.replicate 6 (.write ⟨0, 0, true, true⟩) ++
    .push [2, 3] :: List.replicate 4 (.produce true) ++
    List.replicate 2 (.write ⟨1, 1, false, true⟩) ++ [.closeTap, .stop] ++
    List.replicate 8 (.write ⟨2, 2, false, true⟩)

theorem tail_drained_recovered : ∃ last,
    Machine.run (Machine.guarded drainedStep (step page)) (initial fun _ => 0)
      recoveredBeforeStop = some last ∧ TailDrained page last := by
  have possible : (Machine.run (Machine.guarded drainedStep (step page))
      (initial fun _ => 0) recoveredBeforeStop).isSome := by decide +kernel
  obtain ⟨last, reached⟩ := Option.isSome_iff_exists.mp possible
  exact ⟨last, reached, tail_drained page _ recoveredBeforeStop last reached⟩

end MisrcGui.Record.DirectTail
