import MisrcGui.Record.DirectOrder

/-! The order of the direct path when every write to the output is complete: only the choice
between ring and spill is at stake. -/
namespace MisrcGui.Record.DirectStream
open Library MisrcGui.Ring DirectPath DirectRing DirectOrder

variable {Cell : Type} {geometry : Geometry} {state next : State Cell} {io : Io}
  {enqueued : Bool}

def healthy : Writer Cell → Bool
  | .copyRing _ _ | .readEnd _ _ false => false
  | _ => true

def Unfailed (state : State Cell) : Prop :=
  healthy state.writer ∧ state.partialBytes = 0

@[simp] theorem healthy_endRound (stopping : Bool) :
    healthy (endRound stopping : Writer Cell) := by
  cases stopping <;> rfl

theorem pushInner_unfailed (inv : Unfailed state)
    (h : pushInner geometry state enqueued = some next) : Unfailed next := by
  obtain ⟨-, -, -, writer, attempt⟩ := pushInner_frame h
  unfold Unfailed
  rw [writer, attempt]
  exact inv

theorem writerThread_unfailed (inv : Unfailed state)
    (allowed : everyWriteComplete state (.write io))
    (h : writerThread geometry state io = some next) : Unfailed next := by
  obtain ⟨health, attempt⟩ := inv
  cases here : state.writer with
  | exited => simp [writerThread, here] at h
  | loopHead | fillLevel =>
    simp only [writerThread, here] at h
    cases h
    refine ⟨?_, attempt⟩
    dsimp only
    split <;> rfl
  | pending stopping =>
    simp only [everyWriteComplete, here] at allowed
    simp only [writerThread, here, retry, allowed, if_true] at h
    split at h
    · split at h
      · cases h
        exact ⟨healthy_endRound _, rfl⟩
      · contradiction
    · cases h
      exact ⟨healthy_endRound _, attempt⟩
  | readBegin want stopping =>
    simp only [writerThread, here] at h
    split at h <;> cases h <;> exact ⟨rfl, attempt⟩
  | spillBacklog stopping =>
    simp only [writerThread, here] at h
    cases h
    refine ⟨?_, attempt⟩
    dsimp only
    split
    · rfl
    · exact healthy_endRound _
  | spillRead want stopping =>
    simp only [writerThread, here] at h
    split at h <;> cases h
    · exact ⟨rfl, attempt⟩
    · exact ⟨healthy_endRound _, attempt⟩
  | fwriteRing | fwriteSpill =>
    simp only [everyWriteComplete, here] at allowed
    simp only [writerThread, here, allowed, if_true] at h
    split at h
    · cases h
      exact ⟨rfl, rfl⟩
    · contradiction
  | readEnd pointer len complete =>
    cases complete with
    | false => simp [here, healthy] at health
    | true =>
      simp only [writerThread, here, if_true] at h
      cases h
      exact ⟨rfl, attempt⟩
  | copyRing pointer len => simp [here, healthy] at health

theorem step_unfailed {action : Action Cell} (inv : Unfailed state)
    (allowed : everyWriteComplete state action)
    (h : step geometry state action = some next) : Unfailed next := by
  cases action with
  | push data =>
    simp only [step] at h
    split at h
    · split at h <;> cases h <;> exact inv
    · contradiction
  | produce enqueued => exact pushInner_unfailed inv h
  | write io => exact writerThread_unfailed inv allowed h
  | closeTap =>
    simp only [step] at h
    split at h
    · cases h
      exact inv
    · contradiction
  | stop =>
    cases h
    exact inv
  | exit =>
    cases h
    exact inv

theorem exactStep_of_unfailed {action : Action Cell} (inv : Unfailed state)
    (ordered : spillAfterRing state action) : exactStep geometry state action := by
  obtain ⟨health, attempt⟩ := inv
  simp only [exactStep, ordered, Bool.true_and, Bool.and_eq_true]
  refine ⟨?_, ?_⟩
  · cases action with
    | write io =>
      unfold repeatsNothing
      dsimp only
      split
      · simp [attempt]
      · rfl
    | _ => rfl
  · cases action with
    | produce enqueued =>
      unfold sparesFailedBlock
      dsimp only
      split
      · rename_i here
        simp [here, healthy] at health
      · rfl
    | _ => rfl

/-- What the order of the output rests on when every write is complete. -/
def orderedStep (state : State Cell) (action : Action Cell) : Bool :=
  everyWriteComplete state action && spillAfterRing state action

/-- In every run with complete writes whose spill is read with the ring empty, the
output is a prefix of the accepted pushes. -/
theorem output_in_order (geometry : Geometry) (buffer : Nat → Cell)
    (schedule : List (Action Cell)) (last : State Cell)
    (h : Machine.run (Machine.guarded orderedStep (step geometry)) (initial buffer)
      schedule = some last) : PrefixKept last := by
  obtain ⟨events, matched⟩ := Machine.run_simulation (view geometry)
    (fun state => Inv geometry state ∧ Unfailed state)
    (fun state action next inv taken => by
      obtain ⟨allowed, taken⟩ := Machine.guarded_eq_some.mp taken
      simp only [orderedStep, Bool.and_eq_true] at allowed
      obtain ⟨complete, ordered⟩ := allowed
      obtain ⟨kept, events⟩ :=
        step_matched inv.1 (exactStep_of_unfailed inv.2 ordered) taken
      exact ⟨⟨kept, step_unfailed inv.2 complete taken⟩, events⟩)
    ⟨initial_inv buffer, rfl, rfl⟩ h
  exact prefix_of_events (initial_conserved buffer) matched

def pageWritten : Io := ⟨0, 4096, false, true⟩

/-- The writer has found the ring empty when a byte goes into the ring and a page
into the spill; the writer goes on to the spill. -/
def overtaken : List (Action UInt8) :=
  List.replicate 2 (.write pageWritten) ++ .push [1] :: List.replicate 4 (.produce true) ++
    .push (List.replicate 4096 2) :: List.replicate 5 (.produce true) ++
    List.replicate 3 (.write pageWritten)

theorem output_overtaken :
    ¬∀ (geometry : Geometry) (schedule : List (Action UInt8)) (last : State UInt8),
      Machine.run (Machine.guarded everyWriteComplete (step geometry))
        (initial fun _ => 0) schedule = some last → PrefixKept last := by
  intro claim
  have outcome : (Machine.run (Machine.guarded everyWriteComplete (step page))
      (initial fun _ => 0) overtaken).map
        (fun last => (last.file.head?, last.accepted.flatten.head?)) =
          some (some 2, some 1) := by decide +kernel
  obtain ⟨last, reached, fields⟩ := Option.map_eq_some_iff.mp outcome
  obtain ⟨file, accepted⟩ := Prod.mk.inj fields
  obtain ⟨rest, whole⟩ := claim page overtaken last reached
  rw [← whole, List.head?_append, file, Option.some_or] at accepted
  exact absurd (Option.some.inj accepted) (by decide)

/-- A page fills the ring, a byte is spilled behind it, and both are written. -/
def spilledInOrder : List (Action UInt8) :=
  .push (List.replicate 4096 1) :: List.replicate 4 (.produce true) ++
    .push [2] :: List.replicate 5 (.produce true) ++
    List.replicate 9 (.write pageWritten) ++ [.write ⟨0, 1, false, true⟩]

theorem output_in_order_page : ∃ last,
    Machine.run (Machine.guarded orderedStep (step page)) (initial fun _ => 0)
      spilledInOrder = some last ∧ PrefixKept last := by
  have possible : (Machine.run (Machine.guarded orderedStep (step page))
      (initial fun _ => 0) spilledInOrder).isSome := by decide +kernel
  obtain ⟨last, reached⟩ := Option.isSome_iff_exists.mp possible
  exact ⟨last, reached, output_in_order page _ spilledInOrder last reached⟩

end MisrcGui.Record.DirectStream
