import Mathlib.Tactic.Spread
import MisrcGui.Library.Machine

/-! The main conversion loop of the command line capture, `misrc_capture.c`, with its two output
writers and a signal that sets `do_exit`. Each read of `do_exit`, attempt on a ring and commit
is a step. A cell stands for `BUFFER_READ_SIZE` bytes of an output ring: all sizes
in use are multiples of it. -/
namespace MisrcGui.Cli
open Library

def bufferReadSize : Nat := 65536 * 32

/-- `BUFFER_TOTAL_SIZE`, in cells. -/
def ringCells : Nat := 256 * 1024 * 1024 / bufferReadSize

inductive Channel where
  | a
  | b
deriving DecidableEq

inductive MainLoop where
  | top
  | readCapture
  | reserve (channel : Channel)
  | retry
  | testing
  | converting
  | committing (channel : Channel)
  | counting
  | finished
deriving DecidableEq

/-- The loop that `raw_file_writer` and `flac_file_writer` share. -/
inductive FileWriter where
  | waiting
  | retry
  | testing
  | measuring
  | granting
  | writing
  | releasing
  | finished
deriving DecidableEq

/-- An output with its ring, its writer and its file. `block` is what the conversion has put into
the reserved part of the ring; `counted` is ghost, the blocks in `total_samples`. -/
structure Output (Cell : Type) where
  enabled : Bool
  ring : List Cell
  writer : FileWriter
  len : Nat
  file : List Cell
  block : List Cell
  counted : List Cell

structure State (Cell : Type) where
  doExit : Bool
  main : MainLoop
  output : Channel → Output Cell
  totalSamples : Nat

variable {Cell : Type}

def initial (enabled : Channel → Bool) : State Cell :=
  ⟨false, .top, fun channel => ⟨enabled channel, [], .waiting, 1, [], [], []⟩, 0⟩

/-- The main loop takes a block from the capture ring, or finds none, and converts it. -/
inductive Action (Cell : Type) where
  | signal
  | main (available : Bool) (block : Channel → List Cell)
  | writer (channel : Channel)

/-- `rb_write_finished`; a commit that does not fit is refused, and nobody looks. -/
def Output.commit (outSize : Nat) (output : Output Cell) : Output Cell :=
  if output.enabled && decide (output.ring.length + outSize ≤ ringCells) then
    { output with ring := output.ring ++ output.block }
  else output

/-- The main loop; `outSize` is 2 or 4, and `limit` the samples after which it stops by itself. -/
def mainStep (outSize limit : Nat) (state : State Cell) (available : Bool)
    (block : Channel → List Cell) : Option (State Cell) :=
  match state.main with
  | .top => some { state with main := if state.doExit then .finished else .readCapture }
  | .readCapture => some { state with main := if available then .reserve .a else .retry }
  | .reserve channel =>
    let output := state.output channel
    if output.enabled && decide (output.ring.length + outSize > ringCells) then
      some { state with main := .retry }
    else some { state with main := if channel = .a then .reserve .b else .testing }
  | .retry => some { state with main := if state.doExit then .testing else .readCapture }
  | .testing => some { state with main := if state.doExit then .finished else .converting }
  | .converting =>
    if (block .a).length = outSize ∧ (block .b).length = outSize then
      some { state with
        output := fun channel => { state.output channel with block := block channel }
        main := .committing .a }
    else none
  | .committing channel =>
    some { state with
      output := Function.update state.output channel ((state.output channel).commit outSize)
      main := if channel = .a then .committing .b else .counting }
  | .counting =>
    let total := state.totalSamples + bufferReadSize
    some { state with
      output := fun channel =>
        { state.output channel with
          counted := (state.output channel).counted ++ (state.output channel).block }
      totalSamples := total
      doExit := state.doExit || decide (total ≥ limit ∧ limit ≠ 0)
      main := .top }
  | .finished => none

/-- A writer with `do_exit` as it finds it. -/
def writerStep (doExit : Bool) (output : Output Cell) : Option (Output Cell) :=
  match output.writer with
  | .waiting =>
    some { output with writer := if output.len ≤ output.ring.length then .testing else .retry }
  | .retry => some { output with writer := if doExit then .testing else .waiting }
  | .testing => some { output with writer := if doExit then .measuring else .writing }
  | .measuring =>
    some { output with
      len := output.ring.length
      writer := if output.ring.length = 0 then .finished else .granting }
  | .granting =>
    if output.len ≤ output.ring.length then some { output with writer := .writing } else none
  | .writing =>
    some { output with
      file := output.file ++ output.ring.take output.len
      writer := .releasing }
  | .releasing =>
    some { output with
      ring := if output.ring.length < output.len then output.ring
        else output.ring.drop output.len
      writer := .waiting }
  | .finished => none

def step (outSize limit : Nat) (state : State Cell) : Action Cell → Option (State Cell)
  | .signal => some { state with doExit := true }
  | .main available block => mainStep outSize limit state available block
  | .writer channel =>
    if (state.output channel).enabled then
      (writerStep state.doExit (state.output channel)).map fun output =>
        { state with output := Function.update state.output channel output }
    else none

/-- The loop has passed its last look at `do_exit` for this block and has yet to commit it. -/
def MainLoop.owes : MainLoop → Channel → Bool
  | .converting, _ => true
  | .committing .a, _ => true
  | .committing .b, channel => decide (channel = .b)
  | _, _ => false

/-- No writer takes its ring for drained while the loop has yet to commit a block to it. -/
def exitsDrained (state : State Cell) : Action Cell → Bool
  | .writer channel =>
    !(decide ((state.output channel).writer = .measuring) &&
      (state.output channel).ring.isEmpty && state.main.owes channel)
  | _ => true

def MainLoop.holds : MainLoop → Channel → Bool
  | .committing .b, channel => decide (channel = .a)
  | .counting, _ => true
  | _, _ => false

def MainLoop.reserved : MainLoop → Channel → Bool
  | .reserve .b, channel => decide (channel = .a)
  | .testing, _ => true
  | _, _ => false

def MainLoop.converted : MainLoop → Bool
  | .committing _ | .counting => true
  | _ => false

def Output.unread (output : Output Cell) : List Cell :=
  if output.writer = .releasing then output.ring.drop output.len else output.ring

def Output.fits (outSize : Nat) (output : Output Cell) : Prop :=
  output.ring.length + outSize ≤ ringCells

structure OutputInv (outSize : Nat) (doExit : Bool) (main : MainLoop) (channel : Channel)
    (output : Output Cell) : Prop where
  kept : output.file ++ output.unread =
    output.counted ++ if main.holds channel then output.block else []
  granted : output.writer = .writing ∨ output.writer = .releasing →
    output.len ≤ output.ring.length
  tested : output.writer = .testing → doExit = true ∨ output.len ≤ output.ring.length
  leaving : output.writer = .measuring → doExit = true
  reserved : main.reserved channel = true → doExit = true ∨ output.fits outSize
  owed : main.owes channel = true → output.fits outSize
  exited : output.writer = .finished →
    doExit = true ∧ output.ring = [] ∧ main.owes channel = false

structure Inv (outSize : Nat) (state : State Cell) : Prop where
  outputs : ∀ channel, (state.output channel).enabled = true →
    OutputInv outSize state.doExit state.main channel (state.output channel)
  counted : ∀ channel,
    bufferReadSize * (state.output channel).counted.length = outSize * state.totalSamples
  sized : state.main.converted = true → ∀ channel,
    (state.output channel).block.length = outSize

variable {outSize limit : Nat} {state next : State Cell}

theorem initial_inv (enabled : Channel → Bool) :
    Inv outSize (initial enabled : State Cell) where
  outputs := fun _ _ =>
    ⟨rfl, by simp [initial], by simp [initial], by simp [initial],
      by simp [initial, MainLoop.reserved],
      by simp [initial, MainLoop.owes], by simp [initial]⟩
  counted := fun _ => by simp [initial]
  sized := fun filled => absurd filled Bool.false_ne_true

section OutputSteps
variable {doExit : Bool} {main : MainLoop} {channel : Channel} {output after : Output Cell}

theorem OutputInv.move (inv : OutputInv outSize doExit main channel output) {later : MainLoop}
    (holds : later.holds channel = main.holds channel)
    (reserved : later.reserved channel = true → doExit = true ∨ output.fits outSize)
    (owed : later.owes channel = true → output.fits outSize)
    (staying : later.owes channel = true → doExit = true → main.owes channel = true) :
    OutputInv outSize doExit later channel output where
  kept := by
    rw [holds]
    exact inv.kept
  __ := inv
  reserved := reserved
  owed := owed
  exited := fun finished => by
    obtain ⟨exit, empty, paid⟩ := inv.exited finished
    refine ⟨exit, empty, ?_⟩
    by_contra owes
    rw [Bool.not_eq_false] at owes
    exact Bool.false_ne_true (paid.symm.trans (staying owes exit))

theorem OutputInv.signal (inv : OutputInv outSize doExit main channel output) :
    OutputInv outSize true main channel output where
  __ := inv
  tested := fun _ => Or.inl rfl
  leaving := fun _ => rfl
  reserved := fun _ => Or.inl rfl
  exited := fun finished => ⟨rfl, (inv.exited finished).2⟩

theorem OutputInv.turn (inv : OutputInv outSize doExit main channel output) {writer : FileWriter}
    {len : Nat} (before : output.writer ≠ .releasing)
    (granted : writer = .writing → len ≤ output.ring.length) (after : writer ≠ .releasing)
    (tested : writer = .testing → doExit = true ∨ len ≤ output.ring.length)
    (leaving : writer = .measuring → doExit = true)
    (exited : writer = .finished →
      doExit = true ∧ output.ring = [] ∧ main.owes channel = false) :
    OutputInv outSize doExit main channel { output with writer, len } where
  kept := by
    have kept := inv.kept
    simp only [Output.unread, if_neg before] at kept
    simp only [Output.unread, if_neg after]
    exact kept
  granted := fun either => either.elim granted fun releasing => absurd releasing after
  tested := tested
  leaving := leaving
  __ := inv
  exited := exited

theorem OutputInv.writer (inv : OutputInv outSize doExit main channel output)
    (drained : output.writer = .measuring → output.ring = [] → main.owes channel = false)
    (h : writerStep doExit output = some after) :
    OutputInv outSize doExit main channel after := by
  have fewer (count : Nat) : (output.ring.drop count).length ≤ output.ring.length := by
    rw [List.length_drop]
    exact Nat.sub_le _ _
  have still {writer : FileWriter} (phase : output.writer = writer)
      (other : writer ≠ .releasing) : output.writer ≠ .releasing := phase ▸ other
  cases phase : output.writer with
  | waiting =>
    simp only [writerStep, phase] at h
    split at h
    · next room =>
      cases h
      exact inv.turn (still phase nofun) nofun nofun (fun _ => Or.inr room) nofun nofun
    · cases h
      exact inv.turn (still phase nofun) nofun nofun nofun nofun nofun
  | retry =>
    simp only [writerStep, phase] at h
    split at h
    · next exit =>
      cases h
      exact inv.turn (still phase nofun) nofun nofun (fun _ => Or.inl exit) nofun nofun
    · cases h
      exact inv.turn (still phase nofun) nofun nofun nofun nofun nofun
  | testing =>
    simp only [writerStep, phase] at h
    split at h
    · next exit =>
      cases h
      exact inv.turn (still phase nofun) nofun nofun nofun (fun _ => exit) nofun
    · next running =>
      cases h
      exact inv.turn (still phase nofun)
        (fun _ => (inv.tested phase).resolve_left running) nofun nofun nofun nofun
  | measuring =>
    simp only [writerStep, phase] at h
    split at h
    · next none =>
      cases h
      have empty := List.length_eq_zero_iff.mp none
      exact inv.turn (still phase nofun) nofun nofun nofun nofun
        (fun _ => ⟨inv.leaving phase, empty, drained phase empty⟩)
    · cases h
      exact inv.turn (still phase nofun) nofun nofun nofun nofun nofun
  | granting =>
    simp only [writerStep, phase] at h
    split at h
    · next room =>
      cases h
      exact inv.turn (still phase nofun) (fun _ => room) nofun nofun nofun nofun
    · contradiction
  | writing =>
    simp only [writerStep, phase, Option.some.injEq] at h
    subst h
    have kept := inv.kept
    simp only [Output.unread, phase] at kept
    refine ⟨?_, fun _ => inv.granted (Or.inl phase), nofun, nofun, inv.reserved, inv.owed, nofun⟩
    simp only [Output.unread, if_true, List.append_assoc, List.take_append_drop]
    exact kept
  | releasing =>
    simp only [writerStep, phase, Option.some.injEq] at h
    have held := inv.granted (Or.inr phase)
    rw [if_neg (Nat.not_lt.mpr held)] at h
    subst h
    have kept := inv.kept
    simp only [Output.unread, phase, if_true] at kept
    have shorter := fewer output.len
    refine ⟨kept, nofun, nofun, nofun, fun reserved => ?_, fun owed => ?_, nofun⟩
    · refine (inv.reserved reserved).imp_right fun fits => ?_
      unfold Output.fits at fits ⊢
      dsimp only
      omega
    · have fits := inv.owed owed
      unfold Output.fits at fits ⊢
      dsimp only
      omega
  | finished =>
    simp only [writerStep, phase] at h
    contradiction

theorem writerStep_keeps (h : writerStep doExit output = some after) :
    after.counted = output.counted ∧ after.block = output.block := by
  cases phase : output.writer with
  | granting =>
    simp only [writerStep, phase] at h
    split at h
    · cases h
      exact ⟨rfl, rfl⟩
    · contradiction
  | finished =>
    simp only [writerStep, phase] at h
    contradiction
  | _ =>
    simp only [writerStep, phase, Option.some.injEq] at h
    subst h
    exact ⟨rfl, rfl⟩

theorem OutputInv.commit (inv : OutputInv outSize doExit main channel output)
    (enabled : output.enabled = true) (owes : main.owes channel = true) {later : MainLoop}
    (before : main.holds channel = false) (holds : later.holds channel = true)
    (unreserved : later.reserved channel = false) (paid : later.owes channel = false) :
    OutputInv outSize doExit later channel (output.commit outSize) := by
  have fits := inv.owed owes
  have shape : output.commit outSize = { output with ring := output.ring ++ output.block } := by
    unfold Output.commit
    unfold Output.fits at fits
    rw [enabled, decide_eq_true fits, Bool.and_self, if_pos rfl]
  have more : output.ring.length ≤ (output.ring ++ output.block).length := by
    rw [List.length_append]
    exact Nat.le_add_right _ _
  rw [shape]
  refine ⟨?_, ?_, ?_, inv.leaving, ?_, ?_, ?_⟩
  · have kept := inv.kept
    rw [before, if_neg Bool.false_ne_true, List.append_nil] at kept
    rw [holds, if_pos rfl, ← kept, List.append_assoc]
    congr 1
    by_cases releasing : output.writer = .releasing
    · have held := inv.granted (Or.inr releasing)
      simp only [Output.unread, releasing, if_true]
      rw [List.drop_append_of_le_length held]
    · simp only [Output.unread, if_neg releasing]
  · exact fun writing => Nat.le_trans (inv.granted writing) more
  · exact fun testing => (inv.tested testing).imp_right fun room => Nat.le_trans room more
  · intro reserved
    exact absurd (reserved.symm.trans unreserved) Bool.false_ne_true.symm
  · intro owed
    exact absurd (owed.symm.trans paid) Bool.false_ne_true.symm
  · intro finished
    exact absurd ((inv.exited finished).2.2.symm.trans owes) Bool.false_ne_true

theorem OutputInv.count (inv : OutputInv outSize doExit .counting channel output) :
    OutputInv outSize doExit .top channel
      { output with counted := output.counted ++ output.block } where
  kept := by
    have kept := inv.kept
    rw [show MainLoop.holds .counting channel = true from rfl, if_pos rfl] at kept
    rw [show MainLoop.holds .top channel = false from rfl, if_neg Bool.false_ne_true,
      List.append_nil]
    exact kept
  __ := inv
  reserved := nofun
  owed := nofun

/-- Setting `do_exit` again changes nothing. -/
theorem OutputInv.or (inv : OutputInv outSize doExit main channel output) (full : Bool) :
    OutputInv outSize (doExit || full) main channel output := by
  cases full with
  | true =>
    rw [Bool.or_true]
    exact inv.signal
  | false =>
    rw [Bool.or_false]
    exact inv

theorem Output.commit_keeps (outSize : Nat) (output : Output Cell) :
    (output.commit outSize).enabled = output.enabled ∧
      (output.commit outSize).counted = output.counted ∧
      (output.commit outSize).block = output.block := by
  unfold Output.commit
  split
  · exact ⟨rfl, rfl, rfl⟩
  · exact ⟨rfl, rfl, rfl⟩

end OutputSteps

theorem Inv.move (inv : Inv outSize state) {later : MainLoop}
    (outputs : ∀ channel, (state.output channel).enabled = true →
      OutputInv outSize state.doExit later channel (state.output channel))
    (sized : later.converted = true → state.main.converted = true) :
    Inv outSize { state with main := later } where
  outputs := outputs
  counted := inv.counted
  sized := fun converted => inv.sized (sized converted)

theorem mainStep_inv (inv : Inv outSize state) {available : Bool} {block : Channel → List Cell}
    (h : mainStep outSize limit state available block = some next) : Inv outSize next := by
  have outputs := inv.outputs
  cases phase : state.main with
  | top | readCapture =>
    rw [phase] at outputs
    simp only [mainStep, phase] at h
    split at h
    · cases h
      exact inv.move (fun channel enabled => (outputs channel enabled).move rfl nofun nofun nofun)
        nofun
    · cases h
      exact inv.move (fun channel enabled => (outputs channel enabled).move rfl nofun nofun nofun)
        nofun
  | reserve here =>
    rw [phase] at outputs
    simp only [mainStep, phase] at h
    split at h
    · cases h
      refine inv.move (fun channel enabled => ?_) nofun
      exact (outputs channel enabled).move (by cases here <;> rfl) nofun nofun nofun
    · next room =>
      cases h
      have found (enabled : (state.output here).enabled = true) :
          (state.output here).fits outSize := by
        rw [enabled, Bool.true_and, decide_eq_true_eq] at room
        exact Nat.not_lt.mp room
      cases here with
      | a =>
        refine inv.move (fun channel enabled => ?_) nofun
        refine (outputs channel enabled).move rfl (fun reserved => Or.inr ?_) nofun nofun
        have same : channel = .a := of_decide_eq_true reserved
        subst same
        exact found enabled
      | b =>
        refine inv.move (fun channel enabled => ?_) nofun
        refine (outputs channel enabled).move rfl (fun _ => ?_) nofun nofun
        cases channel with
        | a => exact (outputs .a enabled).reserved rfl
        | b => exact Or.inr (found enabled)
  | retry =>
    rw [phase] at outputs
    simp only [mainStep, phase] at h
    split at h
    · next exit =>
      cases h
      exact inv.move (fun channel enabled =>
        (outputs channel enabled).move rfl (fun _ => Or.inl exit) nofun nofun) nofun
    · cases h
      exact inv.move (fun channel enabled => (outputs channel enabled).move rfl nofun nofun nofun)
        nofun
  | testing =>
    rw [phase] at outputs
    simp only [mainStep, phase] at h
    split at h
    · cases h
      exact inv.move (fun channel enabled => (outputs channel enabled).move rfl nofun nofun nofun)
        nofun
    · next running =>
      cases h
      refine inv.move (fun channel enabled => ?_) nofun
      refine (outputs channel enabled).move rfl nofun (fun _ => ?_) fun _ exit => ?_
      · exact ((outputs channel enabled).reserved rfl).resolve_left running
      · exact absurd exit running
  | converting =>
    rw [phase] at outputs
    simp only [mainStep, phase] at h
    split at h
    · next lengths =>
      cases h
      refine ⟨fun channel enabled => ?_, inv.counted, fun _ channel => ?_⟩
      · have converted := outputs channel enabled
        exact { converted with
          reserved := nofun
          owed := fun _ => converted.owed rfl
          exited := fun finished =>
            absurd (converted.exited finished).2.2 Bool.false_ne_true.symm }
      · cases channel with
        | a => exact lengths.1
        | b => exact lengths.2
    · contradiction
  | committing here =>
    rw [phase] at outputs
    simp only [mainStep, phase] at h
    cases h
    have sized := inv.sized (by rw [phase]; rfl)
    refine ⟨fun channel enabled => ?_, fun channel => ?_, fun _ channel => ?_⟩
    · dsimp only at enabled ⊢
      by_cases same : channel = here
      · subst same
        rw [Function.update_self] at enabled ⊢
        rw [(Output.commit_keeps outSize _).1] at enabled
        cases channel with
        | a => exact (outputs .a enabled).commit enabled rfl rfl rfl rfl rfl
        | b => exact (outputs .b enabled).commit enabled rfl rfl rfl rfl rfl
      · rw [Function.update_of_ne same] at enabled ⊢
        have other := outputs channel enabled
        cases here with
        | a =>
          refine other.move ?_ nofun (fun _ => other.owed rfl) fun _ _ => rfl
          cases channel with
          | a => exact absurd rfl same
          | b => rfl
        | b =>
          refine other.move ?_ nofun nofun nofun
          cases channel with
          | a => rfl
          | b => exact absurd rfl same
    · dsimp only
      by_cases same : channel = here
      · subst same
        rw [Function.update_self, (Output.commit_keeps outSize _).2.1]
        exact inv.counted channel
      · rw [Function.update_of_ne same]
        exact inv.counted channel
    · dsimp only
      by_cases same : channel = here
      · subst same
        rw [Function.update_self, (Output.commit_keeps outSize _).2.2]
        exact sized channel
      · rw [Function.update_of_ne same]
        exact sized channel
  | counting =>
    rw [phase] at outputs
    simp only [mainStep, phase] at h
    cases h
    have sized := inv.sized (by rw [phase]; rfl)
    refine ⟨fun channel enabled => ?_, fun channel => ?_, nofun⟩
    · exact (outputs channel enabled).count.or _
    · dsimp only
      rw [List.length_append, sized channel, Nat.mul_add, Nat.mul_add, inv.counted channel,
        Nat.mul_comm bufferReadSize outSize]
  | finished =>
    simp only [mainStep, phase] at h
    contradiction

theorem step_inv (inv : Inv outSize state) {action : Action Cell}
    (drained : exitsDrained state action = true)
    (h : step outSize limit state action = some next) : Inv outSize next := by
  cases action with
  | signal =>
    cases h
    exact ⟨fun channel enabled => (inv.outputs channel enabled).signal, inv.counted, inv.sized⟩
  | main available block => exact mainStep_inv inv h
  | writer here =>
    simp only [step] at h
    split at h
    · next enabled =>
      obtain ⟨output, written, rfl⟩ := Option.map_eq_some_iff.mp h
      have turned := (inv.outputs here enabled).writer ?_ written
      · have keeps := writerStep_keeps written
        refine ⟨fun channel enabled => ?_, fun channel => ?_, fun converted channel => ?_⟩
        · dsimp only at enabled ⊢
          by_cases same : channel = here
          · subst same
            rw [Function.update_self]
            exact turned
          · rw [Function.update_of_ne same] at enabled ⊢
            exact inv.outputs channel enabled
        · dsimp only
          by_cases same : channel = here
          · subst same
            rw [Function.update_self, keeps.1]
            exact inv.counted channel
          · rw [Function.update_of_ne same]
            exact inv.counted channel
        · dsimp only
          by_cases same : channel = here
          · subst same
            rw [Function.update_self, keeps.2]
            exact inv.sized converted channel
          · rw [Function.update_of_ne same]
            exact inv.sized converted channel
      · intro measuring empty
        simpa [exitsDrained, measuring, empty] using drained
    · contradiction

theorem run_inv {enabled : Channel → Bool} {schedule : List (Action Cell)} {last : State Cell}
    (h : Machine.run (Machine.guarded exitsDrained (step outSize limit)) (initial enabled)
      schedule = some last) : Inv outSize last :=
  Machine.run_invariant (Inv outSize)
    (fun _ _ _ kept taken => step_inv kept (Machine.guarded_eq_some.mp taken).1
      (Machine.guarded_eq_some.mp taken).2) (initial_inv enabled) h

/-- What has arrived when a writer has returned; only the block between its commit and its count
is not in `total_samples`. -/
theorem Inv.written (inv : Inv outSize state) {channel : Channel}
    (enabled : (state.output channel).enabled = true)
    (finished : (state.output channel).writer = .finished) :
    (state.output channel).file = (state.output channel).counted ++
      if state.main.holds channel then (state.output channel).block else [] := by
  have output := inv.outputs channel enabled
  have unread : (state.output channel).unread = [] := by
    rw [Output.unread, finished, if_neg nofun, (output.exited finished).2.1]
  rw [← output.kept, unread, List.append_nil]

theorem Inv.length (inv : Inv outSize state) (ended : state.main = .finished)
    {channel : Channel} (enabled : (state.output channel).enabled = true)
    (finished : (state.output channel).writer = .finished) :
    (state.output channel).file = (state.output channel).counted ∧
      bufferReadSize * (state.output channel).file.length = outSize * state.totalSamples := by
  have written := inv.written enabled finished
  rw [ended, show MainLoop.holds .finished channel = false from rfl, if_neg Bool.false_ne_true,
    List.append_nil] at written
  refine ⟨written, ?_⟩
  rw [written]
  exact inv.counted channel

/-- In every run in which no writer takes its ring for drained while the loop has yet to commit a
block to it: a writer that has returned has written the blocks in `total_samples`, in order, and
a block that the loop is about to count. When the loop has ended as well the file is exactly
those blocks, and two outputs are of one length. -/
theorem stop_keeps_counted {enabled : Channel → Bool} {schedule : List (Action Cell)}
    {last : State Cell}
    (h : Machine.run (Machine.guarded exitsDrained (step outSize limit)) (initial enabled)
      schedule = some last) :
    (∀ channel, (last.output channel).enabled = true →
        (last.output channel).writer = .finished →
        (last.output channel).file = (last.output channel).counted ++
          if last.main.holds channel then (last.output channel).block else []) ∧
      (last.main = .finished → ∀ channel, (last.output channel).enabled = true →
        (last.output channel).writer = .finished →
        (last.output channel).file = (last.output channel).counted ∧
          bufferReadSize * (last.output channel).file.length = outSize * last.totalSamples) ∧
      (last.main = .finished → (∀ channel, (last.output channel).enabled = true ∧
          (last.output channel).writer = .finished) →
        (last.output .a).file.length = (last.output .b).file.length) := by
  have inv := run_inv h
  refine ⟨fun channel enabled finished => inv.written enabled finished,
    fun ended channel enabled finished => inv.length ended enabled finished,
    fun ended both => ?_⟩
  have lengthA := (inv.length ended (both .a).1 (both .a).2).2
  have lengthB := (inv.length ended (both .b).1 (both .b).2).2
  exact Nat.eq_of_mul_eq_mul_left (by decide : 0 < bufferReadSize) (lengthA.trans lengthB.symm)

/-- A turn of the main loop with a block of two cells for each output, up to its commits. -/
def accepts : List (Action Nat) := List.replicate 5 (.main true fun _ => [])

def commits : List (Action Nat) :=
  .main true (fun | .a => [1, 2] | .b => [3, 4]) ::
    List.replicate 4 (.main true fun _ => [])

def drains (channel : Channel) (steps : Nat) : List (Action Nat) :=
  List.replicate steps (.writer channel)

def bothEnded (state : State Nat) : Bool :=
  decide (state.main = .finished) && decide ((state.output .a).writer = .finished) &&
    decide ((state.output .b).writer = .finished)

/-- The signal comes when the block has been committed. -/
theorem stop_keeps_counted_block :
    ∃ last, Machine.run (Machine.guarded exitsDrained (step 2 0)) (initial fun _ => true)
        (accepts ++ commits.take 4 ++ [.signal] ++ commits.drop 4 ++ drains .a 10 ++
          drains .b 10) = some last ∧
      last.totalSamples = bufferReadSize ∧
      (last.output .a).file = (last.output .a).counted := by
  have runs : (Machine.run (Machine.guarded exitsDrained (step 2 0)) (initial fun _ => true)
      (accepts ++ commits.take 4 ++ [.signal] ++ commits.drop 4 ++ drains .a 10 ++
        drains .b 10)).any (fun last =>
          bothEnded last && (last.output .a).enabled && last.totalSamples == bufferReadSize) =
            true := by
    decide +kernel
  obtain ⟨last, h, facts⟩ := (Option.any_eq_true _ _).mp runs
  simp only [bothEnded, Bool.and_eq_true, decide_eq_true_eq, beq_iff_eq] at facts
  exact ⟨last, h, facts.2,
    ((stop_keeps_counted h).2.1 facts.1.1.1.1 .a facts.1.2 facts.1.1.1.2).1⟩

/-- The signal and the end of writer A come between the loop's last look at `do_exit` and its
commits: A gets nothing of the block that B gets and `total_samples` counts. -/
theorem counted_block_lost :
    ∃ last, Machine.run (step 2 0) (initial fun _ => true)
        (accepts ++ [.signal] ++ drains .a 4 ++ commits ++ drains .b 10) = some last ∧
      bothEnded last = true ∧ last.totalSamples = bufferReadSize ∧
      (last.output .a).file = [] ∧ (last.output .a).counted = [1, 2] ∧
      (last.output .b).file = [3, 4] := by
  have runs : (Machine.run (step 2 0) (initial fun _ => true)
      (accepts ++ [.signal] ++ drains .a 4 ++ commits ++ drains .b 10)).any (fun last =>
        bothEnded last && last.totalSamples == bufferReadSize &&
          (last.output .a).file == [] && (last.output .a).counted == [1, 2] &&
            (last.output .b).file == [3, 4]) = true := by
    decide +kernel
  obtain ⟨last, h, facts⟩ := (Option.any_eq_true _ _).mp runs
  simp only [Bool.and_eq_true, beq_iff_eq] at facts
  exact ⟨last, h, facts.1.1.1.1, facts.1.1.1.2, facts.1.1.2, facts.1.2, facts.2⟩

end MisrcGui.Cli
