import MisrcGui.Library.Machine
import MisrcGui.Ring.Refinement

/-! `rb_writer_run` of `ringbuffer_writer.c` beside a producer. Each load of the exit
flag, read attempt, sample of the fill level and release is a step. -/
namespace MisrcGui.Ring.FileWriter
open Library

variable {Cell : Type}

inductive Producer (Cell : Type) where
  | idle
  | filled (data : List Cell)

/-- The next statement of `rb_writer_run`. `final` marks the remainder. -/
inductive Writer where
  | readBlock
  | shouldExit
  | sampleRemaining
  | readRemaining (remaining : Nat)
  | write (pointer size : Nat) (final : Bool)
  | readFinished (size : Nat) (final : Bool)
  | returned
deriving DecidableEq

/-- `committed` is ghost. -/
structure State (Cell : Type) where
  ring : RingBuffer Cell
  producer : Producer Cell
  exitFlag : Bool
  writer : Writer
  totalWritten : Nat
  file : List Cell
  committed : List Cell

/-- What `rb_init` leaves. -/
def initial (buffer : Nat → Cell) : State Cell where
  ring := ⟨buffer, 0, 0⟩
  producer := .idle
  exitFlag := false
  writer := .readBlock
  totalWritten := 0
  file := []
  committed := []

/-- `fill` is `rb_write_ptr` and the copy to it, `commit` is `rb_write_finished` of the first
bytes; `rb_put` is the two at once. -/
inductive Action (Cell : Type) where
  | fill (data : List Cell)
  | commit (count : Nat)
  | setExit
  | writer

def producerFill (geometry : Geometry) (state : State Cell) (data : List Cell) :
    Option (State Cell) :=
  match state.producer, rbWritePtr geometry state.ring data.length with
  | .idle, some pointer =>
    if state.exitFlag then none
    else some { state with
      ring := copyIn geometry state.ring pointer data
      producer := .filled data }
  | _, _ => none

def producerCommit (geometry : Geometry) (state : State Cell) (count : Nat) :
    Option (State Cell) :=
  match state.producer with
  | .idle => none
  | .filled data =>
    if count ≤ data.length then
      match rbWriteFinished geometry state.ring count with
      | some ring => some { state with
          ring
          producer := .idle
          committed := state.committed ++ data.take count }
      | none => some { state with producer := .idle }
    else none

def producerExit (state : State Cell) : Option (State Cell) :=
  match state.producer with
  | .idle => some { state with exitFlag := true }
  | .filled _ => none

/-- `read_size` is `len`. The two loads of the remainder are one step: the writer alone
moves the head. -/
def writerStep (geometry : Geometry) (len : Nat) (state : State Cell) : Option (State Cell) :=
  match state.writer with
  | .readBlock => match rbReadPtr geometry state.ring len with
    | some pointer => some { state with writer := .write pointer len false }
    | none => some { state with writer := .shouldExit }
  | .shouldExit =>
    some { state with writer := if state.exitFlag then .sampleRemaining else .readBlock }
  | .sampleRemaining =>
    let remaining := fillLevel state.ring
    some { state with
      writer := if 0 < remaining ∧ remaining < len then .readRemaining remaining else .returned }
  | .readRemaining remaining => match rbReadPtr geometry state.ring remaining with
    | some pointer => some { state with writer := .write pointer remaining true }
    | none => some { state with writer := .returned }
  | .write pointer size final => some { state with
      file := state.file ++ copyOut geometry state.ring pointer size
      totalWritten := state.totalWritten + size
      writer := .readFinished size final }
  | .readFinished size final => some { state with
      ring := bufmgrReadEnd geometry state.ring size
      writer := if final then .returned else .readBlock }
  | .returned => none

def step (geometry : Geometry) (len : Nat) (state : State Cell) : Action Cell → Option (State Cell)
  | .fill data => producerFill geometry state data
  | .commit count => producerCommit geometry state count
  | .setExit => producerExit state
  | .writer => writerStep geometry len state

def allowed (len : Nat) (state : State Cell) : Action Cell → Bool
  | .writer =>
    !(state.writer = .shouldExit && state.exitFlag && decide (len ≤ fillLevel state.ring))
  | _ => true

variable {geometry : Geometry} {len : Nat} {state next : State Cell} {buffer : Nat → Cell}

def unreleased : Writer → Nat
  | .readFinished size _ => size
  | _ => 0

def leaving : Writer → Bool
  | .sampleRemaining | .readRemaining _ | .write _ _ true | .readFinished _ true | .returned => true
  | _ => false

def Placed (len level head : Nat) : Writer → Prop
  | .readBlock => True
  | .shouldExit | .sampleRemaining => 0 < len
  | .readRemaining remaining => 0 < len ∧ remaining = level ∧ level < len
  | .write pointer size final => pointer = head ∧ size ≤ level ∧ (final → 0 < len ∧ size = level)
  | .readFinished size final => size ≤ level ∧ (final → 0 < len ∧ size = level)
  | .returned => 0 < len ∧ (level = 0 ∨ len ≤ level)

def Pending (geometry : Geometry) (ring : RingBuffer Cell) : Producer Cell → Prop
  | .idle => True
  | .filled data => (contents geometry ring).length + data.length ≤ geometry.size ∧
      copyOut geometry ring ring.tail data.length = data

structure Inv (geometry : Geometry) (len : Nat) (state : State Cell) : Prop where
  ring : WellFormed geometry state.ring
  pending : Pending geometry state.ring state.producer
  stopped : state.exitFlag → state.producer = .idle
  left : leaving state.writer → state.exitFlag
  placed : Placed len (contents geometry state.ring).length state.ring.head state.writer
  accounted : state.committed =
    state.file ++ (contents geometry state.ring).drop (unreleased state.writer)
  counted : state.totalWritten = state.file.length

theorem initial_inv : Inv geometry len (initial buffer) where
  ring := ⟨geometry.positive, le_rfl, Nat.zero_le _⟩
  pending := trivial
  stopped := nofun
  left := nofun
  placed := trivial
  accounted := rfl
  counted := rfl

def stranded (geometry : Geometry) (len : Nat) (state : State Cell) : Nat :=
  if (state.writer = .sampleRemaining ∨ state.writer = .returned) ∧
    len ≤ (contents geometry state.ring).length then 1 else 0

theorem stranded_other (sampling : state.writer ≠ .sampleRemaining)
    (returned : state.writer ≠ .returned) : stranded geometry len state = 0 := by
  refine if_neg fun there => ?_
  rcases there.1 with here | here
  · exact sampling here
  · exact returned here

theorem stranded_away (away : leaving state.writer = false) : stranded geometry len state = 0 := by
  apply stranded_other <;> intro here <;> rw [here] at away <;> contradiction

theorem Inv.running (inv : Inv geometry len state) (run : state.exitFlag = false) :
    leaving state.writer = false := by
  by_contra gone
  have set := inv.left (by simpa using gone)
  rw [run] at set
  contradiction

theorem Placed.grow {level more head : Nat} {writer : Writer}
    (placed : Placed len level head writer) (away : leaving writer = false) :
    Placed len (level + more) head writer := by
  cases writer with
  | readBlock | shouldExit => exact placed
  | write pointer size final =>
    cases final with
    | false => exact ⟨placed.1, placed.2.1.trans (Nat.le_add_right _ _), by simp⟩
    | true => contradiction
  | readFinished size final =>
    cases final with
    | false => exact ⟨placed.1.trans (Nat.le_add_right _ _), by simp⟩
    | true => contradiction
  | sampleRemaining | readRemaining | returned => contradiction

theorem Inv.unreleased_le (inv : Inv geometry len state) :
    unreleased state.writer ≤ (contents geometry state.ring).length := by
  have placed := inv.placed
  cases here : state.writer with
  | readFinished size final =>
    rw [here] at placed
    exact placed.1
  | _ => exact Nat.zero_le _

theorem fill_inv {data : List Cell} (inv : Inv geometry len state)
    (filled : producerFill geometry state data = some next) :
    Inv geometry len next ∧ next.writer = state.writer ∧ leaving state.writer = false := by
  rw [producerFill, inv.ring.rbWritePtr_eq] at filled
  split at filled
  · next pointer idle granted =>
    rw [Option.ite_none_right_eq_some, Option.some_inj] at granted
    obtain ⟨room, rfl⟩ := granted
    rw [Option.ite_none_left_eq_some, Option.some_inj, Bool.not_eq_true] at filled
    obtain ⟨run, rfl⟩ := filled
    have same := contents_copyIn inv.ring room
    refine ⟨⟨inv.ring.copyIn _ _, ⟨?_, ?_⟩, ?_, inv.left, ?_, ?_, inv.counted⟩, rfl,
      inv.running run⟩
    · rw [same]
      exact room
    · exact copyOut_copyIn ((Nat.le_add_left _ _).trans room)
    · intro set
      rw [run] at set
      contradiction
    · rw [same]
      exact inv.placed
    · rw [same]
      exact inv.accounted
  · contradiction

theorem commit_inv {count : Nat} (inv : Inv geometry len state)
    (committed : producerCommit geometry state count = some next) :
    Inv geometry len next ∧ next.writer = state.writer ∧ leaving state.writer = false := by
  rw [producerCommit] at committed
  split at committed
  · contradiction
  · next data filled =>
    have pending := inv.pending
    rw [filled] at pending
    have run : state.exitFlag = false := by
      by_contra set
      have idle := inv.stopped (by simpa using set)
      rw [filled] at idle
      contradiction
    have away := inv.running run
    rw [Option.ite_none_right_eq_some] at committed
    obtain ⟨within, committed⟩ := committed
    have room : (contents geometry state.ring).length + count ≤ geometry.size := by
      have := pending.1
      omega
    have appended := inv.ring.bufmgrWriteEnd room
    rw [inv.ring.bufmgrWriteEnd_eq room] at appended
    have begun : copyOut geometry state.ring state.ring.tail count = data.take count := by
      conv_rhs => rw [← pending.2]
      exact (Circular.slice_take within).symm
    rw [begun] at appended
    rw [Refinement.rbWriteFinished_eq inv.ring room] at committed
    cases committed
    refine ⟨⟨appended.1, trivial, fun _ => rfl, inv.left, ?_, ?_, inv.counted⟩, rfl, away⟩
    · dsimp only
      rw [appended.2, List.length_append]
      exact inv.placed.grow away
    · dsimp only
      rw [appended.2, List.drop_append_of_le_length inv.unreleased_le, inv.accounted,
        List.append_assoc]

theorem exit_inv (inv : Inv geometry len state) (taken : producerExit state = some next) :
    Inv geometry len next ∧ stranded geometry len next = stranded geometry len state := by
  rw [producerExit] at taken
  split at taken
  · next idle =>
    cases taken
    exact ⟨⟨inv.ring, inv.pending, fun _ => idle, fun _ => rfl, inv.placed, inv.accounted,
      inv.counted⟩, rfl⟩
  · contradiction

theorem Inv.move (inv : Inv geometry len state) (writer : Writer)
    (before : unreleased state.writer = 0) (after : unreleased writer = 0)
    (left : leaving writer → state.exitFlag)
    (placed : Placed len (contents geometry state.ring).length state.ring.head writer) :
    Inv geometry len { state with writer } := by
  refine ⟨inv.ring, inv.pending, inv.stopped, left, placed, ?_, inv.counted⟩
  dsimp only
  rw [after, inv.accounted, before]

theorem Pending.release {ring : RingBuffer Cell} {producer : Producer Cell} {size : Nat}
    (pending : Pending geometry ring producer) (valid : WellFormed geometry ring)
    (held : size ≤ (contents geometry ring).length) :
    Pending geometry (bufmgrReadEnd geometry ring size) producer := by
  cases producer with
  | idle => trivial
  | filled data =>
    obtain ⟨room, filled⟩ := pending
    obtain ⟨memory, tail, -⟩ := valid.bufmgrReadEnd_places held
    have fewer := (valid.bufmgrReadEnd held).2
    refine ⟨?_, ?_⟩
    · rw [fewer, List.length_drop]
      omega
    · rw [copyOut_congr _ tail, copyOut_memory memory]
      exact filled

theorem writer_inv (inv : Inv geometry len state)
    (taken : writerStep geometry len state = some next) :
    Inv geometry len next ∧ stranded geometry len next =
      stranded geometry len state + if allowed len state .writer then 0 else 1 := by
  have placed := inv.placed
  have level := inv.ring.fillLevel_eq
  have free (other : state.writer ≠ .shouldExit) : allowed len state .writer = true := by
    rw [allowed, decide_eq_false other]
    rfl
  rw [writerStep] at taken
  split at taken
  · next here =>
    rw [here] at placed
    have before : stranded geometry len state = 0 := stranded_away (by rw [here]; rfl)
    rw [free (by rw [here]; simp), before]
    rw [inv.ring.rbReadPtr_eq] at taken
    split at taken
    · next pointer granted =>
      cases taken
      rw [Option.ite_none_right_eq_some, Option.some_inj] at granted
      exact ⟨inv.move _ (by rw [here]; rfl) rfl (by rintro ⟨⟩) ⟨granted.2.symm, granted.1, by simp⟩,
        stranded_away rfl⟩
    · next refused =>
      cases taken
      have short : ¬len ≤ (contents geometry state.ring).length := fun enough => by
        rw [if_pos enough] at refused
        contradiction
      exact ⟨inv.move _ (by rw [here]; rfl) rfl (by rintro ⟨⟩) (show 0 < len by omega),
        stranded_away rfl⟩
  · next here =>
    rw [here] at placed
    cases taken
    have before : stranded geometry len state = 0 := stranded_away (by rw [here]; rfl)
    have price : allowed len state .writer =
        !(state.exitFlag && decide (len ≤ (contents geometry state.ring).length)) := by
      rw [allowed, here, level]
      rfl
    rw [before, price]
    by_cases set : state.exitFlag
    · rw [if_pos set]
      refine ⟨inv.move .sampleRemaining (by rw [here]; rfl) rfl (fun _ => set) placed, ?_⟩
      rw [stranded, set]
      by_cases whole : len ≤ (contents geometry state.ring).length
      · rw [if_pos ⟨.inl rfl, whole⟩, decide_eq_true whole]
        rfl
      · rw [if_neg fun both => whole both.2, decide_eq_false whole]
        rfl
    · rw [if_neg set]
      refine ⟨inv.move .readBlock (by rw [here]; rfl) rfl (by rintro ⟨⟩) trivial, ?_⟩
      rw [stranded_away rfl, Bool.eq_false_iff.mpr set]
      rfl
  · next here =>
    rw [here] at placed
    have set := inv.left (by rw [here]; rfl)
    rw [free (by rw [here]; simp), if_pos rfl, Nat.add_zero]
    cases taken
    rw [level]
    by_cases part : 0 < (contents geometry state.ring).length ∧
        (contents geometry state.ring).length < len
    · have before : stranded geometry len state = 0 :=
        if_neg fun there => absurd there.2 (Nat.not_le.mpr part.2)
      rw [if_pos part, before]
      exact ⟨inv.move _ (by rw [here]; rfl) rfl (fun _ => set) ⟨placed, rfl, part.2⟩,
        stranded_other (by simp) (by simp)⟩
    · rw [if_neg part]
      refine ⟨inv.move _ (by rw [here]; rfl) rfl (fun _ => set) ⟨placed, by omega⟩, ?_⟩
      simp only [stranded, here, true_or, or_true]
  · next remaining here =>
    rw [here] at placed
    obtain ⟨some, same, short⟩ := placed
    have set := inv.left (by rw [here]; rfl)
    have before : stranded geometry len state = 0 :=
      stranded_other (by rw [here]; simp) (by rw [here]; simp)
    rw [free (by rw [here]; simp), before]
    rw [inv.ring.rbReadPtr_eq, if_pos same.le] at taken
    cases taken
    exact ⟨inv.move _ (by rw [here]; rfl) rfl (fun _ => set) ⟨rfl, same.le, fun _ => ⟨some, same⟩⟩,
      stranded_other (by simp) (by simp)⟩
  · next pointer size final here =>
    rw [here] at placed
    obtain ⟨there, held, last⟩ := placed
    have before : stranded geometry len state = 0 :=
      stranded_other (by rw [here]; simp) (by rw [here]; simp)
    rw [free (by rw [here]; simp), before]
    cases taken
    have bytes : copyOut geometry state.ring pointer size =
        (contents geometry state.ring).take size := by
      rw [there]
      exact copyOut_head held
    have none : unreleased state.writer = 0 := by rw [here]; rfl
    have accounted := inv.accounted
    rw [none, List.drop_zero] at accounted
    refine ⟨⟨inv.ring, inv.pending, inv.stopped, ?_, ⟨held, last⟩, ?_, ?_⟩,
      stranded_other (by simp) (by simp)⟩
    · intro left
      refine inv.left ?_
      rw [here]
      cases final with
      | true => rfl
      | false => contradiction
    · dsimp only
      rw [bytes, unreleased, List.append_assoc, List.take_append_drop]
      exact accounted
    · dsimp only
      rw [bytes, List.length_append, List.length_take_of_le held, inv.counted]
  · next size final here =>
    rw [here] at placed
    obtain ⟨held, last⟩ := placed
    have before : stranded geometry len state = 0 :=
      stranded_other (by rw [here]; simp) (by rw [here]; simp)
    rw [free (by rw [here]; simp), before]
    cases taken
    obtain ⟨valid, rest⟩ := inv.ring.bufmgrReadEnd held
    have accounted := inv.accounted
    rw [here, unreleased, ← rest] at accounted
    cases final with
    | false =>
      exact ⟨⟨valid, inv.pending.release inv.ring held, inv.stopped, by rintro ⟨⟩, trivial,
        accounted, inv.counted⟩, stranded_away rfl⟩
    | true =>
      obtain ⟨some, whole⟩ := last rfl
      have nothing : (contents geometry (bufmgrReadEnd geometry state.ring size)).length = 0 := by
        rw [rest, List.length_drop, whole, Nat.sub_self]
      refine ⟨⟨valid, inv.pending.release inv.ring held, inv.stopped, ?_, ⟨some, .inl nothing⟩,
        accounted, inv.counted⟩, ?_⟩
      · intro _
        exact inv.left (by rw [here]; rfl)
      · exact if_neg fun there => by
          have enough := there.2
          dsimp only at enough
          omega
  · contradiction

theorem step_inv {action : Action Cell} (inv : Inv geometry len state)
    (taken : step geometry len state action = some next) :
    Inv geometry len next ∧ stranded geometry len next =
      stranded geometry len state + if allowed len state action then 0 else 1 := by
  cases action with
  | fill data =>
    obtain ⟨kept, writer, away⟩ := fill_inv inv taken
    rw [stranded_away away, stranded_away (writer ▸ away)]
    exact ⟨kept, rfl⟩
  | commit count =>
    obtain ⟨kept, writer, away⟩ := commit_inv inv taken
    rw [stranded_away away, stranded_away (writer ▸ away)]
    exact ⟨kept, rfl⟩
  | setExit => exact exit_inv inv taken
  | writer => exact writer_inv inv taken

/-- When `rb_writer_run` returns, the file has every committed byte in order exactly when
the writer never found the flag set with a whole block in the ring. -/
theorem writes_everything_iff (geometry : Geometry) (len : Nat) (buffer : Nat → Cell)
    (actions : List (Action Cell)) (last : State Cell)
    (ran : Machine.run (step geometry len) (initial buffer) actions = some last)
    (returned : last.writer = .returned) :
    last.file = last.committed ↔
      Machine.run (Machine.guarded (allowed len) (step geometry len)) (initial buffer) actions =
        some last := by
  have inv := Machine.run_invariant (Inv geometry len)
    (fun _ _ _ inv taken => (step_inv inv taken).1) initial_inv ran
  have free := (Machine.run_guarded_iff (Inv geometry len) (stranded geometry len)
    (fun _ _ _ inv taken => step_inv inv taken) initial_inv ran).2
  have start : stranded geometry len (initial buffer) = 0 := stranded_away rfl
  have accounted := inv.accounted
  have placed := inv.placed
  rw [returned] at accounted placed
  rw [free, start, accounted, stranded, List.self_eq_append_right, List.drop_eq_nil_iff]
  simp only [returned, or_true, true_and]
  obtain ⟨positive, level⟩ := placed
  change _ ≤ 0 ↔ _
  split <;> omega

def remainder : List (Action Nat) :=
  [.fill [7, 8, 9], .commit 3, .setExit] ++ List.replicate 9 .writer

theorem writes_everything_iff_remainder :
    ∃ last, Machine.run (step page 2) (initial fun _ => 0) remainder = some last ∧
      last.file = last.committed := by
  have some : ∃ last, Machine.run (Machine.guarded (allowed 2) (step page 2))
      (initial fun _ => 0) remainder = some last ∧ last.writer = .returned := by
    have ran : (Machine.run (Machine.guarded (allowed 2) (step page 2)) (initial fun _ => 0)
        remainder).map State.writer = some .returned := by decide +kernel
    exact Option.map_eq_some_iff.mp ran
  obtain ⟨last, ran, returned⟩ := some
  have plain := Machine.run_of_guarded ran
  exact ⟨last, plain, (writes_everything_iff page 2 (fun _ => 0) remainder last plain returned).mpr
    ran⟩

/-- A block is committed between the failed read and the load of the flag. -/
def lateBlock : List (Action Nat) := [.writer, .fill [7, 8], .commit 2, .setExit, .writer, .writer]

theorem late_block_lost :
    ¬∀ (geometry : Geometry) (len : Nat) (buffer : Nat → Nat) (actions : List (Action Nat))
      (last : State Nat), Machine.run (step geometry len) (initial buffer) actions = some last →
        last.writer = .returned → last.file = last.committed := by
  intro claim
  have ran : (Machine.run (step page 2) (initial fun _ => 0) lateBlock).map
      (fun last => (last.writer, last.file, last.committed)) = some (.returned, [], [7, 8]) := by
    decide +kernel
  obtain ⟨last, ran, seen⟩ := Option.map_eq_some_iff.mp ran
  simp only [Prod.mk.injEq] at seen
  have same := claim page 2 (fun _ => 0) lateBlock last ran seen.1
  rw [seen.2.1, seen.2.2] at same
  contradiction

end MisrcGui.Ring.FileWriter
