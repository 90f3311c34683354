import MisrcGui.Library.Machine
import MisrcGui.Ring.ReadBegin

/-! The byte counters of `buffer_manager.c` beside the ring that they count, over whole calls of
one producer and one consumer in any order, and resets between them. -/
namespace MisrcGui.Ring.Counters
open Library.Machine ReadBegin

variable {Cell : Type} (geometry : Geometry)

/-- A buffer with its `bytes_written` and `bytes_read`. The last three fields are not in the
code: what is left of the last grant on either side, and whether a reset has come since the
consumer got its own. -/
structure Manager (Cell : Type) where
  ring : RingBuffer Cell
  bytesWritten : Nat
  bytesRead : Nat
  writing : Nat
  reading : Nat
  stale : Bool

def bufmgrReset (manager : Manager Cell) : Manager Cell :=
  { manager with
    ring := { manager.ring with head := 0, tail := 0 }
    bytesWritten := 0
    bytesRead := 0 }

/-- The counter also moves when `rb_write_finished` refuses. -/
def bufmgrWriteEnd (manager : Manager Cell) (bytes : Nat) : Manager Cell :=
  { manager with
    ring := Ring.bufmgrWriteEnd geometry manager.ring bytes
    bytesWritten := (manager.bytesWritten + bytes) % wordSize }

/-- The counter also moves when `rb_read_finished` refuses. -/
def bufmgrReadEnd (manager : Manager Cell) (bytes : Nat) : Manager Cell :=
  { manager with
    ring := Ring.bufmgrReadEnd geometry manager.ring bytes
    bytesRead := (manager.bytesRead + bytes) % wordSize }

/-- A begin takes place at its last look at the ring; it is `expired` when it does not hand
out what it found there. -/
inductive Operation
  | writeBegin (bytes : Nat) (expired : Bool)
  | writeEnd (bytes : Nat)
  | readBegin (bytes : Nat) (expired : Bool)
  | readEnd (bytes : Nat)
  | reset

def granted (pointer : Option Nat) (bytes : Nat) (expired : Bool) : Nat :=
  if pointer.isSome && !expired then bytes else 0

/-- `none` where an end exceeds what is left of the grant of its begin. -/
def step (manager : Manager Cell) : Operation → Option (Manager Cell)
  | .writeBegin bytes expired =>
    some { manager with
      writing := granted (rbWritePtr geometry manager.ring bytes) bytes expired }
  | .writeEnd bytes =>
    if bytes ≤ manager.writing then
      some { bufmgrWriteEnd geometry manager bytes with writing := manager.writing - bytes }
    else none
  | .readBegin bytes expired =>
    some { manager with
      reading := granted (rbReadPtr geometry manager.ring bytes) bytes expired
      stale := false }
  | .readEnd bytes =>
    if bytes ≤ manager.reading then
      some { bufmgrReadEnd geometry manager bytes with reading := manager.reading - bytes }
    else none
  | .reset => some { bufmgrReset manager with stale := true }

/-- Behind `bufmgr_ensure_init`. -/
def initial (buffer : Nat → Cell) : Manager Cell := ⟨⟨buffer, 0, 0⟩, 0, 0, 0, 0, false⟩

/-- `bytes_written - bytes_read` is `bufmgr_fill_level`. -/
def Tracks (manager : Manager Cell) : Prop :=
  wordSub manager.bytesWritten manager.bytesRead = fillLevel manager.ring

/-- The consumer ends a read of bytes that a reset has taken out of the ring. -/
def ReleasesDiscarded (manager : Manager Cell) (operation : Operation) : Prop :=
  ∃ bytes ≤ manager.reading, operation = .readEnd bytes ∧ manager.stale = true ∧
    fillLevel manager.ring < bytes

/-- The counters track the ring behind every completed operation of a schedule. -/
def TracksThroughout (buffer : Nat → Cell) (schedule : List Operation) : Prop :=
  ∀ done, done <+: schedule → ∀ manager,
    run (step geometry) (initial buffer) done = some manager → Tracks manager

def NeverReleasesDiscarded (buffer : Nat → Cell) (schedule : List Operation) : Prop :=
  ∀ done operation, done ++ [operation] <+: schedule → ∀ manager,
    run (step geometry) (initial buffer) done = some manager →
      ¬ReleasesDiscarded manager operation

/-- What holds between the operations, whatever a reset has done. -/
structure Inv (manager : Manager Cell) : Prop where
  valid : WellFormed geometry manager.ring
  written_lt : manager.bytesWritten < wordSize
  read_lt : manager.bytesRead < wordSize
  room : fillLevel manager.ring + manager.writing ≤ geometry.size
  small : manager.reading ≤ geometry.size
  unread : manager.stale = false → manager.reading ≤ fillLevel manager.ring

variable {geometry} {manager next : Manager Cell} {buffer : Nat → Cell} {bytes : Nat}

@[simp] theorem bufmgrReadEnd_bytesWritten :
    (bufmgrReadEnd geometry manager bytes).bytesWritten = manager.bytesWritten := by
  unfold bufmgrReadEnd
  rfl

@[simp] theorem bufmgrReadEnd_bytesRead :
    (bufmgrReadEnd geometry manager bytes).bytesRead =
      (manager.bytesRead + bytes) % wordSize := by
  unfold bufmgrReadEnd
  rfl

@[simp] theorem bufmgrReadEnd_writing :
    (bufmgrReadEnd geometry manager bytes).writing = manager.writing := by
  unfold bufmgrReadEnd
  rfl

@[simp] theorem bufmgrReadEnd_stale :
    (bufmgrReadEnd geometry manager bytes).stale = manager.stale := by
  unfold bufmgrReadEnd
  rfl

@[simp] theorem bufmgrWriteEnd_bytesRead :
    (bufmgrWriteEnd geometry manager bytes).bytesRead = manager.bytesRead := by
  unfold bufmgrWriteEnd
  rfl

@[simp] theorem bufmgrWriteEnd_reading :
    (bufmgrWriteEnd geometry manager bytes).reading = manager.reading := by
  unfold bufmgrWriteEnd
  rfl

@[simp] theorem bufmgrWriteEnd_stale :
    (bufmgrWriteEnd geometry manager bytes).stale = manager.stale := by
  unfold bufmgrWriteEnd
  rfl

theorem fillLevel_le {ring : RingBuffer Cell} (valid : WellFormed geometry ring) :
    fillLevel ring ≤ geometry.size := by
  rw [valid.fillLevel_eq, contents_length]
  have := valid.tail_le
  omega

theorem fillLevel_empty (ring : RingBuffer Cell) (head : ring.head = 0) (tail : ring.tail = 0) :
    fillLevel ring = 0 := by
  unfold fillLevel
  rw [head, tail]
  exact wordSub_of_le (Nat.le_refl 0) (Nat.two_pow_pos 64)

theorem empty_wellFormed {ring : RingBuffer Cell} (head : ring.head = 0) (tail : ring.tail = 0) :
    WellFormed geometry ring :=
  ⟨head ▸ geometry.positive, by omega, by omega⟩

theorem initial_inv (buffer : Nat → Cell) : Inv geometry (initial buffer) := by
  have empty := fillLevel_empty (initial buffer).ring rfl rfl
  refine ⟨empty_wellFormed rfl rfl, Nat.two_pow_pos 64, Nat.two_pow_pos 64, ?_, ?_, ?_⟩
  · rw [empty]
    exact Nat.zero_le _
  · exact Nat.zero_le _
  · exact fun _ => Nat.zero_le _

theorem granted_write (valid : WellFormed geometry manager.ring) (bytes : Nat) (expired : Bool) :
    fillLevel manager.ring + granted (rbWritePtr geometry manager.ring bytes) bytes expired ≤
      geometry.size := by
  have level := fillLevel_le valid
  unfold granted
  rw [valid.rbWritePtr_eq, ← valid.fillLevel_eq]
  by_cases fits : fillLevel manager.ring + bytes ≤ geometry.size
  · rw [if_pos fits]
    cases expired with
    | true => simpa using level
    | false => simpa using fits
  · rw [if_neg fits]
    simpa using level

theorem granted_read (valid : WellFormed geometry manager.ring) (bytes : Nat) (expired : Bool) :
    granted (rbReadPtr geometry manager.ring bytes) bytes expired ≤ fillLevel manager.ring := by
  unfold granted
  rw [valid.rbReadPtr_eq, ← valid.fillLevel_eq]
  by_cases there : bytes ≤ fillLevel manager.ring
  · rw [if_pos there]
    cases expired with
    | true => simp
    | false => simpa using there
  · rw [if_neg there]
    simp

theorem fillLevel_writeEnd (valid : WellFormed geometry manager.ring) (bytes : Nat)
    (room : fillLevel manager.ring + bytes ≤ geometry.size) :
    WellFormed geometry (bufmgrWriteEnd geometry manager bytes).ring ∧
      fillLevel (bufmgrWriteEnd geometry manager bytes).ring =
        fillLevel manager.ring + bytes := by
  rw [valid.fillLevel_eq] at room ⊢
  obtain ⟨kept, appended⟩ := valid.bufmgrWriteEnd room
  refine ⟨kept, kept.fillLevel_eq.trans ?_⟩
  rw [appended, List.length_append]
  simp [copyOut]

theorem fillLevel_readEnd (valid : WellFormed geometry manager.ring) (bytes : Nat) :
    WellFormed geometry (bufmgrReadEnd geometry manager bytes).ring ∧
      fillLevel (bufmgrReadEnd geometry manager bytes).ring =
        if bytes ≤ fillLevel manager.ring then fillLevel manager.ring - bytes
        else fillLevel manager.ring := by
  by_cases there : bytes ≤ fillLevel manager.ring
  · rw [if_pos there]
    rw [valid.fillLevel_eq] at there ⊢
    obtain ⟨kept, dropped⟩ := valid.bufmgrReadEnd there
    refine ⟨kept, kept.fillLevel_eq.trans ?_⟩
    rw [dropped, List.length_drop]
  · have refused : Ring.bufmgrReadEnd geometry manager.ring bytes = manager.ring := by
      unfold Ring.bufmgrReadEnd rbReadFinished
      exact congrArg (Option.getD · _) (if_pos (Nat.lt_of_not_le there))
    rw [if_neg there, bufmgrReadEnd, refused]
    exact ⟨valid, rfl⟩

theorem step_inv {operation : Operation} (inv : Inv geometry manager)
    (h : step geometry manager operation = some next) : Inv geometry next := by
  obtain ⟨valid, written_lt, read_lt, room, small, unread⟩ := inv
  have positive : 0 < wordSize := Nat.two_pow_pos 64
  cases operation with
  | writeBegin bytes expired =>
    cases h
    exact ⟨valid, written_lt, read_lt, granted_write valid bytes expired, small, unread⟩
  | readBegin bytes expired =>
    cases h
    have given := granted_read valid bytes expired
    exact ⟨valid, written_lt, read_lt, room, given.trans (fillLevel_le valid), fun _ => given⟩
  | writeEnd bytes =>
    obtain ⟨within, made⟩ := Option.ite_none_right_eq_some.mp h
    cases made
    have bound := (Nat.add_le_add_left within _).trans room
    obtain ⟨kept, filled⟩ := fillLevel_writeEnd valid bytes bound
    refine ⟨kept, Nat.mod_lt _ positive, ?_, ?_, ?_, ?_⟩
    · simpa using read_lt
    · rw [filled]
      dsimp only
      omega
    · simpa using small
    · rw [filled]
      dsimp only
      rw [bufmgrWriteEnd_stale, bufmgrWriteEnd_reading]
      exact fun fresh => (unread fresh).trans (Nat.le_add_right _ _)
  | readEnd bytes =>
    obtain ⟨within, made⟩ := Option.ite_none_right_eq_some.mp h
    cases made
    obtain ⟨kept, released⟩ := fillLevel_readEnd valid bytes
    refine ⟨kept, ?_, Nat.mod_lt _ positive, ?_, ?_, ?_⟩
    · simpa using written_lt
    · dsimp only
      rw [released, bufmgrReadEnd_writing]
      split
      · exact (Nat.add_le_add_right (Nat.sub_le _ _) _).trans room
      · exact room
    · exact (Nat.sub_le _ _).trans small
    · dsimp only
      rw [released, bufmgrReadEnd_stale]
      intro fresh
      have there := unread fresh
      rw [if_pos (within.trans there)]
      exact Nat.sub_le_sub_right there bytes
  | reset =>
    cases h
    have empty := fillLevel_empty (bufmgrReset manager).ring rfl rfl
    refine ⟨empty_wellFormed rfl rfl, positive, positive, ?_, small, nofun⟩
    dsimp only
    rw [empty, Nat.zero_add]
    exact (Nat.le_add_left _ _).trans room

section wordSub
variable {written read level : Nat}

theorem wordSub_write (tracks : wordSub written read = level) (read_lt : read < wordSize)
    (small : level + bytes < wordSize) :
    wordSub ((written + bytes) % wordSize) read = level + bytes := by
  unfold wordSub wordSize at *
  omega

theorem wordSub_read (tracks : wordSub written read = level) (written_lt : written < wordSize)
    (read_lt : read < wordSize) (small : bytes < wordSize) :
    wordSub written ((read + bytes) % wordSize) =
      (if bytes ≤ level then level - bytes else level) ↔ ¬level < bytes := by
  unfold wordSub wordSize at *
  split <;> omega

end wordSub

/-- An operation leaves the counters on the ring unless it releases what is not there. -/
theorem step_tracks {operation : Operation} (inv : Inv geometry manager) (tracks : Tracks manager)
    (h : step geometry manager operation = some next) :
    Tracks next ↔ ¬ReleasesDiscarded manager operation := by
  obtain ⟨valid, written_lt, read_lt, room, small, unread⟩ := inv
  have mapped := geometry.mapped
  cases operation with
  | writeBegin | readBegin =>
    cases h
    exact iff_of_true tracks (by rintro ⟨_, _, same, _⟩; cases same)
  | writeEnd bytes =>
    obtain ⟨within, made⟩ := Option.ite_none_right_eq_some.mp h
    cases made
    have bound := (Nat.add_le_add_left within _).trans room
    obtain ⟨kept, filled⟩ := fillLevel_writeEnd valid bytes bound
    refine iff_of_true ?_ (by rintro ⟨_, _, same, _⟩; cases same)
    have fits : fillLevel manager.ring + bytes < wordSize := by omega
    exact (wordSub_write tracks read_lt fits).trans filled.symm
  | readEnd bytes =>
    obtain ⟨within, made⟩ := Option.ite_none_right_eq_some.mp h
    cases made
    have fits : bytes < wordSize := lt_of_le_of_lt (within.trans small) (by omega)
    have released := (fillLevel_readEnd valid bytes).2
    have same : (∃ count ≤ manager.reading, Operation.readEnd bytes = .readEnd count ∧
        manager.stale = true ∧ fillLevel manager.ring < count) ↔
          fillLevel manager.ring < bytes := by
      constructor
      · rintro ⟨count, -, equal, -, short⟩
        cases equal
        exact short
      · intro short
        refine ⟨bytes, within, rfl, ?_, short⟩
        by_contra fresh
        have there := unread (Bool.eq_false_of_not_eq_true fresh)
        exact absurd (within.trans there) (Nat.not_le_of_lt short)
    unfold ReleasesDiscarded Tracks
    rw [same, ← wordSub_read tracks written_lt read_lt fits]
    dsimp only
    rw [released, bufmgrReadEnd_bytesWritten, bufmgrReadEnd_bytesRead]
  | reset =>
    cases h
    refine iff_of_true ?_ (by rintro ⟨_, _, same, _⟩; cases same)
    have empty := fillLevel_empty (bufmgrReset manager).ring rfl rfl
    unfold Tracks
    rw [empty]
    exact wordSub_of_le (Nat.le_refl 0) (Nat.two_pow_pos 64)

theorem run_inv {schedule : List Operation}
    (h : run (step geometry) (initial buffer) schedule = some manager) : Inv geometry manager :=
  run_invariant (Inv geometry) (fun _ _ _ inv taken => step_inv inv taken) (initial_inv buffer) h

theorem run_snoc {schedule : List Operation} {operation : Operation} {start : Manager Cell} :
    run (step geometry) start (schedule ++ [operation]) =
      (run (step geometry) start schedule).bind fun manager => step geometry manager operation := by
  rw [run_append]
  congr 1
  funext manager
  simp

theorem tracksThroughout_iff (schedule : List Operation) :
    TracksThroughout geometry buffer schedule ↔
      NeverReleasesDiscarded geometry buffer schedule := by
  constructor
  · rintro tracks done operation inside manager ran ⟨bytes, within, rfl, stale, short⟩
    obtain ⟨next, taken⟩ : ∃ next, step geometry manager (.readEnd bytes) = some next :=
      ⟨_, if_pos within⟩
    have before := tracks done ((List.prefix_append done _).trans inside) manager ran
    have after := tracks _ inside next (by rw [run_snoc, ran]; exact taken)
    exact (step_tracks (run_inv ran) before taken).mp after ⟨bytes, within, rfl, stale, short⟩
  · intro never done
    induction done using List.reverseRecOn with
    | nil =>
      intro _ manager ran
      cases ran
      exact (wordSub_of_le (Nat.le_refl 0) (Nat.two_pow_pos 64)).trans
        (fillLevel_empty (initial buffer).ring rfl rfl).symm
    | append_singleton done operation ih =>
      intro inside next ran
      rw [run_snoc] at ran
      obtain ⟨manager, before, taken⟩ := Option.bind_eq_some_iff.mp ran
      have tracks := ih ((List.prefix_append done _).trans inside) manager before
      have honest := never done operation inside manager before
      exact (step_tracks (run_inv before) tracks taken).mpr honest

/-- A call returns `NULL` only for want of bytes unless they arrive during its last wait, and the
counters track the ring unless the consumer ends a read that a reset has discarded. -/
theorem read_begin_and_counters :
    (∀ (looks : Looks Cell geometry) (bytes : Nat) (timeout : Int),
      NullOnlyIfLacking looks bytes timeout ↔ ¬ArrivesLast looks bytes timeout) ∧
    ∀ (buffer : Nat → Cell) (schedule : List Operation),
      TracksThroughout geometry buffer schedule ↔
        NeverReleasesDiscarded geometry buffer schedule :=
  ⟨fun _ _ _ => nullOnlyIfLacking_iff, fun _ schedule => tracksThroughout_iff schedule⟩

/-- One byte arrives during the only wait of a call with a timeout of 20. -/
def lateByte : Looks Unit page
  | 0 => ⟨⟨fun _ => (), 0, 0⟩, by decide, by decide, by decide⟩
  | _ + 1 => ⟨⟨fun _ => (), 0, 1⟩, by decide, by decide, by decide⟩

def resetInRead : List Operation :=
  [.writeBegin 1 false, .writeEnd 1, .readBegin 1 false, .reset, .readEnd 1]

theorem late_byte_and_reset_in_read :
    ¬NullOnlyIfLacking lateByte 1 20 ∧
      ¬TracksThroughout page (fun _ => ()) resetInRead := by
  constructor
  · intro only
    have returned : bufmgrReadBegin lateByte 1 20 1 = some ⟨.null, 1, 1⟩ := by decide +kernel
    have lacking := only 1 ⟨.null, 1, 1⟩ returned rfl
    have there : fillLevel (lateByte 1).1 = 1 := by decide +kernel
    dsimp only at lacking
    rw [Lacks, there] at lacking
    exact absurd lacking (Nat.lt_irrefl 1)
  · intro tracks
    have counted : (run (step page) (initial fun _ => ()) resetInRead).map
        (fun manager => (wordSub manager.bytesWritten manager.bytesRead, fillLevel manager.ring)) =
        some (2 ^ 64 - 1, 0) := by decide +kernel
    obtain ⟨manager, ran, values⟩ := Option.map_eq_some_iff.mp counted
    have tracked := tracks resetInRead (List.prefix_refl _) manager ran
    rw [Prod.mk.injEq] at values
    rw [Tracks, values.1, values.2] at tracked
    omega

end MisrcGui.Ring.Counters
