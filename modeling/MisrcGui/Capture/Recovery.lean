import MisrcGui.Capture.Synchronisation

/-! A frame whose lines go on from each other passes the synchronised parser, whatever the line
validators hold in front of it. -/
namespace MisrcGui.Capture

/-- Words of a line behind its payload and in front of its trailer. -/
def Frame.idleLength (frame : Frame) (index : Nat) : Nat :=
  frame.width - ((frame.parsed index).payloadLen + trailerWords frame.hasStreamId frame.hasCrc)

/-- The idle words of the lines from `index` on count up from `next`. -/
def Frame.IdleGoesOn (frame : Frame) : Nat → Nat → UInt16 → Prop
  | 0, _, _ => True
  | remaining + 1, index, next =>
    (∀ word < frame.idleLength index,
      frame.line index ((frame.parsed index).payloadLen + word) = next + UInt16.ofNat word) ∧
    frame.IdleGoesOn remaining (index + 1) (next + UInt16.ofNat (frame.idleLength index))

def Frame.crcDepth (frame : Frame) : Nat :=
  if frame.metadata.crcConfig = crc16OneLine then 1 else 2

structure Frame.Clean (frame : Frame) : Prop where
  magic : frame.metadata.magic = hsdaohMagic
  valid : ∀ index < frame.height, (frame.parsed index).valid = true
  idle : ∃ first, frame.IdleGoesOn frame.height 0 first
  crc : frame.hasCrc = true → ∀ index < frame.height, frame.crcDepth ≤ index →
    (frame.parsed index).crc = frameComputeLineCrc (frame.line (index - frame.crcDepth)) frame.width

variable {frame : Frame} {next idleCnt : UInt16}

def counting (next : UInt16) (count : Nat) : List UInt16 :=
  (List.range count).map fun word => next + UInt16.ofNat word

theorem counting_succ (next : UInt16) (count : Nat) :
    counting next (count + 1) = next :: counting (next + 1) count := by
  have first : next + UInt16.ofNat 0 = next := UInt16.add_zero next
  rw [counting, List.range_succ_eq_map, List.map_cons, List.map_map, first, counting]
  congr 1
  apply List.map_congr_left
  intro word _
  show next + UInt16.ofNat (word + 1) = _
  rw [Nat.add_comm, UInt16.ofNat_add, ← UInt16.add_assoc]
  rfl

theorem checkIdleCnt_synced (count : Nat) (synced : idleCnt + 1 = next) :
    (checkIdleCnt (counting next count) idleCnt).1 = 0 ∧
      (checkIdleCnt (counting next count) idleCnt).2 + 1 = next + UInt16.ofNat count := by
  induction count generalizing next idleCnt with
  | zero => exact ⟨rfl, synced.trans (UInt16.add_zero next).symm⟩
  | succ count ih =>
    obtain ⟨none, last⟩ := ih (rfl : next + 1 = next + 1)
    rw [counting_succ]
    refine ⟨?_, last.trans ?_⟩
    · simp only [checkIdleCnt, none, synced, ne_eq, not_true_eq_false, if_false]
    · rw [UInt16.add_assoc, Nat.add_comm, UInt16.ofNat_add]
      rfl

theorem checkIdleCnt_counting (next idleCnt : UInt16) (count : Nat) :
    (checkIdleCnt (counting next count) idleCnt).1 = 0 ∨
      (checkIdleCnt (counting next count) idleCnt).1 = 1 ∧
      (checkIdleCnt (counting next count) idleCnt).2 + 1 = next + UInt16.ofNat count := by
  cases count with
  | zero => exact Or.inl rfl
  | succ count =>
    by_cases synced : idleCnt + 1 = next
    · exact Or.inl (checkIdleCnt_synced (count + 1) synced).1
    · obtain ⟨none, last⟩ := checkIdleCnt_synced count (rfl : next + 1 = next + 1)
      rw [counting_succ]
      refine Or.inr ⟨?_, last.trans ?_⟩
      · simp only [checkIdleCnt, none, if_pos (Ne.symm synced)]
      · rw [UInt16.add_assoc, Nat.add_comm, UInt16.ofNat_add]
        rfl

theorem parsed_inside {index : Nat} (valid : (frame.parsed index).valid = true) :
    (frame.parsed index).payloadLen + trailerWords frame.hasStreamId frame.hasCrc ≤
      frame.width := by
  unfold Frame.parsed parseLine at *
  dsimp only at *
  split at valid
  · cases valid
  · next wide =>
    rw [if_neg wide]
    have fits := of_decide_eq_true valid
    have := Nat.mod_le (frame.width - trailerWords frame.hasStreamId frame.hasCrc) (2 ^ 16)
    dsimp only
    omega

theorem checkIdle_line (idleCnt : UInt16) {index : Nat} (valid : (frame.parsed index).valid = true)
    (words : ∀ word < frame.idleLength index,
      frame.line index ((frame.parsed index).payloadLen + word) = next + UInt16.ofNat word) :
    frameCheckIdle idleCnt (frame.line index) (frame.parsed index).payloadLen frame.width
        frame.hasStreamId frame.hasCrc =
      checkIdleCnt (counting next (frame.idleLength index % 2 ^ 16)) idleCnt := by
  have inside := parsed_inside valid
  rw [frameCheckIdle, if_neg (Nat.not_lt.mpr inside), counting]
  congr 1
  apply List.map_congr_left
  intro word listed
  apply words
  exact Nat.lt_of_lt_of_le (List.mem_range.mp listed) (Nat.mod_le _ _)

theorem ofNat_checked (count : Nat) : UInt16.ofNat (count % 2 ^ 16) = UInt16.ofNat count := by
  apply UInt16.toNat_inj.mp
  simp

structure Primed (frame : Frame) (index : Nat) (next : UInt16) (scan : Scan) : Prop where
  idle : scan.idleErrors = 0 ∨ scan.idleErrors = 1 ∧ scan.idleCnt + 1 = next
  one : frame.hasCrc = true → 1 ≤ index →
    scan.lastCrc.1 = frameComputeLineCrc (frame.line (index - 1)) frame.width
  two : frame.hasCrc = true → 2 ≤ index →
    scan.lastCrc.2 = frameComputeLineCrc (frame.line (index - 2)) frame.width
  few : scan.crcErrors ≤ index
  most : scan.crcErrors ≤ 2

theorem Primed.line {index : Nat} {synced suppress : Bool} {scan : Scan} (clean : frame.Clean)
    (inside : index < frame.height) (primed : Primed frame index next scan)
    (words : ∀ word < frame.idleLength index,
      frame.line index ((frame.parsed index).payloadLen + word) = next + UInt16.ofNat word) :
    Primed frame (index + 1) (next + UInt16.ofNat (frame.idleLength index))
      (scanLine frame synced suppress (frame.line index) (frame.parsed index) scan) := by
  have checked := checkIdle_line scan.idleCnt (clean.valid index inside) words
  have expected : frame.hasCrc = true → frame.crcDepth ≤ index →
      (frame.parsed index).crc =
        if frame.metadata.crcConfig = crc16OneLine then scan.lastCrc.1 else scan.lastCrc.2 := by
    intro on deep
    rw [clean.crc on index inside deep]
    unfold Frame.crcDepth at deep ⊢
    split
    · next single =>
      rw [if_pos single] at deep
      exact (primed.one on deep).symm
    · next double =>
      rw [if_neg double] at deep
      exact (primed.two on deep).symm
  have depth : frame.crcDepth ≤ 2 := by
    unfold Frame.crcDepth
    split <;> omega
  have errors : (scanLine frame synced suppress (frame.line index) (frame.parsed index)
      scan).crcErrors ≤ scan.crcErrors + if frame.crcDepth ≤ index then 0 else 1 := by
    apply Nat.add_le_add_left
    by_cases deep : frame.crcDepth ≤ index
    · rw [if_pos deep]
      cases on : frame.hasCrc with
      | false => exact Nat.le_refl 0
      | true =>
        rw [expected on deep, bne_self_eq_false, Bool.and_false, Bool.false_and]
        exact Nat.le_refl 0
    · rw [if_neg deep]
      exact Bool.toNat_le _
  refine ⟨?_, fun on _ => ?_, fun on high => ?_, ?_, ?_⟩
  · have counted := checkIdleCnt_counting next scan.idleCnt (frame.idleLength index % 2 ^ 16)
    rw [ofNat_checked] at counted
    simp only [scanLine, checked]
    rcases primed.idle with none | ⟨one, sync⟩
    · rw [none, Nat.zero_add]
      cases suppress with
      | true => exact Or.inl rfl
      | false => exact counted
    · obtain ⟨still, last⟩ := checkIdleCnt_synced (frame.idleLength index % 2 ^ 16) sync
      rw [ofNat_checked] at last
      rw [one, still, ite_self, Nat.add_zero]
      exact Or.inr ⟨rfl, last⟩
  · simp only [scanLine, if_pos on, Nat.add_sub_cancel]
  · simp only [scanLine, if_pos on]
    exact primed.one on (by omega)
  · have few := primed.few
    split at errors <;> omega
  · have few := primed.few
    have most := primed.most
    split at errors <;> omega

theorem scanLines_primed {synced suppress : Bool} (clean : frame.Clean) {remaining index : Nat}
    {scan : Scan} (place : index + remaining = frame.height)
    (goes : frame.IdleGoesOn remaining index next) (primed : Primed frame index next scan) :
    ∃ last, scanLines frame synced suppress remaining index scan = (last, true) ∧
      last.idleErrors ≤ 1 ∧ last.crcErrors ≤ 2 := by
  induction remaining generalizing index next scan with
  | zero =>
    refine ⟨scan, rfl, ?_, primed.most⟩
    rcases primed.idle with none | ⟨one, _⟩ <;> omega
  | succ remaining ih =>
    rw [scanLines, if_pos (clean.valid index (by omega))]
    exact ih (by omega) goes.2 (primed.line clean (by omega) goes.1)

theorem scanFrame_clean_few (clean : frame.Clean) (state : ParserState) :
    ∃ scan, scanFrame state frame = (scan, true) ∧ scan.idleErrors ≤ 1 ∧ scan.crcErrors ≤ 2 := by
  obtain ⟨first, goes⟩ := clean.idle
  apply scanLines_primed clean (Nat.zero_add _) goes
  exact ⟨Or.inl rfl, fun _ low => absurd low (by decide), fun _ low => absurd low (by decide),
    Nat.le_refl _, Nat.zero_le _⟩

theorem tolerated_iff (scan : Scan) :
    tolerated defaultTolerance scan = true ↔ scan.idleErrors ≤ 24 ∧ scan.crcErrors ≤ 24 := by
  have crc : defaultTolerance.crc = 24 := rfl
  have idle : defaultTolerance.idle = 24 := rfl
  have total : scan.errorCount = scan.idleErrors + scan.crcErrors := rfl
  simp only [tolerated, Bool.or_eq_true, Bool.and_eq_true, decide_eq_true_eq, beq_iff_eq]
  omega

theorem judgeFrame_valid_iff {state : ParserState} (synced : state.streamSynced = true)
    (syncResult : SyncResult) (height : Nat) (scan : Scan) :
    (judgeFrame defaultTolerance state syncResult height scan).2.valid = true ↔
      scan.idleErrors ≤ 24 ∧ scan.crcErrors ≤ 24 := by
  have threshold : 64 ≤ idleDesyncThreshold height := Nat.le_max_right _ _
  simp only [judgeFrame, synced, Bool.and_true, Bool.not_true, Bool.false_and, Bool.false_eq_true,
    if_false]
  split
  · next burst =>
    simp only [idleDesyncBurst, Bool.and_eq_true, decide_eq_true_eq] at burst
    constructor
    · intro none
      cases none
    · intro few
      omega
  · split
    · next above =>
      rw [Bool.and_eq_true, Bool.not_eq_true', ← Bool.not_eq_true, tolerated_iff] at above
      constructor
      · intro none
        cases none
      · exact fun few => absurd few above.2
    · next some =>
      refine ⟨fun _ => ?_, fun _ => rfl⟩
      rw [Bool.and_eq_true, decide_eq_true_eq, Bool.not_eq_true', ← Bool.not_eq_true, tolerated_iff,
        Scan.errorCount] at some
      omega

theorem frameProcess_clean {state : ParserState} (clean : frame.Clean)
    (synced : state.streamSynced = true)
    (new : frame.metadata.framecounter ≠ state.lastFrameCnt) :
    (frameProcess defaultTolerance state frame).2.valid = true := by
  have ordered := (orderFrame_synced frame.metadata.framecounter synced).1
  obtain ⟨scan, scanned, idle, crc⟩ :=
    scanFrame_clean_few clean (orderFrame state frame.metadata.framecounter).1
  rw [frameProcess, if_neg (not_not_intro clean.magic), if_neg new]
  simp only [scanned, if_true]
  have few : scan.idleErrors ≤ 24 ∧ scan.crcErrors ≤ 24 := ⟨by omega, by omega⟩
  refine (judgeFrame_valid_iff ?_ _ _ _).mpr few
  exact ordered

def processedFrom (state : ParserState) (sequence : Nat → Frame) : Nat → ParserState
  | 0 => state
  | index + 1 =>
    (frameProcess defaultTolerance (processedFrom state sequence index) (sequence index)).1

/-- Every frame of a continuous sequence is valid, with a gap in front of it or without. -/
def Recovers (state : ParserState) : Prop :=
  ∀ (sequence : Nat → Frame) (last : Nat),
    (sequence 0).metadata.framecounter ≠ state.lastFrameCnt →
    (∀ index ≤ last, (sequence index).Clean) →
    (∀ index < last, (sequence (index + 1)).metadata.framecounter =
      (sequence index).metadata.framecounter + 1) →
    ∀ index ≤ last,
      (frameProcess defaultTolerance (processedFrom state sequence index)
        (sequence index)).2.valid = true

theorem next_ne (framecounter : UInt16) : framecounter + 1 ≠ framecounter := by
  intro same
  have nothing : (1 : UInt16) = 0 := by
    rw [← UInt16.add_right_inj framecounter, same, UInt16.add_zero]
  exact absurd nothing (by decide)

theorem synced_recovers {state : ParserState} (synced : state.streamSynced = true) :
    Recovers state := by
  intro sequence last new clean order index
  have walked : ∀ index ≤ last,
      (processedFrom state sequence index).streamSynced = true ∧
      (sequence index).metadata.framecounter ≠
        (processedFrom state sequence index).lastFrameCnt := by
    intro index
    induction index with
    | zero => exact fun _ => ⟨synced, new⟩
    | succ index ih =>
      intro low
      obtain ⟨before, fresh⟩ := ih (by omega)
      have taken := frameProcess_new defaultTolerance (clean index (by omega)).magic fresh
      refine ⟨(taken.synced before).1, ?_⟩
      rw [order index (by omega), processedFrom, taken.counter]
      exact next_ne _
  intro low
  obtain ⟨before, fresh⟩ := walked index low
  exact frameProcess_clean (clean index low) before fresh

end MisrcGui.Capture
