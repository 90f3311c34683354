import MisrcGui.Capture.Recovery

/-! Which valid frames may have more line errors than are tolerated: those for which the errors are
not counted, while the line validators are primed anew. -/
namespace MisrcGui.Capture

section Run
variable (frames : Nat → Frame)

abbrev stateAt (index : Nat) : ParserState := parserBefore defaultTolerance frames index

def isNew (index : Nat) : Bool :=
  isMisrc frames index &&
    (frames index).metadata.framecounter != (stateAt frames index).lastFrameCnt

def gapAt (index : Nat) : Bool :=
  isNew frames index && (stateAt frames index).streamSynced &&
    (frames index).metadata.framecounter != (stateAt frames index).lastFrameCnt + 1

def passAt (index : Nat) : Scan × Bool :=
  scanFrame (orderFrame (stateAt frames index) (frames index).metadata.framecounter).1
    (frames index)

def parsedAt (index : Nat) : Bool := isNew frames index && (passAt frames index).2

/-- The frame is given up at a line with an invalid payload length. -/
def rejectedAt (index : Nat) : Bool := isNew frames index && !(passAt frames index).2

/-- A burst of idle errors, which primes the line validators anew. -/
def burstAt (index : Nat) : Bool :=
  parsedAt frames index && (stateAt frames index).streamSynced &&
    decide ((passAt frames index).1.errorCount > 0) &&
    idleDesyncBurst defaultTolerance (frames index).height (passAt frames index).1

/-- The errors against the running state of the validators, all of them counted. -/
def runningErrors (index : Nat) : Scan :=
  (scanLines (frames index) true false (frames index).height 0
    ⟨(stateAt frames index).lastCrc, (stateAt frames index).idleCnt, 0, 0, 0, 0⟩).1

/-- Fully parsed frames behind one frame and in front of another. -/
def parsedBetween (first last : Nat) : Nat :=
  (List.range last).countP fun index => decide (first < index) && parsedAt frames index

def Excused (index : Nat) : Prop :=
  gapAt frames index = true ∨
    ∃ burst < index, burstAt frames burst = true ∧ parsedBetween frames burst index < 2

/-- A burst is in front, with so many fully parsed frames to come that are not counted. -/
def Repriming (index : Nat) : Prop :=
  (stateAt frames index).reprimeFrames > 0 → ∃ burst < index, burstAt frames burst = true ∧
    parsedBetween frames burst index + (stateAt frames index).reprimeFrames ≤ 2

end Run

variable {frames : Nat → Frame} {index : Nat}

theorem parsedBetween_next {first : Nat} (later : first < index) :
    parsedBetween frames first (index + 1) =
      parsedBetween frames first index + (parsedAt frames index).toNat := by
  rw [parsedBetween, List.range_succ, List.countP_append, ← parsedBetween]
  cases parsed : parsedAt frames index <;> simp [parsed, later]

theorem parsedBetween_self (index : Nat) : parsedBetween frames index (index + 1) = 0 := by
  rw [parsedBetween, List.countP_eq_zero]
  intro other inside
  have := List.mem_range.mp inside
  simp only [Bool.and_eq_true, decide_eq_true_eq, not_and]
  omega

theorem orderFrame_reprime (state : ParserState) (framecounter : UInt16) :
    (orderFrame state framecounter).1.reprimeFrames =
      if state.streamSynced && framecounter != state.lastFrameCnt + 1 then 1
      else state.reprimeFrames := by
  unfold orderFrame
  by_cases next : framecounter = state.lastFrameCnt + 1
  · simp [next]
  · cases state.streamSynced <;> simp [next]

theorem judgeFrame_reprime (tolerance : Tolerance) (state : ParserState) (syncResult : SyncResult)
    (height : Nat) (scan : Scan) :
    (judgeFrame tolerance state syncResult height scan).1.reprimeFrames =
      if decide (scan.errorCount > 0) && state.streamSynced &&
        idleDesyncBurst tolerance height scan then 2 else state.reprimeFrames - 1 := by
  simp only [judgeFrame]
  split
  · rfl
  · split
    · rfl
    · split <;> rfl

inductive Primes (frames : Nat → Frame) (index : Nat) : Prop where
  | none (nothing : (stateAt frames (index + 1)).reprimeFrames = 0)
  | kept (skipped : parsedAt frames index = false)
      (same : (stateAt frames (index + 1)).reprimeFrames = (stateAt frames index).reprimeFrames)
  | counted (parsed : parsedAt frames index = true)
      (fewer : (stateAt frames (index + 1)).reprimeFrames =
        (stateAt frames index).reprimeFrames - 1)
  | burst (burst : burstAt frames index = true)
      (two : (stateAt frames (index + 1)).reprimeFrames = 2)
  | abandoned (gap : gapAt frames index = true) (rejected : rejectedAt frames index = true)

theorem primes (frames : Nat → Frame) (index : Nat) : Primes frames index := by
  have after : stateAt frames (index + 1) =
    (frameProcess defaultTolerance (stateAt frames index) (frames index)).1 := rfl
  by_cases magic : (frames index).metadata.magic = hsdaohMagic
  · by_cases new : (frames index).metadata.framecounter = (stateAt frames index).lastFrameCnt
    · rw [frameProcess, if_neg (not_not_intro magic), if_pos new] at after
      refine .kept ?_ (congrArg ParserState.reprimeFrames after)
      simp [parsedAt, isNew, new]
    · have fresh : isNew frames index = true := by simp [isNew, isMisrc, magic, new]
      have reprime := orderFrame_reprime (stateAt frames index)
        (frames index).metadata.framecounter
      have standing := (orderFrame_order (stateAt frames index)
        (frames index).metadata.framecounter).2.1
      have pass : passAt frames index = scanFrame (orderFrame (stateAt frames index)
        (frames index).metadata.framecounter).1 (frames index) := rfl
      rw [frameProcess, if_neg (not_not_intro magic), if_neg new] at after
      generalize orderFrame (stateAt frames index) (frames index).metadata.framecounter = ordered
        at reprime standing pass after
      dsimp only at after
      rw [← pass] at after
      cases complete : (passAt frames index).2 with
      | false =>
        rw [complete, if_neg Bool.false_ne_true] at after
        have same : (stateAt frames (index + 1)).reprimeFrames = ordered.1.reprimeFrames := by
          rw [after]
        rw [reprime] at same
        split at same
        · next gap =>
          refine .abandoned ?_ (by simp [rejectedAt, fresh, complete])
          rw [gapAt, fresh, Bool.true_and, gap]
        · exact .kept (by simp [parsedAt, complete]) same
      | true =>
        rw [complete, if_pos rfl] at after
        have left := judgeFrame_reprime defaultTolerance
          { ordered.1 with
            lastCrc := (passAt frames index).1.lastCrc
            idleCnt := (passAt frames index).1.idleCnt } ordered.2 (frames index).height
          (passAt frames index).1
        rw [← after] at left
        dsimp only at left
        split at left
        · next burst =>
          refine .burst ?_ left
          rw [standing] at burst
          simp only [Bool.and_eq_true] at burst
          simp only [burstAt, parsedAt, fresh, complete, burst, Bool.and_self]
        · rw [reprime] at left
          split at left
          · exact .none left
          · exact .counted (by simp [parsedAt, fresh, complete]) left
  · rw [frameProcess, if_pos magic] at after
    exact .none (congrArg ParserState.reprimeFrames after)

/-- Without a gap frame that is given up, only a burst leaves frames to be primed with. -/
theorem repriming (frames : Nat → Frame) (index : Nat)
    (whole : ∀ gap < index, ¬(gapAt frames gap = true ∧ rejectedAt frames gap = true)) :
    Repriming frames index := by
  induction index with
  | zero => exact fun some => absurd some (Nat.lt_irrefl 0)
  | succ index ih =>
    have earlier := ih fun gap low => whole gap (Nat.lt_succ_of_lt low)
    intro some
    cases primes frames index with
    | none nothing => omega
    | kept skipped same =>
      obtain ⟨burst, before, here, few⟩ := earlier (by omega)
      refine ⟨burst, Nat.lt_succ_of_lt before, here, ?_⟩
      rw [parsedBetween_next before, skipped, same]
      exact few
    | counted parsed fewer =>
      obtain ⟨burst, before, here, few⟩ := earlier (by omega)
      refine ⟨burst, Nat.lt_succ_of_lt before, here, ?_⟩
      rw [parsedBetween_next before, parsed, fewer, Bool.toNat_true]
      omega
    | burst burst two =>
      refine ⟨index, Nat.lt_succ_self index, burst, ?_⟩
      rw [parsedBetween_self, two]
    | abandoned gap rejected =>
      exact absurd ⟨gap, rejected⟩ (whole index (Nat.lt_succ_self index))

theorem counted_few (valid : (report defaultTolerance frames index).valid = true)
    (primed : (stateAt frames index).reprimeFrames = 0) (straight : gapAt frames index = false) :
    (runningErrors frames index).idleErrors ≤ 24 ∧ (runningErrors frames index).crcErrors ≤ 24 := by
  have synced := (valid_synced valid).1
  cases frameProcess_handled defaultTolerance (stateAt frames index) (frames index) with
  | lost magic after result =>
    rw [report, result] at valid
    cases valid
  | duplicate magic again same result =>
    rw [report, result] at valid
    cases valid
  | taken magic new _ =>
    have next : (frames index).metadata.framecounter = (stateAt frames index).lastFrameCnt + 1 := by
      simpa [gapAt, isNew, isMisrc, magic, new, synced] using straight
    have pass : scanFrame (orderFrame (stateAt frames index)
          (frames index).metadata.framecounter).1 (frames index) =
        scanLines (frames index) true false (frames index).height 0
          ⟨(stateAt frames index).lastCrc, (stateAt frames index).idleCnt, 0, 0, 0, 0⟩ := by
      simp [scanFrame, orderFrame, next, synced, primed]
    have ordered := (orderFrame_synced (frames index).metadata.framecounter synced).1
    rw [report, frameProcess, if_neg (not_not_intro magic), if_neg new] at valid
    generalize orderFrame (stateAt frames index) (frames index).metadata.framecounter = passed
      at valid pass ordered
    dsimp only at valid
    rw [pass] at valid
    rw [runningErrors]
    split at valid
    · refine (judgeFrame_valid_iff ?_ _ _ _).mp valid
      exact ordered
    · cases valid

/-- Suppression and recovery, in a run in which no frame at a gap is given up. -/
theorem suppression_bounded_and_recovery (frames : Nat → Frame) (index : Nat)
    (whole : ∀ gap < index, ¬(gapAt frames gap = true ∧ rejectedAt frames gap = true)) :
    ((report defaultTolerance frames index).valid = true →
      (runningErrors frames index).idleErrors ≤ 24 ∧
        (runningErrors frames index).crcErrors ≤ 24 ∨ Excused frames index) ∧
    ∀ state : ParserState, state.streamSynced = true → Recovers state ∧
      ∀ frame : Frame, frame.metadata.magic = hsdaohMagic →
        Recovers (frameProcess defaultTolerance state frame).1 := by
  refine ⟨fun valid => ?_, fun state synced => ⟨synced_recovers synced, fun frame magic => ?_⟩⟩
  · by_cases gap : gapAt frames index = true
    · exact Or.inr (Or.inl gap)
    · rw [Bool.not_eq_true] at gap
      rcases Nat.eq_zero_or_pos (stateAt frames index).reprimeFrames with none | some
      · exact Or.inl (counted_few valid none gap)
      · obtain ⟨burst, before, here, few⟩ := repriming frames index whole some
        exact Or.inr (Or.inr ⟨burst, before, here, by omega⟩)
  · apply synced_recovers
    cases frameProcess_handled defaultTolerance state frame with
    | lost other => exact absurd magic other
    | duplicate _ _ same =>
      rw [same]
      exact synced
    | taken _ _ taken => exact (taken.synced synced).1

theorem suppression_bounded_sixth :
    ((report defaultTolerance countingFrames 5).valid = true →
      (runningErrors countingFrames 5).idleErrors ≤ 24 ∧
        (runningErrors countingFrames 5).crcErrors ≤ 24 ∨ Excused countingFrames 5) ∧
    ∀ state : ParserState, state.streamSynced = true → Recovers state ∧
      ∀ frame : Frame, frame.metadata.magic = hsdaohMagic →
        Recovers (frameProcess defaultTolerance state frame).1 :=
  suppression_bounded_and_recovery countingFrames 5 (by decide +kernel)

/-- A stream that is synchronised, a frame at a gap with an invalid payload length, and behind it
a frame of 39 idle words that do not count. -/
def abandonedFrames (index : Nat) : Frame :=
  if index < 5 then countingFrames index
  else if index = 5 then ⟨2, 1, fun _ => 0xfff, ⟨hsdaohMagic, 20, crcNone, 0, 0⟩, false⟩
  else ⟨40, 1, fun _ => 0, ⟨hsdaohMagic, UInt16.ofNat (index + 15), crcNone, 0, 0⟩, false⟩

theorem suppression_carried_over :
    (report defaultTolerance abandonedFrames 6).valid = true ∧
      (runningErrors abandonedFrames 6).idleErrors = 39 ∧ ¬Excused abandonedFrames 6 := by
  refine ⟨by decide +kernel, by decide +kernel, ?_⟩
  have bursts : ∀ burst < 6, burstAt abandonedFrames burst = false := by decide +kernel
  rintro (gap | ⟨burst, before, here, _⟩)
  · exact absurd gap (by decide +kernel)
  · exact absurd (here.symm.trans (bursts burst before)) (by decide)

end MisrcGui.Capture
