import Mathlib.Order.Interval.Finset.Nat
import MisrcGui.Capture.Verdict

/-! Synchronisation over an endless sequence of frames, from the initial state of the parser. -/
namespace MisrcGui.Capture

/-- A line whose payload length is valid, and whose idle words count on from `idleCnt`. -/
def cleanLine (frame : Frame) (idleCnt : UInt16) (index : Nat) : Bool × UInt16 :=
  let parsed := frame.parsed index
  let (idleErrors, idleCnt) :=
    frameCheckIdle idleCnt (frame.line index) parsed.payloadLen frame.width frame.hasStreamId
      frame.hasCrc
  (parsed.valid && idleErrors == 0, idleCnt)

def cleanLines (frame : Frame) : Nat → Nat → UInt16 → Bool
  | 0, _, _ => true
  | remaining + 1, index, idleCnt =>
    let (clean, idleCnt) := cleanLine frame idleCnt index
    clean && cleanLines frame remaining (index + 1) idleCnt

/-- No line error, with the idle words counting on from `idleCnt`. -/
def cleanFrame (idleCnt : UInt16) (frame : Frame) : Bool :=
  cleanLines frame frame.height 0 idleCnt

theorem scanLine_unsynced (frame : Frame) (line : Nat → UInt16) (parsed : ParsedLine)
    (scan : Scan) :
    (scanLine frame false false line parsed scan).idleErrors =
        scan.idleErrors + (frameCheckIdle scan.idleCnt line parsed.payloadLen frame.width
          frame.hasStreamId frame.hasCrc).1 ∧
      (scanLine frame false false line parsed scan).idleCnt =
        (frameCheckIdle scan.idleCnt line parsed.payloadLen frame.width frame.hasStreamId
          frame.hasCrc).2 ∧
      (scanLine frame false false line parsed scan).crcErrors = scan.crcErrors := by
  simp [scanLine]

theorem scanLines_clean {frame : Frame} {remaining index : Nat} {scan last : Scan}
    (h : scanLines frame false false remaining index scan = (last, true)) :
    scan.idleErrors ≤ last.idleErrors ∧
      (last.idleErrors = 0 → cleanLines frame remaining index scan.idleCnt = true) := by
  induction remaining generalizing index scan with
  | zero =>
    cases h
    exact ⟨Nat.le_refl _, fun _ => rfl⟩
  | succ remaining ih =>
    simp only [scanLines] at h
    split at h
    · next valid =>
      obtain ⟨grown, clean⟩ := ih h
      obtain ⟨errors, idleCnt, _⟩ :=
        scanLine_unsynced frame (frame.line index) (frame.parsed index) scan
      rw [errors] at grown
      rw [idleCnt] at clean
      refine ⟨by omega, fun none => ?_⟩
      have here : (frameCheckIdle scan.idleCnt (frame.line index) (frame.parsed index).payloadLen
          frame.width frame.hasStreamId frame.hasCrc).1 = 0 := by omega
      simp only [cleanLines, cleanLine, valid, here, clean none, beq_self_eq_true, Bool.and_true]
    · cases h

theorem judgeFrame_unsynced (tolerance : Tolerance) {state : ParserState} (height : Nat)
    (scan : Scan) (syncResult : SyncResult) (unsynced : state.streamSynced = false) :
    (judgeFrame tolerance state syncResult height scan).2.valid = false ∧
      (judgeFrame tolerance state syncResult height scan).1.reprimeFrames =
        state.reprimeFrames - 1 ∧
      ((judgeFrame tolerance state syncResult height scan).1.streamSynced = false ∧
          (judgeFrame tolerance state syncResult height scan).2.syncResult = syncResult ∨
        (judgeFrame tolerance state syncResult height scan).1.streamSynced = true ∧
          (judgeFrame tolerance state syncResult height scan).2.syncResult = .acquired ∧
          scan.errorCount = 0 ∧ state.inOrderCnt > syncThreshold) := by
  simp only [judgeFrame, unsynced, Bool.and_false, Bool.false_and, Bool.false_eq_true, if_false,
    Bool.not_false, Bool.true_and]
  split
  · next acquired =>
    simp only [Bool.and_eq_true, beq_iff_eq, decide_eq_true_eq] at acquired
    exact ⟨rfl, rfl, Or.inr ⟨rfl, rfl, acquired⟩⟩
  · exact ⟨rfl, rfl, Or.inl ⟨rfl, rfl⟩⟩

theorem judgeFrame_order (tolerance : Tolerance) (state : ParserState) (syncResult : SyncResult)
    (height : Nat) (scan : Scan) :
    (judgeFrame tolerance state syncResult height scan).1.inOrderCnt = state.inOrderCnt := by
  simp only [judgeFrame]
  split
  · rfl
  · split
    · rfl
    · split <;> rfl

/-- What a frame does that carries the magic number and is no duplicate. -/
structure Taken (state : ParserState) (frame : Frame) (after : ParserState)
    (result : ProcessResult) : Prop where
  counter : after.lastFrameCnt = frame.metadata.framecounter
  order : after.inOrderCnt =
    if frame.metadata.framecounter = state.lastFrameCnt + 1 then state.inOrderCnt + 1 else 0
  present : result.syncResult ≠ .lost
  synced : state.streamSynced = true →
    after.streamSynced = true ∧ result.syncResult ≠ .acquired
  unsynced : state.streamSynced = false → result.valid = false ∧
    (state.reprimeFrames = 0 → after.reprimeFrames = 0) ∧
    (after.streamSynced = true ↔ result.syncResult = .acquired)
  acquired : result.syncResult = .acquired → state.reprimeFrames = 0 →
    after.inOrderCnt > syncThreshold ∧ cleanFrame state.idleCnt frame = true

inductive Handled (state : ParserState) (frame : Frame) (after : ParserState)
    (result : ProcessResult) : Prop where
  | lost (magic : frame.metadata.magic ≠ hsdaohMagic)
      (after_eq : after = { state with
        streamSynced := false
        inOrderCnt := 0
        nonSyncCnt := state.nonSyncCnt + 1
        reprimeFrames := 0 })
      (result_eq : result = ⟨.lost, 0, 0, 0, false, false⟩)
  | duplicate (magic : frame.metadata.magic = hsdaohMagic)
      (again : frame.metadata.framecounter = state.lastFrameCnt) (same : after = state)
      (result_eq : result = ⟨.duplicate, 0, 0, 0, false, false⟩)
  | taken (magic : frame.metadata.magic = hsdaohMagic)
      (new : frame.metadata.framecounter ≠ state.lastFrameCnt)
      (taken : Taken state frame after result)

theorem orderFrame_order (state : ParserState) (framecounter : UInt16) :
    (orderFrame state framecounter).1.inOrderCnt =
        (if framecounter = state.lastFrameCnt + 1 then state.inOrderCnt + 1 else 0) ∧
      (orderFrame state framecounter).1.streamSynced = state.streamSynced ∧
      (orderFrame state framecounter).2 ≠ .lost ∧
      (orderFrame state framecounter).2 ≠ .acquired ∧
      (state.streamSynced = false →
        (orderFrame state framecounter).1.reprimeFrames = state.reprimeFrames ∧
        (orderFrame state framecounter).1.idleCnt = state.idleCnt) := by
  unfold orderFrame
  by_cases next : framecounter = state.lastFrameCnt + 1
  · simp [next]
  · cases state.streamSynced <;> simp [next]

/-- A pass without suppression over an unsynchronised frame tells whether its lines are clean. -/
theorem scanFrame_clean {state : ParserState} {frame : Frame} {scan : Scan}
    (unsynced : state.streamSynced = false) (primed : state.reprimeFrames = 0)
    (h : scanFrame state frame = (scan, true)) (none : scan.errorCount = 0) :
    cleanFrame state.idleCnt frame = true := by
  rw [scanFrame, unsynced, primed, show decide (0 > 0) = false from rfl] at h
  apply (scanLines_clean h).2
  unfold Scan.errorCount at none
  omega

theorem frameProcess_new (tolerance : Tolerance) {state : ParserState} {frame : Frame}
    (magic : frame.metadata.magic = hsdaohMagic)
    (new : frame.metadata.framecounter ≠ state.lastFrameCnt) :
    Taken state frame (frameProcess tolerance state frame).1
      (frameProcess tolerance state frame).2 := by
  obtain ⟨order, standing, present, early, unprimed⟩ :=
    orderFrame_order state frame.metadata.framecounter
  have counter := orderFrame_taken state frame.metadata.framecounter
  rw [frameProcess, if_neg (not_not_intro magic), if_neg new]
  generalize orderFrame state frame.metadata.framecounter = passed at *
  obtain ⟨ordered, syncResult⟩ := passed
  dsimp only at order standing present early unprimed counter ⊢
  cases scanned : scanFrame ordered frame with
  | mk scan complete =>
    dsimp only
    cases complete with
    | false =>
      refine ⟨counter, order, present, fun synced => ⟨standing.trans synced, early⟩, ?_, ?_⟩
      · intro unsynced
        refine ⟨rfl, fun primed => (unprimed unsynced).1.trans primed, ?_⟩
        simp [standing, unsynced, early]
      · exact fun acquired => absurd acquired early
    | true =>
      rw [if_pos rfl]
      have counted := judgeFrame_order tolerance
        { ordered with lastCrc := scan.lastCrc, idleCnt := scan.idleCnt } syncResult frame.height
        scan
      have handed := judgeFrame_taken tolerance
        { ordered with lastCrc := scan.lastCrc, idleCnt := scan.idleCnt } syncResult frame.height
        scan
      cases synced : state.streamSynced with
      | true =>
        have before : ({ ordered with
            lastCrc := scan.lastCrc
            idleCnt := scan.idleCnt } : ParserState).streamSynced = true := standing.trans synced
        obtain ⟨after, _, same⟩ := judgeFrame_synced tolerance frame.height scan syncResult before
        refine ⟨handed.trans counter, counted.trans order, ?_, ?_, ?_, ?_⟩
        · rw [same]
          exact present
        · intro _
          rw [same]
          exact ⟨after, early⟩
        · intro unsynced
          rw [synced] at unsynced
          contradiction
        · intro acquired
          rw [same] at acquired
          contradiction
      | false =>
        have before : ({ ordered with
            lastCrc := scan.lastCrc
            idleCnt := scan.idleCnt } : ParserState).streamSynced = false := standing.trans synced
        obtain ⟨invalid, reprime, exits⟩ :=
          judgeFrame_unsynced tolerance frame.height scan syncResult before
        obtain ⟨sameReprime, sameIdle⟩ := unprimed synced
        refine ⟨handed.trans counter, counted.trans order, ?_, ?_, ?_, ?_⟩
        · rcases exits with ⟨_, same⟩ | ⟨_, acquired, _⟩
          · rw [same]
            exact present
          · rw [acquired]
            decide
        · intro already
          rw [synced] at already
          contradiction
        · intro _
          refine ⟨invalid, ?_, ?_⟩
          · intro primed
            rw [reprime, sameReprime, primed]
          · rcases exits with ⟨after, same⟩ | ⟨after, acquired, _⟩
            · simp [after, same, early]
            · simp [after, acquired]
        · intro acquired primed
          rcases exits with ⟨_, same⟩ | ⟨_, _, clean, more⟩
          · rw [same] at acquired
            contradiction
          · refine ⟨?_, ?_⟩
            · rw [counted]
              exact more
            · rw [← sameIdle]
              exact scanFrame_clean (standing.trans synced) (sameReprime.trans primed) scanned clean

theorem frameProcess_handled (tolerance : Tolerance) (state : ParserState) (frame : Frame) :
    Handled state frame (frameProcess tolerance state frame).1
      (frameProcess tolerance state frame).2 := by
  by_cases magic : frame.metadata.magic = hsdaohMagic
  · by_cases again : frame.metadata.framecounter = state.lastFrameCnt
    · refine Handled.duplicate magic again ?_ ?_
      · rw [frameProcess, if_neg (not_not_intro magic), if_pos again]
      · rw [frameProcess, if_neg (not_not_intro magic), if_pos again]
    · exact Handled.taken magic again (frameProcess_new tolerance magic again)
  · refine Handled.lost magic ?_ ?_
    · rw [frameProcess, if_pos magic]
    · rw [frameProcess, if_pos magic]

section Sequence
variable (tolerance : Tolerance) (frames : Nat → Frame)

def parserBefore : Nat → ParserState
  | 0 => frameParserInit
  | index + 1 => (frameProcess tolerance (parserBefore index) (frames index)).1

def report (index : Nat) : ProcessResult :=
  (frameProcess tolerance (parserBefore tolerance frames index) (frames index)).2

def isMisrc (index : Nat) : Bool := (frames index).metadata.magic == hsdaohMagic

/-- The counter of the last frame in front that carries the magic number, at first zero. -/
def counterBefore : Nat → UInt16
  | 0 => 0
  | index + 1 =>
    if isMisrc frames index then (frames index).metadata.framecounter else counterBefore index

def advances (index : Nat) : Bool :=
  (frames index).metadata.framecounter == counterBefore frames index + 1

def repeats (index : Nat) : Bool :=
  (frames index).metadata.framecounter == counterBefore frames index

/-- From `first` to `last` every frame carries the magic number and advances the counter by one
or repeats it; `count` of them advance it. -/
structure Stretch (first last count : Nat) : Prop where
  ordered : first ≤ last
  steady : ∀ index, first ≤ index → index < last →
    isMisrc frames index = true ∧ (advances frames index = true ∨ repeats frames index = true)
  counted : ((Finset.Ico first last).filter fun index => advances frames index = true).card = count

structure Tracking (index : Nat) : Prop where
  counter : (parserBefore tolerance frames index).lastFrameCnt = counterBefore frames index
  stretch : ∃ first,
    Stretch frames first index (parserBefore tolerance frames index).inOrderCnt
  primed : (parserBefore tolerance frames index).streamSynced = false →
    (parserBefore tolerance frames index).reprimeFrames = 0
  acquired : (parserBefore tolerance frames index).streamSynced = true →
    ∃ acquiring, acquiring < index ∧
      (report tolerance frames acquiring).syncResult = .acquired ∧
      ∀ later, acquiring < later → later < index →
        (report tolerance frames later).syncResult ≠ .lost

variable {tolerance frames}

theorem Stretch.empty (index : Nat) : Stretch frames index index 0 := by
  refine ⟨Nat.le_refl _, fun later low high => by omega, ?_⟩
  rw [Finset.Ico_self]
  rfl

theorem Stretch.advance {first last count : Nat} (stretch : Stretch frames first last count)
    (misrc : isMisrc frames last = true) (next : advances frames last = true) :
    Stretch frames first (last + 1) (count + 1) := by
  refine ⟨Nat.le_succ_of_le stretch.ordered, ?_, ?_⟩
  · intro index low high
    rcases Nat.lt_succ_iff_lt_or_eq.mp high with before | same
    · exact stretch.steady index low before
    · rw [same]
      exact ⟨misrc, Or.inl next⟩
  · rw [Nat.Ico_succ_right_eq_insert_Ico stretch.ordered, Finset.filter_insert,
      if_pos next, Finset.card_insert_of_notMem, stretch.counted]
    simp

theorem Stretch.repeat {first last count : Nat} (stretch : Stretch frames first last count)
    (misrc : isMisrc frames last = true) (again : repeats frames last = true)
    (still : advances frames last = false) : Stretch frames first (last + 1) count := by
  refine ⟨Nat.le_succ_of_le stretch.ordered, ?_, ?_⟩
  · intro index low high
    rcases Nat.lt_succ_iff_lt_or_eq.mp high with before | same
    · exact stretch.steady index low before
    · rw [same]
      exact ⟨misrc, Or.inr again⟩
  · rw [Nat.Ico_succ_right_eq_insert_Ico stretch.ordered, Finset.filter_insert,
      if_neg (by rw [still]; exact Bool.false_ne_true), stretch.counted]

theorem initial_tracking : Tracking tolerance frames 0 := by
  refine ⟨rfl, ⟨0, Stretch.empty 0⟩, fun _ => rfl, ?_⟩
  intro synced
  exact absurd synced Bool.false_ne_true

theorem acquired_later {index : Nat}
    (earlier : ∃ acquiring, acquiring < index ∧
      (report tolerance frames acquiring).syncResult = .acquired ∧
      ∀ later, acquiring < later → later < index →
        (report tolerance frames later).syncResult ≠ .lost)
    (present : (report tolerance frames index).syncResult ≠ .lost) :
    ∃ acquiring, acquiring < index + 1 ∧
      (report tolerance frames acquiring).syncResult = .acquired ∧
      ∀ later, acquiring < later → later < index + 1 →
        (report tolerance frames later).syncResult ≠ .lost := by
  obtain ⟨acquiring, before, event, since⟩ := earlier
  refine ⟨acquiring, Nat.lt_succ_of_lt before, event, ?_⟩
  intro later low high
  rcases Nat.lt_succ_iff_lt_or_eq.mp high with inside | same
  · exact since later low inside
  · rw [same]
    exact present

theorem Tracking.lost {index : Nat} (magic : isMisrc frames index = false)
    (tracking : Tracking tolerance frames index)
    (after : parserBefore tolerance frames (index + 1) =
      { parserBefore tolerance frames index with
        streamSynced := false
        inOrderCnt := 0
        nonSyncCnt := (parserBefore tolerance frames index).nonSyncCnt + 1
        reprimeFrames := 0 }) :
    Tracking tolerance frames (index + 1) := by
  refine ⟨?_, ⟨index + 1, ?_⟩, ?_, ?_⟩
  · rw [after, counterBefore, magic, if_neg Bool.false_ne_true]
    exact tracking.counter
  · rw [after]
    exact Stretch.empty (index + 1)
  · intro _
    rw [after]
  · intro synced
    rw [after] at synced
    exact absurd synced Bool.false_ne_true

theorem Tracking.duplicate {index : Nat} (magic : isMisrc frames index = true)
    (again : (frames index).metadata.framecounter =
      (parserBefore tolerance frames index).lastFrameCnt)
    (tracking : Tracking tolerance frames index)
    (same : parserBefore tolerance frames (index + 1) = parserBefore tolerance frames index)
    (present : (report tolerance frames index).syncResult ≠ .lost) :
    Tracking tolerance frames (index + 1) := by
  have counter := again.trans tracking.counter
  obtain ⟨first, stretch⟩ := tracking.stretch
  refine ⟨?_, ⟨first, ?_⟩, ?_, ?_⟩
  · rw [same, counterBefore, magic, if_pos rfl, again]
  · rw [same]
    apply stretch.repeat magic
    · rw [repeats, counter, beq_self_eq_true]
    · rw [advances, counter, beq_eq_false_iff_ne]
      intro ahead
      have apart := congrArg UInt16.toNat ahead
      rw [UInt16.toNat_add] at apart
      have small := (counterBefore frames index).toNat_lt
      change _ = (_ + 1) % 2 ^ 16 at apart
      omega
  · rw [same]
    exact tracking.primed
  · intro synced
    rw [same] at synced
    exact acquired_later (tracking.acquired synced) present

theorem Tracking.taken {index : Nat} (magic : isMisrc frames index = true)
    (tracking : Tracking tolerance frames index)
    (taken : Taken (parserBefore tolerance frames index) (frames index)
      (parserBefore tolerance frames (index + 1)) (report tolerance frames index)) :
    Tracking tolerance frames (index + 1) := by
  obtain ⟨first, stretch⟩ := tracking.stretch
  have order := taken.order
  rw [tracking.counter] at order
  refine ⟨?_, ?_, ?_, ?_⟩
  · rw [taken.counter, counterBefore, magic, if_pos rfl]
  · by_cases next : (frames index).metadata.framecounter = counterBefore frames index + 1
    · rw [order, if_pos next]
      refine ⟨first, stretch.advance magic ?_⟩
      rw [advances, next, beq_self_eq_true]
    · rw [order, if_neg next]
      exact ⟨index + 1, Stretch.empty (index + 1)⟩
  · intro unsynced
    cases synced : (parserBefore tolerance frames index).streamSynced with
    | true =>
      rw [(taken.synced synced).1] at unsynced
      contradiction
    | false => exact (taken.unsynced synced).2.1 (tracking.primed synced)
  · intro after
    cases synced : (parserBefore tolerance frames index).streamSynced with
    | true => exact acquired_later (tracking.acquired synced) taken.present
    | false =>
      refine ⟨index, Nat.lt_succ_self index, (taken.unsynced synced).2.2.mp after, ?_⟩
      intro later low high
      omega

theorem tracking (index : Nat) : Tracking tolerance frames index := by
  induction index with
  | zero => exact initial_tracking
  | succ index ih =>
    cases frameProcess_handled tolerance (parserBefore tolerance frames index) (frames index) with
    | lost magic after result =>
      exact ih.lost (beq_eq_false_iff_ne.mpr magic) after
    | duplicate magic again same result =>
      refine ih.duplicate (beq_iff_eq.mpr magic) again same ?_
      rw [report, result]
      decide
    | taken magic new taken => exact ih.taken (beq_iff_eq.mpr magic) taken

theorem valid_synced {index : Nat} (valid : (report tolerance frames index).valid = true) :
    (parserBefore tolerance frames index).streamSynced = true ∧
      (report tolerance frames index).syncResult ≠ .lost := by
  cases frameProcess_handled tolerance (parserBefore tolerance frames index) (frames index) with
  | lost magic after result =>
    rw [report, result] at valid
    exact absurd valid Bool.false_ne_true
  | duplicate magic again same result =>
    rw [report, result] at valid
    exact absurd valid Bool.false_ne_true
  | taken magic new taken =>
    refine ⟨?_, taken.present⟩
    by_contra unsynced
    rw [Bool.not_eq_true] at unsynced
    exact absurd (valid.symm.trans (taken.unsynced unsynced).1) Bool.false_ne_true.symm

theorem acquired_taken {index : Nat}
    (acquired : (report tolerance frames index).syncResult = .acquired) :
    (parserBefore tolerance frames index).streamSynced = false ∧
      Taken (parserBefore tolerance frames index) (frames index)
        (parserBefore tolerance frames (index + 1)) (report tolerance frames index) := by
  cases frameProcess_handled tolerance (parserBefore tolerance frames index) (frames index) with
  | lost magic after result =>
    rw [report, result] at acquired
    contradiction
  | duplicate magic again same result =>
    rw [report, result] at acquired
    contradiction
  | taken magic new taken =>
    refine ⟨?_, taken⟩
    by_contra synced
    rw [Bool.not_eq_false] at synced
    exact (taken.synced synced).2 acquired

/-- A valid frame follows an acquisition with no loss in between. An acquisition is reported on a
frame with valid and undisturbed lines, after more frames than the threshold that each advanced
the counter by one, with nothing but repeats of the counter among them. -/
theorem synchronisation_safe (tolerance : Tolerance) (frames : Nat → Frame) (index : Nat) :
    ((report tolerance frames index).valid = true →
        ∃ acquiring, acquiring < index ∧
          (report tolerance frames acquiring).syncResult = .acquired ∧
          ∀ later, acquiring < later → later ≤ index →
            (report tolerance frames later).syncResult ≠ .lost) ∧
      ((report tolerance frames index).syncResult = .acquired →
        (∃ first count, Stretch frames first (index + 1) count ∧ count > syncThreshold ∧
          advances frames index = true) ∧
        cleanFrame (parserBefore tolerance frames index).idleCnt (frames index) = true) := by
  have before : Tracking tolerance frames index := tracking index
  have after : Tracking tolerance frames (index + 1) := tracking (index + 1)
  refine ⟨fun valid => ?_, fun acquired => ?_⟩
  · obtain ⟨synced, present⟩ := valid_synced valid
    obtain ⟨acquiring, earlier, event, since⟩ := before.acquired synced
    refine ⟨acquiring, earlier, event, fun later low high => ?_⟩
    rcases Nat.lt_or_eq_of_le high with inside | same
    · exact since later low inside
    · rw [same]
      exact present
  · obtain ⟨unsynced, taken⟩ := acquired_taken acquired
    obtain ⟨more, clean⟩ := taken.acquired acquired (before.primed unsynced)
    obtain ⟨first, stretch⟩ := after.stretch
    refine ⟨⟨first, _, stretch, more, ?_⟩, clean⟩
    by_contra still
    rw [advances, beq_iff_eq, ← before.counter] at still
    have order := taken.order
    rw [if_neg still] at order
    change (parserBefore tolerance frames (index + 1)).inOrderCnt = 0 at order
    omega

end Sequence

def countingFrames (index : Nat) : Frame :=
  ⟨2, 1, fun _ => 1, ⟨hsdaohMagic, UInt16.ofNat (index + 1), crcNone, 0, 0⟩, false⟩

theorem synchronisation_safe_sixth :
    (report defaultTolerance countingFrames 5).valid = true ∧
      ∃ acquiring, acquiring < 5 ∧
        (report defaultTolerance countingFrames acquiring).syncResult = .acquired := by
  have valid : (report defaultTolerance countingFrames 5).valid = true := by decide +kernel
  have safe := (synchronisation_safe defaultTolerance countingFrames 5).1 valid
  obtain ⟨acquiring, earlier, event, _⟩ := safe
  exact ⟨valid, acquiring, earlier, event⟩

/-- Every frame but the last comes twice, and no CRC word is that of the line before. -/
def repeatedFrames (index : Nat) : Frame :=
  ⟨3, 1, fun _ => 1, ⟨hsdaohMagic, UInt16.ofNat (index / 2 + 1), crc16OneLine, 0, 20000000⟩, false⟩

/-- Frame 8 acquires behind two repeats among the five frames up to it, and with a CRC mismatch
in its line. -/
theorem acquired_over_repeats :
    (report defaultTolerance repeatedFrames 8).syncResult = .acquired ∧
      (¬ ∀ index, index ≤ 8 → 8 ≤ index + syncThreshold →
        advances repeatedFrames index = true) ∧
      ((repeatedFrames 8).parsed 0).crc ≠
        (parserBefore defaultTolerance repeatedFrames 8).lastCrc.1 := by
  refine ⟨by decide +kernel, ?_, by decide +kernel⟩
  intro consecutive
  exact absurd (consecutive 7 (by decide) (by decide)) (by decide)

end MisrcGui.Capture
