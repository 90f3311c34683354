import MisrcGui.Capture.FrameParser

/-! The ways a frame leaves the parser, seen from the callback. -/
namespace MisrcGui.Capture

theorem scanLines_rf {frame : Frame} {suppress : Bool} {remaining index : Nat} {scan last : Scan}
    (h : scanLines frame true suppress remaining index scan = (last, true)) :
    scan.stream0Bytes ≤ last.stream0Bytes ∧ ∀ offset < remaining,
      (frame.parsed (index + offset)).payloadLen > 0 →
        (frame.parsed (index + offset)).streamId = 0 →
          scan.stream0Bytes < last.stream0Bytes := by
  induction remaining generalizing index scan with
  | zero =>
    cases h
    exact ⟨Nat.le_refl _, fun _ inside => absurd inside (Nat.not_lt_zero _)⟩
  | succ remaining ih =>
    simp only [scanLines] at h
    split at h
    · obtain ⟨grown, counted⟩ := ih h
      have step : scan.stream0Bytes ≤ (scanLine frame true suppress (frame.line index)
          (frame.parsed index) scan).stream0Bytes := Nat.le_add_right _ _
      refine ⟨Nat.le_trans step grown, ?_⟩
      intro offset inside payload rf
      cases offset with
      | zero =>
        apply Nat.lt_of_lt_of_le _ grown
        rw [Nat.add_zero] at payload rf
        simp only [scanLine, rf, if_true, payload, decide_true, Bool.and_true]
        omega
      | succ offset =>
        rw [Nat.add_comm offset, ← Nat.add_assoc] at payload rf
        exact Nat.lt_of_le_of_lt step (counted offset (Nat.lt_of_succ_lt_succ inside) payload rf)
    · cases h

variable {state : ParserState} (tolerance : Tolerance)

theorem carriesRf_of_bytes {frame : Frame} {scan : Scan} (synced : state.streamSynced = true)
    (h : scanFrame state frame = (scan, true)) (none : scan.stream0Bytes = 0) :
    carriesRf frame = false := by
  rw [scanFrame, synced] at h
  obtain ⟨_, counted⟩ := scanLines_rf h
  by_contra carries
  simp only [carriesRf, Bool.not_eq_false, List.any_eq_true, List.mem_range, Bool.and_eq_true,
    decide_eq_true_eq, beq_iff_eq] at carries
  obtain ⟨index, inside, ⟨_, payload⟩, rf⟩ := carries
  have more := counted index inside
  rw [Nat.zero_add] at more
  have positive := more payload rf
  omega

/-- The ways a frame that comes in order leaves the synchronised parser. -/
inductive Verdict (tolerance : Tolerance) (state : ParserState) (frame : Frame)
    (result : ProcessResult) : Prop where
  | uncounted (invalid : result.valid = false)
      (unreported : result.reportErrors = false)
      (exit : (!(scanFrame state frame).2 ||
        idleDesyncBurst tolerance frame.height (scanFrame state frame).1) = true)
  | reported (some : result.errorCount > 0) (report : result.reportErrors = true)
  | accepted (valid : result.valid = true) (unreported : result.reportErrors = false)
      (rf : result.stream0Bytes = 0 → carriesRf frame = false)

theorem judgeFrame_synced (height : Nat) (scan : Scan) (syncResult : SyncResult)
    (synced : state.streamSynced = true) :
    (judgeFrame tolerance state syncResult height scan).1.streamSynced = true ∧
      (judgeFrame tolerance state syncResult height scan).1.lastFrameCnt = state.lastFrameCnt ∧
      (judgeFrame tolerance state syncResult height scan).2.syncResult = syncResult := by
  simp only [judgeFrame, synced, Bool.not_true, Bool.false_and, Bool.false_eq_true, if_false,
    Bool.and_true]
  split
  · exact ⟨rfl, rfl, rfl⟩
  · split
    · exact ⟨rfl, rfl, rfl⟩
    · exact ⟨rfl, rfl, rfl⟩

theorem judgeFrame_verdict {tolerance : Tolerance} {ordered : ParserState} {frame : Frame}
    {scan : Scan} (syncResult : SyncResult) (synced : state.streamSynced = true)
    (before : ordered.streamSynced = true) (h : scanFrame ordered frame = (scan, true)) :
    Verdict tolerance ordered frame
      (judgeFrame tolerance state syncResult frame.height scan).2 := by
  simp only [judgeFrame, synced, Bool.not_true, Bool.false_and, Bool.false_eq_true, if_false,
    Bool.and_true]
  split
  · next burst =>
    apply Verdict.uncounted rfl rfl
    simp only [Bool.and_eq_true] at burst
    simp [h, burst.2]
  · split
    · next errors =>
      simp only [Bool.and_eq_true, decide_eq_true_eq] at errors
      exact Verdict.reported errors.1 rfl
    · apply Verdict.accepted rfl rfl
      exact carriesRf_of_bytes before h

inductive Processed (tolerance : Tolerance) (state : ParserState) (frame : Frame)
    (after : ParserState) (result : ProcessResult) : Prop where
  | lost (sync : result.syncResult = .lost)
  | duplicate (sync : result.syncResult = .duplicate) (same : after = state)
      (again : frame.metadata.framecounter = state.lastFrameCnt)
  | missed (sync : result.syncResult = .missed)
  | inOrder (sync : result.syncResult = .ok) (synced : after.streamSynced = true)
      (magic : frame.metadata.magic = hsdaohMagic)
      (next : frame.metadata.framecounter = state.lastFrameCnt + 1)
      (verdict : Verdict tolerance (orderFrame state frame.metadata.framecounter).1 frame result)

theorem orderFrame_synced (framecounter : UInt16) (synced : state.streamSynced = true) :
    (orderFrame state framecounter).1.streamSynced = true ∧
      (framecounter = state.lastFrameCnt + 1 ∧ (orderFrame state framecounter).2 = .ok ∨
        (orderFrame state framecounter).2 = .missed) := by
  unfold orderFrame
  by_cases next : framecounter = state.lastFrameCnt + 1
  · simp [next, synced]
  · simp [next, synced]

theorem orderFrame_taken (state : ParserState) (framecounter : UInt16) :
    (orderFrame state framecounter).1.lastFrameCnt = framecounter := by
  simp only [orderFrame]
  split
  · rfl
  · split <;> rfl

theorem judgeFrame_taken (state : ParserState) (syncResult : SyncResult) (height : Nat)
    (scan : Scan) :
    (judgeFrame tolerance state syncResult height scan).1.lastFrameCnt = state.lastFrameCnt := by
  simp only [judgeFrame]
  split
  · rfl
  · split
    · rfl
    · split <;> rfl

theorem frameProcess_taken (state : ParserState) (frame : Frame)
    (kept : (frameProcess tolerance state frame).2.syncResult ≠ .lost)
    (fresh : (frameProcess tolerance state frame).2.syncResult ≠ .duplicate) :
    (frameProcess tolerance state frame).1.lastFrameCnt = frame.metadata.framecounter := by
  unfold frameProcess at kept fresh ⊢
  split at kept
  · exact absurd rfl kept
  · next magic =>
    rw [if_neg magic] at fresh ⊢
    split at fresh
    · exact absurd rfl fresh
    · next new =>
      rw [if_neg new]
      dsimp only
      split
      · rw [judgeFrame_taken]
        exact orderFrame_taken state frame.metadata.framecounter
      · exact orderFrame_taken state frame.metadata.framecounter

theorem frameProcess_synced (frame : Frame) (synced : state.streamSynced = true) :
    Processed tolerance state frame (frameProcess tolerance state frame).1
      (frameProcess tolerance state frame).2 := by
  unfold frameProcess
  split
  · exact .lost rfl
  · next magic =>
    split
    · next again => exact .duplicate rfl rfl again
    · have order := orderFrame_synced frame.metadata.framecounter synced
      cases ordered : orderFrame state frame.metadata.framecounter with
      | mk taken syncResult =>
        rw [ordered] at order
        cases scanned : scanFrame taken frame with
        | mk scan complete =>
          cases complete with
          | true =>
            have primed : ({ taken with
                lastCrc := scan.lastCrc
                idleCnt := scan.idleCnt } : ParserState).streamSynced = true := order.1
            have judged := judgeFrame_synced tolerance frame.height scan syncResult primed
            simp only [scanned, if_true]
            rcases order.2 with ⟨next, rfl⟩ | rfl
            · apply Processed.inOrder judged.2.2 judged.1 (by simpa using magic) next
              rw [ordered]
              exact judgeFrame_verdict .ok order.1 order.1 scanned
            · exact .missed judged.2.2
          | false =>
            simp only [scanned, Bool.false_eq_true, if_false]
            rcases order.2 with ⟨next, rfl⟩ | rfl
            · refine Processed.inOrder rfl order.1 (by simpa using magic) next ?_
              rw [ordered]
              apply Verdict.uncounted rfl rfl
              rw [scanned]
              rfl
            · exact .missed rfl

end MisrcGui.Capture
