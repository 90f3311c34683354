import MisrcGui.Capture.Callback
import MisrcGui.Capture.Verdict

/-! What one call of the capture callback does to its counters and to the parser. -/
namespace MisrcGui.Capture

variable {tolerance : Tolerance} {app after : App} {delivery : Delivery}

/-- The callback leaves the observer's side alone, and its three 64-bit counters only grow. -/
structure Kept (app after : App) : Prop where
  commits : after.commits = app.commits
  seen : after.observerSeen = app.observerSeen ∧ after.seenParser = app.seenParser ∧
    after.seenDrops = app.seenDrops ∧ after.seenEpoch = app.seenEpoch
  committed : after.committedErrors = app.committedErrors ∧
    after.committedDrops = app.committedDrops
  written : after.bytesWritten = app.bytesWritten
  errors : app.parserErrorCount ≤ after.parserErrorCount
  drops : app.writeDrops ≤ after.writeDrops
  epoch : app.rfStreamEpoch ≤ after.rfStreamEpoch

theorem Kept.trans {later : App} (first : Kept app after) (second : Kept after later) :
    Kept app later where
  commits := second.commits.trans first.commits
  seen := ⟨second.seen.1.trans first.seen.1, second.seen.2.1.trans first.seen.2.1,
    second.seen.2.2.1.trans first.seen.2.2.1, second.seen.2.2.2.trans first.seen.2.2.2⟩
  committed := ⟨second.committed.1.trans first.committed.1,
    second.committed.2.trans first.committed.2⟩
  written := second.written.trans first.written
  errors := Nat.le_trans first.errors second.errors
  drops := Nat.le_trans first.drops second.drops
  epoch := Nat.le_trans first.epoch second.epoch

theorem syncEvent_kept (app : App) (syncResult : SyncResult) :
    Kept app (syncEvent app syncResult) := by
  cases syncResult <;>
    exact ⟨rfl, ⟨rfl, rfl, rfl, rfl⟩, ⟨rfl, rfl⟩, rfl, Nat.le_refl _, Nat.le_refl _,
      by simp [syncEvent]⟩

theorem syncEvent_state (app : App) (syncResult : SyncResult) :
    (syncEvent app syncResult).parser = app.parser := by
  cases syncResult <;> rfl

theorem syncEvent_epoch (app : App) {syncResult : SyncResult}
    (gap : syncResult = .lost ∨ syncResult = .missed) :
    app.rfStreamEpoch < (syncEvent app syncResult).rfStreamEpoch := by
  rcases gap with rfl | rfl <;> exact Nat.lt_succ_self _

theorem handleResult_kept (app : App) (delivery : Delivery) (result : ProcessResult) :
    Kept app (handleResult app delivery result).1 ∧
      (handleResult app delivery result).1.parser = app.parser := by
  have same : Kept app app :=
    ⟨rfl, ⟨rfl, rfl, rfl, rfl⟩, ⟨rfl, rfl⟩, rfl, Nat.le_refl _, Nat.le_refl _, Nat.le_refl _⟩
  simp only [handleResult]
  split
  · exact ⟨same, rfl⟩
  · split
    · exact ⟨same, rfl⟩
    · split
      · exact ⟨{ same with errors := Nat.le_add_right _ _ }, rfl⟩
      · split
        · exact ⟨same, rfl⟩
        · split
          · exact ⟨{ same with }, rfl⟩
          · exact ⟨{ same with drops := Nat.le_add_right _ _ }, rfl⟩

theorem handleResult_some {result : ProcessResult} {bytes : Nat}
    (h : handleResult app delivery result = (after, some bytes)) :
    app.parser.streamSynced = true ∧ result.syncResult ≠ .lost ∧
      result.syncResult ≠ .duplicate ∧ 0 < bytes ∧
      after.parserErrorCount = app.parserErrorCount ∧ after.writeDrops = app.writeDrops := by
  simp only [handleResult] at h
  split at h
  · cases h
  · next gap =>
    split at h
    · cases h
    · next synced =>
      split at h
      · cases h
      · split at h
        · cases h
        · next useful =>
          split at h
          · cases h
            simp only [not_or] at gap
            simp only [Bool.not_eq_true', Bool.not_eq_false] at synced
            refine ⟨synced, gap.1, gap.2, ?_, rfl, rfl⟩
            apply Nat.pos_of_ne_zero
            intro zero
            simp [zero] at useful
          · cases h

theorem guiCaptureCallback_kept (tolerance : Tolerance) (app : App) (delivery : Delivery) :
    Kept app (guiCaptureCallback tolerance app delivery).1 := by
  have same : Kept app app :=
    ⟨rfl, ⟨rfl, rfl, rfl, rfl⟩, ⟨rfl, rfl⟩, rfl, Nat.le_refl _, Nat.le_refl _, Nat.le_refl _⟩
  simp only [guiCaptureCallback]
  split
  · exact { same with }
  · split
    · exact { same with }
    · split
      · exact { same with }
      · apply Kept.trans _ (handleResult_kept _ _ _).1
        apply Kept.trans _ (syncEvent_kept _ _)
        exact { same with }

theorem guiCaptureCallback_turnedAway (tolerance : Tolerance)
    (away : turnedAway app delivery = true) :
    (guiCaptureCallback tolerance app delivery).2 = none ∧
      (guiCaptureCallback tolerance app delivery).1.parser = app.parser := by
  simp only [turnedAway, Bool.or_eq_true] at away
  simp only [guiCaptureCallback]
  split
  · exact ⟨rfl, rfl⟩
  · next gap =>
    split
    · exact ⟨rfl, rfl⟩
    · next size =>
      split
      · exact ⟨rfl, rfl⟩
      · next working =>
        simp only [Bool.or_eq_true] at size
        rcases away with ((away | away) | away) | away
        · exact absurd away gap
        · exact absurd (Or.inl away) size
        · exact absurd (Or.inr away) size
        · exact absurd away working

def parsedApp (tolerance : Tolerance) (app : App) (delivery : Delivery) : App :=
  syncEvent { app with
      previousCallbackTime := delivery.now
      parser := (frameProcess tolerance app.parser delivery.frame).1 }
    (frameProcess tolerance app.parser delivery.frame).2.syncResult

theorem guiCaptureCallback_parsed (parsed : turnedAway app delivery = false) :
    guiCaptureCallback tolerance app delivery =
      handleResult (parsedApp tolerance app delivery) delivery
        (frameProcess tolerance app.parser delivery.frame).2 := by
  simp only [turnedAway, Bool.or_eq_false_iff] at parsed
  obtain ⟨⟨⟨gap, width⟩, height⟩, working⟩ := parsed
  simp only [guiCaptureCallback, gap, width, height, working, Bool.or_self, Bool.false_eq_true,
    if_false]
  rfl

def Grown (app after : App) : Prop :=
  app.parserErrorCount < after.parserErrorCount ∨ app.writeDrops < after.writeDrops ∨
    app.rfStreamEpoch < after.rfStreamEpoch

theorem Grown.after_kept {parsed : App} (kept : Kept app parsed) (grown : Grown parsed after) :
    Grown app after := by
  have errors := kept.errors
  have drops := kept.drops
  have epoch := kept.epoch
  unfold Grown at grown ⊢
  omega

theorem Grown.then_kept {parsed : App} (grown : Grown app parsed) (kept : Kept parsed after) :
    Grown app after := by
  have errors := kept.errors
  have drops := kept.drops
  have epoch := kept.epoch
  unfold Grown at grown ⊢
  omega

theorem parsedApp_kept (tolerance : Tolerance) (app : App) (delivery : Delivery) :
    Kept app (parsedApp tolerance app delivery) := by
  apply Kept.trans _ (syncEvent_kept _ _)
  exact ⟨rfl, ⟨rfl, rfl, rfl, rfl⟩, ⟨rfl, rfl⟩, rfl, Nat.le_refl _, Nat.le_refl _, Nat.le_refl _⟩

theorem parsedApp_state (tolerance : Tolerance) (app : App) (delivery : Delivery) :
    (parsedApp tolerance app delivery).parser =
      (frameProcess tolerance app.parser delivery.frame).1 :=
  syncEvent_state _ _

theorem parsedApp_counts (tolerance : Tolerance) (app : App) (delivery : Delivery) :
    (parsedApp tolerance app delivery).parserErrorCount = app.parserErrorCount ∧
      (parsedApp tolerance app delivery).writeDrops = app.writeDrops := by
  unfold parsedApp
  cases (frameProcess tolerance app.parser delivery.frame).2.syncResult <;> exact ⟨rfl, rfl⟩

theorem parsedApp_grown (gap :
    (frameProcess tolerance app.parser delivery.frame).2.syncResult = .lost ∨
      (frameProcess tolerance app.parser delivery.frame).2.syncResult = .missed) :
    Grown app (parsedApp tolerance app delivery) :=
  Or.inr (Or.inr (syncEvent_epoch
    { app with
      previousCallbackTime := delivery.now
      parser := (frameProcess tolerance app.parser delivery.frame).1 } gap))

theorem handleResult_grown {result : ProcessResult} (synced : app.parser.streamSynced = true)
    (sync : result.syncResult = .ok) (some : result.errorCount > 0)
    (report : result.reportErrors = true) :
    Grown app (handleResult app delivery result).1 := by
  simp only [handleResult, sync, synced, some, report]
  exact Or.inl (Nat.lt_add_of_pos_right some)

theorem handleResult_none (delivery : Delivery) {result : ProcessResult}
    (synced : app.parser.streamSynced = true) (sync : result.syncResult = .ok)
    (unreported : result.reportErrors = false) (valid : result.valid = true)
    (bytes : result.stream0Bytes ≠ 0) :
    (handleResult app delivery result).2 ≠ none ∨
      Grown app (handleResult app delivery result).1 := by
  simp only [handleResult, sync, synced, unreported, valid, beq_eq_false_iff_ne.mpr bytes]
  by_cases room : delivery.room = true
  · exact Or.inl (by simp [room])
  · exact Or.inr (Or.inr (Or.inl (by simp [room])))

inductive Outcome (tolerance : Tolerance) (app : App) (delivery : Delivery) (after : App)
    (bytes : Option Nat) : Prop where
  | counted (grown : Grown app after)
  | unchanged (dropped : bytes = none) (same : after.parser = app.parser)
      (known : turnedAway app delivery = true ∨
        delivery.frame.metadata.framecounter = app.parser.lastFrameCnt)
  | inOrder (parsed : turnedAway app delivery = false)
      (synced : after.parser.streamSynced = true)
      (magic : delivery.frame.metadata.magic = hsdaohMagic)
      (next : delivery.frame.metadata.framecounter = app.parser.lastFrameCnt + 1)
      (taken : after.parser.lastFrameCnt = delivery.frame.metadata.framecounter)
      (silent : bytes = none → carriesRf delivery.frame = true →
        droppedUncounted tolerance app delivery = true)

theorem droppedUncounted_of (parsed : turnedAway app delivery = false)
    (synced : app.parser.streamSynced = true) (carries : carriesRf delivery.frame = true)
    (magic : delivery.frame.metadata.magic = hsdaohMagic)
    (next : delivery.frame.metadata.framecounter = app.parser.lastFrameCnt + 1)
    (exit : (!(scanFrame (orderFrame app.parser delivery.frame.metadata.framecounter).1
          delivery.frame).2 ||
        idleDesyncBurst tolerance delivery.frame.height
          (scanFrame (orderFrame app.parser delivery.frame.metadata.framecounter).1
            delivery.frame).1) = true) :
    droppedUncounted tolerance app delivery = true := by
  simp only [droppedUncounted, parsed, synced, carries, magic, exit, Bool.not_false, Bool.and_true,
    beq_self_eq_true]
  exact beq_iff_eq.mpr next

theorem handleResult_outcome {parsed : App} {result : ProcessResult}
    (here : turnedAway app delivery = false) (synced : app.parser.streamSynced = true)
    (kept : Kept app parsed)
    (gap : result.syncResult = .lost ∨ result.syncResult = .missed → Grown app parsed)
    (taken : result.syncResult = .ok →
      parsed.parser.lastFrameCnt = delivery.frame.metadata.framecounter)
    (processed : Processed tolerance app.parser delivery.frame parsed.parser result) :
    Outcome tolerance app delivery (handleResult parsed delivery result).1
      (handleResult parsed delivery result).2 := by
  have handled := handleResult_kept parsed delivery result
  cases processed with
  | lost sync => exact .counted ((gap (Or.inl sync)).then_kept handled.1)
  | missed sync => exact .counted ((gap (Or.inr sync)).then_kept handled.1)
  | duplicate sync same again =>
    refine .unchanged ?_ ?_ (Or.inr again)
    · simp [handleResult, sync]
    · rw [handled.2, same]
  | inOrder sync standing magic next verdict =>
    have position (silent : (handleResult parsed delivery result).2 = none →
        carriesRf delivery.frame = true → droppedUncounted tolerance app delivery = true) :
        Outcome tolerance app delivery (handleResult parsed delivery result).1
          (handleResult parsed delivery result).2 := by
      refine .inOrder here ?_ magic next ?_ silent
      · rw [handled.2]
        exact standing
      · rw [handled.2]
        exact taken sync
    cases verdict with
    | uncounted invalid unreported exit =>
      apply position
      intro _ carries
      exact droppedUncounted_of here synced carries magic next exit
    | reported some report =>
      exact .counted (Grown.after_kept kept (handleResult_grown standing sync some report))
    | accepted valid unreported rf =>
      by_cases none : result.stream0Bytes = 0
      · apply position
        intro _ carries
        exact absurd carries (by simp [rf none])
      · cases handleResult_none delivery standing sync unreported valid none with
        | inl going =>
          apply position
          intro dropped
          exact absurd dropped going
        | inr moved => exact .counted (Grown.after_kept kept moved)

theorem guiCaptureCallback_outcome (tolerance : Tolerance) (delivery : Delivery)
    (synced : app.parser.streamSynced = true) :
    Outcome tolerance app delivery (guiCaptureCallback tolerance app delivery).1
      (guiCaptureCallback tolerance app delivery).2 := by
  by_cases away : turnedAway app delivery = true
  · obtain ⟨dropped, same⟩ := guiCaptureCallback_turnedAway tolerance away
    exact .unchanged dropped same (Or.inl away)
  · rw [Bool.not_eq_true] at away
    rw [guiCaptureCallback_parsed away]
    apply handleResult_outcome away synced (parsedApp_kept tolerance app delivery) parsedApp_grown
    · intro sync
      rw [parsedApp_state]
      exact frameProcess_taken tolerance app.parser delivery.frame
        (by rw [sync]; nofun) (by rw [sync]; nofun)
    · rw [parsedApp_state]
      exact frameProcess_synced tolerance delivery.frame synced

end MisrcGui.Capture
