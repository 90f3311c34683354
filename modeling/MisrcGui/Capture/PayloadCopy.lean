import MisrcGui.Capture.Outcome
import MisrcGui.Library.SparseFile

/-! The bytes that the hsdaoh capture callback commits to the RF and the audio ring: the second
pass over a frame, `frame_copy_payloads_cb`, with the audio filter of the capture handler. -/
namespace MisrcGui.Capture
open Library
open SparseFile (pwrite)

abbrev Bytes := List UInt8

/-- The fields of `capture_handler_ctx_t` that the audio filter works on. -/
structure Handler where
  captureRf : Bool
  captureAudio : Bool
  audioSyncStage1 : Bool
  audioSyncStage2 : Bool

def Handler.resetAudioSync (handler : Handler) : Handler :=
  { handler with audioSyncStage1 := false, audioSyncStage2 := false }

def captureHandlerAudioFilter (handler : Handler) (streamId : UInt16) : Bool × Handler :=
  if streamId = 0 then (handler.captureRf, handler)
  else if streamId = 1 then
    if !handler.captureAudio then (false, handler)
    else if handler.audioSyncStage2 then (true, handler)
    else if handler.audioSyncStage1 then (false, { handler with audioSyncStage2 := true })
    else (false, { handler with audioSyncStage1 := true })
  else (false, handler)

def payload (frame : Frame) (index : Nat) : Bytes :=
  (List.range (frame.parsed index).payloadLen).flatMap fun word =>
    [(frame.line index word).toUInt8, (frame.line index word >>> 8).toUInt8]

/-- A destination of the copy: reserved bytes of a ring, or a null pointer. -/
structure Out where
  region : Option Bytes
  offset : Nat

def Out.put (out : Out) (data : Bytes) : Out :=
  match out.region with
  | none => out
  | some region => ⟨some (pwrite 0 region out.offset data), out.offset + data.length⟩

structure Copy where
  handler : Handler
  stream0 : Out
  stream1 : Out

def copyLine (frame : Frame) (index : Nat) (copy : Copy) : Copy :=
  let parsed := frame.parsed index
  if !parsed.valid || parsed.payloadLen == 0 then copy
  else
    let (passed, handler) := captureHandlerAudioFilter copy.handler parsed.streamId
    let copy := { copy with handler }
    if !passed then copy
    else if parsed.streamId = 0 then
      { copy with stream0 := copy.stream0.put (payload frame index) }
    else if parsed.streamId = 1 then
      { copy with stream1 := copy.stream1.put (payload frame index) }
    else copy

/-- `frame_copy_payloads_cb`, for the lines from `index` on. -/
def frameCopyPayloads (frame : Frame) : Nat → Nat → Copy → Copy
  | 0, _, copy => copy
  | remaining + 1, index, copy =>
    frameCopyPayloads frame remaining (index + 1) (copyLine frame index copy)

/-- The application, the handler, and what has been committed to the two rings. -/
structure Capturing where
  app : App
  handler : Handler
  rf : Bytes
  audio : Bytes

/-- A call of the callback, with what the reserved bytes of the rings hold before the copy and
whether the audio ring has room. -/
structure CopyDelivery where
  delivery : Delivery
  staleRf : Nat → UInt8
  staleAudio : Nat → UInt8
  audioRoom : Bool

def reserved (bytes : Nat) (stale : Nat → UInt8) : Bytes := (List.range bytes).map stale

/-- The handler behind the checks and `capture_handler_process_sync_event`. -/
def syncedHandler (tolerance : Tolerance) (capturing : Capturing) (delivery : Delivery) :
    Handler :=
  let handler := capturing.handler
  if callbackGap capturing.app delivery.now && capturing.app.stopOnDropout then handler
  else if delivery.frame.width == 0 || delivery.frame.height == 0 then handler
  else if delivery.frame.deviceError then handler.resetAudioSync
  else
    match (frameProcess tolerance capturing.app.parser delivery.frame).2.syncResult with
    | .lost | .acquired => handler.resetAudioSync
    | .duplicate | .missed | .ok => handler

/-- The copy of a frame whose RF write goes ahead; the audio write needs room of its own. -/
def copyFrame (handler : Handler) (result : ProcessResult) (call : CopyDelivery) (bytes : Nat) :
    Copy :=
  let frame := call.delivery.frame
  let audio := handler.captureAudio && decide (result.stream1Bytes > 0) && call.audioRoom
  frameCopyPayloads frame frame.height 0
    ⟨handler, ⟨some (reserved bytes call.staleRf), 0⟩,
      ⟨if audio then some (reserved result.stream1Bytes call.staleAudio) else none, 0⟩⟩

/-- `gui_capture_callback` with its copy and its commits: `bufmgr_write_end` takes the counts of
`frame_process`. -/
def captureCallback (tolerance : Tolerance) (capturing : Capturing) (call : CopyDelivery) :
    Capturing :=
  let handler := syncedHandler tolerance capturing call.delivery
  let result := (frameProcess tolerance capturing.app.parser call.delivery.frame).2
  match guiCaptureCallback tolerance capturing.app call.delivery with
  | (app, none) => { capturing with app, handler }
  | (app, some bytes) =>
    let copy := copyFrame handler result call bytes
    { app
      handler := copy.handler
      rf := capturing.rf ++ (copy.stream0.region.getD []).take bytes
      audio := capturing.audio ++ (copy.stream1.region.getD []).take result.stream1Bytes }

inductive CaptureAction where
  | callback (call : CopyDelivery)
  | setAudioCapture (enabled : Bool)
  | setStopOnDropout (enabled : Bool)

/-- `gui_capture_set_audio_capture` and the dropout setting act between callbacks. -/
def captureStep (tolerance : Tolerance) (capturing : Capturing) :
    CaptureAction → Option Capturing
  | .callback call => some (captureCallback tolerance capturing call)
  | .setAudioCapture enabled =>
    let handler := { capturing.handler with captureAudio := enabled }
    some { capturing with handler := if enabled then handler.resetAudioSync else handler }
  | .setStopOnDropout enabled =>
    some { capturing with app := { capturing.app with stopOnDropout := enabled } }

def startCapturing (epoch sampleRate : Nat) : Capturing :=
  ⟨initialApp epoch sampleRate, ⟨true, true, false, false⟩, [], []⟩

def carries (frame : Frame) (stream : UInt16) (index : Nat) : Bool :=
  let parsed := frame.parsed index
  parsed.valid && decide (parsed.payloadLen > 0) && parsed.streamId == stream

/-- The payloads of a stream in the lines from `index` on, one after the other. -/
def payloads (frame : Frame) (stream : UInt16) : Nat → Nat → Bytes
  | 0, _ => []
  | remaining + 1, index =>
    (if carries frame stream index then payload frame index else []) ++
      payloads frame stream remaining (index + 1)

/-- The payloads of stream 1 that the filter lets through. -/
def letThrough (frame : Frame) : Nat → Nat → Handler → Bytes
  | 0, _, _ => []
  | remaining + 1, index, handler =>
    if carries frame 1 index then
      let (passed, handler) := captureHandlerAudioFilter handler 1
      (if passed then payload frame index else []) ++
        letThrough frame remaining (index + 1) handler
    else letThrough frame remaining (index + 1) handler

theorem length_payload (frame : Frame) (index : Nat) :
    (payload frame index).length = (frame.parsed index).payloadLen * 2 := by
  simp [payload, List.length_flatMap]

theorem length_letThrough_le (frame : Frame) (remaining index : Nat) (handler : Handler) :
    (letThrough frame remaining index handler).length ≤
      (payloads frame 1 remaining index).length := by
  induction remaining generalizing index handler with
  | zero => rfl
  | succ remaining ih =>
    simp only [letThrough, payloads]
    split
    · have rest := ih (index + 1) (captureHandlerAudioFilter handler 1).2
      simp only [List.length_append]
      split
      · omega
      · rw [List.length_nil]
        omega
    · exact ih (index + 1) handler

theorem letThrough_synced (frame : Frame) (remaining index : Nat) {handler : Handler}
    (audio : handler.captureAudio = true) (synced : handler.audioSyncStage2 = true) :
    letThrough frame remaining index handler = payloads frame 1 remaining index := by
  induction remaining generalizing index with
  | zero => rfl
  | succ remaining ih =>
    have kept : captureHandlerAudioFilter handler 1 = (true, handler) := by
      simp [captureHandlerAudioFilter, audio, synced]
    simp only [letThrough, payloads, kept, ih]
    split <;> simp

theorem captureHandlerAudioFilter_unsynced {handler : Handler}
    (unsynced : handler.audioSyncStage2 = false) :
    (captureHandlerAudioFilter handler 1).1 = false := by
  cases audio : handler.captureAudio with
  | false => simp [captureHandlerAudioFilter, audio]
  | true =>
    cases stage : handler.audioSyncStage1 <;>
      simp [captureHandlerAudioFilter, audio, unsynced, stage]

theorem letThrough_unsynced (frame : Frame) (remaining index : Nat) {handler : Handler}
    (unsynced : handler.audioSyncStage2 = false)
    (some : payloads frame 1 remaining index ≠ []) :
    (letThrough frame remaining index handler).length <
      (payloads frame 1 remaining index).length := by
  induction remaining generalizing index with
  | zero => exact absurd rfl some
  | succ remaining ih =>
    simp only [letThrough, payloads] at some ⊢
    by_cases here : carries frame 1 index = true
    · have dropped := captureHandlerAudioFilter_unsynced unsynced
      have positive : 0 < (frame.parsed index).payloadLen := by
        simp only [carries, Bool.and_eq_true, decide_eq_true_eq] at here
        exact here.1.2
      have rest := length_letThrough_le frame remaining (index + 1)
        (captureHandlerAudioFilter handler 1).2
      rw [if_pos here, if_pos here, dropped]
      simp only [Bool.false_eq_true, if_false, List.nil_append, List.length_append,
        length_payload]
      omega
    · rw [if_neg here, List.nil_append] at some
      rw [if_neg here, if_neg here, List.nil_append]
      exact ih (index + 1) some

theorem payloads_eq_nil (frame : Frame) (stream : UInt16) (remaining index : Nat) :
    payloads frame stream remaining index = [] ↔
      ∀ offset < remaining, carries frame stream (index + offset) = false := by
  induction remaining generalizing index with
  | zero => simp [payloads]
  | succ remaining ih =>
    have step : (∀ offset < remaining + 1, carries frame stream (index + offset) = false) ↔
        carries frame stream index = false ∧
          ∀ offset < remaining, carries frame stream (index + 1 + offset) = false := by
      rw [Nat.forall_lt_succ_left']
      simp only [Nat.add_zero, Nat.add_assoc, Nat.add_comm 1]
    rw [step, payloads, List.append_eq_nil_iff, ih]
    refine and_congr_left fun _ => ?_
    cases here : carries frame stream index with
    | false => simp
    | true =>
      simp only [carries, Bool.and_eq_true, decide_eq_true_eq] at here
      have positive := length_payload frame index
      simp only [if_true, Bool.true_eq_false, iff_false]
      intro empty
      rw [empty, List.length_nil] at positive
      omega

theorem scanLines_bytes {frame : Frame} {suppress : Bool} {remaining index : Nat}
    {scan last : Scan}
    (h : scanLines frame true suppress remaining index scan = (last, true)) :
    last.stream0Bytes = scan.stream0Bytes + (payloads frame 0 remaining index).length ∧
      last.stream1Bytes = scan.stream1Bytes + (payloads frame 1 remaining index).length := by
  induction remaining generalizing index scan with
  | zero =>
    cases h
    exact ⟨rfl, rfl⟩
  | succ remaining ih =>
    simp only [scanLines] at h
    split at h
    · next valid =>
      obtain ⟨first, second⟩ := ih h
      have count (stream : UInt16) :
          (if carries frame stream index then payload frame index else []).length =
            if (frame.parsed index).streamId = stream then (frame.parsed index).payloadLen * 2
            else 0 := by
        by_cases same : (frame.parsed index).streamId = stream
        · by_cases empty : (frame.parsed index).payloadLen = 0
          · simp [carries, valid, same, empty]
          · simp [carries, valid, same, length_payload, Nat.pos_of_ne_zero empty]
        · simp [carries, same]
      have bytes : (if (frame.parsed index).payloadLen > 0 then
          (frame.parsed index).payloadLen * 2 else 0) = (frame.parsed index).payloadLen * 2 := by
        split <;> omega
      simp only [payloads, List.length_append, count]
      simp only [scanLine, Bool.and_true, decide_eq_true_eq, bytes] at first second
      exact ⟨by rw [first, Nat.add_assoc], by rw [second, Nat.add_assoc]⟩
    · cases h

/-- Of `size` reserved bytes the front is filled. -/
def Out.Filled (out : Out) (front : Bytes) (size : Nat) : Prop :=
  ∃ region, out.region = some region ∧ region.length = size ∧ out.offset = front.length ∧
    front.length ≤ size ∧ region.take front.length = front

theorem filled_start (size : Nat) (stale : Nat → UInt8) :
    Out.Filled ⟨some (reserved size stale), 0⟩ [] size :=
  ⟨_, rfl, by simp [reserved], rfl, Nat.zero_le _, rfl⟩

theorem Out.Filled.put {out : Out} {front data : Bytes} {size : Nat}
    (filled : out.Filled front size) (fits : front.length + data.length ≤ size) :
    (out.put data).Filled (front ++ data) size := by
  obtain ⟨region, here, length, offset, inside, done⟩ := filled
  have bound : front.length ≤ region.length := by omega
  refine ⟨pwrite 0 region front.length data, ?_, ?_, ?_, ?_, ?_⟩
  · simp [Out.put, here, offset]
  · rw [SparseFile.length_pwrite bound]
    omega
  · simp [Out.put, here, offset]
  · simpa using fits
  · rw [List.length_append, SparseFile.take_pwrite_end bound, done]

theorem Out.Filled.committed {out : Out} {front : Bytes} {size : Nat}
    (filled : out.Filled front size) :
    (out.region.getD []).take size = front ↔ front.length = size := by
  obtain ⟨region, here, length, _, _, done⟩ := filled
  rw [here, Option.getD_some]
  refine ⟨fun same => ?_, fun full => by rw [← full, done]⟩
  rw [← same, List.length_take, length, Nat.min_self]

theorem captureHandlerAudioFilter_zero (handler : Handler) :
    captureHandlerAudioFilter handler 0 = (handler.captureRf, handler) := by
  simp [captureHandlerAudioFilter]

theorem captureHandlerAudioFilter_rf (handler : Handler) (streamId : UInt16) :
    (captureHandlerAudioFilter handler streamId).2.captureRf = handler.captureRf := by
  simp only [captureHandlerAudioFilter]
  split
  · rfl
  · split
    · split
      · rfl
      · split
        · rfl
        · split <;> rfl
    · rfl

theorem copyLine_eq (frame : Frame) {copy : Copy} (index : Nat)
    (rf : copy.handler.captureRf = true) :
    copyLine frame index copy =
      ⟨if carries frame 1 index then (captureHandlerAudioFilter copy.handler 1).2
        else copy.handler,
        if carries frame 0 index then copy.stream0.put (payload frame index) else copy.stream0,
        if carries frame 1 index && (captureHandlerAudioFilter copy.handler 1).1 then
          copy.stream1.put (payload frame index)
        else copy.stream1⟩ := by
  by_cases shown : (!(frame.parsed index).valid || (frame.parsed index).payloadLen == 0) = true
  · have silent (stream : UInt16) : carries frame stream index = false := by
      simp only [Bool.or_eq_true, Bool.not_eq_true', beq_iff_eq] at shown
      rcases shown with invalid | empty
      · simp [carries, invalid]
      · simp [carries, empty]
    simp [copyLine, shown, silent]
  · have told (stream : UInt16) :
        carries frame stream index = ((frame.parsed index).streamId == stream) := by
      simp only [Bool.or_eq_true, Bool.not_eq_true', beq_iff_eq, not_or, Bool.not_eq_false] at shown
      simp [carries, shown.1, Nat.pos_of_ne_zero shown.2]
    simp only [copyLine, if_neg shown, told]
    by_cases zero : (frame.parsed index).streamId = 0
    · simp [zero, captureHandlerAudioFilter_zero, rf]
    · by_cases one : (frame.parsed index).streamId = 1
      · simp only [one]
        cases passed : (captureHandlerAudioFilter copy.handler 1).1 <;> simp
      · simp [captureHandlerAudioFilter, zero, one]

theorem frameCopyPayloads_handler {frame : Frame} {remaining index : Nat} {copy : Copy}
    (rf : copy.handler.captureRf = true) :
    (frameCopyPayloads frame remaining index copy).handler.captureRf = true := by
  induction remaining generalizing index copy with
  | zero => exact rf
  | succ remaining ih =>
    rw [frameCopyPayloads, copyLine_eq frame index rf]
    apply ih
    dsimp only
    split
    · rw [captureHandlerAudioFilter_rf, rf]
    · exact rf

theorem frameCopyPayloads_rf {frame : Frame} {remaining index size : Nat} {copy : Copy}
    {front : Bytes} (rf : copy.handler.captureRf = true)
    (filled : copy.stream0.Filled front size)
    (fits : front.length + (payloads frame 0 remaining index).length ≤ size) :
    (frameCopyPayloads frame remaining index copy).stream0.Filled
      (front ++ payloads frame 0 remaining index) size := by
  induction remaining generalizing index copy front with
  | zero =>
    rw [payloads, List.append_nil]
    exact filled
  | succ remaining ih =>
    rw [payloads, List.length_append] at fits
    rw [frameCopyPayloads, payloads, ← List.append_assoc]
    have line := copyLine_eq frame index rf
    apply ih
    · rw [line]
      dsimp only
      split
      · rw [captureHandlerAudioFilter_rf, rf]
      · exact rf
    · rw [line]
      dsimp only
      cases here : carries frame 0 index with
      | true =>
        simp only [here, if_true] at fits ⊢
        exact filled.put (by omega)
      | false =>
        simpa using filled
    · rw [List.length_append]
      omega

theorem frameCopyPayloads_audio {frame : Frame} {remaining index size : Nat} {copy : Copy}
    {front : Bytes} (rf : copy.handler.captureRf = true)
    (filled : copy.stream1.Filled front size)
    (fits : front.length + (payloads frame 1 remaining index).length ≤ size) :
    (frameCopyPayloads frame remaining index copy).stream1.Filled
      (front ++ letThrough frame remaining index copy.handler) size := by
  induction remaining generalizing index copy front with
  | zero =>
    rw [letThrough, List.append_nil]
    exact filled
  | succ remaining ih =>
    rw [payloads, List.length_append] at fits
    rw [frameCopyPayloads, letThrough, copyLine_eq frame index rf]
    cases here : carries frame 1 index with
    | false =>
      rw [here] at fits
      simp only [Bool.false_eq_true, if_false, Bool.false_and]
      exact ih rf filled (by omega)
    | true =>
      simp only [here, if_true] at fits
      simp only [if_true, Bool.true_and]
      rw [← List.append_assoc]
      apply ih
      · dsimp only
        rw [captureHandlerAudioFilter_rf, rf]
      · dsimp only
        cases (captureHandlerAudioFilter copy.handler 1).1 with
        | true => exact filled.put (by omega)
        | false => simpa using filled
      · rw [List.length_append]
        split
        · omega
        · rw [List.length_nil]
          omega

theorem frameCopyPayloads_null {frame : Frame} {remaining index : Nat} {copy : Copy}
    (rf : copy.handler.captureRf = true) (null : copy.stream1.region = none) :
    (frameCopyPayloads frame remaining index copy).stream1.region = none := by
  induction remaining generalizing index copy with
  | zero => exact null
  | succ remaining ih =>
    rw [frameCopyPayloads, copyLine_eq frame index rf]
    apply ih
    · dsimp only
      split
      · rw [captureHandlerAudioFilter_rf, rf]
      · exact rf
    · dsimp only
      split
      · rw [Out.put, null]
        exact null
      · exact null

def hasPayload (frame : Frame) (stream : UInt16) : Bool :=
  (List.range frame.height).any (carries frame stream)

theorem hasPayload_iff (frame : Frame) (stream : UInt16) :
    hasPayload frame stream = true ↔ payloads frame stream frame.height 0 ≠ [] := by
  rw [ne_eq, payloads_eq_nil]
  simp [hasPayload]

/-- The frame reaches the copy: a valid frame with RF that finds room in the RF ring. -/
def copied (tolerance : Tolerance) (app : App) (delivery : Delivery) : Bool :=
  !turnedAway app delivery && (frameProcess tolerance app.parser delivery.frame).2.valid &&
    hasPayload delivery.frame 0 && delivery.room

structure ValidFrame (frame : Frame) (after : ParserState) (result : ProcessResult) : Prop where
  synced : after.streamSynced = true
  unreported : result.reportErrors = false
  event : result.syncResult = .ok ∨ result.syncResult = .missed
  stream0 : result.stream0Bytes = (payloads frame 0 frame.height 0).length
  stream1 : result.stream1Bytes = (payloads frame 1 frame.height 0).length

theorem orderFrame_event (state : ParserState) (framecounter : UInt16) :
    (orderFrame state framecounter).2 = .ok ∨ (orderFrame state framecounter).2 = .missed := by
  simp only [orderFrame]
  split
  · exact Or.inl rfl
  · split
    · exact Or.inr rfl
    · exact Or.inl rfl

variable {tolerance : Tolerance} {capturing : Capturing}

theorem judgeFrame_valid {state : ParserState} {syncResult : SyncResult} {height : Nat}
    {scan : Scan} (valid : (judgeFrame tolerance state syncResult height scan).2.valid = true) :
    state.streamSynced = true ∧
      (judgeFrame tolerance state syncResult height scan).1.streamSynced = true ∧
      (judgeFrame tolerance state syncResult height scan).2.reportErrors = false ∧
      (judgeFrame tolerance state syncResult height scan).2.syncResult = syncResult ∧
      (judgeFrame tolerance state syncResult height scan).2.stream0Bytes = scan.stream0Bytes ∧
      (judgeFrame tolerance state syncResult height scan).2.stream1Bytes = scan.stream1Bytes := by
  simp only [judgeFrame] at valid ⊢
  split at valid
  · cases valid
  · next burst =>
    rw [if_neg burst]
    split at valid
    · cases valid
    · next tolerable =>
      rw [if_neg tolerable]
      split at valid
      · cases valid
      · next known =>
        rw [if_neg known]
        exact ⟨valid, valid, rfl, rfl, rfl, rfl⟩

theorem frameProcess_valid {state : ParserState} {frame : Frame}
    (valid : (frameProcess tolerance state frame).2.valid = true) :
    ValidFrame frame (frameProcess tolerance state frame).1
      (frameProcess tolerance state frame).2 := by
  unfold frameProcess at valid ⊢
  split at valid
  · cases valid
  · next magic =>
    rw [if_neg magic]
    split at valid
    · cases valid
    · next new =>
      rw [if_neg new]
      have event := orderFrame_event state frame.metadata.framecounter
      generalize orderFrame state frame.metadata.framecounter = passed at *
      obtain ⟨ordered, syncResult⟩ := passed
      dsimp only at event valid ⊢
      cases scanned : scanFrame ordered frame with
      | mk scan complete =>
        rw [scanned] at valid
        dsimp only at valid ⊢
        cases complete with
        | false => cases valid
        | true =>
          rw [if_pos rfl] at valid ⊢
          obtain ⟨before, synced, unreported, same, stream0, stream1⟩ := judgeFrame_valid valid
          have before : ordered.streamSynced = true := before
          rw [scanFrame, before] at scanned
          obtain ⟨rf, audio⟩ := scanLines_bytes scanned
          refine ⟨synced, unreported, ?_, ?_, ?_⟩
          · rw [same]
            exact event
          · rw [stream0, rf, Nat.zero_add]
          · rw [stream1, audio, Nat.zero_add]

theorem guiCaptureCallback_copied {app : App} {delivery : Delivery}
    (h : copied tolerance app delivery = true) :
    (guiCaptureCallback tolerance app delivery).2 =
      some (payloads delivery.frame 0 delivery.frame.height 0).length := by
  simp only [copied, Bool.and_eq_true, Bool.not_eq_true'] at h
  obtain ⟨⟨⟨parsed, valid⟩, rf⟩, room⟩ := h
  have facts := frameProcess_valid valid
  have state := parsedApp_state tolerance app delivery
  rw [hasPayload_iff, ne_eq, ← List.length_eq_zero_iff] at rf
  rw [guiCaptureCallback_parsed parsed, handleResult, if_neg, if_neg, if_neg, if_neg, if_pos room,
    facts.stream0]
  · simp [valid, facts.stream0, rf]
  · simp [facts.unreported]
  · rw [state, facts.synced]
    exact Bool.false_ne_true
  · rcases facts.event with ok | missed
    · simp [ok]
    · simp [missed]

theorem guiCaptureCallback_uncopied {app : App} {delivery : Delivery}
    (h : copied tolerance app delivery = false) :
    (guiCaptureCallback tolerance app delivery).2 = none := by
  cases parsed : turnedAway app delivery with
  | true => exact (guiCaptureCallback_turnedAway tolerance parsed).1
  | false =>
    rw [guiCaptureCallback_parsed parsed, handleResult]
    split
    · rfl
    · split
      · rfl
      · split
        · rfl
        · split
          · rfl
          · next useful =>
            simp only [Bool.or_eq_true, Bool.not_eq_true', beq_iff_eq, not_or,
              Bool.not_eq_false] at useful
            have facts := frameProcess_valid useful.1
            rw [facts.stream0, List.length_eq_zero_iff, ← ne_eq, ← hasPayload_iff] at useful
            simp only [copied, parsed, useful.1, useful.2, Bool.not_false, Bool.true_and] at h
            dsimp only
            rw [if_neg (by rw [h]; exact Bool.false_ne_true)]

theorem syncedHandler_copied {delivery : Delivery}
    (h : copied tolerance capturing.app delivery = true) :
    syncedHandler tolerance capturing delivery = capturing.handler := by
  simp only [copied, Bool.and_eq_true, Bool.not_eq_true', turnedAway, Bool.or_eq_false_iff] at h
  obtain ⟨⟨⟨⟨⟨⟨gap, width⟩, height⟩, working⟩, valid⟩, _⟩, _⟩ := h
  simp only [syncedHandler, gap, width, height, working, Bool.or_self, Bool.false_eq_true, if_false]
  rcases (frameProcess_valid valid).event with ok | missed
  · rw [ok]
  · rw [missed]

theorem letThrough_muted (frame : Frame) (remaining index : Nat) {handler : Handler}
    (muted : handler.captureAudio = false) : letThrough frame remaining index handler = [] := by
  have kept : captureHandlerAudioFilter handler 1 = (false, handler) := by
    simp [captureHandlerAudioFilter, muted]
  induction remaining generalizing index with
  | zero => rfl
  | succ remaining ih =>
    simp only [letThrough, kept, ih]
    split <;> rfl

/-- What the callback commits is what it copies: the payloads of stream 0, and those of stream 1
that the filter lets through unless the audio ring refuses the write. -/
def CommitsExactly (tolerance : Tolerance) (capturing : Capturing) (call : CopyDelivery) : Prop :=
  let next := captureCallback tolerance capturing call
  let frame := call.delivery.frame
  if copied tolerance capturing.app call.delivery then
    next.rf = capturing.rf ++ payloads frame 0 frame.height 0 ∧
      next.audio = capturing.audio ++
        if hasPayload frame 1 && !call.audioRoom then []
        else letThrough frame frame.height 0 (syncedHandler tolerance capturing call.delivery)
  else next.rf = capturing.rf ∧ next.audio = capturing.audio

/-- A frame with audio is copied to a ring with room before the audio lines are in sync. -/
def exposesStale (tolerance : Tolerance) (capturing : Capturing) (call : CopyDelivery) : Bool :=
  copied tolerance capturing.app call.delivery && capturing.handler.captureAudio &&
    !capturing.handler.audioSyncStage2 && hasPayload call.delivery.frame 1 && call.audioRoom

section CopyFrame
variable {handler : Handler} {result : ProcessResult} {call : CopyDelivery}

theorem copyFrame_rf (rf : handler.captureRf = true) :
    (copyFrame handler result call
        (payloads call.delivery.frame 0 call.delivery.frame.height 0).length).stream0.Filled
      (payloads call.delivery.frame 0 call.delivery.frame.height 0)
      (payloads call.delivery.frame 0 call.delivery.frame.height 0).length := by
  change (frameCopyPayloads call.delivery.frame call.delivery.frame.height 0
    ⟨handler, ⟨some (reserved _ call.staleRf), 0⟩, _⟩).stream0.Filled ([] ++ _) _
  exact frameCopyPayloads_rf rf (filled_start _ call.staleRf) (Nat.le_of_eq (Nat.zero_add _))

theorem copyFrame_audio (rf : handler.captureRf = true) (bytes : Nat)
    (counted : result.stream1Bytes =
      (payloads call.delivery.frame 1 call.delivery.frame.height 0).length)
    (write : (handler.captureAudio && decide (result.stream1Bytes > 0) && call.audioRoom) = true) :
    (copyFrame handler result call bytes).stream1.Filled
      (letThrough call.delivery.frame call.delivery.frame.height 0 handler)
      result.stream1Bytes := by
  unfold copyFrame
  simp only [write, if_true]
  change (frameCopyPayloads call.delivery.frame call.delivery.frame.height 0
    ⟨handler, _, ⟨some (reserved _ call.staleAudio), 0⟩⟩).stream1.Filled ([] ++ _) _
  exact frameCopyPayloads_audio rf (filled_start _ call.staleAudio)
    (Nat.le_of_eq ((Nat.zero_add _).trans counted.symm))

theorem copyFrame_null (rf : handler.captureRf = true) {bytes : Nat}
    (none : (handler.captureAudio && decide (result.stream1Bytes > 0) && call.audioRoom) = false) :
    (copyFrame handler result call bytes).stream1.region = Option.none := by
  unfold copyFrame
  simp only [none]
  exact frameCopyPayloads_null rf rfl

end CopyFrame

theorem audio_exact_iff {handler : Handler} {result : ProcessResult} {call : CopyDelivery}
    {bytes : Nat} (rf : handler.captureRf = true)
    (counted : result.stream1Bytes =
      (payloads call.delivery.frame 1 call.delivery.frame.height 0).length) :
    (((copyFrame handler result call bytes).stream1.region.getD []).take result.stream1Bytes =
        if hasPayload call.delivery.frame 1 && !call.audioRoom then []
        else letThrough call.delivery.frame call.delivery.frame.height 0 handler) ↔
      (handler.captureAudio && !handler.audioSyncStage2 && hasPayload call.delivery.frame 1 &&
        call.audioRoom) = false := by
  have some : decide (result.stream1Bytes > 0) = hasPayload call.delivery.frame 1 := by
    rw [counted, Bool.eq_iff_iff, hasPayload_iff, decide_eq_true_eq, gt_iff_lt,
      List.length_pos_iff]
  by_cases write :
      (handler.captureAudio && decide (result.stream1Bytes > 0) && call.audioRoom) = true
  · have filled := copyFrame_audio rf bytes counted write
    rw [some] at write
    simp only [Bool.and_eq_true] at write
    obtain ⟨⟨audio, present⟩, room⟩ := write
    simp only [audio, present, room, Bool.not_true, Bool.and_false, Bool.false_eq_true, if_false,
      Bool.and_true, Bool.true_and, Bool.not_eq_false']
    rw [filled.committed, counted]
    refine ⟨fun same => ?_, fun synced => by rw [letThrough_synced _ _ _ audio synced]⟩
    by_contra unsynced
    rw [Bool.not_eq_true] at unsynced
    have fewer := letThrough_unsynced call.delivery.frame call.delivery.frame.height 0 unsynced
      ((hasPayload_iff _ _).mp present)
    omega
  · rw [Bool.not_eq_true] at write
    rw [copyFrame_null rf write, Option.getD_none, List.take_nil]
    rw [some] at write
    cases present : hasPayload call.delivery.frame 1 with
    | false =>
      have empty : payloads call.delivery.frame 1 call.delivery.frame.height 0 = [] := by
        by_contra nonempty
        rw [← ne_eq, ← hasPayload_iff, present] at nonempty
        contradiction
      have bound := length_letThrough_le call.delivery.frame call.delivery.frame.height 0 handler
      rw [empty, List.length_nil, Nat.le_zero, List.length_eq_zero_iff] at bound
      simp [bound]
    | true =>
      cases audio : handler.captureAudio with
      | false => simp [letThrough_muted _ _ _ audio]
      | true =>
        simp only [audio, present, Bool.true_and] at write
        simp [write]

theorem captureCallback_exact_iff (rf : capturing.handler.captureRf = true) (call : CopyDelivery) :
    CommitsExactly tolerance capturing call ↔ exposesStale tolerance capturing call = false := by
  unfold CommitsExactly exposesStale
  dsimp only
  cases h : copied tolerance capturing.app call.delivery with
  | false =>
    have refused := guiCaptureCallback_uncopied h
    unfold captureCallback
    generalize guiCaptureCallback tolerance capturing.app call.delivery = outcome at *
    obtain ⟨app, write⟩ := outcome
    dsimp only at refused
    subst refused
    simp
  | true =>
    have goes := guiCaptureCallback_copied h
    have synced := syncedHandler_copied h
    have valid : (frameProcess tolerance capturing.app.parser call.delivery.frame).2.valid = true
        := by
      simp only [copied, Bool.and_eq_true] at h
      exact h.1.1.2
    have facts := frameProcess_valid valid
    unfold captureCallback
    generalize guiCaptureCallback tolerance capturing.app call.delivery = outcome at *
    obtain ⟨app, write⟩ := outcome
    dsimp only at goes
    subst goes
    dsimp only
    rw [if_pos rfl, synced, (copyFrame_rf rf).committed.mpr rfl, List.append_cancel_left_eq,
      List.append_cancel_left_eq, audio_exact_iff rf facts.stream1]
    simp

theorem syncedHandler_rf (tolerance : Tolerance) (capturing : Capturing) (delivery : Delivery) :
    (syncedHandler tolerance capturing delivery).captureRf = capturing.handler.captureRf := by
  simp only [syncedHandler]
  split
  · rfl
  · split
    · rfl
    · split
      · rfl
      · split <;> rfl

theorem captureStep_rf {next : Capturing} {action : CaptureAction}
    (rf : capturing.handler.captureRf = true)
    (h : captureStep tolerance capturing action = some next) : next.handler.captureRf = true := by
  cases action with
  | callback call =>
    cases h
    have before := (syncedHandler_rf tolerance capturing call.delivery).trans rf
    simp only [captureCallback]
    split
    · exact before
    · exact frameCopyPayloads_handler before
  | setAudioCapture enabled =>
    cases h
    dsimp only
    split
    · exact rf
    · exact rf
  | setStopOnDropout enabled =>
    cases h
    exact rf

/-- In every reachable state a callback commits exactly what it copies if and only if it does not
commit an audio write before the audio lines are in sync. -/
theorem commits_exact_iff {tolerance : Tolerance} {epoch sampleRate : Nat}
    {schedule : List CaptureAction} {last : Capturing}
    (h : Machine.run (captureStep tolerance) (startCapturing epoch sampleRate) schedule =
      some last) (call : CopyDelivery) :
    CommitsExactly tolerance last call ↔ exposesStale tolerance last call = false := by
  apply captureCallback_exact_iff
  exact Machine.run_invariant (fun capturing => capturing.handler.captureRf = true)
    (fun _ _ _ rf taken => captureStep_rf rf taken) rfl h

/-- A frame of three lines with two payload words each: one line of RF and two of audio. The
reserved bytes hold 170. -/
def audioFrame (framecounter : UInt16) : CopyDelivery :=
  ⟨⟨⟨4, 3, fun word => if word % 4 = 3 then 2 else if word % 4 = 0 then 7 else if word = 1 then 0
      else 1, ⟨hsdaohMagic, framecounter, crcNone, flagStreamIdPresent, 20000000⟩, false⟩, 0, true⟩,
    fun _ => 170, fun _ => 170, true⟩

def audioFrames (framecounters : List UInt16) : List CaptureAction :=
  framecounters.map fun framecounter => .callback (audioFrame framecounter)

/-- Frame 6 brings the audio lines into sync, so that the commit of frame 7 is exact. -/
theorem commits_exact_iff_seventh :
    ∃ last, Machine.run (captureStep defaultTolerance) (startCapturing 1 20000000)
        (audioFrames [1, 2, 3, 4, 5, 6]) = some last ∧
      copied defaultTolerance last.app (audioFrame 7).delivery = true ∧
      CommitsExactly defaultTolerance last (audioFrame 7) := by
  have runs : (Machine.run (captureStep defaultTolerance) (startCapturing 1 20000000)
      (audioFrames [1, 2, 3, 4, 5, 6])).any (fun last =>
        copied defaultTolerance last.app (audioFrame 7).delivery &&
          !exposesStale defaultTolerance last (audioFrame 7)) = true := by
    decide +kernel
  obtain ⟨last, h, facts⟩ := (Option.any_eq_true _ _).mp runs
  simp only [Bool.and_eq_true, Bool.not_eq_true'] at facts
  exact ⟨last, h, facts.1, (commits_exact_iff h (audioFrame 7)).mpr facts.2⟩

/-- Of the first frame behind the acquisition eight audio bytes are committed and none is
copied. -/
theorem stale_audio_committed :
    ∃ last, Machine.run (captureStep defaultTolerance) (startCapturing 1 20000000)
        (audioFrames [1, 2, 3, 4, 5]) = some last ∧
      last.audio = [] ∧
      (captureCallback defaultTolerance last (audioFrame 6)).audio = List.replicate 8 170 ∧
      ¬ CommitsExactly defaultTolerance last (audioFrame 6) := by
  have runs : (Machine.run (captureStep defaultTolerance) (startCapturing 1 20000000)
      (audioFrames [1, 2, 3, 4, 5])).any (fun last =>
        last.handler.captureRf && exposesStale defaultTolerance last (audioFrame 6) &&
          last.audio == [] &&
          (captureCallback defaultTolerance last (audioFrame 6)).audio == List.replicate 8 170) =
            true := by
    decide +kernel
  obtain ⟨last, h, facts⟩ := (Option.any_eq_true _ _).mp runs
  simp only [Bool.and_eq_true, beq_iff_eq] at facts
  refine ⟨last, h, facts.1.2, facts.2, fun exact => ?_⟩
  have kept := (captureCallback_exact_iff facts.1.1.1 (audioFrame 6)).mp exact
  exact Bool.false_ne_true (kept.symm.trans facts.1.1.2)

end MisrcGui.Capture
