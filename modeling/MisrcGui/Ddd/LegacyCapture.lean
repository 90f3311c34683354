import MisrcGui.Ddd.Sequence

/-! The capture thread of `gui_ddd.c` for the legacy firmware. It checks markers and test
ramp in the loop that packs the samples, without the validators of `ddd_protocol.c`. -/
namespace MisrcGui.Ddd.LegacyCapture
open Library

def dddSeqMax : Nat := 63
def dddSeqSkipBurstThreshold : Nat := 4
def dddSampleMax : Nat := 0x3FF

inductive CaptureResult where
  | running
  | success
  | connectionFailure
  | usbTransferFailure
  | sequenceMismatch
  | verificationError
deriving DecidableEq

inductive DropoutReason where
  | deviceError
  | missedFrame
  | frameError
deriving DecidableEq

/-- The statics of the thread and the counters of the application that it writes. -/
structure Thread where
  seqSynced : Bool
  lastSeq : Nat
  seqSkipStreak : Nat
  seqBurstReported : Bool
  missedFrameCount : Nat
  captureResult : CaptureResult
  dropoutStop : Option DropoutReason
  testSeqArmed : Bool
  testExpectedNext : Nat
  testMaxLatched : Bool
  testMaxValue : Nat
  clipCountPos : Nat
  clipCountNeg : Nat
  peakPos : Nat
  peakNeg : Nat
deriving DecidableEq

def threadStart : Thread :=
  ⟨false, 0, 0, false, 0, .running, none, false, 0, false, 0, 0, 0, 0, 0⟩

structure Settings where
  testMode : Bool
  stopOnDropout : Bool

def requestDropoutStop (settings : Settings) (thread : Thread) (reason : DropoutReason) :
    Thread :=
  if settings.stopOnDropout then { thread with dropoutStop := some reason } else thread

/-- A skipped or repeated marker. The fourth in a row is reported. -/
def skipSequence (settings : Settings) (thread : Thread) : Thread :=
  let thread := { thread with
    seqSkipStreak := thread.seqSkipStreak + 1
    missedFrameCount := thread.missedFrameCount + 1 }
  if dddSeqSkipBurstThreshold ≤ thread.seqSkipStreak && !thread.seqBurstReported then
    requestDropoutStop settings
      { thread with
        seqBurstReported := true
        captureResult :=
          if thread.captureResult = .running then .sequenceMismatch else thread.captureResult }
      .missedFrame
  else thread

def checkSequence (settings : Settings) (thread : Thread) (seq : Nat) : Thread :=
  if !thread.seqSynced then { thread with lastSeq := seq, seqSynced := true }
  else if seq ≠ thread.lastSeq then
    let expectedNext := (thread.lastSeq + 1) &&& dddSeqMax
    let checked :=
      if seq ≠ expectedNext then skipSequence settings thread
      else { thread with seqSkipStreak := 0, seqBurstReported := false }
    { checked with lastSeq := seq }
  else thread

def advanceRamp (thread : Thread) : Thread :=
  let next := thread.testExpectedNext + 1
  { thread with
    testExpectedNext :=
      if thread.testMaxLatched && next == thread.testMaxValue then 0 else next }

def checkTestRamp (settings : Settings) (thread : Thread) (actual : Nat) :
    Except Thread Thread :=
  if !thread.testSeqArmed then
    .ok (advanceRamp { thread with testExpectedNext := actual, testSeqArmed := true })
  else if !thread.testMaxLatched && thread.testExpectedNext != actual && actual == 0 &&
      (thread.testExpectedNext == testRampNewWrap ||
        thread.testExpectedNext == testRampLegacyWrap) then
    .ok (advanceRamp { thread with
      testMaxValue := thread.testExpectedNext
      testMaxLatched := true
      testExpectedNext := 1 })
  else if thread.testExpectedNext ≠ actual then
    .error (requestDropoutStop settings { thread with captureResult := .verificationError }
      .frameError)
  else .ok (advanceRamp thread)

def meter (thread : Thread) (sample10 : Nat) : Thread :=
  { thread with
    clipCountNeg := if sample10 = 0 then thread.clipCountNeg + 1 else thread.clipCountNeg
    clipCountPos :=
      if sample10 = dddSampleMax then thread.clipCountPos + 1 else thread.clipCountPos
    peakPos := if 512 ≤ sample10 then max thread.peakPos (sample10 - 512) else thread.peakPos
    peakNeg := if sample10 < 512 then max thread.peakNeg (512 - sample10) else thread.peakNeg }

def pack12Bit (sample10 : Nat) : Nat := 4095 - sample10 * 4

def checkWord (settings : Settings) (thread : Thread) (word : UInt16) : Except Thread Thread :=
  let thread := checkSequence settings thread (sampleMarker word)
  if settings.testMode then
    (checkTestRamp settings thread (rampValue word)).map (meter · (rampValue word))
  else .ok (meter thread (rampValue word))

/-- The loop over the words of a transfer: the words packed, and whether it reached the end. -/
def packWords (settings : Settings) : Thread → List UInt16 → Thread × List Nat × Bool
  | thread, [] => (thread, [], true)
  | thread, word :: rest =>
    match checkWord settings thread word with
    | .error failed => (failed, [], false)
    | .ok next =>
      let (last, packed, whole) := packWords settings next rest
      (last, pack12Bit (rampValue word) :: packed, whole)

/-- A word of the capture ring: written by the loop, or left there by an earlier lap. -/
inductive Cell where
  | packed (value : Nat)
  | stale
deriving DecidableEq

/-- What a bulk transfer brings; `room` is whether the ring takes its words. -/
inductive Transfer where
  | timeout
  | transientError
  | fatalError
  | data (words : List UInt16) (room : Bool)

structure State where
  thread : Thread
  committed : List Cell
  totalSamples : Nat
  dropCount : Nat
  exited : Bool

def initial : State := ⟨threadStart, [], 0, 0, false⟩

def receive (settings : Settings) (state : State) (words : List UInt16) : State :=
  let (thread, packed, whole) := packWords settings state.thread words
  -- the whole reservation is committed, also by the failing ramp check
  let committed := state.committed ++ packed.map Cell.packed ++
    List.replicate (words.length - packed.length) .stale
  if whole then
    { state with thread, committed, totalSamples := state.totalSamples + words.length }
  else { state with thread, committed, exited := true }

def transferStep (settings : Settings) (state : State) (transfer : Transfer) : State :=
  if state.exited then state
  else
    match transfer with
    | .timeout => state
    | .transientError =>
      { state with thread := { state.thread with
          captureResult :=
            if state.thread.captureResult = .running then .usbTransferFailure
            else state.thread.captureResult } }
    | .fatalError =>
      { state with
        thread := requestDropoutStop settings
          { state.thread with captureResult := .connectionFailure } .deviceError
        exited := true }
    | .data words room =>
      if words = [] then state
      else if room then receive settings state words
      else { state with
        dropCount := state.dropCount + 1
        totalSamples := state.totalSamples + words.length }

/-- The loop, which the stop may end after any transfer, and the exit. -/
def captureThread (settings : Settings) (transfers : List Transfer) : State :=
  let state := transfers.foldl (transferStep settings) initial
  { state with thread := { state.thread with
      captureResult :=
        if state.thread.captureResult = .running then .success
        else state.thread.captureResult } }

def received : List Transfer → List UInt16
  | [] => []
  | .fatalError :: _ => []
  | .data words _ :: rest => words ++ received rest
  | .timeout :: rest | .transientError :: rest => received rest

def Transfer.dropped : Transfer → Bool
  | .data _ room => !room
  | _ => false

/-- Both shared validators take the stream from their fresh states, the second in test mode. -/
def Accepted (settings : Settings) (words : List UInt16) : Prop :=
  (sequenceValidatorFeed sequenceValidatorInit words).2 = .ok ∧
    (settings.testMode = true → (testRampValidatorFeed testRampValidatorInit words).2 = .ok)

structure Agrees (state : State) (words : List UInt16) : Prop where
  noMissedFrame : state.thread.missedFrameCount = 0
  verified : state.thread.captureResult ≠ .verificationError
  packed : ∀ cell ∈ state.committed, ∃ word ∈ words, cell = .packed (pack12Bit (rampValue word))

/-- No marker 62 is followed by marker 0, and no sample follows a wrap of the ramp. -/
def NeverWraps (settings : Settings) (words : List UInt16) : Prop :=
  ¬[62, 0] <:+: words.map sampleMarker ∧
    (settings.testMode = true → 0 ∉ (words.map rampValue).tail.dropLast)

/-! What the validators say about neighbours in the stream. -/

theorem accepted_iff (settings : Settings) (words : List UInt16) :
    Accepted settings words ↔
      (Scanner.scan sequenceStep sequenceValidatorInit words).2 = true ∧
        (settings.testMode = true →
          (Scanner.scan testRampSample testRampValidatorInit words).2 = true) := by
  unfold Accepted
  rw [sequenceValidatorFeed_eq, testRampValidatorFeed, Prod.map_snd, Prod.map_snd,
    verdict_eq_ok, verdict_eq_ok]
  rfl

theorem sequenceStep_marker {state next : SequenceValidator} {word : UInt16}
    (h : sequenceStep state word = .ok next) :
    sampleMarker word < sequenceMarkerCount ∧ next.markerSeen = true ∧
      next.marker = sampleMarker word ∧
      (state.markerSeen = true → sampleMarker word = state.marker ∨
        sampleMarker word = nextSequenceMarker state.marker) := by
  unfold sequenceStep sequenceSample at h
  dsimp only at h
  split_ifs at h <;> cases h <;> simp_all [beginMarker, countSample]

theorem scan_marker {words : List UInt16}
    (accepted : (Scanner.scan sequenceStep sequenceValidatorInit words).2 = true) :
    (Scanner.scan sequenceStep sequenceValidatorInit words).1.markerSeen = !words.isEmpty ∧
      ∀ last ∈ words.getLast?,
        (Scanner.scan sequenceStep sequenceValidatorInit words).1.marker = sampleMarker last ∧
          sampleMarker last < sequenceMarkerCount := by
  induction words using List.reverseRecOn with
  | nil => exact ⟨rfl, by simp⟩
  | append_singleton words word =>
    obtain ⟨small, seen, marker, -⟩ := sequenceStep_marker (Scanner.scan_snoc _ accepted).2
    refine ⟨by rw [seen]; simp, ?_⟩
    intro last newest
    obtain rfl : word = last := by simpa using newest
    exact ⟨marker, small⟩

theorem accepted_follows {words : List UInt16} {last word : UInt16}
    (accepted : (Scanner.scan sequenceStep sequenceValidatorInit (words ++ [word])).2 = true)
    (newest : last ∈ words.getLast?) :
    sampleMarker last < sequenceMarkerCount ∧ (sampleMarker word = sampleMarker last ∨
      sampleMarker word = nextSequenceMarker (sampleMarker last)) := by
  obtain ⟨before, taken⟩ := Scanner.scan_snoc _ accepted
  obtain ⟨seen, marker⟩ := scan_marker before
  obtain ⟨same, small⟩ := marker last newest
  have nonempty : words ≠ [] := by
    rintro rfl
    simp at newest
  have follows := (sequenceStep_marker taken).2.2.2 (by simpa [seen] using nonempty)
  rw [same] at follows
  exact ⟨small, follows⟩

/-! The marker check. -/

theorem skipSequence_missed (settings : Settings) (thread : Thread) :
    (skipSequence settings thread).missedFrameCount = thread.missedFrameCount + 1 := by
  unfold skipSequence requestDropoutStop
  dsimp only
  split_ifs <;> rfl

def SameRamp (thread other : Thread) : Prop :=
  thread.testSeqArmed = other.testSeqArmed ∧ thread.testExpectedNext = other.testExpectedNext ∧
    thread.testMaxLatched = other.testMaxLatched ∧ thread.testMaxValue = other.testMaxValue

theorem checkSequence_frame (settings : Settings) (thread : Thread) (seq : Nat) :
    SameRamp (checkSequence settings thread seq) thread ∧
      (thread.captureResult ≠ .verificationError →
        (checkSequence settings thread seq).captureResult ≠ .verificationError) := by
  unfold checkSequence skipSequence requestDropoutStop SameRamp
  dsimp only
  split_ifs <;> simp_all

theorem checkSequence_synced (settings : Settings) (thread : Thread) (seq : Nat) :
    (checkSequence settings thread seq).seqSynced = true ∧
      (checkSequence settings thread seq).lastSeq = seq := by
  unfold checkSequence skipSequence requestDropoutStop
  dsimp only
  split_ifs <;> simp_all

/-- An accepted neighbour is missed exactly at the wrap, which the mask puts a marker later. -/
theorem checkSequence_missed {settings : Settings} {thread : Thread} {seq : Nat}
    (synced : thread.seqSynced = true) (small : thread.lastSeq < sequenceMarkerCount)
    (follows : seq = thread.lastSeq ∨ seq = nextSequenceMarker thread.lastSeq) :
    (checkSequence settings thread seq).missedFrameCount =
      thread.missedFrameCount + if thread.lastSeq = 62 ∧ seq = 0 then 1 else 0 := by
  have masked : (thread.lastSeq + 1) &&& dddSeqMax = (thread.lastSeq + 1) % 64 :=
    Nat.and_two_pow_sub_one_eq_mod _ 6
  unfold sequenceMarkerCount at small
  unfold checkSequence
  rw [masked, Nat.mod_eq_of_lt (by omega)]
  simp only [synced, Bool.not_true, Bool.false_eq_true, if_false]
  rcases follows with rfl | next
  · rw [if_neg (not_not.mpr rfl), if_neg (by omega), Nat.add_zero]
  · unfold nextSequenceMarker sequenceMarkerCount at next
    by_cases wraps : thread.lastSeq + 1 = 63
    · rw [if_pos wraps] at next
      have last : thread.lastSeq = 62 := by omega
      simp [next, last, skipSequence_missed]
    · rw [if_neg wraps] at next
      have differs : seq ≠ thread.lastSeq := by omega
      rw [if_pos differs, if_neg (not_not.mpr next), if_neg (by omega), Nat.add_zero]

theorem checkSequence_mono (settings : Settings) (thread : Thread) (seq : Nat) :
    thread.missedFrameCount ≤ (checkSequence settings thread seq).missedFrameCount := by
  unfold checkSequence
  dsimp only
  split_ifs
  · exact le_rfl
  · simp [skipSequence_missed]
  · exact le_rfl
  · exact le_rfl

/-! The ramp check. -/

def SameSequence (thread other : Thread) : Prop :=
  thread.seqSynced = other.seqSynced ∧ thread.lastSeq = other.lastSeq ∧
    thread.missedFrameCount = other.missedFrameCount ∧
      thread.captureResult = other.captureResult

theorem checkTestRamp_frame {settings : Settings} {thread next : Thread} {actual : Nat}
    (h : checkTestRamp settings thread actual = .ok next) : SameSequence next thread := by
  unfold checkTestRamp advanceRamp at h
  dsimp only at h
  split_ifs at h <;> cases h <;> exact ⟨rfl, rfl, rfl, rfl⟩

theorem checkTestRamp_failed {settings : Settings} {thread failed : Thread} {actual : Nat}
    (h : checkTestRamp settings thread actual = .error failed) :
    failed.captureResult = .verificationError ∧
      failed.missedFrameCount = thread.missedFrameCount := by
  unfold checkTestRamp requestDropoutStop at h
  dsimp only at h
  split_ifs at h <;> cases h <;> exact ⟨rfl, rfl⟩

structure RampTracks (words : List UInt16) (thread : Thread) : Prop where
  accepted : (Scanner.scan testRampSample testRampValidatorInit words).2 = true
  armed : (Scanner.scan testRampSample testRampValidatorInit words).1.armed = !words.isEmpty
  sameArmed : thread.testSeqArmed = !words.isEmpty
  positive : words ≠ [] →
    0 < (Scanner.scan testRampSample testRampValidatorInit words).1.expectedNext
  counting : 0 ∉ (words.map rampValue).tail →
    (Scanner.scan testRampSample testRampValidatorInit words).1.wrapDetected = false ∧
      thread.testMaxLatched = false ∧ (words ≠ [] → thread.testExpectedNext =
        (Scanner.scan testRampSample testRampValidatorInit words).1.expectedNext)
  -- the check expects 2 after the wrap, where 1 comes next
  wrapped : 0 ∈ (words.map rampValue).tail →
    (Scanner.scan testRampSample testRampValidatorInit words).1.wrapDetected = true ∧
      (Scanner.scan testRampSample testRampValidatorInit words).1.expectedNext = 1 ∧
        thread.testMaxLatched = true ∧ thread.testExpectedNext = 2

theorem RampTracks.start : RampTracks [] threadStart :=
  ⟨rfl, rfl, rfl, nofun, fun _ => ⟨rfl, rfl, nofun⟩, nofun⟩

theorem RampTracks.of_same {words : List UInt16} {thread other : Thread}
    (tracks : RampTracks words thread) (same : SameRamp other thread) :
    RampTracks words other := by
  obtain ⟨armed, expected, latched, -⟩ := same
  exact ⟨tracks.accepted, tracks.armed, armed.trans tracks.sameArmed, tracks.positive,
    by rw [expected, latched]; exact tracks.counting,
    by rw [expected, latched]; exact tracks.wrapped⟩

theorem tail_snoc {words : List UInt16} (nonempty : words ≠ []) (word : UInt16) :
    ((words ++ [word]).map rampValue).tail = (words.map rampValue).tail ++ [rampValue word] := by
  rw [List.map_append, List.tail_append_of_ne_nil (by simpa using nonempty)]
  rfl

theorem RampTracks.refuses {words : List UInt16} {thread : Thread} {word : UInt16}
    (tracks : RampTracks words thread) (settings : Settings)
    (accepted : (Scanner.scan testRampSample testRampValidatorInit (words ++ [word])).2 = true)
    (past : 0 ∈ (words.map rampValue).tail) :
    ∃ failed, checkTestRamp settings thread (rampValue word) = .error failed := by
  obtain ⟨-, taken⟩ := Scanner.scan_snoc _ accepted
  obtain ⟨detected, expected, latched, wrong⟩ := tracks.wrapped past
  have nonempty : words.isEmpty = false := by
    cases words with
    | nil => exact absurd past (by simp)
    | cons => rfl
  have armed := tracks.armed
  have sameArmed := tracks.sameArmed
  rw [nonempty] at armed sameArmed
  have one : rampValue word = 1 := by
    by_contra other
    simp [testRampSample, armed, detected, expected, other] at taken
  unfold checkTestRamp
  simp [sameArmed, latched, wrong, one]

theorem RampTracks.first {thread : Thread} {word : UInt16} (tracks : RampTracks [] thread)
    (settings : Settings)
    (accepted : (Scanner.scan testRampSample testRampValidatorInit [word]).2 = true) :
    ∃ next, checkTestRamp settings thread (rampValue word) = .ok next ∧
      RampTracks [word] next := by
  have unarmed := tracks.sameArmed
  have unlatched := (tracks.counting (by simp)).2.1
  refine ⟨advanceRamp { thread with
    testExpectedNext := rampValue word, testSeqArmed := true }, by simp_all [checkTestRamp], ?_⟩
  constructor
  · exact accepted
  · rfl
  · rfl
  · exact fun _ => Nat.succ_pos _
  · exact fun _ => ⟨rfl, unlatched, fun _ => by simp [advanceRamp, unlatched]; rfl⟩
  · exact fun past => absurd past (by simp)

section
variable {state next : TestRampValidator} {word : UInt16}

theorem testRampSample_wraps (armed : state.armed = true)
    (undetected : state.wrapDetected = false) (positive : 0 < state.expectedNext)
    (zero : rampValue word = 0) (h : testRampSample state word = .ok next) :
    (state.expectedNext = testRampNewWrap ∨ state.expectedNext = testRampLegacyWrap) ∧
      next.armed = true ∧ next.wrapDetected = true ∧ next.expectedNext = 1 := by
  unfold testRampSample at h
  simp only [armed, undetected, zero, Bool.not_true, Bool.not_false, Bool.false_eq_true,
    if_false, beq_self_eq_true, Bool.and_self, Bool.true_and, Bool.or_eq_true, beq_iff_eq,
    bne_iff_ne] at h
  split_ifs at h with wraps differs
  · cases h
    exact ⟨wraps, rfl, rfl, rfl⟩
  all_goals omega

theorem testRampSample_counts (armed : state.armed = true)
    (undetected : state.wrapDetected = false) (nonzero : rampValue word ≠ 0)
    (h : testRampSample state word = .ok next) :
    rampValue word = state.expectedNext ∧ next.armed = true ∧ next.wrapDetected = false ∧
      next.expectedNext = state.expectedNext + 1 := by
  unfold testRampSample at h
  by_cases same : rampValue word = state.expectedNext
  · simp only [armed, undetected, ← same, Bool.not_true, Bool.not_false, Bool.false_eq_true,
      if_false, beq_eq_false_iff_ne.mpr nonzero, Bool.and_false, Bool.false_and, bne_self_eq_false,
      Except.ok.injEq] at h
    subst h
    exact ⟨same, rfl, rfl, by rw [same]⟩
  · simp [armed, undetected, nonzero, same] at h

end

theorem RampTracks.next {words : List UInt16} {thread : Thread} {word : UInt16}
    (tracks : RampTracks words thread) (settings : Settings) (nonempty : words ≠ [])
    (accepted : (Scanner.scan testRampSample testRampValidatorInit (words ++ [word])).2 = true)
    (before : 0 ∉ (words.map rampValue).tail) :
    ∃ next, checkTestRamp settings thread (rampValue word) = .ok next ∧
      RampTracks (words ++ [word]) next := by
  obtain ⟨-, taken⟩ := Scanner.scan_snoc _ accepted
  obtain ⟨undetected, unlatched, expected⟩ := tracks.counting before
  have armed := tracks.armed
  have sameArmed := tracks.sameArmed
  have positive := tracks.positive nonempty
  have same := expected nonempty
  rw [List.isEmpty_eq_false_iff.mpr nonempty] at armed sameArmed
  by_cases zero : rampValue word = 0
  · obtain ⟨wraps, later, detected, one⟩ :=
      testRampSample_wraps armed undetected positive zero taken
    have wrap : thread.testExpectedNext = testRampNewWrap ∨
        thread.testExpectedNext = testRampLegacyWrap := by rwa [same]
    have past : 0 ∈ ((words ++ [word]).map rampValue).tail := by
      rw [tail_snoc nonempty, zero]
      simp
    have two : (2 == thread.testExpectedNext) = false := by
      rcases wrap with wrap | wrap <;> rw [wrap] <;> rfl
    refine ⟨advanceRamp { thread with
      testMaxValue := thread.testExpectedNext, testMaxLatched := true, testExpectedNext := 1 },
      ?_, ?_⟩
    · have moved : thread.testExpectedNext ≠ 0 := by omega
      simp [checkTestRamp, sameArmed, unlatched, zero, moved, wrap]
    · exact ⟨accepted, by rw [later]; simp, by simp [advanceRamp, sameArmed],
        fun _ => by omega, fun inside => absurd past inside,
        fun _ => ⟨detected, one, rfl, by simp [advanceRamp, two]⟩⟩
  · obtain ⟨value, later, still, successor⟩ :=
      testRampSample_counts armed undetected zero taken
    have inside : 0 ∉ ((words ++ [word]).map rampValue).tail := by
      rw [tail_snoc nonempty]
      simp [before, Ne.symm zero]
    have value' : thread.testExpectedNext = rampValue word := same.trans value.symm
    refine ⟨advanceRamp thread, ?_, ?_⟩
    · simp [checkTestRamp, sameArmed, value']
    · exact ⟨accepted, by rw [later]; simp, by simp [advanceRamp, sameArmed],
        fun _ => by omega,
        fun _ => ⟨still, unlatched, fun _ => by simp [advanceRamp, unlatched, same, successor]⟩,
        fun past => absurd past inside⟩

/-! Both checks, over the words so far. -/

structure Tracks (settings : Settings) (words : List UInt16) (thread : Thread) : Prop where
  synced : thread.seqSynced = !words.isEmpty
  last : ∀ last ∈ words.getLast?, thread.lastSeq = sampleMarker last
  ramp : settings.testMode = true → RampTracks words thread
  noMissedFrame : thread.missedFrameCount = 0
  verified : thread.captureResult ≠ .verificationError

def Passes (settings : Settings) (words : List UInt16) (word : UInt16) : Prop :=
  (∀ last ∈ words.getLast?, ¬(sampleMarker last = 62 ∧ sampleMarker word = 0)) ∧
    (settings.testMode = true → 0 ∉ (words.map rampValue).tail)

theorem neverWraps_snoc {settings : Settings} {words : List UInt16} {word : UInt16} :
    NeverWraps settings (words ++ [word]) ↔
      NeverWraps settings words ∧ Passes settings words word := by
  have markers : [62, 0] <:+: (words ++ [word]).map sampleMarker ↔
      [62, 0] <:+: words.map sampleMarker ∨
        ∃ last ∈ words.getLast?, sampleMarker last = 62 ∧ sampleMarker word = 0 := by
    rw [List.map_append, List.map_singleton, List.infix_concat_iff, List.suffix_concat_iff]
    constructor
    · rintro ((nil | ⟨front, split, suffix⟩) | inside)
      · exact absurd nil nofun
      · have parts : front = [62] ∧ sampleMarker word = 0 := by
          have ends : [62] ++ [0] = front ++ [sampleMarker word] := split
          have matched := List.append_inj' ends rfl
          simpa [eq_comm] using matched
        rw [parts.1, List.singleton_suffix_iff_getLast?_eq_some, List.getLast?_map,
          Option.map_eq_some_iff] at suffix
        obtain ⟨last, newest, marker⟩ := suffix
        exact Or.inr ⟨last, newest, marker, parts.2⟩
      · exact Or.inl inside
    · rintro (inside | ⟨last, newest, marker, zero⟩)
      · exact Or.inr inside
      · refine Or.inl (Or.inr ⟨[62], by rw [zero]; rfl, ?_⟩)
        rw [List.singleton_suffix_iff_getLast?_eq_some, List.getLast?_map, newest,
          Option.map_some, marker]
  have ramp : 0 ∉ ((words ++ [word]).map rampValue).tail.dropLast ↔
      0 ∉ (words.map rampValue).tail := by
    cases words with
    | nil => simp
    | cons first words =>
      rw [tail_snoc (List.cons_ne_nil _ _), List.dropLast_concat]
  have earlier : 0 ∉ (words.map rampValue).tail → 0 ∉ (words.map rampValue).tail.dropLast :=
    fun none inside => none (List.dropLast_subset _ inside)
  unfold NeverWraps Passes
  rw [markers, ramp, not_or]
  constructor
  · rintro ⟨⟨front, fresh⟩, quiet⟩
    exact ⟨⟨front, fun testing => earlier (quiet testing)⟩,
      fun last newest wraps => fresh ⟨last, newest, wraps⟩, quiet⟩
  · rintro ⟨⟨front, -⟩, fresh, quiet⟩
    exact ⟨⟨front, fun ⟨last, newest, wraps⟩ => fresh last newest wraps⟩, quiet⟩

theorem neverWraps_front {settings : Settings} {front rest : List UInt16}
    (h : NeverWraps settings (front ++ rest)) : NeverWraps settings front := by
  induction rest using List.reverseRecOn with
  | nil => simpa using h
  | append_singleton rest word ih =>
    rw [← List.append_assoc] at h
    exact ih (neverWraps_snoc.mp h).1

theorem meter_tracks {settings : Settings} {words : List UInt16} {thread : Thread}
    (sample10 : Nat) (tracks : Tracks settings words thread) :
    Tracks settings words (meter thread sample10) :=
  ⟨tracks.synced, tracks.last,
    fun testing => (tracks.ramp testing).of_same ⟨rfl, rfl, rfl, rfl⟩,
    tracks.noMissedFrame, tracks.verified⟩

section
variable {settings : Settings} {words : List UInt16} {thread : Thread} {word : UInt16}

theorem Tracks.missed (tracks : Tracks settings words thread)
    (accepted : (Scanner.scan sequenceStep sequenceValidatorInit (words ++ [word])).2 = true) :
    (checkSequence settings thread (sampleMarker word)).missedFrameCount = 0 ↔
      ∀ last ∈ words.getLast?, ¬(sampleMarker last = 62 ∧ sampleMarker word = 0) := by
  have synced := tracks.synced
  rcases List.eq_nil_or_concat' words with rfl | ⟨front, last, rfl⟩
  · have unsynced : thread.seqSynced = false := synced
    simp [checkSequence, unsynced, tracks.noMissedFrame]
  · have newest : last ∈ (front ++ [last]).getLast? := by simp
    have lastSeq := tracks.last last newest
    obtain ⟨small, follows⟩ := accepted_follows accepted newest
    have already : thread.seqSynced = true := by
      rw [synced]
      simp
    rw [← lastSeq] at small follows
    rw [checkSequence_missed already small follows, tracks.noMissedFrame, lastSeq]
    simp

theorem checkWord_ok {next : Thread} (h : checkWord settings thread word = .ok next) :
    ∃ checked, SameSequence checked (checkSequence settings thread (sampleMarker word)) ∧
      next = meter checked (rampValue word) ∧
      (settings.testMode = true → checkTestRamp settings
        (checkSequence settings thread (sampleMarker word)) (rampValue word) = .ok checked) := by
  unfold checkWord at h
  dsimp only at h
  by_cases testing : settings.testMode = true
  · rw [if_pos testing] at h
    cases ramp : checkTestRamp settings (checkSequence settings thread (sampleMarker word))
        (rampValue word) with
    | error failed =>
      rw [ramp] at h
      exact absurd h nofun
    | ok checked =>
      rw [ramp] at h
      cases h
      exact ⟨checked, checkTestRamp_frame ramp, rfl, fun _ => rfl⟩
  · rw [if_neg testing] at h
    cases h
    exact ⟨_, ⟨rfl, rfl, rfl, rfl⟩, rfl, fun contrary => absurd contrary testing⟩

theorem checkWord_error {failed : Thread} (h : checkWord settings thread word = .error failed) :
    settings.testMode = true ∧ checkTestRamp settings
      (checkSequence settings thread (sampleMarker word)) (rampValue word) = .error failed := by
  unfold checkWord at h
  dsimp only at h
  by_cases testing : settings.testMode = true
  · rw [if_pos testing] at h
    cases ramp : checkTestRamp settings (checkSequence settings thread (sampleMarker word))
        (rampValue word) with
    | error refused =>
      rw [ramp] at h
      cases h
      exact ⟨testing, rfl⟩
    | ok checked =>
      rw [ramp] at h
      exact absurd h nofun
  · rw [if_neg testing] at h
    exact absurd h nofun

theorem RampTracks.moves (tracks : RampTracks words thread) (settings : Settings)
    (accepted : (Scanner.scan testRampSample testRampValidatorInit (words ++ [word])).2 = true)
    (before : 0 ∉ (words.map rampValue).tail) :
    ∃ next, checkTestRamp settings thread (rampValue word) = .ok next ∧
      RampTracks (words ++ [word]) next := by
  by_cases empty : words = []
  · subst empty
    exact tracks.first settings accepted
  · exact tracks.next settings empty accepted before

theorem Tracks.passes (tracks : Tracks settings words thread)
    (accepted : Accepted settings (words ++ [word])) (passes : Passes settings words word) :
    ∃ next, checkWord settings thread word = .ok next ∧
      Tracks settings (words ++ [word]) next := by
  obtain ⟨sequence, ramp⟩ := (accepted_iff settings _).mp accepted
  obtain ⟨same, verified⟩ := checkSequence_frame settings thread (sampleMarker word)
  have synced := checkSequence_synced settings thread (sampleMarker word)
  have missed := (tracks.missed sequence).mpr passes.1
  have last : ∀ last ∈ (words ++ [word]).getLast?, sampleMarker word = sampleMarker last := by
    intro last newest
    have equal : word = last := by simpa using newest
    rw [equal]
  unfold checkWord
  dsimp only
  by_cases testing : settings.testMode = true
  · obtain ⟨next, moved, tracked⟩ :=
      ((tracks.ramp testing).of_same same).moves settings (ramp testing) (passes.2 testing)
    have frame := checkTestRamp_frame moved
    obtain ⟨sameSynced, sameLast, sameMissed, sameResult⟩ := frame
    rw [if_pos testing, moved]
    refine ⟨_, rfl, meter_tracks _ ⟨?_, ?_, fun _ => tracked, ?_, ?_⟩⟩
    · rw [sameSynced, synced.1]
      simp
    · intro newest inside
      rw [sameLast, synced.2]
      exact last newest inside
    · rw [sameMissed, missed]
    · rw [sameResult]
      exact verified tracks.verified
  · rw [if_neg testing]
    refine ⟨_, rfl, meter_tracks _ ⟨?_, ?_, fun contrary => absurd contrary testing, missed,
      verified tracks.verified⟩⟩
    · rw [synced.1]
      simp
    · intro newest inside
      rw [synced.2]
      exact last newest inside

theorem Tracks.complains (tracks : Tracks settings words thread)
    (accepted : Accepted settings (words ++ [word])) (caught : ¬Passes settings words word) :
    match checkWord settings thread word with
    | .ok next => 0 < next.missedFrameCount
    | .error failed => failed.captureResult = .verificationError := by
  obtain ⟨sequence, ramp⟩ := (accepted_iff settings _).mp accepted
  obtain ⟨same, -⟩ := checkSequence_frame settings thread (sampleMarker word)
  cases outcome : checkWord settings thread word with
  | error failed => exact (checkTestRamp_failed (checkWord_error outcome).2).1
  | ok next =>
    obtain ⟨checked, ⟨-, -, sameMissed, -⟩, rfl, moved⟩ := checkWord_ok outcome
    have quiet : settings.testMode = true → 0 ∉ (words.map rampValue).tail := by
      intro testing past
      obtain ⟨failed, refused⟩ :=
        ((tracks.ramp testing).of_same same).refuses settings (ramp testing) past
      rw [moved testing] at refused
      exact absurd refused nofun
    have wraps : ¬(checkSequence settings thread (sampleMarker word)).missedFrameCount = 0 := by
      rw [tracks.missed sequence]
      exact fun fresh => caught ⟨fresh, quiet⟩
    have missed : (meter checked (rampValue word)).missedFrameCount =
        (checkSequence settings thread (sampleMarker word)).missedFrameCount := sameMissed
    dsimp only
    rw [missed]
    exact Nat.pos_of_ne_zero wraps

theorem checkWord_mono (settings : Settings) (thread : Thread) (word : UInt16) :
    match checkWord settings thread word with
    | .ok next => thread.missedFrameCount ≤ next.missedFrameCount
    | .error failed => thread.missedFrameCount ≤ failed.missedFrameCount := by
  have mono := checkSequence_mono settings thread (sampleMarker word)
  cases outcome : checkWord settings thread word with
  | error failed =>
    dsimp only
    rw [(checkTestRamp_failed (checkWord_error outcome).2).2]
    exact mono
  | ok next =>
    obtain ⟨checked, ⟨-, -, sameMissed, -⟩, rfl, -⟩ := checkWord_ok outcome
    exact mono.trans sameMissed.ge

theorem packWords_mono (words : List UInt16) :
    thread.missedFrameCount ≤ (packWords settings thread words).1.missedFrameCount := by
  induction words generalizing thread with
  | nil => exact le_rfl
  | cons word rest ih =>
    have mono := checkWord_mono settings thread word
    unfold packWords
    cases outcome : checkWord settings thread word with
    | error failed =>
      rw [outcome] at mono
      exact mono
    | ok next =>
      rw [outcome] at mono
      exact mono.trans ih

theorem Accepted.front {front rest : List UInt16} (h : Accepted settings (front ++ rest)) :
    Accepted settings front := by
  obtain ⟨sequence, ramp⟩ := (accepted_iff settings _).mp h
  exact (accepted_iff settings _).mpr
    ⟨Scanner.scan_front _ sequence, fun testing => Scanner.scan_front _ (ramp testing)⟩

def packed (words : List UInt16) : List Nat := words.map fun word => pack12Bit (rampValue word)

theorem packWords_tracks {front : List UInt16} (tracks : Tracks settings front thread)
    (clean : NeverWraps settings front) (accepted : Accepted settings (front ++ words)) :
    (NeverWraps settings (front ++ words) → ∃ last,
      packWords settings thread words = (last, packed words, true) ∧
        Tracks settings (front ++ words) last) ∧
      (¬NeverWraps settings (front ++ words) →
        0 < (packWords settings thread words).1.missedFrameCount ∨
          (packWords settings thread words).1.captureResult = .verificationError ∧
            (packWords settings thread words).2.2 = false) := by
  induction words generalizing front thread with
  | nil =>
    rw [List.append_nil]
    exact ⟨fun _ => ⟨thread, rfl, tracks⟩, fun wraps => absurd clean wraps⟩
  | cons word rest ih =>
    have split : front ++ word :: rest = (front ++ [word]) ++ rest := by simp
    rw [split] at accepted ⊢
    unfold packWords
    by_cases passes : Passes settings front word
    · obtain ⟨next, taken, tracked⟩ := tracks.passes accepted.front passes
      have later := ih tracked (neverWraps_snoc.mpr ⟨clean, passes⟩) accepted
      rw [taken]
      constructor
      · intro whole
        obtain ⟨last, reached, tracked⟩ := later.1 whole
        refine ⟨last, ?_, tracked⟩
        simp only [reached]
        rfl
      · exact later.2
    · have caught := tracks.complains accepted.front passes
      constructor
      · intro whole
        exact absurd (neverWraps_snoc.mp (neverWraps_front whole)).2 passes
      · intro _
        cases outcome : checkWord settings thread word with
        | error failed =>
          rw [outcome] at caught
          exact Or.inr ⟨caught, rfl⟩
        | ok next =>
          rw [outcome] at caught
          exact Or.inl (lt_of_lt_of_le caught (packWords_mono rest))

end

/-! Whole runs. -/

def Complained (state : State) : Prop :=
  0 < state.thread.missedFrameCount ∨
    state.thread.captureResult = .verificationError ∧ state.exited = true

theorem transferStep_complained {settings : Settings} {state : State} (transfer : Transfer)
    (complained : Complained state) : Complained (transferStep settings state transfer) := by
  unfold transferStep
  by_cases exited : state.exited = true
  · rw [if_pos exited]
    exact complained
  · have missed : 0 < state.thread.missedFrameCount :=
      complained.resolve_right fun ended => exited ended.2
    rw [if_neg exited]
    apply Or.inl
    cases transfer with
    | timeout => exact missed
    | transientError => exact missed
    | fatalError =>
      unfold requestDropoutStop
      split_ifs <;> exact missed
    | data words room =>
      dsimp only
      split_ifs
      · exact missed
      · unfold receive
        dsimp only
        split_ifs <;> exact lt_of_lt_of_le missed (packWords_mono words)
      · exact missed

theorem foldl_complained {settings : Settings} {state : State} (transfers : List Transfer)
    (complained : Complained state) :
    Complained (transfers.foldl (transferStep settings) state) := by
  induction transfers generalizing state with
  | nil => exact complained
  | cons transfer rest ih => exact ih (transferStep_complained transfer complained)

theorem foldl_exited {settings : Settings} {state : State} (transfers : List Transfer)
    (exited : state.exited = true) : transfers.foldl (transferStep settings) state = state := by
  induction transfers with
  | nil => rfl
  | cons transfer rest ih =>
    have same : transferStep settings state transfer = state := if_pos exited
    rw [List.foldl_cons, same, ih]

theorem Tracks.of_result {settings : Settings} {words : List UInt16} {thread : Thread}
    (tracks : Tracks settings words thread) {result : CaptureResult}
    (verified : result ≠ .verificationError) (dropoutStop : Option DropoutReason) :
    Tracks settings words { thread with captureResult := result, dropoutStop } :=
  ⟨tracks.synced, tracks.last,
    fun testing => (tracks.ramp testing).of_same ⟨rfl, rfl, rfl, rfl⟩,
    tracks.noMissedFrame, verified⟩

structure Clean (settings : Settings) (words : List UInt16) (state : State) : Prop where
  tracks : Tracks settings words state.thread
  committed : state.committed = (packed words).map Cell.packed

theorem foldl_outcome {settings : Settings} {front : List UInt16} {state : State}
    (transfers : List Transfer) (running : state.exited = false)
    (clean : Clean settings front state) (unwrapped : NeverWraps settings front)
    (noDrop : ∀ transfer ∈ transfers, transfer.dropped = false)
    (accepted : Accepted settings (front ++ received transfers)) :
    (NeverWraps settings (front ++ received transfers) →
      Clean settings (front ++ received transfers)
        (transfers.foldl (transferStep settings) state)) ∧
      (¬NeverWraps settings (front ++ received transfers) →
        Complained (transfers.foldl (transferStep settings) state)) := by
  induction transfers generalizing front state with
  | nil =>
    simp only [received, List.append_nil, List.foldl_nil]
    exact ⟨fun _ => clean, fun wraps => absurd unwrapped wraps⟩
  | cons transfer rest ih =>
    have laterDrop := fun other (member : other ∈ rest) =>
      noDrop other (List.mem_cons_of_mem _ member)
    have taken : transferStep settings state transfer = _ := if_neg (by simp [running])
    rw [List.foldl_cons, taken]
    cases transfer with
    | timeout => exact ih running clean unwrapped laterDrop accepted
    | transientError =>
      refine ih running ⟨clean.tracks.of_result ?_ _, clean.committed⟩ unwrapped laterDrop accepted
      split
      · exact nofun
      · exact clean.tracks.verified
    | fatalError =>
      simp only [received, List.append_nil] at accepted ⊢
      rw [foldl_exited rest rfl]
      refine ⟨fun _ => ⟨?_, clean.committed⟩, fun wraps => absurd unwrapped wraps⟩
      have other : CaptureResult.connectionFailure ≠ .verificationError := nofun
      unfold requestDropoutStop
      split_ifs
      · exact clean.tracks.of_result other _
      · exact clean.tracks.of_result other _
    | data words room =>
      have took : room = true := by
        simpa [Transfer.dropped] using noDrop _ List.mem_cons_self
      simp only [received, took, if_true] at accepted ⊢
      by_cases empty : words = []
      · subst empty
        exact ih running clean unwrapped laterDrop accepted
      · rw [if_neg empty]
        rw [← List.append_assoc] at accepted ⊢
        have outcome := packWords_tracks clean.tracks unwrapped accepted.front
        unfold receive
        by_cases whole : NeverWraps settings (front ++ words)
        · obtain ⟨last, reached, tracked⟩ := outcome.1 whole
          simp only [reached, if_true]
          refine ih running ⟨tracked, ?_⟩ whole laterDrop accepted
          simp [clean.committed, packed]
        · have caught := outcome.2 whole
          constructor
          · intro later
            exact absurd (neverWraps_front later) whole
          · intro _
            apply foldl_complained
            cases caught with
            | inl missed =>
              dsimp only
              split_ifs <;> exact Or.inl missed
            | inr failed =>
              simp only [failed.2, Bool.false_eq_true, if_false]
              exact Or.inr ⟨failed.1, rfl⟩

/-- For a stream that both validators take, in any division into transfers and with none
dropped, the thread agrees with them exactly if no marker 62 is followed by marker 0 and, in
test mode, nothing follows the first wrap of the ramp. -/
theorem legacy_agrees_iff (settings : Settings) (transfers : List Transfer)
    (noDrop : ∀ transfer ∈ transfers, transfer.dropped = false)
    (accepted : Accepted settings (received transfers)) :
    Agrees (captureThread settings transfers) (received transfers) ↔
      NeverWraps settings (received transfers) := by
  have start : Clean settings [] initial :=
    ⟨⟨rfl, by simp, fun _ => RampTracks.start, rfl, nofun⟩, rfl⟩
  have unwrapped : NeverWraps settings [] := ⟨by simp, by simp⟩
  have outcome := foldl_outcome transfers rfl start unwrapped noDrop accepted
  rw [List.nil_append] at outcome
  constructor
  · intro agrees
    by_contra wraps
    cases outcome.2 wraps with
    | inl missed => exact missed.ne' agrees.noMissedFrame
    | inr failed =>
      apply agrees.verified
      simp [captureThread, failed.1]
  · intro quiet
    have clean := outcome.1 quiet
    constructor
    · exact clean.tracks.noMissedFrame
    · unfold captureThread
      dsimp only
      split
      · exact nofun
      · exact clean.tracks.verified
    · intro cell member
      have inside : cell ∈ (packed (received transfers)).map Cell.packed :=
        clean.committed ▸ member
      rw [packed, List.map_map, List.mem_map] at inside
      obtain ⟨word, received, rfl⟩ := inside
      exact ⟨word, received, rfl⟩

/-- Marker 0 and then 1, and the ramp from 1020 up to its wrap, in three transfers. -/
theorem legacy_agrees_iff_ramp :
    let transfers : List Transfer :=
      [.data [0x3FC, 0x7FD] true, .timeout, .data [0x7FE] true, .data [0x7FF, 0x400] true]
    Agrees (captureThread ⟨true, true⟩ transfers) (received transfers) := by
  intro transfers
  refine (legacy_agrees_iff ⟨true, true⟩ transfers ?_ ?_).mpr ?_
  · decide
  · exact ⟨by decide +kernel, fun _ => by decide +kernel⟩
  · exact ⟨by decide +kernel, fun _ => by decide +kernel⟩

/-- Both validators take the three words; the thread misses a frame at the second one, and
fails the ramp at the third. -/
theorem legacy_disagrees :
    let words : List UInt16 := [0xFBFC, 0x0000, 0x0001]
    let last := captureThread ⟨true, true⟩ [.data words true]
    Accepted ⟨true, true⟩ words ∧ last.thread.missedFrameCount = 1 ∧
      last.thread.captureResult = .verificationError ∧ Cell.stale ∈ last.committed := by
  refine ⟨⟨by decide +kernel, fun _ => by decide +kernel⟩, ?_, ?_, ?_⟩
  all_goals decide +kernel

end MisrcGui.Ddd.LegacyCapture
