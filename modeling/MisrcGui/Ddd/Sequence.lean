import MisrcGui.Ddd.TestRamp

/-! The sequence validator of `ddd_protocol.c`. It learns the block length from the first
complete block. -/
namespace MisrcGui.Ddd
open Library Library.Window

def sequenceMarkerCount : Nat := 63
def sequenceSamplesPerMarker : Nat := 65535
def sequenceLegacySamplesPerMarker : Nat := 65536
def sequenceMaxSamplesPerMarker : Nat := sequenceLegacySamplesPerMarker

inductive SequencePhase where
  | synchronizing
  | running
  | failed
deriving DecidableEq

structure SequenceValidator where
  phase : SequencePhase
  markerSeen : Bool
  marker : Nat
  samplesInMarker : Nat
  samplesPerMarker : Nat
  samplesSeen : Nat
  errorSampleIndex : Nat
  expectedMarker : Nat
  actualMarker : Nat
deriving DecidableEq

def sequenceValidatorInit : SequenceValidator :=
  ⟨.synchronizing, false, 0, 0, 0, 0, 0, 0, 0⟩

def nextSequenceMarker (marker : Nat) : Nat :=
  if marker + 1 = sequenceMarkerCount then 0 else marker + 1

def sequenceFail (state : SequenceValidator) (expected actual : Nat) : SequenceValidator :=
  { state with
    phase := .failed
    errorSampleIndex := state.samplesSeen
    expectedMarker := expected
    actualMarker := actual }

def markerLimit (state : SequenceValidator) : Nat :=
  if state.samplesPerMarker ≠ 0 then state.samplesPerMarker else sequenceMaxSamplesPerMarker

def sampleMarker (word : UInt16) : Nat := ((word >>> 10) &&& 0x3F).toNat

def countSample (state : SequenceValidator) : SequenceValidator :=
  { state with
    samplesInMarker := state.samplesInMarker + 1
    samplesSeen := state.samplesSeen + 1 }

def beginMarker (state : SequenceValidator) (actual : Nat) : SequenceValidator :=
  { state with
    marker := actual
    samplesInMarker := 1
    samplesSeen := state.samplesSeen + 1 }

def lengthMatches (state : SequenceValidator) : Bool :=
  if state.samplesPerMarker ≠ 0 then state.samplesInMarker == state.samplesPerMarker
  else state.samplesInMarker == sequenceSamplesPerMarker ||
    state.samplesInMarker == sequenceLegacySamplesPerMarker

/-- The loop body of `ddd_sequence_validator_feed`, with its local `marker_limit`. -/
def sequenceSample (limit : Nat) (state : SequenceValidator) (word : UInt16) :
    Except SequenceValidator (Nat × SequenceValidator) :=
  let actual := sampleMarker word
  let begun := beginMarker state actual
  let expected := nextSequenceMarker state.marker
  if sequenceMarkerCount ≤ actual then .error (sequenceFail state 0 actual)
  else if !state.markerSeen then .ok (limit, { begun with markerSeen := true })
  else if state.phase = .synchronizing then
    if actual = state.marker then
      if state.samplesInMarker = limit then .error (sequenceFail state expected actual)
      else .ok (limit, countSample state)
    else if actual ≠ expected then .error (sequenceFail state expected actual)
    else .ok (limit, { begun with phase := .running })
  else if actual = state.marker then
    if state.samplesInMarker = limit then .error (sequenceFail state expected actual)
    else .ok (limit, countSample state)
  else if !lengthMatches state then
    .error (sequenceFail state state.marker actual)
  else if actual ≠ expected then .error (sequenceFail state expected actual)
  else if state.samplesPerMarker = 0 then
    .ok (state.samplesInMarker, { begun with samplesPerMarker := state.samplesInMarker })
  else .ok (limit, begun)

def sequenceSamples : Nat → SequenceValidator → List UInt16 → SequenceValidator × Bool
  | _, state, [] => (state, true)
  | limit, state, word :: rest =>
    match sequenceSample limit state word with
    | .ok (limit, next) => sequenceSamples limit next rest
    | .error failed => (failed, false)

def sequenceValidatorFeed (state : SequenceValidator) (words : List UInt16) :
    SequenceValidator × ValidationResult :=
  if state.phase = .failed then (state, .mismatch)
  else (sequenceSamples (markerLimit state) state words).map id verdict

def sequenceValidatorFeedChunks (chunks : List (List UInt16)) :
    SequenceValidator × ValidationResult :=
  Scanner.feedChunks sequenceValidatorFeed (sequenceValidatorInit, .ok) chunks

/-- The marker at a position of a stream of blocks of one length. -/
def blockMarker (length position : Nat) : Nat := position / length % sequenceMarkerCount

theorem blockMarker_block {length : Nat} (positive : 0 < length) (block offset : Nat) :
    blockMarker length (block * length + offset) =
      (block + offset / length) % sequenceMarkerCount := by
  rw [blockMarker, Nat.mul_comm, Nat.mul_add_div positive]

theorem nextSequenceMarker_eq {marker : Nat} (h : marker < sequenceMarkerCount) :
    nextSequenceMarker marker = (marker + 1) % sequenceMarkerCount := by
  unfold nextSequenceMarker sequenceMarkerCount at *
  split <;> omega

theorem nextSequenceMarker_ne {marker : Nat} : nextSequenceMarker marker ≠ marker := by
  unfold nextSequenceMarker
  split
  · rename_i last
    rw [sequenceMarkerCount] at last
    omega
  · omega

theorem window_block {length : Nat} (positive : 0 < length) (block offset : Nat)
    (markers : List Nat) :
    IsWindow (blockMarker length) (block * length + offset) markers ↔
      IsWindow (blockMarker length) (block % sequenceMarkerCount * length + offset)
        markers := by
  apply IsWindow.congr
  intro index
  rw [Nat.add_assoc, Nat.add_assoc, blockMarker_block positive, blockMarker_block positive,
    Nat.mod_add_mod]

/-- `count` samples of a block have passed. -/
def Block (length marker count : Nat) (markers : List Nat) : Prop :=
  count ≤ length ∧ IsWindow (blockMarker length) (marker * length + count) markers

def Learning (marker count : Nat) (markers : List Nat) : Prop :=
  Block sequenceSamplesPerMarker marker count markers ∨
    Block sequenceLegacySamplesPerMarker marker count markers

/-- At most `left` samples of one marker, then whole blocks from the next marker on. -/
def Fragment (marker left : Nat) (markers : List Nat) : Prop :=
  ∃ fragment ≤ left, ∃ rest, markers = List.replicate fragment marker ++ rest ∧
    Learning (marker + 1) 0 rest

def Opening (markers : List Nat) : Prop :=
  ∃ marker < sequenceMarkerCount, Fragment marker sequenceMaxSamplesPerMarker markers

section
variable {length marker count value left : Nat} {rest : List Nat}

theorem block_same (inside : marker < sequenceMarkerCount) (positive : 0 < length) :
    Block length marker count (marker :: rest) ↔
      count < length ∧ Block length marker (count + 1) rest := by
  unfold Block
  rw [isWindow_cons, blockMarker_block positive]
  constructor
  · rintro ⟨fits, same, later⟩
    have before : count ≠ length := by
      rintro rfl
      rw [Nat.div_self positive, ← nextSequenceMarker_eq inside] at same
      exact nextSequenceMarker_ne same.symm
    have below := Nat.lt_of_le_of_ne fits before
    exact ⟨below, below, later⟩
  · rintro ⟨below, -, later⟩
    rw [Nat.div_eq_of_lt below, Nat.add_zero, Nat.mod_eq_of_lt inside]
    exact ⟨below.le, rfl, later⟩

theorem block_next (inside : marker < sequenceMarkerCount) (positive : 0 < length)
    (differs : value ≠ marker) :
    Block length marker count (value :: rest) ↔
      count = length ∧ value = nextSequenceMarker marker ∧ Block length value 1 rest := by
  unfold Block
  rw [isWindow_cons, blockMarker_block positive, nextSequenceMarker_eq inside]
  have ends : count = length → (value = (marker + count / length) % sequenceMarkerCount ↔
      value = (marker + 1) % sequenceMarkerCount) := by
    rintro rfl
    rw [Nat.div_self positive]
  have starts : value = (marker + 1) % sequenceMarkerCount →
      (IsWindow (blockMarker length) (marker * length + length + 1) rest ↔
        IsWindow (blockMarker length) (value * length + 1) rest) := by
    rintro rfl
    rw [← Nat.succ_mul, window_block positive]
  constructor
  · rintro ⟨fits, same, later⟩
    have full : count = length := by
      by_contra before
      have below := Nat.lt_of_le_of_ne fits before
      rw [Nat.div_eq_of_lt below, Nat.add_zero, Nat.mod_eq_of_lt inside] at same
      exact differs same
    have follows := (ends full).mp same
    rw [full] at later
    exact ⟨full, follows, positive, (starts follows).mp later⟩
  · rintro ⟨full, follows, -, later⟩
    rw [full]
    exact ⟨le_rfl, full ▸ (ends full).mpr follows, (starts follows).mpr later⟩

theorem learning_zero (inside : marker < sequenceMarkerCount) :
    Learning (marker + 1) 0 (value :: rest) ↔
      value = nextSequenceMarker marker ∧ Learning value 1 rest := by
  have start (length : Nat) (positive : 0 < length) :
      Block length (marker + 1) 0 (value :: rest) ↔
        value = nextSequenceMarker marker ∧ Block length value 1 rest := by
    unfold Block
    rw [isWindow_cons, blockMarker_block positive, nextSequenceMarker_eq inside,
      Nat.zero_div]
    simp only [Nat.add_zero]
    rw [window_block positive (marker + 1)]
    constructor
    · rintro ⟨-, rfl, later⟩
      exact ⟨rfl, positive, later⟩
    · rintro ⟨rfl, -, later⟩
      exact ⟨Nat.zero_le _, rfl, later⟩
  unfold Learning
  rw [start _ (by decide), start _ (by decide), and_or_left]

theorem fragment_same (inside : marker < sequenceMarkerCount) :
    Fragment marker left (marker :: rest) ↔ 0 < left ∧ Fragment marker (left - 1) rest := by
  constructor
  · rintro ⟨fragment, fits, tail, split, later⟩
    cases fragment with
    | zero =>
      rw [List.replicate_zero, List.nil_append] at split
      rw [← split, learning_zero inside] at later
      exact absurd later.1.symm nextSequenceMarker_ne
    | succ fragment =>
      rw [List.replicate_succ, List.cons_append, List.cons.injEq] at split
      exact ⟨Nat.zero_lt_of_lt fits, fragment, Nat.le_sub_one_of_lt fits, tail, split.2, later⟩
  · rintro ⟨positive, fragment, fits, tail, rfl, later⟩
    exact ⟨fragment + 1, Nat.add_le_of_le_sub positive fits, tail, rfl, later⟩

theorem fragment_next (inside : marker < sequenceMarkerCount) (differs : value ≠ marker) :
    Fragment marker left (value :: rest) ↔
      value = nextSequenceMarker marker ∧ Learning value 1 rest := by
  rw [← learning_zero inside]
  constructor
  · rintro ⟨fragment, -, tail, split, later⟩
    cases fragment with
    | zero =>
      rw [List.replicate_zero, List.nil_append] at split
      rwa [split]
    | succ fragment =>
      rw [List.replicate_succ, List.cons_append, List.cons.injEq] at split
      exact absurd split.1 differs
  · intro later
    exact ⟨0, Nat.zero_le _, value :: rest, rfl, later⟩

theorem Block.fragment (inside : marker < sequenceMarkerCount)
    (known : length = sequenceSamplesPerMarker ∨ length = sequenceLegacySamplesPerMarker)
    (block : Block length marker count rest) : Fragment marker (length - count) rest := by
  have positive : 0 < length := by
    rcases known with rfl | rfl <;> decide
  induction rest generalizing count with
  | nil =>
    exact ⟨0, Nat.zero_le _, [], rfl, .inl ⟨Nat.zero_le _, isWindow_nil⟩⟩
  | cons value rest ih =>
    by_cases same : value = marker
    · subst same
      rw [block_same inside positive] at block
      rw [fragment_same inside, Nat.sub_sub]
      exact ⟨Nat.sub_pos_of_lt block.1, ih block.2⟩
    · rw [block_next inside positive same] at block
      rw [fragment_next inside same]
      rcases known with rfl | rfl
      · exact ⟨block.2.1, .inl block.2.2⟩
      · exact ⟨block.2.1, .inr block.2.2⟩

theorem Fragment.weaken {more : Nat} (h : left ≤ more) (fragment : Fragment marker left rest) :
    Fragment marker more rest := by
  rcases fragment with ⟨samples, fits, split⟩
  exact ⟨samples, fits.trans h, split⟩

theorem Learning.fragment (inside : marker < sequenceMarkerCount)
    (learning : Learning marker 1 rest) :
    Fragment marker (sequenceMaxSamplesPerMarker - 1) rest := by
  rcases learning with block | block
  · exact (block.fragment inside (.inl rfl)).weaken (by decide)
  · exact block.fragment inside (.inr rfl)

theorem opening_cons (inside : value < sequenceMarkerCount) :
    Opening (value :: rest) ↔ Fragment value (sequenceMaxSamplesPerMarker - 1) rest := by
  constructor
  · rintro ⟨marker, known, fragment⟩
    by_cases same : value = marker
    · subst same
      exact ((fragment_same known).mp fragment).2
    · exact ((fragment_next known same).mp fragment).2.fragment inside
  · intro fragment
    exact ⟨value, inside, (fragment_same inside).mpr ⟨by decide, fragment⟩⟩

end

structure ValidSequence (state : SequenceValidator) : Prop where
  phase : state.phase ≠ .failed
  unseen : state.markerSeen = false → state.phase = .synchronizing
  marker_lt : state.markerSeen = true → state.marker < sequenceMarkerCount
  counted : state.markerSeen = true →
    0 < state.samplesInMarker ∧ state.samplesInMarker ≤ markerLimit state
  learned : state.samplesPerMarker = 0 ∨
    state.samplesPerMarker = sequenceSamplesPerMarker ∨
    state.samplesPerMarker = sequenceLegacySamplesPerMarker
  unlearned : state.phase = .synchronizing → state.samplesPerMarker = 0

def markerLanguage (state : SequenceValidator) (markers : List Nat) : Prop :=
  if state.markerSeen = false then Opening markers
  else if state.phase = .synchronizing then
    Fragment state.marker (sequenceMaxSamplesPerMarker - state.samplesInMarker) markers
  else if state.samplesPerMarker = 0 then
    Learning state.marker state.samplesInMarker markers
  else Block state.samplesPerMarker state.marker state.samplesInMarker markers

def sequenceStep (state : SequenceValidator) (word : UInt16) :
    Except SequenceValidator SequenceValidator :=
  (sequenceSample (markerLimit state) state word).map Prod.snd

theorem markerLanguage_nil {state : SequenceValidator} (valid : ValidSequence state) :
    markerLanguage state [] := by
  unfold markerLanguage
  cases seen : state.markerSeen with
  | false => exact ⟨0, by decide, 0, Nat.zero_le _, [], rfl, .inl ⟨Nat.zero_le _, isWindow_nil⟩⟩
  | true =>
    have fits := (valid.counted seen).2
    unfold markerLimit at fits
    by_cases synchronizing : state.phase = .synchronizing
    · rw [if_neg Bool.true_eq_false.mp, if_pos synchronizing]
      exact ⟨0, Nat.zero_le _, [], rfl, .inl ⟨Nat.zero_le _, isWindow_nil⟩⟩
    · by_cases unlearned : state.samplesPerMarker = 0
      · rw [if_neg (not_not.mpr unlearned)] at fits
        simp only [Bool.true_eq_false, synchronizing, unlearned, if_false, if_true]
        exact .inr ⟨fits, isWindow_nil⟩
      · rw [if_pos unlearned] at fits
        simp only [Bool.true_eq_false, synchronizing, unlearned, if_false]
        exact ⟨fits, isWindow_nil⟩

theorem markerLanguage_reserved {state : SequenceValidator} (valid : ValidSequence state)
    {value : Nat} (rest : List Nat) (reserved : sequenceMarkerCount ≤ value) :
    ¬markerLanguage state (value :: rest) := by
  have next {marker : Nat} (inside : marker < sequenceMarkerCount) :
      value ≠ marker ∧ value ≠ nextSequenceMarker marker := by
    rw [nextSequenceMarker_eq inside]
    have below := Nat.mod_lt (marker + 1) (show 0 < sequenceMarkerCount by decide)
    omega
  unfold markerLanguage
  cases seen : state.markerSeen with
  | false =>
    rintro ⟨marker, inside, fragment⟩
    exact (next inside).2 ((fragment_next inside (next inside).1).mp fragment).1
  | true =>
    have inside := valid.marker_lt seen
    have differs := next inside
    have block {length : Nat} (positive : 0 < length) :
        ¬Block length state.marker state.samplesInMarker (value :: rest) := fun follows =>
      differs.2 ((block_next inside positive differs.1).mp follows).2.1
    simp only [Bool.true_eq_false, if_false]
    split_ifs with synchronizing unlearned
    · exact fun fragment => differs.2 ((fragment_next inside differs.1).mp fragment).1
    · exact fun learning => learning.elim (block (by decide)) (block (by decide))
    · exact block (Nat.pos_of_ne_zero unlearned)

theorem learning_same {marker count : Nat} {rest : List Nat}
    (inside : marker < sequenceMarkerCount) :
    Learning marker count (marker :: rest) ↔
      count < sequenceMaxSamplesPerMarker ∧ Learning marker (count + 1) rest := by
  unfold Learning
  rw [block_same inside (by decide), block_same inside (by decide)]
  constructor
  · rintro (⟨below, later⟩ | ⟨below, later⟩)
    · exact ⟨below.trans (by decide), .inl later⟩
    · exact ⟨below, .inr later⟩
  · rintro ⟨below, later | later⟩
    · exact .inl ⟨later.1, later⟩
    · exact .inr ⟨below, later⟩

theorem learning_next {marker count value : Nat} {rest : List Nat}
    (inside : marker < sequenceMarkerCount) (differs : value ≠ marker) :
    Learning marker count (value :: rest) ↔
      (count = sequenceSamplesPerMarker ∨ count = sequenceLegacySamplesPerMarker) ∧
        value = nextSequenceMarker marker ∧ Block count value 1 rest := by
  unfold Learning
  rw [block_next inside (by decide) differs, block_next inside (by decide) differs]
  constructor
  · rintro (⟨rfl, later⟩ | ⟨rfl, later⟩)
    · exact ⟨.inl rfl, later⟩
    · exact ⟨.inr rfl, later⟩
  · rintro ⟨rfl | rfl, later⟩
    · exact .inl ⟨rfl, later⟩
    · exact .inr ⟨rfl, later⟩

section
variable {state : SequenceValidator} {word : UInt16}

theorem sequenceStep_reserved (reserved : sequenceMarkerCount ≤ sampleMarker word) :
    sequenceStep state word = .error (sequenceFail state 0 (sampleMarker word)) := by
  simp [sequenceStep, sequenceSample, reserved, Except.map]

theorem sequenceStep_first (actual : sampleMarker word < sequenceMarkerCount)
    (unseen : state.markerSeen = false) :
    sequenceStep state word =
      .ok { beginMarker state (sampleMarker word) with markerSeen := true } := by
  simp [sequenceStep, sequenceSample, Nat.not_le.mpr actual, unseen, Except.map]

theorem sequenceStep_same (actual : sampleMarker word < sequenceMarkerCount)
    (seen : state.markerSeen = true) (same : sampleMarker word = state.marker) :
    sequenceStep state word =
      if state.samplesInMarker = markerLimit state then
        .error (sequenceFail state (nextSequenceMarker state.marker) (sampleMarker word))
      else .ok (countSample state) := by
  rw [same] at actual
  simp only [sequenceStep, sequenceSample, same, Nat.not_le.mpr actual, seen, if_true,
    if_false, Bool.not_true, Bool.false_eq_true, ite_self]
  split <;> rfl

theorem sequenceStep_turn (actual : sampleMarker word < sequenceMarkerCount)
    (seen : state.markerSeen = true) (synchronizing : state.phase = .synchronizing)
    (differs : sampleMarker word ≠ state.marker) :
    sequenceStep state word =
      if sampleMarker word ≠ nextSequenceMarker state.marker then
        .error (sequenceFail state (nextSequenceMarker state.marker) (sampleMarker word))
      else .ok { beginMarker state (sampleMarker word) with phase := .running } := by
  simp only [sequenceStep, sequenceSample, Nat.not_le.mpr actual, seen, synchronizing,
    differs, if_true, if_false, Bool.not_true, Bool.false_eq_true]
  split <;> rfl

theorem sequenceStep_next (actual : sampleMarker word < sequenceMarkerCount)
    (seen : state.markerSeen = true) (running : state.phase ≠ .synchronizing)
    (differs : sampleMarker word ≠ state.marker) :
    sequenceStep state word =
      if !lengthMatches state then
        .error (sequenceFail state state.marker (sampleMarker word))
      else if sampleMarker word ≠ nextSequenceMarker state.marker then
        .error (sequenceFail state (nextSequenceMarker state.marker) (sampleMarker word))
      else .ok { beginMarker state (sampleMarker word) with
        samplesPerMarker :=
          if state.samplesPerMarker = 0 then state.samplesInMarker
          else state.samplesPerMarker } := by
  simp only [sequenceStep, sequenceSample, Nat.not_le.mpr actual, seen, running,
    differs, if_false, Bool.not_true, Bool.false_eq_true]
  split
  · rfl
  · split
    · rfl
    · split <;> rfl

end

theorem sequenceStep_residual {state : SequenceValidator} (valid : ValidSequence state)
    (word : UInt16) (rest : List Nat) :
    markerLanguage state (sampleMarker word :: rest) ↔
      ∃ next, sequenceStep state word = .ok next ∧ markerLanguage next rest := by
  by_cases reserved : sequenceMarkerCount ≤ sampleMarker word
  · have refused := markerLanguage_reserved valid rest reserved
    simp [refused, sequenceStep_reserved reserved]
  have actual := Nat.lt_of_not_le reserved
  cases seen : state.markerSeen with
  | false =>
    have synchronizing := valid.unseen seen
    simp [sequenceStep_first actual seen, markerLanguage, seen, beginMarker, synchronizing,
      opening_cons actual]
  | true =>
    have inside := valid.marker_lt seen
    have counted := valid.counted seen
    by_cases same : sampleMarker word = state.marker
    · rw [sequenceStep_same actual seen same, Scanner.exists_ok_guarded, same,
        ← ne_eq, ← counted.2.lt_iff_ne]
      unfold markerLanguage
      by_cases synchronizing : state.phase = .synchronizing
      · simp [countSample, seen, synchronizing, valid.unlearned synchronizing, markerLimit,
          fragment_same inside, Nat.sub_sub, Nat.sub_pos_iff_lt]
      · by_cases unlearned : state.samplesPerMarker = 0
        · simp [countSample, seen, synchronizing, unlearned, markerLimit,
            learning_same inside]
        · simp [countSample, seen, synchronizing, unlearned, markerLimit,
            block_same inside (Nat.pos_of_ne_zero unlearned)]
    · by_cases synchronizing : state.phase = .synchronizing
      · rw [sequenceStep_turn actual seen synchronizing same, Scanner.exists_ok_guarded]
        simp [markerLanguage, seen, synchronizing, beginMarker, fragment_next inside same,
          valid.unlearned synchronizing]
      · rw [sequenceStep_next actual seen synchronizing same, Scanner.exists_ok_guarded,
          Scanner.exists_ok_guarded]
        by_cases unlearned : state.samplesPerMarker = 0
        · simp [markerLanguage, seen, synchronizing, unlearned, learning_next inside same,
            beginMarker, lengthMatches, or_iff_not_imp_left, counted.1.ne']
        · simp [markerLanguage, seen, synchronizing, unlearned, beginMarker, lengthMatches,
            block_next inside (Nat.pos_of_ne_zero unlearned) same]

theorem markerLimit_learned {state : SequenceValidator}
    (learned : state.samplesPerMarker = 0 ∨
      state.samplesPerMarker = sequenceSamplesPerMarker ∨
      state.samplesPerMarker = sequenceLegacySamplesPerMarker) : 0 < markerLimit state := by
  unfold markerLimit
  rcases learned with h | h | h <;> rw [h] <;> decide

theorem sequenceStep_valid {state next : SequenceValidator} (valid : ValidSequence state)
    {word : UInt16} (step : sequenceStep state word = .ok next) : ValidSequence next := by
  by_cases reserved : sequenceMarkerCount ≤ sampleMarker word
  · rw [sequenceStep_reserved reserved] at step
    cases step
  have actual := Nat.lt_of_not_le reserved
  cases seen : state.markerSeen with
  | false =>
    have synchronizing := valid.unseen seen
    have unlearned := valid.unlearned synchronizing
    rw [sequenceStep_first actual seen] at step
    cases step
    exact ⟨valid.phase, nofun, fun _ => actual,
      fun _ => ⟨Nat.one_pos, markerLimit_learned valid.learned⟩, valid.learned,
      fun _ => unlearned⟩
  | true =>
    have inside := valid.marker_lt seen
    have counted := valid.counted seen
    by_cases same : sampleMarker word = state.marker
    · rw [sequenceStep_same actual seen same] at step
      split_ifs at step with full
      cases step
      have room := Nat.lt_of_le_of_ne counted.2 full
      exact ⟨valid.phase, valid.unseen, valid.marker_lt, fun _ => ⟨Nat.succ_pos _, room⟩,
        valid.learned, valid.unlearned⟩
    · by_cases synchronizing : state.phase = .synchronizing
      · rw [sequenceStep_turn actual seen synchronizing same] at step
        split_ifs at step
        cases step
        exact ⟨nofun, fun unseen => absurd (unseen.symm.trans seen) Bool.false_ne_true,
          fun _ => actual, fun _ => ⟨Nat.one_pos, markerLimit_learned valid.learned⟩,
          valid.learned, nofun⟩
      · rw [sequenceStep_next actual seen synchronizing same] at step
        split_ifs at step with mismatch turn unlearned
        · cases step
          simp only [Bool.not_eq_true', Bool.not_eq_false, lengthMatches, unlearned, ne_eq,
            not_true, if_false, Bool.or_eq_true, beq_iff_eq] at mismatch
          exact ⟨valid.phase, valid.unseen, fun _ => actual,
            fun _ => ⟨Nat.one_pos, markerLimit_learned (.inr mismatch)⟩, .inr mismatch,
            fun phase => absurd phase synchronizing⟩
        · cases step
          exact ⟨valid.phase, valid.unseen, fun _ => actual,
            fun _ => ⟨Nat.one_pos, markerLimit_learned valid.learned⟩, valid.learned,
            valid.unlearned⟩

theorem sequenceStep_sticky :
    Scanner.Sticky sequenceStep (fun state => state.phase == .failed) := by
  intro state word running
  unfold sequenceStep sequenceSample
  dsimp only
  split_ifs <;> simp_all [Except.map, sequenceFail, beginMarker, countSample]

theorem sequenceSample_limit {state next : SequenceValidator} {word : UInt16} {limit : Nat}
    (step : sequenceSample (markerLimit state) state word = .ok (limit, next)) :
    limit = markerLimit next := by
  unfold sequenceSample at step
  dsimp only at step
  split_ifs at step with _ _ _ _ _ _ _ _ mismatch _ unlearned
  all_goals cases step
  · rfl
  · rfl
  · rfl
  · rfl
  · simp only [Bool.not_eq_true', Bool.not_eq_false, lengthMatches, unlearned, ne_eq,
      not_true, if_false, Bool.or_eq_true, beq_iff_eq] at mismatch
    rcases mismatch with h | h <;> simp [markerLimit, h] <;> decide
  · rfl

theorem sequenceSamples_eq (state : SequenceValidator) (words : List UInt16) :
    sequenceSamples (markerLimit state) state words = Scanner.scan sequenceStep state words := by
  induction words generalizing state with
  | nil => rfl
  | cons word rest ih =>
    rw [sequenceSamples, Scanner.scan, sequenceStep]
    cases h : sequenceSample (markerLimit state) state word with
    | error failed => rfl
    | ok pair =>
      obtain ⟨limit, next⟩ := pair
      rw [sequenceSample_limit h]
      exact ih next

theorem sequenceValidatorFeed_eq (state : SequenceValidator) (words : List UInt16) :
    sequenceValidatorFeed state words =
      (Scanner.feed sequenceStep (fun state => state.phase == .failed) state words).map id
        verdict := by
  unfold sequenceValidatorFeed Scanner.feed
  rw [sequenceSamples_eq]
  by_cases failed : state.phase = .failed
  · simp [failed, verdict]
  · simp [failed]

theorem sequenceValidatorFeed_append (state : SequenceValidator) (front rest : List UInt16) :
    sequenceValidatorFeed (sequenceValidatorFeed state front).1 rest =
      sequenceValidatorFeed state (front ++ rest) := by
  simp only [sequenceValidatorFeed_eq]
  rw [Prod.map_fst, id, Scanner.feed_append sequenceStep_sticky]

def sequenceLanguage (state : SequenceValidator) (words : List UInt16) : Prop :=
  markerLanguage state (words.map sampleMarker)

theorem sequenceValidatorFeed_ok (words : List UInt16) :
    (sequenceValidatorFeed sequenceValidatorInit words).2 = .ok ↔
      Opening (words.map sampleMarker) := by
  have start : ValidSequence sequenceValidatorInit :=
    ⟨nofun, fun _ => rfl, nofun, nofun, .inl rfl, fun _ => rfl⟩
  have empty : ∀ state, ValidSequence state → sequenceLanguage state [] :=
    fun _ valid => markerLanguage_nil valid
  have residual : ∀ state, ValidSequence state → ∀ word rest,
      sequenceLanguage state (word :: rest) ↔
        ∃ next, sequenceStep state word = .ok next ∧ sequenceLanguage next rest :=
    fun _ valid word rest => sequenceStep_residual valid word (rest.map sampleMarker)
  rw [sequenceValidatorFeed_eq, Prod.map_snd, verdict_eq_ok]
  exact Scanner.scan_accepts empty residual (fun _ valid _ _ => sequenceStep_valid valid)
    words start

/-- What the validator accepts beyond the streams of one block length: a first run as
long as a legacy block in front of the shorter blocks. -/
def LegacyFragment (markers : List Nat) : Prop :=
  ∃ marker < sequenceMarkerCount, ∃ rest,
    markers = List.replicate sequenceLegacySamplesPerMarker marker ++ rest ∧
      IsWindow (blockMarker sequenceSamplesPerMarker)
        ((marker + 1) * sequenceSamplesPerMarker) rest

def MarkerStream (markers : List Nat) : Prop :=
  ∃ length ∈ [sequenceSamplesPerMarker, sequenceLegacySamplesPerMarker], ∃ start,
    IsWindow (blockMarker length) start markers

theorem window_replicate {length marker offset count : Nat}
    (inside : marker < sequenceMarkerCount) (fits : offset + count ≤ length) :
    IsWindow (blockMarker length) (marker * length + offset) (List.replicate count marker) := by
  intro index bound
  rw [List.length_replicate] at bound
  rw [List.getElem_replicate, Nat.add_assoc, blockMarker_block (by omega),
    Nat.div_eq_of_lt (by omega), Nat.add_zero, Nat.mod_eq_of_lt inside]

theorem window_fragment {length marker fragment : Nat} {rest : List Nat}
    (inside : marker < sequenceMarkerCount) (fits : fragment ≤ length)
    (later : IsWindow (blockMarker length) ((marker + 1) * length) rest) :
    IsWindow (blockMarker length) (marker * length + (length - fragment))
      (List.replicate fragment marker ++ rest) := by
  have ends : marker * length + (length - fragment) + fragment = (marker + 1) * length := by
    rw [Nat.add_assoc, Nat.sub_add_cancel fits, Nat.succ_mul]
  rw [isWindow_append, List.length_replicate, ends]
  exact ⟨window_replicate inside (Nat.sub_add_cancel fits).le, later⟩

theorem block_zero {length marker : Nat} {rest : List Nat} :
    Block length marker 0 rest ↔
      IsWindow (blockMarker length) (marker * length) rest := by
  unfold Block
  rw [Nat.add_zero, and_iff_right (Nat.zero_le _)]

theorem opening_iff (markers : List Nat) :
    Opening markers ↔ MarkerStream markers ∨ LegacyFragment markers := by
  constructor
  · rintro ⟨marker, inside, fragment, fits, rest, rfl, block | block⟩
    · by_cases short : fragment ≤ sequenceSamplesPerMarker
      · exact .inl ⟨_, List.mem_cons_self, _, window_fragment inside short (block_zero.mp block)⟩
      · have whole : fragment = sequenceLegacySamplesPerMarker :=
          Nat.le_antisymm fits (Nat.lt_of_not_le short)
        exact .inr ⟨marker, inside, rest, by rw [whole], block_zero.mp block⟩
    · exact .inl ⟨_, List.mem_cons_of_mem _ List.mem_cons_self, _,
        window_fragment inside fits (block_zero.mp block)⟩
  · rintro (⟨length, known, start, window⟩ | ⟨marker, inside, rest, rfl, window⟩)
    · have length_known : length = sequenceSamplesPerMarker ∨
          length = sequenceLegacySamplesPerMarker := by simpa using known
      have positive : 0 < length := by rcases length_known with rfl | rfl <;> decide
      have bound : length ≤ sequenceMaxSamplesPerMarker := by
        rcases length_known with rfl | rfl <;> decide
      have marker_lt := Nat.mod_lt (start / length) (show 0 < sequenceMarkerCount by decide)
      rw [← Nat.div_add_mod' start length, window_block positive] at window
      have block : Block length (start / length % sequenceMarkerCount) (start % length)
          markers := ⟨(Nat.mod_lt _ positive).le, window⟩
      exact ⟨_, marker_lt, (block.fragment marker_lt length_known).weaken
        ((Nat.sub_le _ _).trans bound)⟩
    · exact ⟨marker, inside, _, le_rfl, rest, rfl, .inl (block_zero.mpr window)⟩

/-- Every chunking ends in the state and verdict of the whole list. The verdict is OK
exactly for a window of a stream of equal blocks, or for a first run of the legacy length
in front of the shorter blocks. -/
theorem sequence_accepts (chunks : List (List UInt16)) :
    sequenceValidatorFeedChunks chunks =
        sequenceValidatorFeed sequenceValidatorInit chunks.flatten ∧
      ((sequenceValidatorFeedChunks chunks).2 = .ok ↔
        MarkerStream (chunks.flatten.map sampleMarker) ∨
          LegacyFragment (chunks.flatten.map sampleMarker)) := by
  have whole : sequenceValidatorFeedChunks chunks =
      sequenceValidatorFeed sequenceValidatorInit chunks.flatten :=
    Scanner.feedChunks_eq sequenceValidatorFeed_append sequenceValidatorInit chunks
  refine ⟨whole, ?_⟩
  rw [whole, sequenceValidatorFeed_ok, opening_iff]

/-- 65536 samples with marker 0, 65535 with marker 1, and one with marker 2. -/
def longFragment : List UInt16 :=
  List.replicate sequenceLegacySamplesPerMarker 0x0000 ++
    (List.replicate sequenceSamplesPerMarker 0x0400 ++ [0x0800])

theorem longFragment_markers :
    longFragment.map sampleMarker = List.replicate sequenceLegacySamplesPerMarker 0 ++
      (List.replicate sequenceSamplesPerMarker 1 ++ [2]) := by
  simp only [longFragment, List.map_append, List.map_replicate, List.map_cons, List.map_nil]
  rfl

theorem IsWindow.replicate_shown {stream : Nat → Nat} {start count value index : Nat}
    (window : IsWindow stream start (List.replicate count value)) (inside : index < count) :
    stream (start + index) = value := by
  have shown := window index (by rwa [List.length_replicate])
  rw [List.getElem_replicate] at shown
  exact shown.symm

theorem longFragment_not_stream : ¬MarkerStream (longFragment.map sampleMarker) := by
  rw [longFragment_markers]
  rintro ⟨length, known, start, window⟩
  rw [isWindow_append, isWindow_append, List.length_replicate, List.length_replicate,
    isWindow_cons] at window
  obtain ⟨zeros, ones, two, -⟩ := window
  have first := IsWindow.replicate_shown zeros (show 0 < _ by decide)
  have last := IsWindow.replicate_shown zeros (show 65535 < _ by decide)
  have one := IsWindow.replicate_shown ones (show 0 < _ by decide)
  simp only [blockMarker, sequenceMarkerCount, sequenceLegacySamplesPerMarker,
    sequenceSamplesPerMarker, List.mem_cons, List.not_mem_nil, or_false] at *
  rcases known with rfl | rfl <;> omega

theorem legacy_fragment_accepted :
    (sequenceValidatorFeedChunks [longFragment]).2 = .ok ∧
      ¬MarkerStream (longFragment.map sampleMarker) := by
  refine ⟨?_, longFragment_not_stream⟩
  have whole : sequenceValidatorFeedChunks [longFragment] =
      sequenceValidatorFeed sequenceValidatorInit [longFragment].flatten :=
    Scanner.feedChunks_eq sequenceValidatorFeed_append sequenceValidatorInit [longFragment]
  rw [whole, sequenceValidatorFeed_ok, opening_iff, List.flatten_singleton,
    longFragment_markers]
  have ones : IsWindow (blockMarker sequenceSamplesPerMarker)
      (1 * sequenceSamplesPerMarker + 0) (List.replicate sequenceSamplesPerMarker 1) :=
    window_replicate (by decide) (Nat.zero_add _).le
  have two : 2 = blockMarker sequenceSamplesPerMarker
      (1 * sequenceSamplesPerMarker + sequenceSamplesPerMarker) := by decide
  rw [Nat.add_zero] at ones
  refine .inr ⟨0, by decide, _, rfl, ?_⟩
  rw [isWindow_append, List.length_replicate, isWindow_cons, Nat.zero_add]
  exact ⟨ones, two, isWindow_nil⟩

end MisrcGui.Ddd
