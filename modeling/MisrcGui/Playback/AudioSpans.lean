import MisrcGui.Playback.FlacDecode
import MisrcGui.Playback.RawSamples

/-! The monitor audio of `gui_playback.c`: the feed that follows the playhead and the spans that
it stages from a WAV or a FLAC file. Resampling, the monitor queue and the fractional position of
the output are left out. -/
namespace MisrcGui.Playback.AudioSpans
open FlacDecode
open Library Library.Layout Library.Window
open Ogg (littleEndian)
open RawSamples (shortSample signed)
open ScanInput (Handle seekAbs int64Max)
open WavFile (parseWav)

abbrev Stereo := Int16 × Int16

/-- `PLAYBACK_AUDIO_FEED_SPAN_MAX_FRAMES`, the capacity of the staging buffer. -/
def spanMaxFrames : Nat := 2400

def feedLookaheadMs : Nat := 50

/-- What the opening of a file resolves, as `playback_audio_source_t` has it. -/
structure Info where
  rateHz : Nat
  channels : Nat
  bits : Nat
  totalFrames : Nat

def Info.frameBytes (info : Info) : Nat := info.channels * (info.bits / 8)

def toI16 (v : Int) (bits : Nat) : Int16 :=
  match bits with
  | 8 => Int16.ofInt (v * 2 ^ 8)
  | 16 => Int16.ofInt v
  | 24 => Int16.ofInt (v / 2 ^ 8)
  | _ => Int16.ofInt (v / 2 ^ 16)

def wavSample (bits : Nat) (bytes : List UInt8) : Int :=
  match bits with
  | 8 => (littleEndian bytes : Int) - 128
  | 16 => shortSample bytes
  | 24 =>
    let u := littleEndian bytes
    (UInt32.ofNat (if 0x800000 ≤ u then u + 0xFF000000 else u)).toInt32.toInt
  | _ =>
    let u := littleEndian bytes
    if 0x80000000 ≤ u then (u - 0x80000000 : Nat) + -0x80000000 else u

def wavStereo (info : Info) (item : List UInt8) : Stereo :=
  let width := info.bits / 8
  let l := wavSample info.bits (field item 0 width)
  let r := if 1 < info.channels then wavSample info.bits (field item width width) else l
  (toI16 l info.bits, toI16 r info.bits)

/-- The size of `buf`. -/
def bufBytes : Nat := 8192

def readFrames (info : Info) (file : Handle) (left : Nat) : List (List UInt8) × Handle :=
  let (data, file) := file.fread (min left (bufBytes / info.frameBytes) * info.frameBytes)
  (units info.frameBytes data, file)

def wavPasses (info : Info) (file : Handle) (left : Nat) : List Stereo × Handle :=
  if left = 0 then ([], file)
  else if _ended : (readFrames info file left).1 = [] then ([], (readFrames info file left).2)
  else
    let later := wavPasses info (readFrames info file left).2
      (left - (readFrames info file left).1.length)
    ((readFrames info file left).1.map (wavStereo info) ++ later.1, later.2)
termination_by left
decreasing_by
  have some_ := List.length_pos_iff.mpr _ended
  omega

def wavSpan (info : Info) (file : Handle) (dataOffset fed want : Nat) : List Stereo × Handle :=
  if want = 0 ∨ info.frameBytes = 0 ∨ info.totalFrames ≤ fed then ([], file)
  else
    let want := min (min want (info.totalFrames - fed)) spanMaxFrames
    match seekAbs file (dataOffset + fed * info.frameBytes) with
    | none => ([], file)
    | some file => wavPasses info file want

def flacStereo (info : Info) (frame : List Int) : Stereo :=
  let ch0 := frame.getD 0 0
  let ch1 := if 1 < info.channels then frame.getD 1 0 else ch0
  let shift := if 16 < info.bits then info.bits - 16 else 0
  (Int16.ofInt (ch0 / 2 ^ shift), Int16.ofInt (ch1 / 2 ^ shift))

/-- `stage` up to `staged`, and `want`. -/
structure Stage where
  staged : List Stereo
  want : Nat

def Stage.full (stage : Stage) : Bool := stage.want ≤ stage.staged.length

/-- `gui_playback_audio_write_cb`. What the span has no room for is lost. -/
def writeCallback (info : Info) (stage : Stage) (block : List (List Int)) : Stage :=
  { stage with staged := stage.staged ++
      (block.take (stage.want - stage.staged.length)).map (flacStereo info) }

/-- A FLAC stream with its decoder and `flac_next`. -/
structure Flac where
  blocks : List (List (List Int))
  decoder : FlacDecode.Decoder (List Int)
  next : Nat
  stage : Stage

/-- `gui_playback_audio_flac_span`. The slice that the seek delivers is staged behind the last
span, and then the staging starts anew. -/
def flacSpan (info : Info) (flac : Flac) (fed want : Nat) : List Stereo × Flac :=
  if want = 0 ∨ info.totalFrames ≤ fed then ([], flac)
  else
    let want := min want spanMaxFrames
    let sought :=
      if fed ≠ flac.next then seekAbsolute (writeCallback info) flac.blocks fed flac.stage
      else some (flac.decoder, flac.stage)
    match sought with
    | none => ([], flac)
    | some (decoder, _) =>
      let (decoder, stage) := decode Stage.full (writeCallback info) decoder ⟨[], want⟩
      (stage.staged, { flac with decoder, stage, next := fed + stage.staged.length })

inductive Reader where
  | wav (file : Handle) (dataOffset : Nat)
  | flac (flac : Flac)

structure Audio where
  info : Info
  reader : Reader
  fed : Nat
  exhausted : Bool

/-- What a call reads: whether playback plays, whether its speed has a multiplier, and the
playhead in audio frames. -/
structure Call where
  playing : Bool
  paced : Bool
  target : Nat

/-- What is staged for the frames from `start` on. -/
structure Span where
  start : Nat
  frames : List Stereo
deriving DecidableEq

def span (audio : Audio) (want : Nat) : List Stereo × Reader :=
  match audio.reader with
  | .wav file dataOffset =>
    let (staged, file) := wavSpan audio.info file dataOffset audio.fed want
    (staged, .wav file dataOffset)
  | .flac flac =>
    let (staged, flac) := flacSpan audio.info flac audio.fed want
    (staged, .flac flac)

def Audio.push (audio : Audio) (want : Nat) : Audio :=
  { audio with
    reader := (span audio want).2
    fed := audio.fed + (span audio want).1.length }

def Audio.wants (audio : Audio) (goal : Nat) : Nat := min (goal - audio.fed) spanMaxFrames

def feedSpans (goal : Nat) (audio : Audio) : List Span × Audio :=
  if _open : audio.fed < goal then
    let staged := (span audio (audio.wants goal)).1
    if _short : (span audio (audio.wants goal)).1.length < audio.wants goal then
      ([⟨audio.fed, staged⟩], { audio.push (audio.wants goal) with exhausted := true })
    else
      let later := feedSpans goal (audio.push (audio.wants goal))
      (⟨audio.fed, staged⟩ :: later.1, later.2)
  else ([], audio)
termination_by goal - audio.fed
decreasing_by
  have positive : 0 < audio.wants goal := by
    unfold Audio.wants spanMaxFrames
    omega
  simp only [Audio.push]
  omega

def goal (info : Info) (target : Nat) : Nat :=
  let lookahead := info.rateHz * feedLookaheadMs / 1000
  let lookahead := if lookahead = 0 then 1 else lookahead
  target + if info.totalFrames < target + lookahead then info.totalFrames - target else lookahead

/-- Where the playhead is too far from the cursor for the feed to go on. -/
def jumps (info : Info) (fed target : Nat) : Bool :=
  target + info.rateHz / 20 < fed || fed + info.rateHz * 4 < target

def hears (info : Info) (call : Call) : Bool :=
  info.rateHz ≠ 0 && call.playing && call.paced && call.target < info.totalFrames

/-- `gui_playback_audio_feed`, with the spans that it stages. -/
def feed (audio : Audio) (call : Call) : List Span × Audio :=
  if audio.exhausted then ([], audio)
  else if hears audio.info call then
    let audio :=
      if jumps audio.info audio.fed call.target then
        { audio with fed := call.target, exhausted := false }
      else audio
    feedSpans (goal audio.info call.target) audio
  else ([], audio)

def feedAll (audio : Audio) (calls : List Call) : Audio :=
  calls.foldl (fun audio call => (feed audio call).2) audio

def level (info : Info) (bytes : List UInt8) (dataOffset i channel : Nat) : Int :=
  let width := info.bits / 8
  let n := littleEndian (field bytes (dataOffset + (i * info.channels + channel) * width) width)
  if info.bits = 8 then (n : Int) - 128 else signed info.bits n

def top16 (bits : Nat) (v : Int) : Int16 := Int16.ofInt (v * 2 ^ 16 / 2 ^ bits)

def wavFrame (info : Info) (bytes : List UInt8) (dataOffset i : Nat) : Stereo :=
  let value := level info bytes dataOffset i
  (top16 info.bits (value 0), top16 info.bits (value (if 1 < info.channels then 1 else 0)))

inductive Data where
  | wav (bytes : List UInt8) (dataOffset : Nat)
  | flac (blocks : List (List (List Int)))

/-- What `gui_playback_audio_open` finds in a file. The rate is any number. -/
def Opened (info : Info) : Data → Prop
  | .wav bytes dataOffset => bytes.length ≤ int64Max ∧ ∃ wav, parseWav bytes true = .ok wav ∧
      info.channels = wav.channels ∧ info.bits = wav.bits ∧ dataOffset = wav.dataOffset ∧
      info.totalFrames = wav.dataBytes / info.frameBytes
  | .flac blocks => (1 ≤ info.channels ∧ info.channels ≤ 8) ∧ (8 ≤ info.bits ∧ info.bits ≤ 32) ∧
      info.totalFrames = blocks.flatten.length

structure Source where
  info : Info
  data : Data
  opened : Opened info data

/-- The frames of a source: the first two channels, or the only one twice. -/
def Source.frame (source : Source) (i : Nat) : Stereo :=
  match source.data with
  | .wav bytes dataOffset => wavFrame source.info bytes dataOffset i
  | .flac blocks => flacStereo source.info (blocks.flatten.getD i [])

def Source.start (source : Source) : Audio where
  info := source.info
  reader := match source.data with
    | .wav bytes dataOffset => .wav ⟨bytes, dataOffset⟩ dataOffset
    | .flac blocks => .flac ⟨blocks, ⟨blocks, false⟩, 0, ⟨[], 0⟩⟩
  fed := 0
  exhausted := false

def Exact (source : Source) (span : Span) : Prop :=
  span.frames = window source.frame span.start span.frames.length ∧
    span.start + span.frames.length ≤ source.info.totalFrames

/-- Every span is exact; a call that has something to play feeds up to its goal, and behind a
jump it feeds the frames from the playhead on. -/
structure Faithful (source : Source) (audio : Audio) (call : Call) : Prop where
  exact_ : ∀ span ∈ (feed audio call).1, Exact source span
  reaches : hears source.info call → goal source.info call.target ≤ (feed audio call).2.fed
  resumes : hears source.info call → jumps source.info audio.fed call.target →
    ((feed audio call).1.map Span.frames).flatten =
      window source.frame call.target (goal source.info call.target - call.target)

/-- The source frames of the first `k` FLAC frames. -/
def upTo (blocks : List (List (List Int))) (k : Nat) : Nat := (blocks.take k).flatten.length

def BlockStart (blocks : List (List (List Int))) (i : Nat) : Prop :=
  ∃ k ≤ blocks.length, upTo blocks k = i

instance (blocks : List (List (List Int))) (i : Nat) : Decidable (BlockStart blocks i) :=
  inferInstanceAs (Decidable (∃ k ≤ _, _))

/-- What a call on a FLAC source asks of the cursor: the playhead is near it, and every span
starts where a FLAC frame does. -/
def Aligned (source : Source) (audio : Audio) (call : Call) : Prop :=
  ∀ blocks, source.data = .flac blocks → hears source.info call →
    jumps source.info audio.fed call.target = false ∧
      ∀ j, audio.fed + j * spanMaxFrames < goal source.info call.target →
        BlockStart blocks (audio.fed + j * spanMaxFrames)

theorem shortSample_eq {bytes : List UInt8} (full : bytes.length = 2) :
    shortSample bytes = signed 16 (littleEndian bytes) := by
  have bound := BigEndian.decode_lt bytes.reverse
  rw [List.length_reverse, full] at bound
  unfold shortSample signed
  rw [UInt16.toInt16, Int16.toInt, Int16.toBitVec, BitVec.toInt_eq_toNat_cond]
  have value : (UInt16.ofNat (littleEndian bytes)).toBitVec.toNat = littleEndian bytes := by
    change littleEndian bytes % 2 ^ 16 = _
    exact Nat.mod_eq_of_lt bound
  rw [value]
  unfold littleEndian
  split <;> split <;> omega

theorem wavSample_eq {bits : Nat} (known : bits ∈ [8, 16, 24, 32]) {bytes : List UInt8}
    (full : bytes.length = bits / 8) :
    wavSample bits bytes = if bits = 8 then (littleEndian bytes : Int) - 128
      else signed bits (littleEndian bytes) := by
  have bound := BigEndian.decode_lt bytes.reverse
  rw [List.length_reverse, full] at bound
  simp only [List.mem_cons, List.not_mem_nil, or_false] at known
  rcases known with rfl | rfl | rfl | rfl
  · rfl
  · exact shortSample_eq full
  · have value : ∀ n < 2 ^ 32, (UInt32.ofNat n).toInt32.toInt = signed 32 n := by
      intro n small
      unfold signed
      rw [UInt32.toInt32, Int32.toInt, Int32.toBitVec, BitVec.toInt_eq_toNat_cond]
      have held : (UInt32.ofNat n).toBitVec.toNat = n := Nat.mod_eq_of_lt small
      rw [held]
      split <;> split <;> omega
    change (UInt32.ofNat _).toInt32.toInt = _
    unfold littleEndian
    rw [value _ (by split <;> omega)]
    unfold signed
    rw [if_neg (by decide : ¬(24 : Nat) = 8)]
    split <;> split <;> omega
  · have value : wavSample 32 bytes = if 0x80000000 ≤ littleEndian bytes then
        ((littleEndian bytes - 0x80000000 : Nat) : Int) + -0x80000000 else littleEndian bytes := rfl
    rw [value]
    unfold signed littleEndian
    rw [if_neg (by decide : ¬(32 : Nat) = 8)]
    split <;> split <;> omega

theorem toI16_eq {bits : Nat} (known : bits ∈ [8, 16, 24, 32]) (v : Int) :
    toI16 v bits = top16 bits v := by
  simp only [List.mem_cons, List.not_mem_nil, or_false] at known
  rcases known with rfl | rfl | rfl | rfl
  all_goals
    refine congrArg Int16.ofInt ?_
    omega

structure WavSource (info : Info) (bytes : List UInt8) (dataOffset : Nat) : Prop where
  known : info.bits ∈ [8, 16, 24, 32]
  channels : 1 ≤ info.channels ∧ info.channels ≤ 8
  inside : dataOffset + info.totalFrames * info.frameBytes ≤ bytes.length
  small : bytes.length ≤ int64Max

variable {info : Info} {bytes : List UInt8} {dataOffset : Nat}

theorem WavSource.width (source : WavSource info bytes dataOffset) :
    0 < info.bits / 8 ∧ info.frameBytes ≤ 32 := by
  have known := source.known
  simp only [List.mem_cons, List.not_mem_nil, or_false] at known
  refine ⟨by omega, ?_⟩
  calc info.channels * (info.bits / 8)
      ≤ 8 * 4 := Nat.mul_le_mul source.channels.2 (by omega)
    _ = 32 := rfl

theorem WavSource.positive (source : WavSource info bytes dataOffset) : 0 < info.frameBytes :=
  Nat.mul_pos source.channels.1 source.width.1

theorem wavStereo_eq (source : WavSource info bytes dataOffset) {i : Nat}
    (inside : i < info.totalFrames) :
    wavStereo info (field bytes (dataOffset + i * info.frameBytes) info.frameBytes) =
      wavFrame info bytes dataOffset i := by
  have room := source.inside
  have last : (i + 1) * info.frameBytes ≤ info.totalFrames * info.frameBytes :=
    Nat.mul_le_mul_right _ inside
  rw [Nat.add_mul, Nat.one_mul] at last
  have one (channel : Nat) (present : channel < info.channels) :
      wavSample info.bits (field (field bytes (dataOffset + i * info.frameBytes) info.frameBytes)
        (channel * (info.bits / 8)) (info.bits / 8)) = level info bytes dataOffset i channel := by
    have fits : (channel + 1) * (info.bits / 8) ≤ info.frameBytes :=
      Nat.mul_le_mul_right _ present
    rw [Nat.add_mul, Nat.one_mul] at fits
    have place : dataOffset + i * info.frameBytes + channel * (info.bits / 8) =
        dataOffset + (i * info.channels + channel) * (info.bits / 8) := by
      rw [Info.frameBytes, Nat.add_mul, Nat.mul_assoc, Nat.add_assoc]
    rw [WavFile.field_field fits, wavSample_eq source.known (length_field (by omega)), place]
    rfl
  have first := one 0 source.channels.1
  rw [Nat.zero_mul] at first
  unfold wavStereo wavFrame
  dsimp only
  rw [first, toI16_eq source.known, toI16_eq source.known]
  by_cases several : 1 < info.channels
  · have second := one 1 several
    rw [Nat.one_mul] at second
    rw [if_pos several, if_pos several, second]
  · rw [if_neg several, if_neg several]

theorem wavPasses_eq (source : WavSource info bytes dataOffset) (cursor left : Nat)
    (inside : cursor + left ≤ info.totalFrames) :
    wavPasses info ⟨bytes, dataOffset + cursor * info.frameBytes⟩ left =
      (window (wavFrame info bytes dataOffset) cursor left,
        ⟨bytes, dataOffset + (cursor + left) * info.frameBytes⟩) := by
  induction left using Nat.strong_induction_on generalizing cursor with
  | _ left ih =>
  rcases Nat.eq_zero_or_pos left with rfl | some_
  · rw [wavPasses, if_pos rfl]
    rfl
  have room : 0 < bufBytes / info.frameBytes :=
    Nat.div_pos (source.width.2.trans (by decide)) source.positive
  obtain ⟨count, count_eq⟩ : ∃ count, min left (bufBytes / info.frameBytes) = count := ⟨_, rfl⟩
  have counted : 0 < count ∧ count ≤ left := by omega
  have ends := source.inside
  have reach : (cursor + count) * info.frameBytes ≤ info.totalFrames * info.frameBytes :=
    Nat.mul_le_mul_right _ (by omega)
  rw [Nat.add_mul] at reach
  obtain ⟨items, file⟩ := RawSamples.fread_units bytes (dataOffset + cursor * info.frameBytes)
    count source.positive (by omega)
  have read : readFrames info ⟨bytes, dataOffset + cursor * info.frameBytes⟩ left =
      ((List.range count).map fun k =>
        field bytes (dataOffset + (cursor + k) * info.frameBytes) info.frameBytes,
        ⟨bytes, dataOffset + (cursor + count) * info.frameBytes⟩) := by
    unfold readFrames
    dsimp only
    rw [count_eq, items, file]
    simp only [Nat.add_mul, Nat.add_assoc]
  have shown : ((List.range count).map fun k => field bytes
      (dataOffset + (cursor + k) * info.frameBytes) info.frameBytes).map (wavStereo info) =
        window (wavFrame info bytes dataOffset) cursor count := by
    rw [List.map_map]
    refine List.map_congr_left fun k member => ?_
    have small := List.mem_range.mp member
    exact wavStereo_eq source (by omega)
  have whole : cursor + count + (left - count) = cursor + left := by omega
  rw [wavPasses, if_neg (by omega), dif_neg, read, shown]
  · dsimp only
    rw [List.length_map, List.length_range, ih (left - count) (by omega) _ (by omega), whole,
      ← window_add, Nat.add_sub_cancel' counted.2]
  · rw [read]
    exact List.ne_nil_of_length_pos (by rw [List.length_map, List.length_range]; omega)

theorem wavSpan_eq (source : WavSource info bytes dataOffset) (offset fed want : Nat)
    (inside : fed + want ≤ info.totalFrames) (fits : want ≤ spanMaxFrames) :
    ∃ offset', wavSpan info ⟨bytes, offset⟩ dataOffset fed want =
      (window (wavFrame info bytes dataOffset) fed want, ⟨bytes, offset'⟩) := by
  rcases Nat.eq_zero_or_pos want with rfl | some_
  · exact ⟨offset, by rw [wavSpan, if_pos (Or.inl rfl), window_zero]⟩
  have positive := source.positive
  have reach : fed * info.frameBytes ≤ info.totalFrames * info.frameBytes :=
    Nat.mul_le_mul_right _ (by omega)
  have room := source.inside
  have small := source.small
  have clipped : min (min want (info.totalFrames - fed)) spanMaxFrames = want := by omega
  refine ⟨dataOffset + (fed + want) * info.frameBytes, ?_⟩
  rw [wavSpan, if_neg (by omega), seekAbs, if_neg (by omega)]
  dsimp only
  rw [clipped]
  exact wavPasses_eq source fed want inside

theorem wavSource_of_opened (opened : Opened info (.wav bytes dataOffset)) :
    WavSource info bytes dataOffset := by
  obtain ⟨small, wav, parsed, channels, bits, offset, total⟩ := opened
  obtain ⟨known, inside⟩ := RawSamples.parseWav_spec parsed
  have several := (RawSamples.parseWav_found
    (fun format => 1 ≤ format.channels ∧ format.channels ≤ 8)
    (fun _ _ => RawSamples.readFormat_channels) parsed).1
  have fits := Nat.div_mul_le_self wav.dataBytes info.frameBytes
  exact {
    known := bits ▸ known
    channels := channels ▸ several
    inside := by
      rw [offset, total]
      omega
    small := small }

variable {blocks : List (List (List Int))}

theorem writes_eq (info : Info) (blocks : List (List (List Int))) (stage : Stage) :
    blocks.foldl (writeCallback info) stage =
      { stage with staged := stage.staged ++
        (blocks.flatten.take (stage.want - stage.staged.length)).map (flacStereo info) } := by
  induction blocks generalizing stage with
  | nil => simp
  | cons block rest ih =>
    rw [List.foldl_cons, ih]
    simp only [writeCallback, List.flatten_cons, List.take_append, List.map_append,
      List.length_append, List.length_map, List.length_take, List.append_assoc]
    have room : stage.want - (stage.staged.length +
        min (stage.want - stage.staged.length) block.length) =
          stage.want - stage.staged.length - block.length := by
      omega
    rw [room]

theorem upTo_mono {first second : Nat} (le : first ≤ second) :
    upTo blocks first ≤ upTo blocks second := by
  obtain ⟨more, rfl⟩ := Nat.exists_eq_add_of_le le
  rw [upTo, upTo, List.take_add, List.flatten_append, List.length_append]
  exact Nat.le_add_right _ _

theorem drop_upTo (blocks : List (List (List Int))) (k : Nat) :
    blocks.flatten.drop (upTo blocks k) = (blocks.drop k).flatten := by
  have split : (blocks.take k).flatten ++ (blocks.drop k).flatten = blocks.flatten := by
    rw [← List.flatten_append, List.take_append_drop]
  rw [← split, upTo, List.drop_left]

/-- The decoder is where the first FLAC frame at or behind the cursor starts. -/
structure Placed (blocks : List (List (List Int))) (fed : Nat) (flac : Flac) : Prop where
  same : flac.blocks = blocks
  next : flac.next = fed
  going : flac.decoder.ended = false
  nearest : ∃ k, flac.decoder.rest = blocks.drop k ∧ fed ≤ upTo blocks k ∧
    ∀ j < k, upTo blocks j < fed

theorem window_getD (info : Info) {frames : List (List Int)} {start count : Nat}
    (inside : start + count ≤ frames.length) :
    ((frames.drop start).take count).map (flacStereo info) =
      window (fun i => flacStereo info (frames.getD i [])) start count := by
  apply List.ext_getElem
  · simp only [List.length_map, List.length_take, List.length_drop, length_window]
    omega
  · intro i left right
    simp only [length_window] at right
    simp only [List.getElem_map, List.getElem_take, List.getElem_drop, window,
      List.getElem_range]
    rw [List.getD_eq_getElem?_getD, List.getElem?_eq_getElem, Option.getD_some]

theorem flacSpan_eq {flac : Flac} {fed want : Nat} (placed : Placed blocks fed flac)
    (total : info.totalFrames = blocks.flatten.length) (start : BlockStart blocks fed)
    (some_ : 0 < want) (inside : fed + want ≤ info.totalFrames) (fits : want ≤ spanMaxFrames) :
    (flacSpan info flac fed want).1 =
        window (fun i => flacStereo info (blocks.flatten.getD i [])) fed want ∧
      Placed blocks (fed + want) (flacSpan info flac fed want).2 := by
  obtain ⟨same, next, going, k, rest, ahead, nearest⟩ := placed
  obtain ⟨first, _, at_⟩ := start
  have place : upTo blocks k = fed := by
    refine Nat.le_antisymm ?_ ahead
    rw [← at_]
    refine upTo_mono (Nat.le_of_not_lt fun before => ?_)
    exact Nat.lt_irrefl fed (at_ ▸ nearest first before)
  have clipped : min want spanMaxFrames = want := Nat.min_eq_left fits
  obtain ⟨taken, took⟩ := process_taken Stage.full (writeCallback info) (blocks.drop k) ⟨[], want⟩
  generalize result : process Stage.full (writeCallback info) (blocks.drop k) ⟨[], want⟩ = after
    at took
  obtain ⟨split, written, ended, short, needed⟩ := took
  have staged : after.2 = ⟨(taken.flatten.take want).map (flacStereo info), want⟩ := by
    rw [written, writes_eq]
    rfl
  have behind : upTo blocks (k + taken.length) = fed + taken.flatten.length := by
    rw [upTo, List.take_add, List.flatten_append, List.length_append, ← split, List.take_left,
      ← place]
    rfl
  have rest' : after.1.rest = blocks.drop (k + taken.length) := by
    rw [← List.drop_drop, ← split, List.drop_left]
  have enough : want ≤ taken.flatten.length := by
    cases done : after.1.ended with
    | false =>
      have full : Stage.full after.2 := by simpa [done] using ended
      rw [staged] at full
      simp only [Stage.full, List.length_map, List.length_take, decide_eq_true_eq] at full
      omega
    | true =>
      -- the stream holds what is wanted
      have whole := congrArg (fun rest => rest.flatten.length) split
      have all : upTo blocks k + (blocks.drop k).flatten.length = blocks.flatten.length := by
        rw [upTo, ← List.length_append, ← List.flatten_append, List.take_append_drop]
      rw [short done, List.append_nil] at whole
      omega
  have shown : after.2.staged =
      window (fun i => flacStereo info (blocks.flatten.getD i [])) fed want := by
    have stream : taken.flatten ++ after.1.rest.flatten = blocks.flatten.drop fed := by
      rw [← List.flatten_append, split, ← place, drop_upTo]
    rw [staged, ← window_getD info (by omega), ← stream, List.take_append_of_le_length enough]
  have going' : after.1.ended = false := by
    rw [ended, staged]
    simp only [Stage.full, List.length_map, List.length_take, Bool.not_eq_false',
      decide_eq_true_eq]
    omega
  have run : flacSpan info flac fed want = (after.2.staged,
      { flac with decoder := after.1, stage := after.2, next := fed + after.2.staged.length }) := by
    rw [flacSpan, if_neg (by omega), next]
    dsimp only
    rw [if_neg (not_not.mpr rfl), clipped]
    dsimp only
    rw [decode, going, if_neg Bool.false_ne_true, rest, result]
  rw [run]
  refine ⟨shown, same, ?_, going', k + taken.length, rest', by omega, ?_⟩
  · dsimp only
    rw [shown, length_window]
  · intro j before
    obtain ⟨front, last, rfl⟩ : ∃ front last, taken = front ++ [last] := by
      rcases List.eq_nil_or_concat' taken with empty | ⟨front, last, same⟩
      · rw [empty, List.flatten_nil, List.length_nil] at enough
        omega
      · exact ⟨front, last, same⟩
    have needs := needed front last rfl
    rw [writes_eq] at needs
    simp only [Stage.full, List.nil_append, List.length_map, List.length_take, List.length_nil,
      Nat.sub_zero, decide_eq_false_iff_not] at needs
    have least : upTo blocks j ≤ upTo blocks (k + front.length) := by
      apply upTo_mono
      rw [List.length_append, List.length_singleton] at before
      omega
    have reach : upTo blocks (k + front.length) = fed + front.flatten.length := by
      rw [upTo, List.take_add, List.flatten_append, List.length_append, ← split,
        List.append_assoc, List.take_left, ← place]
      rfl
    omega

inductive Stands : Data → Reader → Nat → Prop where
  | wav (bytes : List UInt8) (dataOffset offset fed : Nat) :
      Stands (.wav bytes dataOffset) (.wav ⟨bytes, offset⟩ dataOffset) fed
  | flac {blocks : List (List (List Int))} {flac : Flac} {fed : Nat}
      (placed : Placed blocks fed flac) : Stands (.flac blocks) (.flac flac) fed

structure Inv (source : Source) (audio : Audio) : Prop where
  info : audio.info = source.info
  going : audio.exhausted = false
  stands : Stands source.data audio.reader audio.fed

variable {source : Source} {audio : Audio}

def Starts (source : Source) (fed : Nat) : Prop :=
  ∀ blocks, source.data = .flac blocks → BlockStart blocks fed

theorem span_eq (inv : Inv source audio) (starts : Starts source audio.fed) {want : Nat}
    (some_ : 0 < want) (inside : audio.fed + want ≤ source.info.totalFrames)
    (fits : want ≤ spanMaxFrames) :
    (span audio want).1 = window source.frame audio.fed want ∧
      Stands source.data (span audio want).2 (audio.fed + want) := by
  obtain ⟨info, data, opened⟩ := source
  obtain ⟨info', reader, fed, exhausted⟩ := audio
  obtain ⟨rfl, -, stands⟩ := inv
  cases stands with
  | wav bytes dataOffset offset =>
    obtain ⟨offset', read⟩ :=
      wavSpan_eq (wavSource_of_opened opened) offset fed want inside fits
    simp only [span, read]
    exact ⟨rfl, .wav bytes dataOffset offset' (fed + want)⟩
  | flac placed =>
    obtain ⟨shown, after⟩ :=
      flacSpan_eq placed opened.2.2 (starts _ rfl) some_ inside fits
    exact ⟨shown, .flac after⟩

theorem feedSpans_eq (inv : Inv source audio) {goal : Nat}
    (inside : goal ≤ source.info.totalFrames)
    (starts : ∀ j, audio.fed + j * spanMaxFrames < goal →
      Starts source (audio.fed + j * spanMaxFrames)) :
    (∀ span ∈ (feedSpans goal audio).1, Exact source span) ∧
      ((feedSpans goal audio).1.map Span.frames).flatten =
        window source.frame audio.fed (goal - audio.fed) ∧
      goal ≤ (feedSpans goal audio).2.fed ∧ Inv source (feedSpans goal audio).2 := by
  induction measure : goal - audio.fed using Nat.strong_induction_on generalizing audio with
  | _ left ih =>
  rw [feedSpans]
  by_cases open_ : audio.fed < goal
  · have wants : audio.wants goal = min (goal - audio.fed) spanMaxFrames := rfl
    have positive : 0 < audio.wants goal := by
      unfold spanMaxFrames at wants
      omega
    have fits : audio.wants goal ≤ spanMaxFrames := by omega
    generalize audio.wants goal = want at *
    obtain ⟨shown, stands⟩ := span_eq inv (by simpa using starts 0 (by omega)) positive
      (by omega) fits
    have got : (span audio want).1.length = want := by rw [shown, length_window]
    have next : Inv source (audio.push want) := by
      refine ⟨inv.info, inv.going, ?_⟩
      rw [Audio.push, got]
      exact stands
    have moved : (audio.push want).fed = audio.fed + want := congrArg (audio.fed + ·) got
    obtain ⟨exact_, flat, reaches, after⟩ := ih (goal - (audio.push want).fed) (by omega) next
      (fun j inside => by
        rw [moved] at inside ⊢
        -- a further span follows only a full one
        have full : want = spanMaxFrames := by omega
        have further : audio.fed + want + j * spanMaxFrames =
            audio.fed + (j + 1) * spanMaxFrames := by
          rw [Nat.add_mul, Nat.one_mul]
          omega
        rw [further] at inside ⊢
        exact starts (j + 1) inside) rfl
    rw [dif_pos open_, dif_neg (by omega)]
    dsimp only
    refine ⟨?_, ?_, reaches, after⟩
    · intro span_ member
      rcases List.mem_cons.mp member with rfl | later
      · refine ⟨?_, ?_⟩
        · dsimp only
          rw [got, shown]
        · dsimp only
          omega
      · exact exact_ span_ later
    · have split : left = want + (goal - (audio.push want).fed) := by omega
      rw [List.map_cons, List.flatten_cons, flat, shown, split, window_add, moved]
  · rw [dif_neg open_]
    have none : left = 0 := by omega
    rw [none]
    exact ⟨by simp, rfl, Nat.le_of_not_lt open_, inv⟩

theorem goal_le (info : Info) {target : Nat} (inside : target < info.totalFrames) :
    goal info target ≤ info.totalFrames := by
  unfold goal
  dsimp only
  split <;> split <;> omega

theorem feed_step (inv : Inv source audio) {call : Call} (aligned : Aligned source audio call) :
    Faithful source audio call ∧ Inv source (feed audio call).2 := by
  obtain ⟨info, reader, cursor, exhausted⟩ := audio
  obtain ⟨rfl, rfl, stands⟩ := inv
  dsimp only at stands
  by_cases heard : hears source.info call
  · have present : call.target < source.info.totalFrames := by
      simp only [hears, Bool.and_eq_true, decide_eq_true_eq] at heard
      exact heard.2
    generalize anchored : (if jumps source.info cursor call.target then
      Audio.mk source.info reader call.target false
      else ⟨source.info, reader, cursor, false⟩) = anchor
    have started : Inv source anchor ∧
        ∀ j, anchor.fed + j * spanMaxFrames < goal source.info call.target →
          Starts source (anchor.fed + j * spanMaxFrames) := by
      subst anchored
      split
      · rename_i far
        -- only a WAV source may jump
        have wav : ∀ blocks, source.data ≠ .flac blocks := fun blocks same =>
          Bool.false_ne_true ((aligned blocks same heard).1.symm.trans far)
        refine ⟨⟨rfl, rfl, ?_⟩, fun j _ blocks same => absurd same (wav blocks)⟩
        revert wav stands
        generalize source.data = data
        intro stands wav
        cases stands with
        | wav bytes dataOffset offset => exact .wav bytes dataOffset offset call.target
        | flac => exact absurd rfl (wav _)
      · exact ⟨⟨rfl, rfl, stands⟩,
          fun j inside blocks same => (aligned blocks same heard).2 j inside⟩
    obtain ⟨exact_, flat, reaches, after⟩ :=
      feedSpans_eq started.1 (goal_le source.info present) started.2
    have fed : feed ⟨source.info, reader, cursor, false⟩ call =
        feedSpans (goal source.info call.target) anchor := by
      rw [feed, if_neg Bool.false_ne_true, if_pos heard]
      dsimp only
      rw [anchored, started.1.info]
    rw [fed]
    refine ⟨⟨?_, ?_, ?_⟩, after⟩
    · rw [fed]
      exact exact_
    · intro _
      rw [fed]
      exact reaches
    · intro _ far
      rw [if_pos far] at anchored
      rw [fed, flat, ← anchored]
  · have silent : feed ⟨source.info, reader, cursor, false⟩ call =
        ([], ⟨source.info, reader, cursor, false⟩) := by
      rw [feed, if_neg Bool.false_ne_true, if_neg heard]
    rw [silent]
    refine ⟨⟨?_, fun hears => absurd hears heard, fun hears => absurd hears heard⟩,
      ⟨rfl, rfl, stands⟩⟩
    rw [silent]
    simp

theorem start_inv (source : Source) : Inv source source.start := by
  refine ⟨rfl, rfl, ?_⟩
  unfold Source.start
  cases source.data with
  | wav bytes dataOffset => exact .wav bytes dataOffset dataOffset 0
  | flac blocks => exact .flac ⟨rfl, rfl, rfl, 0, rfl, Nat.zero_le _, nofun⟩

/-- In every run whose calls meet the condition, every call is faithful. -/
theorem feed_faithful (source : Source) (calls : List Call)
    (h : ∀ earlier call later, calls = earlier ++ call :: later →
      Aligned source (feedAll source.start earlier) call)
    {earlier later : List Call} {call : Call} (split : calls = earlier ++ call :: later) :
    Faithful source (feedAll source.start earlier) call := by
  suffices inv : Inv source (feedAll source.start earlier) from
    (feed_step inv (h earlier call later split)).1
  induction earlier using List.reverseRecOn generalizing call later with
  | nil => exact start_inv source
  | append_singleton earlier last ih =>
    have shown : calls = earlier ++ last :: call :: later := by
      rw [split, List.append_assoc, List.singleton_append]
    rw [feedAll, List.foldl_append]
    exact (feed_step (ih shown) (h earlier last _ shown)).2

theorem feedSpans_one (goal : Nat) (audio : Audio) (open_ : audio.fed < goal)
    (fits : goal ≤ audio.fed + spanMaxFrames)
    (whole : (span audio (goal - audio.fed)).1.length = goal - audio.fed) :
    feedSpans goal audio =
      ([⟨audio.fed, (span audio (goal - audio.fed)).1⟩], audio.push (goal - audio.fed)) := by
  have wants : audio.wants goal = goal - audio.fed := Nat.min_eq_left (by omega)
  have moved : (audio.push (goal - audio.fed)).fed = audio.fed + (goal - audio.fed) :=
    congrArg (audio.fed + ·) whole
  rw [feedSpans, dif_pos open_]
  dsimp only
  rw [wants, dif_neg (by omega), feedSpans, dif_neg (by omega)]

theorem feed_one (audio : Audio) (call : Call) (want : Nat) (going : audio.exhausted = false)
    (heard : hears audio.info call) (near : jumps audio.info audio.fed call.target = false)
    (reach : goal audio.info call.target = audio.fed + want) (some_ : 0 < want)
    (fits : want ≤ spanMaxFrames) (whole : (span audio want).1.length = want) :
    feed audio call = ([⟨audio.fed, (span audio want).1⟩], audio.push want) := by
  have rest : audio.fed + want - audio.fed = want := Nat.add_sub_cancel_left _ _
  have spans := feedSpans_one (audio.fed + want) audio (by omega) (by omega) (by rw [rest, whole])
  rw [feed, if_neg (by rw [going]; exact Bool.false_ne_true), if_pos heard,
    if_neg (by rw [near]; exact Bool.false_ne_true)]
  dsimp only
  rw [reach, spans, rest]

theorem aligned_one {call : Call} (near : jumps source.info audio.fed call.target = false)
    (fits : goal source.info call.target ≤ audio.fed + spanMaxFrames)
    (starts : Starts source audio.fed) : Aligned source audio call := by
  intro blocks same _
  refine ⟨near, fun j inside => ?_⟩
  have one : j = 0 := by
    unfold spanMaxFrames at inside fits
    omega
  rw [one, Nat.zero_mul]
  exact starts blocks same

/-- Mono at 24 kHz, two FLAC frames of one length with a constant in each. -/
def twoBlocks (length : Nat) : Source where
  info := ⟨24000, 1, 16, 2 * length⟩
  data := .flac [List.replicate length [1], List.replicate length [2]]
  opened := by
    refine ⟨(by decide : 1 ≤ 1 ∧ 1 ≤ 8), (by decide : 8 ≤ 16 ∧ 16 ≤ 32), ?_⟩
    simp only [List.flatten_cons, List.flatten_nil, List.append_nil, List.length_append,
      List.length_replicate]
    omega

def playing (target : Nat) : Call := ⟨true, true, target⟩

theorem feed_faithful_whole_blocks :
    Faithful (twoBlocks 1200) (feedAll (twoBlocks 1200).start [playing 0]) (playing 1200) := by
  have first : feed (twoBlocks 1200).start (playing 0) =
      ([⟨0, (span (twoBlocks 1200).start 1200).1⟩], (twoBlocks 1200).start.push 1200) :=
    feed_one _ _ 1200 rfl (by decide) (by decide) rfl (by decide) (by decide) (by decide +kernel)
  have after : feedAll (twoBlocks 1200).start [playing 0] = (twoBlocks 1200).start.push 1200 :=
    congrArg Prod.snd first
  have moved : ((twoBlocks 1200).start.push 1200).fed = 1200 := by decide +kernel
  refine feed_faithful (twoBlocks 1200) [playing 0, playing 1200] ?_ rfl
  intro earlier call later split
  rcases earlier with - | ⟨early, - | ⟨next, earlier⟩⟩
  · obtain ⟨rfl, -⟩ := List.cons.inj split
    refine aligned_one (by decide) (by decide) ?_
    rintro _ ⟨⟩
    exact ⟨0, Nat.zero_le _, rfl⟩
  · obtain ⟨rfl, tail⟩ := List.cons.inj split
    obtain ⟨rfl, -⟩ := List.cons.inj tail
    rw [after]
    refine aligned_one (by rw [moved]; decide) (by rw [moved]; decide) ?_
    rw [moved]
    rintro _ ⟨⟩
    exact ⟨1, by decide, by decide +kernel⟩
  · exact absurd (congrArg List.length split) (by simp)

/-- The second call begins inside a FLAC frame whose rest the first one dropped. -/
theorem block_rest_dropped : hears (twoBlocks 1500).info (playing 600) = true ∧
    ¬Faithful (twoBlocks 1500) (feedAll (twoBlocks 1500).start [playing 0]) (playing 600) := by
  refine ⟨by decide, fun faithful => ?_⟩
  have first : feed (twoBlocks 1500).start (playing 0) =
      ([⟨0, (span (twoBlocks 1500).start 1200).1⟩], (twoBlocks 1500).start.push 1200) :=
    feed_one _ _ 1200 rfl (by decide) (by decide) rfl (by decide) (by decide) (by decide +kernel)
  have after : feedAll (twoBlocks 1500).start [playing 0] = (twoBlocks 1500).start.push 1200 :=
    congrArg Prod.snd first
  have moved : ((twoBlocks 1500).start.push 1200).fed = 1200 := by decide +kernel
  have second := feed_one ((twoBlocks 1500).start.push 1200) (playing 600) 600 rfl (by decide)
    (by rw [moved]; decide) (by rw [moved]; decide) (by decide) (by decide) (by decide +kernel)
  have exact_ := faithful.exact_
  rw [after, second, moved] at exact_
  have wrong := (exact_ _ (List.mem_singleton.mpr rfl)).1
  revert wrong
  decide +kernel

end MisrcGui.Playback.AudioSpans
