import MisrcGui.Library.Machine
import MisrcGui.Playback.Reading
import MisrcGui.Playback.Thread

/-! The position stamps of playback. -/
namespace MisrcGui.Playback
open Library

variable {Sample : Type}

/-- A file that a session opens; a packed one holds whole groups. -/
inductive File (Sample : Type) where
  | none
  | flac (frames : List (List Sample))
  | raw (samples : List Sample) (lds : Bool) (whole : lds = true → ldsGroupSamples ∣ samples.length)

def File.samples : File Sample → List Sample
  | .none => []
  | .flac frames => frames.flatten
  | .raw samples _ _ => samples

def File.source : File Sample → Source Sample
  | .none => .none
  | .flac frames => .flac frames ⟨.searchForFrameSync, frames⟩
  | .raw samples lds _ => .raw samples (rawOpen lds)

def start (files : Side → File Sample) (streamEpoch : Nat) : State Sample where
  channel side :=
    { source := (files side).source
      buffer := emptyBuffer
      recoveryFailed := false
      current := 0
      backfillActive := false
      backfillTarget := 0
      paused := false
      consumeRem := 0
      epoch := streamEpoch }
  paused := false
  streamEpoch
  pairedFifo := []
  channelFifo _ := []
  seeks := []

def Side.pick (side : Side) (word : Sample × Sample) : Sample :=
  match side with
  | .a => word.1
  | .b => word.2

def PairedBlock.channelBlock (block : PairedBlock Sample) (side : Side) : ChannelBlock Sample :=
  ⟨(block.words.take (block.count side)).map side.pick, block.stamp side,
    block.recoveryFailed side⟩

def State.blocks (state : State Sample) (side : Side) : List (ChannelBlock Sample) :=
  state.pairedFifo.map (·.channelBlock side) ++ state.channelFifo side

/-- The samples that a channel outputs next, up to the end of its file. -/
def Channel.upcoming (channel : Channel Sample) : List Sample :=
  channel.buffer.pending ++
    match channel.source with
    | .none => []
    | .flac _ decoder => decoder.rest.flatten
    | .raw samples reader => (rawRead samples reader samples.length).1

/-- The samples of a block are those of the file from its stamp on. -/
def ChannelBlock.Truthful (file : List Sample) (block : ChannelBlock Sample) : Prop :=
  block.samples = (file.drop block.stamp.startSample).take block.samples.length

def SeekRecord.Truthful (record : SeekRecord Sample) : Prop :=
  record.good = false → record.before.recoveryFailed = false →
    record.after.recoveryFailed = false →
      record.after.current = record.before.current ∧
        record.after.upcoming = record.before.upcoming

def Channel.Sound (file : List Sample) (channel : Channel Sample) : Prop :=
  match channel.source with
  | .none => channel.buffer = emptyBuffer ∧ file = []
  | .flac frames decoder =>
    frames.flatten = file ∧
      (channel.recoveryFailed = false →
        Streaming frames decoder channel.buffer channel.current)
  | .raw samples reader =>
    samples = file ∧ Reading samples reader ∧
      channel.buffer.pos ≤ channel.buffer.stored.length ∧
        channel.buffer.pending ++ samples.drop reader.cursor = samples.drop channel.current

structure Truthful (file : Side → List Sample) (state : State Sample) : Prop where
  sound : ∀ side, (state.channel side).Sound (file side)
  blocks : ∀ side, ∀ block ∈ state.blocks side, block.recoveryFailed = false →
    block.Truthful (file side)
  seeks : ∀ record ∈ state.seeks, record.Truthful

variable {config : Config} {state next : State Sample} {turn : Turn Sample}
  {channel : Channel Sample} {side : Side} {samples : List Sample} {file : Side → List Sample}

theorem start_truthful (files : Side → File Sample) (streamEpoch : Nat) :
    Truthful (fun side => (files side).samples) (start files streamEpoch) where
  sound side := by
    simp only [Channel.Sound, start]
    cases files side with
    | none => trivial
    | flac frames => exact ⟨rfl, fun _ => ⟨Nat.le_refl _, rfl, nofun⟩⟩
    | raw samples lds whole => exact ⟨rfl, rawOpen_reading whole, Nat.le_refl _, rfl⟩
  blocks _ _ member _ := nomatch member
  seeks _ member := nomatch member

theorem Channel.Sound.upcoming (sound : channel.Sound samples)
    (good : channel.recoveryFailed = false) :
    channel.upcoming = samples.drop channel.current := by
  simp only [Channel.Sound] at sound
  simp only [Channel.upcoming]
  split at sound
  · obtain ⟨buffer, file⟩ := sound
    rw [buffer, file, List.drop_nil]
    rfl
  · next frames decoder _ =>
    obtain ⟨rfl, streaming⟩ := sound
    exact (streaming good).ahead
  · next reader _ =>
    obtain ⟨rfl, reading, _, ahead⟩ := sound
    rw [(rawRead_readOn reading _).read, List.take_of_length_le, ahead]
    rw [List.length_drop]
    exact Nat.sub_le ..

theorem Channel.Sound.inside (sound : channel.Sound samples)
    (good : channel.recoveryFailed = false) :
    channel.buffer.pos ≤ channel.buffer.stored.length := by
  simp only [Channel.Sound] at sound
  split at sound
  · rw [sound.1]
    exact Nat.le_refl _
  · exact (sound.2 good).inside
  · exact sound.2.2.1

theorem Channel.Sound.pending_take (sound : channel.Sound samples)
    (good : channel.recoveryFailed = false) {count : Nat}
    (enough : count ≤ channel.buffer.left) :
    channel.buffer.pending.take count = (samples.drop channel.current).take count := by
  rw [← sound.upcoming good, Channel.upcoming, List.take_append_of_le_length]
  rw [DecodeBuffer.pending, List.length_drop]
  exact enough

theorem DecodeBuffer.pending_length (buffer : DecodeBuffer Sample) :
    buffer.pending.length = buffer.left :=
  List.length_drop ..

theorem DecodeBuffer.consumed {buffer : DecodeBuffer Sample} {behind : List Sample}
    {current count : Nat} (ahead : buffer.pending ++ behind = samples.drop current)
    (inside : buffer.pos ≤ buffer.stored.length) (enough : count ≤ buffer.left) :
    buffer.pos + count ≤ buffer.stored.length ∧
      buffer.stored.drop (buffer.pos + count) ++ behind = samples.drop (current + count) := by
  constructor
  · have left : buffer.left = buffer.stored.length - buffer.pos := rfl
    omega
  · rw [← List.drop_drop, ← List.drop_drop, ← ahead, List.drop_append_of_le_length]
    · rfl
    · rw [pending_length]
      exact enough

theorem Channel.Sound.consumed (sound : channel.Sound samples) {count : Nat}
    (enough : count ≤ channel.buffer.left) :
    ((channel.take count).advance count).Sound samples := by
  obtain ⟨source, buffer, recoveryFailed, current⟩ := channel
  cases source with
  | none =>
    obtain ⟨rfl, file⟩ := sound
    obtain rfl := Nat.le_zero.mp enough
    exact ⟨rfl, file⟩
  | flac frames decoder =>
    obtain ⟨whole, streaming⟩ := sound
    refine ⟨whole, fun good => ?_⟩
    obtain ⟨inside, ahead, ended⟩ := streaming good
    have taken := DecodeBuffer.consumed ahead inside enough
    exact ⟨taken.1, taken.2, ended⟩
  | raw whole reader =>
    obtain ⟨rfl, reading, inside, ahead⟩ := sound
    exact ⟨rfl, reading, DecodeBuffer.consumed ahead inside enough⟩

theorem Channel.Sound.compacted (sound : channel.Sound samples) :
    ({ channel with buffer := channel.buffer.compact } : Channel Sample).Sound samples := by
  simp only [DecodeBuffer.compact]
  split
  · obtain ⟨source, buffer, recoveryFailed, current⟩ := channel
    cases source with
    | none =>
      obtain ⟨rfl, file⟩ := sound
      exact ⟨rfl, file⟩
    | flac frames decoder =>
      exact ⟨sound.1, fun good => ⟨Nat.zero_le _, (sound.2 good).ahead, (sound.2 good).ended⟩⟩
    | raw whole reader => exact ⟨sound.1, sound.2.1, Nat.zero_le _, sound.2.2.2⟩
  · exact sound

/-- What `refillReader` adds to the buffer follows what is in it. -/
theorem refillReader_sound {reader : RawReader Sample} {buffer : DecodeBuffer Sample}
    {current : Nat} (reading : Reading samples reader)
    (inside : buffer.pos ≤ buffer.stored.length)
    (ahead : buffer.pending ++ samples.drop reader.cursor = samples.drop current) :
    Reading samples (refillReader samples reader buffer).1 ∧
      (refillReader samples reader buffer).2.pos ≤
        (refillReader samples reader buffer).2.stored.length ∧
      (refillReader samples reader buffer).2.pending ++
        samples.drop (refillReader samples reader buffer).1.cursor = samples.drop current := by
  simp only [refillReader]
  split
  · have on := rawRead_readOn reading (decodeBufSize - buffer.stored.length)
    refine ⟨on.reading, ?_, ?_⟩
    · rw [List.length_append]
      exact Nat.le_add_right_of_le inside
    · rw [pending_append inside, on.cursor, ← List.drop_drop, List.append_assoc, ← ahead, on.read,
        List.prefix_iff_eq_append.mp (List.take_prefix ..)]
  · exact ⟨reading, inside, ahead⟩

theorem Channel.Sound.refilled (sound : channel.Sound samples) {filled : Channel Sample}
    (h : channel.refill = some filled) : filled.Sound samples := by
  obtain ⟨source, buffer, recoveryFailed, current⟩ := channel
  cases source with
  | none =>
    cases h
    exact sound
  | flac frames decoder =>
    obtain ⟨⟨after, buffer⟩, run, rfl⟩ := Option.map_eq_some_iff.mp h
    exact ⟨sound.1, fun good => refillDecoder_streaming (sound.2 good) run⟩
  | raw whole reader =>
    cases h
    obtain ⟨rfl, reading, inside, ahead⟩ := sound
    exact ⟨rfl, refillReader_sound reading inside ahead⟩

theorem Channel.Sound.decoded (sound : channel.Sound samples) {active : Bool}
    {filled : Channel Sample} (h : channel.decode active = some filled) :
    filled.Sound samples := by
  simp only [Channel.decode] at h
  split at h
  · exact sound.refilled h
  · cases h
    exact sound

/-- A seek of a decoder from `current`: it ends at its target, or back where the channel was
unless the recovery is given up. -/
inductive Sought (frames : List (List Sample)) (current target : Nat) (after : Channel Sample) :
    Bool → Prop
  | found (decoder : Decoder Sample) (source : after.source = .flac frames decoder)
      (kept : after.current = current)
      (streaming : Streaming frames decoder after.buffer target) :
      Sought frames current target after true
  | failed (decoder : Decoder Sample) (source : after.source = .flac frames decoder)
      (kept : after.current = current)
      (restored : after.recoveryFailed = false →
        Streaming frames decoder after.buffer current) :
      Sought frames current target after false

theorem seekDecoder_sought {frames : List (List Sample)} {decoder : Decoder Sample}
    (source : channel.source = .flac frames decoder) (target : Nat) (calls : SeekCalls Sample) :
    Sought frames channel.current target (channel.seekDecoder target calls).1
      (channel.seekDecoder target calls).2 := by
  simp only [Channel.seekDecoder, source]
  generalize run : seekDecoder frames _ channel.current target calls = result
  obtain ⟨flac, good⟩ := result
  cases good with
  | true => exact .found flac.decoder rfl rfl (seekDecoder_found run).1
  | false => exact .failed flac.decoder rfl rfl (seekDecoder_failed run)

/-- The validation of a target that is found leaves the channel's position to the seek behind. -/
theorem seekSource_sought {frames : List (List Sample)} {decoder : Decoder Sample}
    (source : channel.source = .flac frames decoder) (target seekTarget : Nat)
    (validate calls : SeekCalls Sample) (fseek : Bool) :
    Sought frames channel.current seekTarget
      (channel.seekSource target seekTarget validate calls fseek).1
      (channel.seekSource target seekTarget validate calls fseek).2 := by
  simp only [Channel.seekSource, source]
  split
  · have first := seekDecoder_sought source target validate
    generalize channel.seekDecoder target validate = result at first
    obtain ⟨validated, valid⟩ := result
    dsimp only at first ⊢
    cases first with
    | found decoder source kept streaming =>
      rw [← kept]
      exact seekDecoder_sought source seekTarget calls
    | failed decoder source kept restored => exact .failed decoder source kept restored
  · exact seekDecoder_sought source seekTarget calls

/-- A packed reader is left with the remainder of a sample that it could not seek to. -/
def Channel.keepsSkip (channel : Channel Sample) (seekTarget : Nat) (fseek : Bool) : Bool :=
  match channel.source with
  | .raw samples reader =>
    fseek || !reader.lds || samples.isEmpty ||
      decide (seekTarget % ldsGroupSamples = reader.skip)
  | _ => true

def Channel.Within (channel : Channel Sample) (seekTarget : Nat) : Prop :=
  ∀ samples reader, channel.source = .raw samples reader → samples ≠ [] →
    seekTarget < samples.length

structure Settled (samples : List Sample) (before after : Channel Sample) (seekTarget : Nat)
    (good : Bool) : Prop where
  found : good = true → ({ after with current := seekTarget } : Channel Sample).Sound samples
  failed : good = false → after.Sound samples ∧ after.current = before.current

theorem rawSeek_settled {reader after : RawReader Sample} {seekTarget : Nat} {fseek : Bool}
    (reading : Reading samples reader)
    (kept : fseek || !reader.lds || samples.isEmpty ||
      decide (seekTarget % ldsGroupSamples = reader.skip))
    (inside : samples ≠ [] → seekTarget < samples.length)
    (h : rawSeek samples reader seekTarget fseek = (after, false)) : after = reader := by
  apply rawSeek_failed h
  simp only [rawSeek] at h
  split at h
  · cases h
    rfl
  · next some =>
    rw [if_neg (Nat.not_le_of_lt (inside some))] at h
    split at h
    · cases h
    · next failed =>
      simp only [failed, Bool.false_or, Bool.or_eq_true, Bool.not_eq_true', List.isEmpty_iff,
        decide_eq_true_eq, some, or_false] at kept
      cases h
      dsimp only
      split
      · next packed =>
        rw [packed] at kept
        exact kept.resolve_left (by simp)
      · next plain => exact (reading.unpacked (Bool.not_eq_true _ ▸ plain)).1.symm

theorem Channel.Sound.settled (sound : channel.Sound samples) {seekTarget : Nat} {fseek : Bool}
    (kept : channel.keepsSkip seekTarget fseek) (within : channel.Within seekTarget)
    (target : Nat) (validate calls : SeekCalls Sample) :
    Settled samples channel (channel.seekSource target seekTarget validate calls fseek).1 seekTarget
      (channel.seekSource target seekTarget validate calls fseek).2 := by
  generalize kind : channel.source = source
  cases source with
  | none =>
    have failed (target : Nat) (calls : SeekCalls Sample) :
        channel.seekDecoder target calls = (channel, false) := by
      simp only [Channel.seekDecoder, kind]
    simp only [Channel.seekSource, kind, failed, Bool.false_eq_true, ite_self]
    exact ⟨nofun, fun _ => ⟨sound, rfl⟩⟩
  | flac frames decoder =>
    have sought := seekSource_sought kind target seekTarget validate calls fseek
    simp only [Channel.Sound, kind] at sound
    obtain ⟨whole, _⟩ := sound
    generalize channel.seekSource target seekTarget validate calls fseek = result at sought ⊢
    obtain ⟨after, good⟩ := result
    dsimp only at sought ⊢
    cases sought with
    | found decoder source current streaming =>
      refine ⟨fun _ => ?_, nofun⟩
      simp only [Channel.Sound, source]
      exact ⟨whole, fun _ => streaming⟩
    | failed decoder source current restored =>
      refine ⟨nofun, fun _ => ⟨?_, current⟩⟩
      simp only [Channel.Sound, source, current]
      exact ⟨whole, restored⟩
  | raw file reader =>
    have inside := within file reader kind
    simp only [Channel.Sound, Channel.keepsSkip, Channel.seekSource, kind] at sound kept ⊢
    obtain ⟨rfl, reading, sound⟩ := sound
    generalize run : rawSeek file reader seekTarget fseek = result
    obtain ⟨after, good⟩ := result
    dsimp only
    refine ⟨?_, ?_⟩
    · rintro rfl
      have some : file ≠ [] := by
        rintro rfl
        cases run
      obtain ⟨cursor, _, reading⟩ := rawSeek_reading reading (inside some) run
      refine ⟨rfl, reading, Nat.le_refl _, ?_⟩
      rw [cursor]
      rfl
    · rintro rfl
      rw [rawSeek_settled reading kept inside run]
      exact ⟨⟨rfl, reading, sound⟩, rfl⟩

theorem Truthful.channels (truthful : Truthful file state) {channel : Side → Channel Sample}
    (sound : ∀ side, (channel side).Sound (file side)) :
    Truthful file { state with channel } :=
  ⟨sound, truthful.blocks, truthful.seeks⟩

theorem Truthful.withChannel (truthful : Truthful file state)
    (sound : channel.Sound (file side)) : Truthful file (state.withChannel side channel) := by
  apply truthful.channels
  intro other
  by_cases same : other = side
  · subst same
    rw [Function.update_self]
    exact sound
  · rw [Function.update_of_ne same]
    exact truthful.sound other

theorem Truthful.load (truthful : Truthful file state) (store : Option Bool) :
    Truthful file (state.load store) :=
  ⟨truthful.sound, truthful.blocks, truthful.seeks⟩

theorem Truthful.record (truthful : Truthful file state) {record : SeekRecord Sample}
    (new : record.Truthful) (streamEpoch : Nat) :
    Truthful file { state with streamEpoch, seeks := state.seeks ++ [record] } := by
  refine ⟨truthful.sound, truthful.blocks, fun other member => ?_⟩
  rcases List.mem_append.mp member with old | last
  · exact truthful.seeks other old
  · rw [List.mem_singleton.mp last]
    exact new

theorem Truthful.commitChannel (truthful : Truthful file state) {block : ChannelBlock Sample}
    (new : block.recoveryFailed = false → block.Truthful (file side)) :
    Truthful file { state with
      channelFifo := Function.update state.channelFifo side
        (state.channelFifo side ++ [block]) } := by
  refine ⟨truthful.sound, fun other committed member good => ?_, truthful.seeks⟩
  simp only [State.blocks] at member
  by_cases same : other = side
  · subst same
    rw [Function.update_self, ← List.append_assoc] at member
    rcases List.mem_append.mp member with old | last
    · exact truthful.blocks other committed old good
    · rw [List.mem_singleton.mp last] at good ⊢
      exact new good
  · rw [Function.update_of_ne same] at member
    exact truthful.blocks other committed member good

theorem Truthful.commitPaired (truthful : Truthful file state) {block : PairedBlock Sample}
    (new : ∀ side, block.recoveryFailed side = false →
      (block.channelBlock side).Truthful (file side)) :
    Truthful file { state with pairedFifo := state.pairedFifo ++ [block] } := by
  refine ⟨truthful.sound, fun side committed member good => ?_, truthful.seeks⟩
  simp only [State.blocks, List.map_append, List.mem_append, List.map_cons, List.map_nil,
    List.mem_singleton] at member
  rcases member with (old | rfl) | old
  · exact truthful.blocks side committed (List.mem_append_left _ old) good
  · exact new side good
  · exact truthful.blocks side committed (List.mem_append_right _ old) good

theorem seek_truthful (truthful : Truthful file state) {seekTarget : Nat}
    (kept : (state.channel side).keepsSkip seekTarget (turn.fseek side))
    (within : (state.channel side).Within seekTarget) (target : Nat) :
    Truthful file (state.seek side target seekTarget turn).1 := by
  have sound := truthful.sound side
  have settled := sound.settled kept within target (turn.validate side) (turn.calls side)
  simp only [State.seek]
  generalize (state.channel side).seekSource target seekTarget (turn.validate side)
    (turn.calls side) (turn.fseek side) = result at settled
  obtain ⟨after, good⟩ := result
  dsimp only at settled ⊢
  cases good with
  | true =>
    simp only [if_true]
    refine Truthful.record (Truthful.withChannel truthful ?_) ?_ _
    · exact settled.found rfl
    · exact fun failed => nomatch failed
  | false =>
    obtain ⟨restored, current⟩ := settled.failed rfl
    simp only [Bool.false_eq_true, if_false]
    refine Truthful.record (Truthful.withChannel truthful restored) ?_ _
    intro _ before gone
    refine ⟨current, ?_⟩
    dsimp only at before gone ⊢
    rw [restored.upcoming gone, sound.upcoming before, current]

theorem seek_other {other : Side} (different : other ≠ side) (target seekTarget : Nat) :
    (state.seek side target seekTarget turn).1.channel other = state.channel other :=
  Function.update_of_ne different ..

local instance neZero3 : NeZero 3 := ⟨by decide⟩

def keepsSkips (config : Config) (state : State Sample) (turn : Turn Sample) : Bool :=
  let keeps (side : Side) (requested : Nat) : Bool :=
    let state := state.load (turn.play 0)
    let target := clampTarget ((state.channel side).total (turn.total side)) requested
    (state.channel side).keepsSkip (seekStart config side state.paused target) (turn.fseek side)
  match turn.seek .a, turn.seek .b with
  | some requested, _ => keeps .a requested
  | none, some requested => keeps .b requested
  | none, none => true

theorem seekStart_le (config : Config) (side : Side) (paused : Bool) (target : Nat) :
    seekStart config side paused target ≤ target := by
  unfold seekStart
  split
  · exact Nat.sub_le ..
  · exact Nat.le_refl _

theorem clampTarget_lt {total : Nat} (some : 0 < total) (target : Nat) :
    clampTarget total target < total := by
  unfold clampTarget
  split <;> omega

theorem Channel.within_clamped (channel : Channel Sample) (config : Config) (side : Side)
    (paused : Bool) (published requested : Nat) :
    channel.Within
      (seekStart config side paused (clampTarget (channel.total published) requested)) := by
  intro samples reader source some
  have total : channel.total published = samples.length := by
    simp only [Channel.total, source]
  rw [total]
  exact Nat.lt_of_le_of_lt (seekStart_le ..)
    (clampTarget_lt (List.length_pos_iff.mpr some) requested)

theorem requestSeek_truthful (truthful : Truthful file state) {requested : Nat}
    (kept : ((state.load (turn.play 0)).channel side).keepsSkip
      (seekStart config side (state.load (turn.play 0)).paused
        (clampTarget (((state.load (turn.play 0)).channel side).total (turn.total side))
          requested)) (turn.fseek side)) :
    Truthful file (requestSeek config state side requested turn) := by
  have loaded := truthful.load (turn.play 0)
  simp only [requestSeek]
  generalize state.load (turn.play 0) = before at kept loaded ⊢
  have within := (before.channel side).within_clamped config side before.paused
    (turn.total side) requested
  have sought := seek_truthful loaded kept within
    (clampTarget ((before.channel side).total (turn.total side)) requested)
  split
  · exact sought.withChannel (sought.sound side)
  · exact ⟨sought.sound, sought.blocks, sought.seeks⟩

theorem Channel.Sound.keepsSkip_loop (sound : channel.Sound samples)
    (ended : channel.source.ended = true) (fseek : Bool) : channel.keepsSkip 0 fseek := by
  simp only [Channel.keepsSkip]
  split
  · next file reader source =>
    simp only [Channel.Sound, source] at sound ended
    rw [sound.2.1.end_skip ended]
    simp only [Nat.zero_mod, decide_true, Bool.or_true]
  · rfl

theorem loopSide_truthful (truthful : Truthful file state) {eof : Bool}
    (ended : eof = true → (state.channel side).source.ended = true) :
    Truthful file (loopSide state side eof turn).1 := by
  simp only [loopSide]
  cases eof with
  | false => exact truthful
  | true =>
    have kept := (truthful.sound side).keepsSkip_loop (ended rfl) (turn.fseek side)
    have sought := seek_truthful truthful kept
      (fun _ _ _ some => List.length_pos_iff.mpr some) 0
    rw [if_pos rfl]
    split
    · exact sought
    · exact ⟨sought.sound, sought.blocks, sought.seeks⟩

theorem loopSide_other {other : Side} (different : other ≠ side) (eof : Bool) :
    (loopSide state side eof turn).1.channel other = state.channel other := by
  simp only [loopSide]
  split
  · split
    · exact seek_other different 0 0
    · exact seek_other different 0 0
  · rfl

theorem endOfFile_truthful (truthful : Truthful file state) {eof : Side → Bool}
    (ended : ∀ side, eof side = true → (state.channel side).source.ended = true)
    (pausedOutput : Bool) : Truthful file (endOfFile state eof pausedOutput turn) := by
  have ending (paused : Bool) (side : Side) : Channel.Sound (file side)
      (if eof side then
        { state.channel side with
          backfillActive := false
          paused := paused || (state.channel side).paused }
      else state.channel side) := by
    split
    · exact truthful.sound side
    · exact truthful.sound side
  simp only [endOfFile]
  split
  · exact truthful.channels (ending false)
  · split
    · exact truthful.channels (ending true)
    · have first : Truthful file (loopSide state .a (eof .a) turn).1 :=
        loopSide_truthful truthful (ended .a)
      split
      · apply loopSide_truthful first
        have apart : Side.b ≠ Side.a := nofun
        rw [loopSide_other apart]
        exact ended .b
      · exact first

theorem Channel.Sound.block_truthful (sound : channel.Sound samples)
    (good : channel.recoveryFailed = false) {count : Nat} (enough : count ≤ channel.buffer.left)
    (config : Config) (side : Side) :
    ChannelBlock.Truthful samples ⟨channel.buffer.pending.take count,
      channel.stamp config side, channel.recoveryFailed⟩ := by
  have length : (channel.buffer.pending.take count).length = count := by
    rw [List.length_take, DecodeBuffer.pending_length]
    exact Nat.min_eq_left enough
  rw [ChannelBlock.Truthful]
  dsimp only
  rw [length]
  exact sound.pending_take good enough

theorem independentOutput_truthful (truthful : Truthful file state) :
    Truthful file (independentOutput config state side turn) := by
  have sound := truthful.sound side
  simp only [independentOutput]
  generalize owed config side (state.channel side).consumeRem = due
  have enough : min (min due.1 rawBufferSamples) (state.channel side).buffer.left ≤
      (state.channel side).buffer.left := Nat.min_le_right ..
  generalize min (min due.1 rawBufferSamples) (state.channel side).buffer.left = out at enough
  split
  · exact truthful.withChannel sound
  · split
    · refine Truthful.commitChannel (Truthful.withChannel truthful ?_) ?_
      · exact sound.consumed enough
      · exact fun good => sound.block_truthful good enough config side
    · refine Truthful.withChannel truthful ?_
      exact sound.consumed enough

theorem Channel.batch_length [Zero Sample] (channel : Channel Sample) {active : Bool} {count : Nat}
    (enough : active = true → count ≤ channel.buffer.left) :
    (channel.batch active count).length = count := by
  unfold Channel.batch
  split
  · next on =>
    rw [List.length_take, DecodeBuffer.pending_length]
    exact Nat.min_eq_left (enough on)
  · exact List.length_replicate

theorem zip_take_pick {parts : Side → List Sample} {count : Nat}
    (length : ∀ side, (parts side).length = count) (silence : List (Sample × Sample))
    (side : Side) :
    (((parts .a).zip (parts .b) ++ silence).take count).map side.pick = parts side := by
  have words : ((parts .a).zip (parts .b)).length = count := by
    rw [List.length_zip, length, length, Nat.min_self]
  rw [List.take_left' words]
  cases side with
  | a => exact List.map_fst_zip (Nat.le_of_eq ((length .a).trans (length .b).symm))
  | b => exact List.map_snd_zip (Nat.le_of_eq ((length .b).trans (length .a).symm))

theorem Channel.Sound.consume (sound : channel.Sound samples) {active : Bool} {count : Nat}
    (enough : active = true → count ≤ channel.buffer.left) :
    (channel.consume active count).Sound samples := by
  unfold Channel.consume
  split
  · next on => exact (sound.consumed (enough on)).compacted
  · exact sound

theorem pairedBlock_samples [Zero Sample] (config : Config) (state : State Sample)
    {active : Side → Bool} {count : Nat}
    (enough : ∀ side, active side = true → count ≤ (state.channel side).buffer.left)
    (side : Side) :
    ((pairedBlock config state active count).channelBlock side).samples =
      if active side then (state.channel side).buffer.pending.take count else [] := by
  have words := zip_take_pick (fun side => (state.channel side).batch_length (enough side))
    (List.replicate (rawBufferSamples - count) (0, 0)) side
  simp only [PairedBlock.channelBlock, pairedBlock]
  split
  · next on => rw [words, Channel.batch, if_pos on]
  · rfl

theorem pairedOutput_truthful [Zero Sample] (truthful : Truthful file state)
    {active : Side → Bool} {count : Nat}
    (enough : ∀ side, active side = true → count ≤ (state.channel side).buffer.left) :
    Truthful file (pairedOutput config state active count turn) := by
  have next := truthful.channels fun side => (truthful.sound side).consume (enough side)
  simp only [pairedOutput]
  split
  · refine Truthful.commitPaired next ?_
    intro side good
    have samples := pairedBlock_samples config state enough side
    rw [ChannelBlock.Truthful, samples]
    split
    · next on => exact (truthful.sound side).block_truthful good (enough side on) config side
    · exact List.take_zero.symm
  · exact next

theorem output_truthful [Zero Sample] (truthful : Truthful file state) (active : Side → Bool) :
    Truthful file (output config state active turn) := by
  have one (state : State Sample) (side : Side) (truthful : Truthful file state) :
      Truthful file (if active side then independentOutput config state side turn else state) := by
    split
    · exact independentOutput_truthful truthful
    · exact truthful
  simp only [output]
  generalize counted : (if active .b = true then _ else _) = count
  have enough : ∀ side, active side = true → count ≤ (state.channel side).buffer.left := by
    intro side on
    cases side with
    | a =>
      rw [if_pos on] at counted
      split at counted <;> omega
    | b =>
      rw [if_pos on] at counted
      omega
  split
  · exact truthful
  · split
    · exact one _ .b (one state .a truthful)
    · exact pairedOutput_truthful truthful enough

theorem produce_truthful [Zero Sample] (truthful : Truthful file state) {active : Side → Bool}
    (h : produce config state active turn = some next) : Truthful file next := by
  simp only [produce, Option.bind_eq_bind, Option.bind_eq_some_iff] at h
  obtain ⟨a, decodedA, b, decodedB, h⟩ := h
  have filled := (truthful.withChannel ((truthful.sound .a).decoded decodedA)).withChannel
    ((truthful.sound .b).decoded decodedB)
  generalize (state.withChannel .a a).withChannel .b b = after at h filled
  split at h
  · cases h
    apply endOfFile_truthful filled
    intro side eof
    simp only [Channel.eof, Bool.and_eq_true] at eof
    exact eof.2.2
  · cases h
    exact output_truthful filled active

theorem step_truthful [Zero Sample] (truthful : Truthful file state)
    (kept : keepsSkips config state turn) (h : step config state turn = some next) :
    Truthful file next := by
  simp only [step] at h
  simp only [keepsSkips] at kept
  split at h
  · next requested _ requestA =>
    cases h
    rw [requestA] at kept
    exact requestSeek_truthful truthful kept
  · next requested requestA requestB =>
    cases h
    rw [requestA, requestB] at kept
    exact requestSeek_truthful truthful kept
  · have loaded := truthful.load (turn.play 1)
    generalize state.load (turn.play 1) = before at h loaded
    have held : Truthful file (if before.paused then
        { before with channel := fun side => (before.channel side).hold } else before) := by
      split
      · apply loaded.channels
        intro side
        unfold Channel.hold
        split
        · exact loaded.sound side
        · exact loaded.sound side
      · exact loaded
    generalize (if before.paused then
        ({ before with channel := fun side => (before.channel side).hold } : State Sample)
      else before) = holding at h held
    split at h
    · cases h
      exact held
    · split at h
      · cases h
        exact ⟨held.sound, held.blocks, held.seeks⟩
      · refine produce_truthful ?_ h
        exact ⟨held.sound, held.blocks, held.seeks⟩

/-- In a run whose seek requests keep what the packed readers skip, every block committed for a
channel whose recovery has not failed starts at the sample of the file that its stamp names and
holds the samples from there on, and a seek that fails leaves the channel where it was. -/
theorem stamps_truthful [Zero Sample] (config : Config) (files : Side → File Sample)
    (streamEpoch : Nat) {schedule : List (Turn Sample)} {last : State Sample}
    (h : Machine.run (Machine.guarded (keepsSkips config) (step config))
      (start files streamEpoch) schedule = some last) :
    (∀ side, ∀ block ∈ last.blocks side, block.recoveryFailed = false →
      block.Truthful (files side).samples) ∧ ∀ record ∈ last.seeks, record.Truthful := by
  have truthful := Machine.run_invariant (Truthful fun side => (files side).samples)
    (fun _ _ _ truthful taken =>
      step_truthful truthful (Machine.guarded_eq_some.mp taken).1
        (Machine.guarded_eq_some.mp taken).2)
    (start_truthful files streamEpoch) h
  exact ⟨truthful.blocks, truthful.seeks⟩

def unanswered : SeekCalls Sample :=
  ⟨.missed false ⟨.aborted, []⟩ [] nofun, false, false, .missed false ⟨.aborted, []⟩ [] nofun⟩

def quiet : Turn Sample where
  seek _ := none
  total _ := 0
  play _ := none
  pause _ := none
  loop _ := false
  validate _ := unanswered
  calls _ := unanswered
  fseek _ := true
  room _ := true
  stamped _ := true

def eight (side : Side) : File Nat :=
  match side with
  | .a => .raw [0, 1, 2, 3, 4, 5, 6, 7] true fun _ => ⟨2, rfl⟩
  | .b => .none

def single : Config := ⟨false, 40000000, fun _ => 40000000, fun _ => 120000000⟩

def request (sample : Nat) (fseek : Bool) : Turn Nat :=
  { quiet with
    seek := fun side => if side = .a then some sample else none
    fseek := fun _ => fseek }

theorem stamps_truthful_group :
    ∃ last, Machine.run (Machine.guarded (keepsSkips single) (step single)) (start eight 0)
        [request 5 true, quiet] = some last ∧
      (last.blocks .a).map (fun block => (block.samples, block.stamp.startSample)) =
        [([5, 6, 7], 5)] ∧
      ∀ block ∈ last.blocks .a, block.recoveryFailed = false →
        block.Truthful (eight .a).samples := by
  have ran : (Machine.run (Machine.guarded (keepsSkips single) (step single)) (start eight 0)
      [request 5 true, quiet]).any (fun last =>
        decide ((last.blocks .a).map (fun block => (block.samples, block.stamp.startSample)) =
          [([5, 6, 7], 5)])) = true := by
    decide +kernel
  obtain ⟨last, run, output⟩ := (Option.any_eq_true _ _).mp ran
  exact ⟨last, run, of_decide_eq_true output, (stamps_truthful single eight 0 run).1 .a⟩

/-- A seek to the second sample of a group that fails: the block behind it starts one sample
late. -/
theorem failed_seek_skips :
    ¬∀ (schedule : List (Turn Nat)) (last : State Nat),
      Machine.run (step single) (start eight 0) schedule = some last →
        (∀ side, ∀ block ∈ last.blocks side, block.recoveryFailed = false →
          block.Truthful (eight side).samples) ∧ ∀ record ∈ last.seeks, record.Truthful := by
  intro claim
  have ran : (Machine.run (step single) (start eight 0) [request 1 false, quiet]).any
      (fun last => decide ((last.blocks .a).map
        (fun block => (block.samples, block.stamp.startSample, block.recoveryFailed)) =
          [([1, 2, 3, 4, 5, 6, 7], 0, false)])) = true := by
    decide +kernel
  obtain ⟨last, run, output⟩ := (Option.any_eq_true _ _).mp ran
  obtain ⟨block, blocks, fields⟩ := List.map_eq_singleton_iff.mp (of_decide_eq_true output)
  simp only [Prod.mk.injEq] at fields
  obtain ⟨samples, start, good⟩ := fields
  have member : block ∈ last.blocks .a := by
    rw [blocks]
    exact List.mem_singleton_self block
  have truthful := (claim _ last run).1 .a block member good
  rw [ChannelBlock.Truthful, samples, start] at truthful
  exact absurd truthful (by decide)

end MisrcGui.Playback
