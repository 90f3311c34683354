import MisrcGui.Playback.Stamps

/-! The refill of a decode buffer. -/
namespace MisrcGui.Playback

variable {Sample : Type} {channel filled : Channel Sample} {samples : List Sample}
  {buffer : DecodeBuffer Sample} {frames rest : List (List Sample)}

def flacMaxBlockSize : Nat := 65535

theorem decodeFrames_stored (rest : List (List Sample))
    (inside : buffer.stored.length ≤ decodeBufSize) :
    (decodeFrames rest buffer).2.pos = buffer.pos ∧
      (decodeFrames rest buffer).2.stored.length ≤ decodeBufSize := by
  induction rest generalizing buffer with
  | nil =>
    simp only [decodeFrames]
    split
    · exact ⟨rfl, inside⟩
    · exact ⟨rfl, inside⟩
  | cons frame rest ih =>
    simp only [decodeFrames]
    split
    · split
      · next stored =>
        obtain ⟨rfl, fits⟩ := writeCallback_eq stored
        rw [← List.length_append] at fits
        exact @ih { buffer with stored := buffer.stored ++ frame } fits
      · exact ⟨rfl, inside⟩
    · exact ⟨rfl, inside⟩

theorem decodeFrames_suffix (rest : List (List Sample)) (buffer : DecodeBuffer Sample) :
    (decodeFrames rest buffer).1.rest <:+ rest := by
  induction rest generalizing buffer with
  | nil =>
    simp only [decodeFrames]
    split
    · exact List.suffix_refl _
    · exact List.suffix_refl _
  | cons frame rest ih =>
    simp only [decodeFrames]
    split
    · split
      · exact (ih _).trans (List.suffix_cons ..)
      · exact List.suffix_refl _
    · exact List.suffix_refl _

/-- Every frame that a refill comes to fits behind those in front of it. -/
def FramesFit (rest : List (List Sample)) (buffer : DecodeBuffer Sample) : Prop :=
  ∀ taken frame behind, rest = taken ++ frame :: behind →
    buffer.stored.length + taken.flatten.length - buffer.pos < rawBufferSamples →
      buffer.stored.length + taken.flatten.length + frame.length ≤ decodeBufSize

theorem decodeFrames_fits (fit : FramesFit rest buffer) :
    (decodeFrames rest buffer).1.state ≠ .aborted ∧
      ((decodeFrames rest buffer).2.left < rawBufferSamples →
        (decodeFrames rest buffer).1.state = .endOfStream) := by
  induction rest generalizing buffer with
  | nil =>
    simp only [decodeFrames]
    split
    · exact ⟨by simp, fun _ => rfl⟩
    · next enough => exact ⟨by simp, fun few => absurd few enough⟩
  | cons frame rest ih =>
    simp only [decodeFrames]
    split
    · next few =>
      have fits := fit [] frame rest rfl few
      rw [List.flatten_nil, List.length_nil, Nat.add_zero] at fits
      have stored : buffer.writeCallback frame =
          some { buffer with stored := buffer.stored ++ frame } :=
        if_neg (Nat.not_lt_of_le fits)
      rw [stored]
      apply ih
      intro taken next behind split short
      have later := fit (frame :: taken) next behind (by rw [split]; rfl)
      simp only [List.flatten_cons, List.length_append] at short later ⊢
      omega
    · next enough => exact ⟨by simp, fun few => absurd few enough⟩

theorem framesFit_half (half : buffer.pos ≤ decodeBufSize / 2)
    (sized : ∀ frame ∈ rest, frame.length ≤ flacMaxBlockSize) : FramesFit rest buffer := by
  intro taken frame behind split short
  have size := sized frame (by rw [split]; exact List.mem_append_right _ List.mem_cons_self)
  simp only [decodeBufSize, flacMaxBlockSize, rawBufferSamples] at half size short ⊢
  omega

theorem framesFit_whole (whole : buffer.stored.length + rest.flatten.length ≤ decodeBufSize) :
    FramesFit rest buffer := by
  intro taken frame behind split _
  rw [split] at whole
  simp only [List.flatten_append, List.flatten_cons, List.length_append] at whole
  omega

theorem refillReader_stored {reader : RawReader Sample} (reading : Reading samples reader)
    (inside : buffer.stored.length ≤ decodeBufSize) :
    (refillReader samples reader buffer).2.pos = buffer.pos ∧
      (refillReader samples reader buffer).2.stored.length ≤ decodeBufSize := by
  simp only [refillReader]
  split
  · have on := rawRead_readOn reading (decodeBufSize - buffer.stored.length)
    refine ⟨rfl, ?_⟩
    have few := List.length_take_le (decodeBufSize - buffer.stored.length)
      (samples.drop reader.cursor)
    dsimp only
    rw [List.length_append, on.read]
    omega
  · exact ⟨rfl, inside⟩

/-- With room for a sample, or none behind the cursor, an empty buffer is at the end. -/
theorem refillReader_ended {reader : RawReader Sample} (reading : Reading samples reader)
    (inside : buffer.pos ≤ buffer.stored.length)
    (room : buffer.left < rawBufferSamples →
      buffer.stored.length < decodeBufSize ∨ samples.length ≤ reader.cursor)
    (empty : (refillReader samples reader buffer).2.left = 0) :
    rawEof samples (refillReader samples reader buffer).1 = true := by
  apply decide_eq_true
  simp only [refillReader] at empty ⊢
  split at empty
  · next few =>
    have room := room few
    rw [if_pos few]
    have on := rawRead_readOn reading (decodeBufSize - buffer.stored.length)
    have length := congrArg List.length on.read
    rw [List.length_take, List.length_drop] at length
    simp only [DecodeBuffer.left, List.length_append] at empty
    rw [on.cursor]
    omega
  · next enough =>
    rw [empty] at enough
    exact absurd (Nat.zero_lt_succ _) enough

structure Refilled (before after : Channel Sample) : Prop where
  pos : after.buffer.pos = before.buffer.pos
  stored : after.buffer.stored.length ≤ decodeBufSize
  current : after.current = before.current
  paused : after.paused = before.paused
  recoveryFailed : after.recoveryFailed = before.recoveryFailed
  consumeRem : after.consumeRem = before.consumeRem
  loaded : after.source.loaded = before.source.loaded

theorem decode_refilled (sound : channel.Sound samples)
    (inside : channel.buffer.stored.length ≤ decodeBufSize) {active : Bool}
    (h : channel.decode active = some filled) : Refilled channel filled := by
  simp only [Channel.decode] at h
  split at h
  · simp only [Channel.refill] at h
    split at h
    · cases h
      exact ⟨rfl, inside, rfl, rfl, rfl, rfl, rfl⟩
    · next frames decoder source =>
      obtain ⟨⟨after, buffer⟩, run, rfl⟩ := Option.map_eq_some_iff.mp h
      have loaded : channel.source.loaded = true := by rw [source]; rfl
      have stays : buffer.pos = channel.buffer.pos ∧
          buffer.stored.length ≤ decodeBufSize := by
        simp only [refillDecoder] at run
        split at run
        · split at run
          · have decoded := decodeFrames_stored decoder.rest inside
            rw [Option.some.inj run] at decoded
            exact decoded
          · cases run
            exact ⟨rfl, inside⟩
          · cases run
        · cases run
          exact ⟨rfl, inside⟩
      exact ⟨stays.1, stays.2, rfl, rfl, rfl, rfl, loaded.symm⟩
    · next file reader source =>
      have loaded : channel.source.loaded = true := by rw [source]; rfl
      simp only [Channel.Sound, source] at sound
      have stays := refillReader_stored sound.2.1 inside
      cases h
      exact ⟨stays.1, stays.2, rfl, rfl, rfl, rfl, loaded.symm⟩
  · cases h
    exact ⟨rfl, inside, rfl, rfl, rfl, rfl, rfl⟩

def Source.aborted : Source Sample → Bool
  | .flac _ decoder => decide (decoder.state = .aborted)
  | _ => false

def Source.Sized : Source Sample → Prop
  | .flac _ decoder => ∀ frame ∈ decoder.rest, frame.length ≤ flacMaxBlockSize
  | _ => True

def Source.behind : Source Sample → List Sample
  | .none => []
  | .flac _ decoder => decoder.rest.flatten
  | .raw samples reader => samples.drop reader.cursor

/-- A buffer with room for a refill: its first half is all that is consumed, or it holds what is
left of the file. -/
def Channel.Roomy (channel : Channel Sample) : Prop :=
  channel.buffer.pos ≤ decodeBufSize / 2 ∧ channel.source.Sized ∨
    channel.buffer.stored.length + channel.source.behind.length ≤ decodeBufSize

structure Filled (active : Bool) (before after : Channel Sample) : Prop where
  live : after.source.aborted = false
  sized : before.source.Sized → after.source.Sized
  ended : active = true → before.source.loaded = true → after.buffer.left = 0 →
    after.source.ended = true

theorem refillDecoder_filled {decoder : Decoder Sample} (live : decoder.state ≠ .aborted)
    (fit : FramesFit decoder.rest buffer) :
    ∃ after filled, refillDecoder decoder buffer = some (after, filled) ∧
      after.state ≠ .aborted ∧ after.rest <:+ decoder.rest ∧
        (filled.left = 0 → after.state = .endOfStream) := by
  simp only [refillDecoder]
  split
  · split
    · obtain ⟨unaborted, ended⟩ := decodeFrames_fits fit
      refine ⟨_, _, rfl, unaborted, decodeFrames_suffix .., fun empty => ended ?_⟩
      rw [empty]
      exact Nat.zero_lt_succ _
    · next state => exact ⟨_, _, rfl, live, List.suffix_refl _, fun _ => state⟩
    · next state => exact absurd state live
  · next enough =>
    refine ⟨_, _, rfl, live, List.suffix_refl _, fun empty => absurd ?_ enough⟩
    rw [empty]
    exact Nat.zero_lt_succ _

theorem refill_filled (sound : channel.Sound samples) (good : channel.recoveryFailed = false)
    (live : channel.source.aborted = false) (room : channel.Roomy) :
    ∃ filled, channel.refill = some filled ∧ Filled true channel filled := by
  obtain ⟨source, buffer, recoveryFailed, current⟩ := channel
  cases source with
  | none => exact ⟨_, rfl, rfl, fun sized => sized, fun _ loaded => nomatch loaded⟩
  | flac frames decoder =>
    have fit : FramesFit decoder.rest buffer := by
      rcases room with half | whole
      · exact framesFit_half half.1 half.2
      · exact framesFit_whole whole
    obtain ⟨after, filled, run, unaborted, behind, ended⟩ :=
      refillDecoder_filled (of_decide_eq_false live) fit
    refine ⟨_, Option.map_eq_some_iff.mpr ⟨_, run, rfl⟩, decide_eq_false unaborted, ?_, ?_⟩
    · exact fun sized frame member => sized frame (behind.subset member)
    · exact fun _ _ empty => decide_eq_true (ended empty)
  | raw file reader =>
    obtain ⟨_, reading, inside, _⟩ := sound
    refine ⟨_, rfl, rfl, fun sized => sized, fun _ _ empty => ?_⟩
    refine refillReader_ended reading inside (fun few => ?_) empty
    rcases room with ⟨half, _⟩ | whole
    · simp only [DecodeBuffer.left, rawBufferSamples, decodeBufSize] at few half ⊢
      omega
    · simp only [Source.behind, List.length_drop] at whole
      dsimp only
      omega

theorem decode_filled (sound : channel.Sound samples) (good : channel.recoveryFailed = false)
    (live : channel.source.aborted = false) (room : channel.Roomy) (active : Bool) :
    ∃ filled, channel.decode active = some filled ∧ Filled active channel filled := by
  cases active with
  | false => exact ⟨channel, rfl, live, fun sized => sized, nofun⟩
  | true => exact refill_filled sound good live room

theorem Channel.Sound.ahead (sound : channel.Sound samples)
    (good : channel.recoveryFailed = false) :
    channel.buffer.pending ++ channel.source.behind = samples.drop channel.current := by
  obtain ⟨source, buffer, recoveryFailed, current⟩ := channel
  cases source with
  | none =>
    obtain ⟨rfl, rfl⟩ := sound
    exact List.drop_nil.symm
  | flac frames decoder =>
    obtain ⟨rfl, streaming⟩ := sound
    exact (streaming good).ahead
  | raw file reader =>
    obtain ⟨rfl, _, _, ahead⟩ := sound
    exact ahead

theorem Channel.Sound.left_le (sound : channel.Sound samples)
    (good : channel.recoveryFailed = false) :
    channel.buffer.left + channel.source.behind.length = samples.length - channel.current := by
  have length := congrArg List.length (sound.ahead good)
  rw [List.length_append, List.length_drop, DecodeBuffer.pending_length] at length
  exact length

theorem Channel.Sound.eof_current (sound : channel.Sound samples)
    (good : channel.recoveryFailed = false) (eof : channel.eof = true) :
    samples.length ≤ channel.current := by
  have left := sound.left_le good
  simp only [Channel.eof, Bool.and_eq_true, decide_eq_true_eq] at eof
  obtain ⟨empty, ended⟩ := eof
  have behind : channel.source.behind = [] := by
    obtain ⟨source, buffer, recoveryFailed, current⟩ := channel
    cases source with
    | none => rfl
    | flac frames decoder =>
      have rest := (sound.2 good).ended (of_decide_eq_true ended)
      exact congrArg List.flatten rest
    | raw file reader => exact List.drop_eq_nil_of_le (of_decide_eq_true ended)
  rw [behind, empty, List.length_nil] at left
  omega

end MisrcGui.Playback
