import MisrcGui.Library.NumberText
import MisrcGui.Library.Percent
import MisrcGui.Playback.OggPage

/-! The WAV header the recorder writes (`wave.h`) and the chunk walk of the player. -/
namespace MisrcGui.Playback.WavFile
open Library Library.Layout
open Library.Percent (ascii)
open Library.NumberText (decimal)
open Ogg (littleEndian encodeLittle littleEndian_encodeLittle length_encodeLittle)

/-- `wave_header_t`, packed. -/
structure WaveHeader where
  riff : List UInt8
  riffSize : Nat
  wave : List UInt8
  ds64junk : List UInt8
  ds64junkSize : Nat
  riff64Size : Nat
  data64Size : Nat
  sampleCount : Nat
  extraTableSize : Nat
  fmt : List UInt8
  fmtSize : Nat
  formatType : Nat
  channelCount : Nat
  sampleRate : Nat
  bytesPerSecond : Nat
  blockAlign : Nat
  bitsPerSample : Nat
  cbSize : Nat
  data : List UInt8
  dataSize : Nat

/-- `sizeof(wave_header_t)`. -/
def headerSize : Nat := 82

def riffLimit : Nat := 2147483647 - headerSize

/-- `create_wave_header`. Sizes are computed in 64 bits. -/
def createWaveHeader (samples sampleRate channels bits : Nat) : WaveHeader :=
  let dataSize := bits / 8 * channels * samples % 2 ^ 64
  let large := riffLimit < dataSize
  { riff := if large then ascii "RF64" else ascii "RIFF"
    riffSize := if large then 0xffffffff else dataSize + headerSize - 8
    wave := ascii "WAVE"
    ds64junk := if large then ascii "ds64" else ascii "JUNK"
    ds64junkSize := 28
    riff64Size := dataSize + headerSize - 8
    data64Size := dataSize
    sampleCount := samples
    extraTableSize := 0
    fmt := ascii "fmt "
    fmtSize := 18
    formatType := 1
    channelCount := channels
    sampleRate := sampleRate
    bytesPerSecond := bits / 8 * channels * sampleRate
    blockAlign := bits / 8 * channels
    bitsPerSample := bits
    cbSize := 0
    data := ascii "data"
    dataSize := if large then 0xffffffff else dataSize }

/-- The fields in the order of the file; a field keeps the low bytes of its value. -/
def WaveHeader.parts (h : WaveHeader) : List (List UInt8) :=
  [h.riff, encodeLittle 4 h.riffSize, h.wave, h.ds64junk, encodeLittle 4 h.ds64junkSize,
    encodeLittle 8 h.riff64Size, encodeLittle 8 h.data64Size, encodeLittle 8 h.sampleCount,
    encodeLittle 4 h.extraTableSize, h.fmt, encodeLittle 4 h.fmtSize, encodeLittle 2 h.formatType,
    encodeLittle 2 h.channelCount, encodeLittle 4 h.sampleRate, encodeLittle 4 h.bytesPerSecond,
    encodeLittle 2 h.blockAlign, encodeLittle 2 h.bitsPerSample, encodeLittle 2 h.cbSize, h.data,
    encodeLittle 4 h.dataSize]

def WaveHeader.bytes (h : WaveHeader) : List UInt8 := h.parts.flatten

/-- What a `fmt ` chunk says. -/
structure Format where
  rate : Nat
  bits : Nat
  channels : Nat
deriving DecidableEq

/-- The outputs of `gui_playback_parse_wav`. -/
structure WavInfo where
  rate : Nat
  bits : Nat
  channels : Nat
  dataOffset : Nat
  dataBytes : Nat
deriving DecidableEq

def hexLower (n : Nat) : UInt8 := UInt8.ofNat (if n < 10 then 48 + n else 87 + n)

/-- `%04x`. -/
def hex4 (n : Nat) : List UInt8 :=
  [hexLower (n / 4096 % 16), hexLower (n / 256 % 16), hexLower (n / 16 % 16), hexLower (n % 16)]

/-- The body of a `fmt ` chunk. `multi` is set where the caller asks for the channels. -/
def readFormat (multi : Bool) (fmt : List UInt8) : Except (List UInt8) Format :=
  let audioFormat := littleEndian (field fmt 0 2)
  let channels := littleEndian (field fmt 2 2)
  let rate := littleEndian (field fmt 4 4)
  let bits := littleEndian (field fmt 14 2)
  if audioFormat ≠ 0x0001 ∧ audioFormat ≠ 0xFFFE then
    .error (ascii "WAV fmt is not PCM (format tag 0x" ++ hex4 audioFormat ++
      ascii ") - only PCM WAV is supported")
  else if bits ≠ 8 ∧ bits ≠ 16 ∧ bits ≠ 24 ∧ bits ≠ 32 then
    .error (ascii "WAV: unsupported PCM layout (" ++ decimal bits ++ ascii "-bit, " ++
      decimal channels ++ ascii " ch) - expected 8/16/24/32-bit")
  else if multi then
    if channels = 0 ∨ 8 < channels then
      .error (ascii "WAV has " ++ decimal channels ++ ascii " channels - expected 1-8")
    else .ok ⟨rate, bits, channels⟩
  else if channels ≠ 1 then
    .error (ascii "WAV has " ++ decimal channels ++
      ascii " channels (expected mono - one playback file per RF channel)")
  else .ok ⟨rate, bits, channels⟩

/-- The chunk loop: the format found before it, and the data span. -/
def walk (file : List UInt8) (multi : Bool) (pos : Nat) (format : Option Format) :
    Except (List UInt8) (Option Format × Option (Nat × Nat)) :=
  if _inside : file.length < pos + 8 then .ok (format, none)
  else
    let len := littleEndian (field file (pos + 4) 4)
    let body := pos + 8
    let next := body + len + len % 2
    if field file pos 4 = ascii "fmt " then
      let want := min len 40
      if want < 16 ∨ file.length < body + want then .ok (format, none)
      else match readFormat multi (field file body want) with
        | .error message => .error message
        | .ok found => walk file multi next (some found)
    else if field file pos 4 = ascii "data" then
      let avail := file.length - body
      .ok (format, some (body, if len = 0 ∨ len = 0xFFFFFFFF then avail else min len avail))
    else walk file multi next format
termination_by file.length - pos

def parseWav (file : List UInt8) (multi : Bool) : Except (List UInt8) WavInfo :=
  if file.length < 12 ∨ field file 0 4 ≠ ascii "RIFF" ∨ field file 8 4 ≠ ascii "WAVE" then
    .error (ascii "not a RIFF/WAVE file")
  else match walk file multi 12 none with
    | .error message => .error message
    | .ok (none, _) => .error (ascii "WAV: no fmt chunk (not a PCM WAV)")
    | .ok (some _, none) => .error (ascii "WAV: no data chunk")
    | .ok (some format, some (offset, bytes)) =>
      if format.rate = 0 ∨ format.bits = 0 then
        .error (ascii "WAV: zero sample rate or bit depth in fmt chunk")
      else .ok ⟨format.rate, format.bits, format.channels, offset, bytes⟩

variable {h : WaveHeader} {pcm : List UInt8} {multi : Bool} {format : Option Format}

structure WaveHeader.Named (h : WaveHeader) : Prop where
  riff : h.riff.length = 4
  wave : h.wave.length = 4
  ds64junk : h.ds64junk.length = 4
  fmt : h.fmt.length = 4
  data : h.data.length = 4

theorem createWaveHeader_named (samples sampleRate channels bits : Nat) :
    (createWaveHeader samples sampleRate channels bits).Named where
  riff := by
    dsimp only [createWaveHeader]
    split <;> rfl
  wave := rfl
  ds64junk := by
    dsimp only [createWaveHeader]
    split <;> rfl
  fmt := rfl
  data := rfl

theorem parts_lengths (named : h.Named) : h.parts.map List.length =
    [4, 4, 4, 4, 4, 8, 8, 8, 4, 4, 4, 2, 2, 4, 4, 2, 2, 2, 4, 4] := by
  simp only [WaveHeader.parts, List.map_cons, List.map_nil, length_encodeLittle, named.riff,
    named.wave, named.ds64junk, named.fmt, named.data]

theorem length_bytes (named : h.Named) : h.bytes.length = headerSize := by
  rw [WaveHeader.bytes, List.length_flatten, parts_lengths named]
  rfl

theorem cut_file (named : h.Named) (pcm : List UInt8) :
    cut (h.bytes ++ pcm) 0 [4, 4, 4, 4, 4, 8, 8, 8, 4, 4, 4, 2, 2, 4, 4, 2, 2, 2, 4, 4] =
      h.parts := by
  have all := cut_flatten_append [] h.parts pcm
  rwa [parts_lengths named, List.nil_append] at all

structure Seen (h : WaveHeader) (file : List UInt8) : Prop where
  riff : field file 0 4 = h.riff
  wave : field file 8 4 = h.wave
  junk : field file 12 4 = h.ds64junk
  junkSize : field file 16 4 = encodeLittle 4 h.ds64junkSize
  fmt : field file 48 4 = h.fmt
  fmtSize : field file 52 4 = encodeLittle 4 h.fmtSize
  formatType : field file 56 2 = encodeLittle 2 h.formatType
  channels : field file 58 2 = encodeLittle 2 h.channelCount
  rate : field file 60 4 = encodeLittle 4 h.sampleRate
  bits : field file 70 2 = encodeLittle 2 h.bitsPerSample
  data : field file 74 4 = h.data
  dataSize : field file 78 4 = encodeLittle 4 h.dataSize

theorem seen_file (named : h.Named) (pcm : List UInt8) : Seen h (h.bytes ++ pcm) := by
  have all := cut_file named pcm
  simp only [cut, WaveHeader.parts, List.cons.injEq] at all
  obtain ⟨riff, -, wave, junk, junkSize, -, -, -, -, fmt, fmtSize, formatType, channels, rate, -,
    -, bits, -, data, dataSize, -⟩ := all
  exact ⟨riff, wave, junk, junkSize, fmt, fmtSize, formatType, channels, rate, bits, data,
    dataSize⟩

theorem field_field {file : List UInt8} {start width offset more : Nat}
    (inside : offset + more ≤ width) :
    field (field file start width) offset more = field file (start + offset) more := by
  unfold field
  rw [List.drop_take, List.take_take, List.drop_drop, Nat.min_eq_left (by omega)]

section

variable {channels bits rate frames : Nat}

theorem readFormat_created {file : List UInt8}
    (seen : Seen (createWaveHeader frames rate channels bits) file)
    (someChannels : 1 ≤ channels ∧ channels ≤ 8)
    (depth : bits = 8 ∨ bits = 16 ∨ bits = 24 ∨ bits = 32) (rateFits : rate < 2 ^ 32) :
    readFormat true (field file 56 18) = .ok ⟨rate, bits, channels⟩ := by
  have type : littleEndian (field (field file 56 18) 0 2) = 1 := by
    rw [field_field (by decide), seen.formatType]
    have fits : 1 < 256 ^ 2 := by decide
    exact littleEndian_encodeLittle fits
  have count : littleEndian (field (field file 56 18) 2 2) = channels := by
    rw [field_field (by decide), seen.channels]
    exact littleEndian_encodeLittle (Nat.lt_of_le_of_lt someChannels.2 (by decide))
  have clock : littleEndian (field (field file 56 18) 4 4) = rate := by
    rw [field_field (by decide), seen.rate]
    exact littleEndian_encodeLittle rateFits
  have width : littleEndian (field (field file 56 18) 14 2) = bits := by
    rw [field_field (by decide), seen.bits]
    apply littleEndian_encodeLittle
    change bits < 256 ^ 2
    omega
  unfold readFormat
  simp only [type, count, clock, width]
  rw [if_neg (by decide), if_neg (by omega), if_pos trivial, if_neg (by omega)]

/-- Past the `JUNK` chunk and the `fmt ` chunk to the data. -/
theorem walk_created (pcm : List UInt8) {size : Nat}
    (whole : bits / 8 * channels * frames % 2 ^ 64 = size) (small : size ≤ riffLimit)
    (someChannels : 1 ≤ channels ∧ channels ≤ 8)
    (depth : bits = 8 ∨ bits = 16 ∨ bits = 24 ∨ bits = 32) (rateFits : rate < 2 ^ 32) :
    walk ((createWaveHeader frames rate channels bits).bytes ++ pcm) true 12 none =
      .ok (some ⟨rate, bits, channels⟩,
        some (82, if size = 0 then pcm.length else min size pcm.length)) := by
  subst whole
  have named := createWaveHeader_named frames rate channels bits
  have seen := seen_file named pcm
  have length : ((createWaveHeader frames rate channels bits).bytes ++ pcm).length =
      82 + pcm.length := by
    rw [List.length_append, length_bytes named]
    rfl
  have format := readFormat_created seen someChannels depth rateFits
  have notLarge : ¬riffLimit < bits / 8 * channels * frames % 2 ^ 64 := Nat.not_lt.mpr small
  have junk : (createWaveHeader frames rate channels bits).ds64junk = ascii "JUNK" :=
    if_neg notLarge
  have dataSize : (createWaveHeader frames rate channels bits).dataSize =
      bits / 8 * channels * frames % 2 ^ 64 := if_neg notLarge
  generalize (createWaveHeader frames rate channels bits).bytes ++ pcm = file at *
  generalize bits / 8 * channels * frames % 2 ^ 64 = size at *
  have junkSize : littleEndian (field file 16 4) = 28 := by
    rw [seen.junkSize]
    have fits : 28 < 256 ^ 4 := by decide
    exact littleEndian_encodeLittle fits
  have fmtSize : littleEndian (field file 52 4) = 18 := by
    rw [seen.fmtSize]
    have fits : 18 < 256 ^ 4 := by decide
    exact littleEndian_encodeLittle fits
  have stored : littleEndian (field file 78 4) = size := by
    rw [seen.dataSize, dataSize]
    apply littleEndian_encodeLittle
    have limit : riffLimit < 256 ^ 4 := by decide
    omega
  have fmt : field file 48 4 = ascii "fmt " := seen.fmt
  have data : field file 74 4 = ascii "data" := seen.data
  rw [walk, dif_neg (by omega), seen.junk, junk, if_neg (by decide), if_neg (by decide), junkSize,
    walk, dif_neg (by omega), fmt, if_pos rfl, fmtSize]
  dsimp only
  rw [if_neg (by omega), Nat.min_eq_left (by decide), format]
  dsimp only
  rw [walk, dif_neg (by omega), data, if_neg (by decide), if_pos rfl, stored, length]
  have notStream : size ≠ 0xFFFFFFFF := by
    unfold riffLimit headerSize at small
    omega
  simp only [notStream, or_false, Nat.add_sub_cancel_left]

end

theorem parseWav_large {channels bits rate frames : Nat}
    (large : riffLimit < bits / 8 * channels * frames % 2 ^ 64) :
    parseWav ((createWaveHeader frames rate channels bits).bytes ++ pcm) multi =
      .error (ascii "not a RIFF/WAVE file") := by
  have seen := seen_file (createWaveHeader_named frames rate channels bits) pcm
  have form : (createWaveHeader frames rate channels bits).riff = ascii "RF64" := if_pos large
  have other : field ((createWaveHeader frames rate channels bits).bytes ++ pcm) 0 4 ≠
      ascii "RIFF" := by
    rw [seen.riff, form]
    decide
  rw [parseWav, if_pos (.inr (.inl other))]

/-- The player reads back what the recorder writes if and only if the header has the RIFF
form, which ends at 2 GiB. -/
theorem parseWav_created_iff (channels bits rate frames : Nat) (pcm : List UInt8)
    (someChannels : 1 ≤ channels ∧ channels ≤ 8)
    (depth : bits = 8 ∨ bits = 16 ∨ bits = 24 ∨ bits = 32)
    (someRate : 0 < rate ∧ rate < 2 ^ 32) (someFrames : 1 ≤ frames)
    (exactly : pcm.length = bits / 8 * channels * frames)
    (onDisk : headerSize + pcm.length < 2 ^ 64) :
    parseWav ((createWaveHeader frames rate channels bits).bytes ++ pcm) true =
        .ok ⟨rate, bits, channels, headerSize, pcm.length⟩ ↔
      pcm.length ≤ riffLimit := by
  have size : bits / 8 * channels * frames % 2 ^ 64 = pcm.length := by
    rw [exactly] at onDisk ⊢
    exact Nat.mod_eq_of_lt (by omega)
  constructor
  · intro read
    by_contra large
    rw [parseWav_large (by rw [size]; exact Nat.lt_of_not_le large)] at read
    contradiction
  · intro small
    have named := createWaveHeader_named frames rate channels bits
    have seen := seen_file named pcm
    have positive : 0 < pcm.length := by
      rw [exactly]
      have width : 0 < bits / 8 := by omega
      exact Nat.mul_pos (Nat.mul_pos width someChannels.1) someFrames
    have long : ¬((createWaveHeader frames rate channels bits).bytes ++ pcm).length < 12 := by
      rw [List.length_append, length_bytes named, headerSize]
      omega
    have notLarge : ¬riffLimit < bits / 8 * channels * frames % 2 ^ 64 := by
      rw [size]
      exact Nat.not_lt.mpr small
    have form : (createWaveHeader frames rate channels bits).riff = ascii "RIFF" :=
      if_neg notLarge
    have wave : (createWaveHeader frames rate channels bits).wave = ascii "WAVE" := rfl
    have walked := walk_created pcm size small someChannels depth someRate.2
    rw [if_neg (by omega), Nat.min_self] at walked
    have magic : ¬(((createWaveHeader frames rate channels bits).bytes ++ pcm).length < 12 ∨
        field ((createWaveHeader frames rate channels bits).bytes ++ pcm) 0 4 ≠ ascii "RIFF" ∨
        field ((createWaveHeader frames rate channels bits).bytes ++ pcm) 8 4 ≠ ascii "WAVE") := by
      rw [seen.riff, seen.wave, form, wave]
      simp only [long, ne_eq, not_true_eq_false, or_self, not_false_eq_true]
    rw [parseWav, if_neg magic, walked]
    dsimp only
    rw [if_neg (by omega)]
    rfl

/-- One second of a control track. -/
theorem parseWav_created_second :
    (parseWav ((createWaveHeader 46875 46875 1 8).bytes ++ List.replicate 46875 0) true =
        .ok ⟨46875, 8, 1, headerSize, 46875⟩) := by
  have length : (List.replicate 46875 (0 : UInt8)).length = 46875 := List.length_replicate ..
  have same := parseWav_created_iff 1 8 46875 46875 (List.replicate 46875 0) (by decide) (.inl rfl)
    (by decide) (by decide) length (by rw [length]; decide)
  rw [length] at same
  exact same.mpr (by decide)

/-- The first mono file past the limit. -/
theorem parseWav_refuses_past_limit :
    ¬∀ (channels bits rate frames : Nat) (pcm : List UInt8), 1 ≤ channels ∧ channels ≤ 8 →
      bits = 8 ∨ bits = 16 ∨ bits = 24 ∨ bits = 32 → 0 < rate ∧ rate < 2 ^ 32 → 1 ≤ frames →
        pcm.length = bits / 8 * channels * frames → headerSize + pcm.length < 2 ^ 64 →
          parseWav ((createWaveHeader frames rate channels bits).bytes ++ pcm) true =
            .ok ⟨rate, bits, channels, headerSize, pcm.length⟩ := by
  intro claim
  have some : ∃ pcm : List UInt8, pcm.length = 8 / 8 * 1 * (riffLimit + 1) :=
    ⟨List.replicate _ 0, List.length_replicate ..⟩
  obtain ⟨pcm, length⟩ := some
  have read := claim 1 8 40000 (riffLimit + 1) pcm (by decide) (.inl rfl) (by decide) (by decide)
    length (by rw [length]; decide)
  rw [parseWav_large (by decide)] at read
  contradiction

end MisrcGui.Playback.WavFile
