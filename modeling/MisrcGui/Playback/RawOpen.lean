import MisrcGui.Playback.RateHint
import MisrcGui.Playback.WavFile

/-! What the player makes of a file: its container (`gui_playback_sniff_format`) and, for raw
PCM, WAV and `.lds` files, its span and rate (`gui_playback_raw_open`). -/
namespace MisrcGui.Playback.RawOpen
open Library NumberText RateHint
open Library.Percent (ascii)
open WavFile (parseWav)

inductive Format where
  | flac
  | oggFlac
  | wav
  | u8
  | s8
  | u16
  | s16
  | lds
deriving DecidableEq

def slash : UInt8 := 47

def backslash : UInt8 := 92

def fileName (path : Text) : Text :=
  (path.reverse.takeWhile fun c => c ≠ slash ∧ c ≠ backslash).reverse

def extEquals (filename : Text) (ext : String) : Bool :=
  let after := (filename.reverse.takeWhile (· ≠ point)).reverse
  after.length + 1 < filename.length && after ≠ [] && after.map toLower == (ascii ext).map toLower

def startsWith (head front : Text) : Bool := front.isPrefixOf head

/-- The codec of an Ogg stream that is not FLAC, by its first payload. -/
def oggCodec (payload : Text) : Text :=
  if startsWith payload (1 :: ascii "vorbis") then ascii "Vorbis"
  else if startsWith payload (ascii "OpusHead") then ascii "Opus"
  else if startsWith payload (ascii "Speex   ") then ascii "Speex"
  else if startsWith payload (128 :: ascii "theora") then ascii "Theora"
  else ascii "unknown"

def extensions : List (List String × Format) :=
  [(["u8", "r8", "8u"], .u8), (["s8", "8s"], .s8), (["u16", "r16", "16u"], .u16),
    (["s16", "16s"], .s16), (["lds"], .lds), (["raw", "bin", "pcm"], .u8), (["flac"], .flac),
    (["wav"], .wav), (["ldf", "oga", "ogg"], .oggFlac)]

/-- `gui_playback_sniff_format`. The magic decides first, then the extension. -/
def sniffFormat (path : Text) (file : List UInt8) : Except Text Format :=
  let head := file.take 64
  if startsWith head (ascii "fLaC") then .ok .flac
  else if startsWith head (ascii "OggS") then
    let payload := head.drop (27 + (head.getD 26 0).toNat)
    if startsWith payload (127 :: ascii "FLAC") then .ok .oggFlac
    else .error (ascii "this is an Ogg " ++ oggCodec payload ++
      ascii " stream, not Ogg FLAC - playback only cuts FLAC RF/audio captures")
  else if startsWith head (ascii "ID3") then
    .error (ascii "this FLAC carries a leading ID3v2 tag, which playback cannot read")
  else if startsWith head (ascii "RIFF") && startsWith (head.drop 8) (ascii "WAVE") then .ok .wav
  else match extensions.find? fun entry => entry.1.any (extEquals (fileName path)) with
    | some (_, format) => .ok format
    | none => .error (ascii "unsupported file type (" ++ fileName path ++ ascii ")")

def NoMagic (file : List UInt8) : Prop :=
  ∀ magic ∈ ["fLaC", "OggS", "ID3", "RIFF"], startsWith (file.take 64) (ascii magic) = false

/-- What `gui_playback_raw_open` resolves. -/
structure RawInfo where
  format : Format
  bits : Nat
  dataOffset : Nat
  dataBytes : Nat
  totalSamples : Nat
  realSampleRateHz : ℚ
  sampleRate : Nat
deriving DecidableEq

def audioRates : List Nat :=
  [22050, 24000, 32000, 44100, 48000, 64000, 88200, 96000, 176400, 192000, 352800, 384000]

/-- `gui_playback_is_audio_sample_rate`, within five percent. -/
def isAudioSampleRate (rate : Nat) : Bool :=
  rate ≠ 0 && audioRates.any fun target =>
    |(rate : ℚ) - target| ≤ toDouble (target * toDouble (5 / 100))

def withSamples (path : Text) (info : RawInfo) : Except Text RawInfo :=
  if info.totalSamples = 0 then .error (ascii "no audio data in " ++ path) else .ok info

def khzOf (msps : ℚ) : Nat := ⌊toDouble (msps * 1000)⌋.toNat

def rawOpenWav (path : Text) (file : List UInt8) : Except Text RawInfo :=
  match parseWav file false with
  | .error message => .error message
  | .ok wav =>
    withSamples path {
      format := .wav
      bits := wav.bits
      dataOffset := wav.dataOffset
      dataBytes := wav.dataBytes
      totalSamples := wav.dataBytes / (wav.bits / 8)
      realSampleRateHz := if isAudioSampleRate wav.rate ∨ 1000000 < wav.rate then wav.rate
        else wav.rate * 1000
      sampleRate := wav.rate }

def rawOpenLds (path : Text) (file : List UInt8) : Except Text RawInfo :=
  let msps := (extractMspsHint path).getD 40
  withSamples path {
    format := .lds
    bits := 10
    dataOffset := 0
    dataBytes := file.length
    totalSamples := file.length / 5 * 4
    realSampleRateHz := toDouble (msps * 1000000)
    sampleRate := khzOf msps }

def rawBits : Format → Nat
  | .u8 | .s8 => 8
  | _ => 16

def rawKind : Format → Text
  | .u8 => ascii "u8"
  | .s8 => ascii "s8"
  | .u16 => ascii "u16"
  | _ => ascii "s16"

/-- `gui_playback_raw_open` on a file that can be read. -/
def rawOpen (path : Text) (format : Format) (file : List UInt8) : Except Text RawInfo :=
  match format with
  | .wav => rawOpenWav path file
  | .lds => rawOpenLds path file
  | format => match extractMspsHint path with
    | none => .error (ascii "raw " ++ rawKind format ++
        ascii " audio has no header, so the sample rate is unknowable: rename the file " ++
        ascii "with the rate (e.g. ..._8-bit_20msps.u8) - the <n>msps hint is required")
    | some msps => withSamples path {
        format
        bits := rawBits format
        dataOffset := 0
        dataBytes := file.length
        totalSamples := file.length / (rawBits format / 8)
        realSampleRateHz := toDouble (msps * 1000000)
        sampleRate := khzOf msps }

end MisrcGui.Playback.RawOpen
