import Mathlib.Data.Fin.VecNotation
import MisrcGui.Library.NumberText
import MisrcGui.Library.Percent

/-! The file names of a recording (`gui_record_apply_auto_names`). Rates are whole kHz. -/
namespace MisrcGui.Record.AutoNames
open Library NumberText
open Library.Percent (ascii)

scoped instance neZero2 : NeZero 2 := ⟨by decide⟩
scoped instance neZero4 : NeZero 4 := ⟨by decide⟩

abbrev Text := List UInt8

def maxFilenameLen : Nat := 256

def underscore : UInt8 := 95

def dash : UInt8 := 45

structure Channel where
  capture : Bool
  bits : Nat
  enableResample : Bool
  resampleKhz : Nat
  tag : Text

structure AudioOutput where
  enabled : Bool
  tag : Text

structure Settings where
  outputBaseName : Text
  appendTimestamp : Bool
  useFlac : Bool
  channel : Fin 2 → Channel
  audio4 : AudioOutput
  audio12 : AudioOutput
  audio34 : AudioOutput
  audio1 : Fin 4 → AudioOutput

/-- The local time in its fields: year, month, day, hour, minute, second. -/
structure Clock where
  year : Nat
  month : Nat
  day : Nat
  hour : Nat
  minute : Nat
  second : Nat

/-- `%0nd`. -/
def padded (width n : Nat) : Text :=
  List.replicate (width - (decimal n).length) zero ++ decimal n

/-- `gui_record_build_system_timestamp`; empty without a clock. -/
def buildSystemTimestamp : Option Clock → Text
  | none => []
  | some t => padded 4 t.year ++ point :: padded 2 t.month ++ point :: padded 2 t.day ++
      underscore :: padded 2 t.hour ++ point :: padded 2 t.minute ++ point :: padded 2 t.second

def clampRfBitsFlac (bits : Nat) : Nat := if bits = 8 ∨ bits = 12 ∨ bits = 16 then bits else 16

def rfBitsForRaw (requested : Nat) : Nat := if requested = 8 then 8 else 16

def rawExtForBits (bits : Nat) (directNative : Bool) : Text :=
  if directNative then (if bits = 8 then ascii "u8" else ascii "u16")
  else if bits = 8 then ascii "s8" else ascii "s16"

/-- A rate in MHz, as the double the division by 1000 gives. -/
def mspsOf (khz : Nat) : ℚ := toDouble (khz / 1000)

/-- `%.1f` in tenths. -/
def tenths (khz : Nat) : Nat := (roundEven (10 * mspsOf khz)).toNat

/-- `format_msps_from_khz`: a whole number where the fraction is below a millionth. -/
def formatMspsFromKhz (khz : Nat) : Text :=
  if mspsOf khz - ⌊mspsOf khz⌋ < toDouble (1 / 1000000) then
    decimal ⌊mspsOf khz⌋.toNat ++ ascii "msps"
  else decimal (tenths khz / 10) ++ point :: decimal (tenths khz % 10) ++ ascii "msps"

def tagByte (c : UInt8) : Bool := Percent.unreserved c || 128 ≤ c

def sanitizeLoop : Nat → Text → Text × Text
  | _, [] => ([], [])
  | 0, c :: src => ([], c :: src)
  | room + 1, c :: src =>
    if tagByte c then
      let rest := sanitizeLoop room src
      (c :: rest.1, rest.2)
    else if c = 32 ∨ c = 9 then
      let rest := sanitizeLoop room src
      (dash :: rest.1, rest.2)
    else sanitizeLoop (room + 1) src

def continuation (c : UInt8) : Bool := c &&& 0xc0 == 0x80

def dropPartial (text : Text) : Text :=
  match text.reverse.dropWhile continuation with
  | [] => []
  | c :: rest => if 0xc0 ≤ c then rest.reverse else (c :: rest).reverse

/-- `sanitize_tag` into a buffer of 40 bytes. -/
def sanitizeTag (src : Text) : Text :=
  let (kept, left) := sanitizeLoop 39 src
  let whole := match left with
    | [] => kept
    | c :: _ => if continuation c then dropPartial kept else kept
  (whole.reverse.dropWhile (· = dash)).reverse

def baseName (s : Settings) (clock : Option Clock) : Text :=
  let base := if s.outputBaseName = [] then ascii "capture" else s.outputBaseName
  if s.appendTimestamp ∧ buildSystemTimestamp clock ≠ [] then
    (base ++ underscore :: buildSystemTimestamp clock).take (maxFilenameLen + 31)
  else base

/-- `gui_record_format_name` for an output: a name that does not fit fails where it is used. -/
def formatName (used : Bool) (text : Text) : Option Text :=
  if text.length < maxFilenameLen then some text else if used then none else some []

def letter (i : Fin 2) : Text := if i = 0 then ascii "rfA" else ascii "rfB"

def rateTag (c : Channel) : Text := if c.enableResample then formatMspsFromKhz c.resampleKhz else []

/-- The name of an RF file, by which of its optional parts are there. -/
def rfName (i : Fin 2) (base tag rate ext : Text) (bits : Nat) : Text :=
  let front := if tag ≠ [] then base ++ underscore :: tag else letter i ++ underscore :: base
  let middle := front ++ underscore :: (decimal bits ++ ascii "-bit")
  (if rate ≠ [] then middle ++ underscore :: rate else middle) ++ point :: ext

def rfNameOf (s : Settings) (base : Text) (direct : Fin 2 → Bool) (i : Fin 2) : Text :=
  let c := s.channel i
  if s.useFlac then
    rfName i base (sanitizeTag c.tag) (rateTag c) (ascii "flac") (clampRfBitsFlac c.bits)
  else
    rfName i base (sanitizeTag c.tag) (rateTag c) (rawExtForBits (rfBitsForRaw c.bits) (direct i))
      (rfBitsForRaw c.bits)

def audioName (base : Text) (a : AudioOutput) (suffix : Text) : Option Text :=
  let tag := sanitizeTag a.tag
  formatName a.enabled (if tag ≠ [] then base ++ underscore :: tag ++ underscore :: suffix
    else base ++ underscore :: suffix)

structure Names where
  rf : Fin 2 → Text
  audio4 : Text
  audio12 : Text
  audio34 : Text
  audio1 : Fin 4 → Text

/-- `gui_record_direct_channel_eligible`: `available` is what the device and the local save
proxy say, with a running CXADC capture of the width asked for. -/
def directChannelEligible (s : Settings) (available : Fin 2 → Bool) (i : Fin 2) : Bool :=
  !s.useFlac && (s.channel i).capture && !(s.channel i).enableResample && available i

/-- `gui_record_apply_auto_names` with auto naming on. -/
def applyAutoNames (s : Settings) (clock : Option Clock) (available : Fin 2 → Bool) :
    Option Names := do
  let base := baseName s clock
  let rf := rfNameOf s base (directChannelEligible s available)
  let a ← formatName (s.channel 0).capture (rf 0)
  let b ← formatName (s.channel 1).capture (rf 1)
  let audio4 ← audioName base s.audio4 (ascii "quad_4ch.wav")
  let audio12 ← audioName base s.audio12 (ascii "stereo_ch1_ch2.wav")
  let audio34 ← audioName base s.audio34 (ascii "stereo_ch3_ch4.wav")
  let one (i : Fin 4) : Option Text :=
    audioName base (s.audio1 i) (ascii "audio_ch" ++ decimal (i.val + 1) ++ ascii ".wav")
  let ch1 ← one 0
  let ch2 ← one 1
  let ch3 ← one 2
  let ch4 ← one 3
  return ⟨![a, b], audio4, audio12, audio34, ![ch1, ch2, ch3, ch4]⟩

/-- The rate in kHz at which the raw writer stores a channel: what `raw_writer_thread` and
`ensure_soxr` resample to, else the rate of the capture, by default 40 MHz. -/
def writtenKhz (captureKhz : Nat) (c : Channel) : Nat :=
  let capture := if captureKhz = 0 then 40000 else captureKhz
  if c.enableResample ∧ 0 < c.resampleKhz ∧ c.resampleKhz < 40000 ∧ c.resampleKhz < capture then
    c.resampleKhz
  else capture

end MisrcGui.Record.AutoNames
