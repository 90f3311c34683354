import Mathlib.Data.List.GetD
import Mathlib.Tactic.IntervalCases
import MisrcGui.Library.Terminated
import MisrcGui.Playback.FrameHeader

/-! The grammar of FLAC frame headers, against which `gui_playback_parse_frame_header` is held.
Two kinds of headers are kept that only one side takes: those of 32-bit samples, and those whose
number has eight bytes. -/
namespace MisrcGui.Playback.HeaderGrammar
open Library.Layout Library.Terminated Ogg

/-! The checksum: a remainder by `x^8 + x^2 + x + 1`, bit by bit. -/

def shiftOut (crc : UInt8) : UInt8 :=
  if crc &&& 0x80 ≠ 0 then crc <<< 1 ^^^ 0x07 else crc <<< 1

def checksum (data : List UInt8) : UInt8 :=
  data.foldl (fun crc byte => shiftOut^[8] (crc ^^^ byte)) 0

theorem crc8Table_eq (byte : UInt8) : crc8Table.getD byte.toNat 0 = shiftOut^[8] byte := by
  have table : crc8Table.toList =
      (List.range 256).map fun small => shiftOut^[8] (UInt8.ofNat small) := by
    decide +kernel
  have entry := congrArg (fun entries => entries[byte.toNat]?) table
  simp only [Array.getElem?_toList, List.getElem?_map, List.getElem?_range byte.toNat_lt,
    Option.map_some, UInt8.ofNat_toNat] at entry
  rw [Array.getD_eq_getD_getElem?, entry, Option.getD_some]

theorem crc8_eq (data : List UInt8) : crc8 data = checksum data := by
  have step : (fun (crc byte : UInt8) => crc8Table.getD (crc ^^^ byte).toNat 0) =
      fun crc byte => shiftOut^[8] (crc ^^^ byte) := by
    funext crc byte
    exact crc8Table_eq _
  rw [crc8, checksum, step]

/-! Coded numbers: the first byte has as many ones as there are bytes, and a zero behind them. -/

structure Coded where
  bits : Nat
  digits : List (Fin 64)
  few : digits.length ≤ 7
  bits_lt : bits < if digits.length = 0 then 128 else 2 ^ (6 - digits.length)

def digitByte (digit : Fin 64) : UInt8 := UInt8.ofNat (0x80 + digit.val)

def leadByte (count bits : Nat) : UInt8 :=
  UInt8.ofNat (if count = 0 then bits else 256 - 2 ^ (7 - count) + bits)

namespace Coded
variable (coded : Coded)

def value : Nat := coded.digits.foldl (fun value digit => value * 64 + digit.val) coded.bits

def bytes : List UInt8 :=
  leadByte coded.digits.length coded.bits :: coded.digits.map digitByte

@[simp] theorem length_bytes : coded.bytes.length = 1 + coded.digits.length := by
  rw [bytes, List.length_cons, List.length_map, Nat.add_comm]

theorem digits_value (digits : List (Fin 64)) (value : Nat) :
    (digits.map digitByte).foldl (fun value byte => value * 64 + (byte &&& 0x3F).toNat) value =
      digits.foldl (fun value digit => value * 64 + digit.val) value := by
  induction digits generalizing value with
  | nil => rfl
  | cons digit digits ih =>
    have low : (digitByte digit &&& 0x3F).toNat = digit.val := (continuation_byte digit).2
    rw [List.map_cons, List.foldl_cons, List.foldl_cons, low, ih]

theorem digits_marked (digits : List (Fin 64)) :
    ((digits.map digitByte).any fun byte => byte &&& 0xC0 ≠ 0x80) = false := by
  induction digits with
  | nil => rfl
  | cons digit digits ih =>
    have marked : digitByte digit &&& 0xC0 = 0x80 := (continuation_byte digit).1
    rw [List.map_cons, List.any_cons, ih, Bool.or_false]
    simpa using marked

theorem marked_digit (byte : UInt8) (marked : byte &&& 0xC0 = 0x80) :
    ∃ digit, byte = digitByte digit := by
  have all : ∀ small : Fin 256, UInt8.ofNat small.val &&& 0xC0 = 0x80 →
      ∃ digit, UInt8.ofNat small.val = digitByte digit := by
    decide +kernel
  have digit := all ⟨byte.toNat, byte.toNat_lt⟩
  rw [UInt8.ofNat_toNat] at digit
  exact digit marked

theorem marked_digits {bytes : List UInt8}
    (marked : (bytes.any fun byte => byte &&& 0xC0 ≠ 0x80) = false) :
    ∃ digits : List (Fin 64), bytes = digits.map digitByte := by
  induction bytes with
  | nil => exact ⟨[], rfl⟩
  | cons byte bytes ih =>
    rw [List.any_cons, Bool.or_eq_false_iff] at marked
    obtain ⟨digit, first⟩ := marked_digit byte (by simpa using marked.1)
    obtain ⟨digits, rest⟩ := ih marked.2
    exact ⟨digit :: digits, by rw [first, rest, List.map_cons]⟩

theorem leadingOnes_classified (first : UInt8) :
    (leadingOnes first 8 0 0x7F 0x80).1 = 1 ∨
      (leadingOnes first 8 0 0x7F 0x80).1 ≤ 8 ∧
        first = leadByte ((leadingOnes first 8 0 0x7F 0x80).1 - 1)
          (first &&& (leadingOnes first 8 0 0x7F 0x80).2).toNat ∧
        (first &&& (leadingOnes first 8 0 0x7F 0x80).2).toNat <
          if (leadingOnes first 8 0 0x7F 0x80).1 - 1 = 0 then 128
          else 2 ^ (6 - ((leadingOnes first 8 0 0x7F 0x80).1 - 1)) := by
  have all : ∀ small : Fin 256,
      (leadingOnes (UInt8.ofNat small.val) 8 0 0x7F 0x80).1 = 1 ∨
        (leadingOnes (UInt8.ofNat small.val) 8 0 0x7F 0x80).1 ≤ 8 ∧
          UInt8.ofNat small.val =
            leadByte ((leadingOnes (UInt8.ofNat small.val) 8 0 0x7F 0x80).1 - 1)
              (UInt8.ofNat small.val &&&
                (leadingOnes (UInt8.ofNat small.val) 8 0 0x7F 0x80).2).toNat ∧
          (UInt8.ofNat small.val &&&
              (leadingOnes (UInt8.ofNat small.val) 8 0 0x7F 0x80).2).toNat <
            if (leadingOnes (UInt8.ofNat small.val) 8 0 0x7F 0x80).1 - 1 = 0 then 128
            else 2 ^ (6 - ((leadingOnes (UInt8.ofNat small.val) 8 0 0x7F 0x80).1 - 1)) := by
    decide +kernel
  have one := all ⟨first.toNat, first.toNat_lt⟩
  rwa [UInt8.ofNat_toNat] at one

theorem bits_lt_top : coded.bits < 128 := by
  refine Nat.lt_of_lt_of_le coded.bits_lt ?_
  split
  · exact Nat.le_refl 128
  · exact Nat.le_trans (Nat.pow_le_pow_right (by decide) (Nat.sub_le 6 _)) (by decide)

theorem leadingOnes_leadByte :
    (leadingOnes (leadByte coded.digits.length coded.bits) 8 0 0x7F 0x80).1 ≠ 1 ∧
      (leadingOnes (leadByte coded.digits.length coded.bits) 8 0 0x7F 0x80).1 - 1 =
        coded.digits.length ∧
      (leadByte coded.digits.length coded.bits &&&
        (leadingOnes (leadByte coded.digits.length coded.bits) 8 0 0x7F 0x80).2).toNat =
          coded.bits := by
  have all : ∀ (count : Fin 8) (bits : Fin 128),
      bits.val < (if count.val = 0 then 128 else 2 ^ (6 - count.val)) →
      (leadingOnes (leadByte count.val bits.val) 8 0 0x7F 0x80).1 ≠ 1 ∧
        (leadingOnes (leadByte count.val bits.val) 8 0 0x7F 0x80).1 - 1 = count.val ∧
        (leadByte count.val bits.val &&&
          (leadingOnes (leadByte count.val bits.val) 8 0 0x7F 0x80).2).toNat = bits.val := by
    decide +kernel
  exact all ⟨coded.digits.length, Nat.lt_succ_of_le coded.few⟩ ⟨coded.bits, coded.bits_lt_top⟩
    coded.bits_lt

theorem read (rest : List UInt8) :
    readUtf8Coded (coded.bytes ++ rest) = some (coded.value, coded.bytes.length) := by
  obtain ⟨other, count, bits⟩ := coded.leadingOnes_leadByte
  have width : (coded.digits.map digitByte).length = coded.digits.length := List.length_map _
  rw [bytes, List.cons_append, readUtf8Coded]
  simp only
  rw [if_neg other, count, if_neg, List.take_left' width, digits_marked, if_neg Bool.false_ne_true,
    digits_value, bits, List.length_cons, width, Nat.add_comm]
  · rfl
  · rw [List.length_append, width]
    omega

theorem of_read {w : List UInt8} {value width : Nat}
    (h : readUtf8Coded w = some (value, width)) :
    ∃ (coded : Coded) (rest : List UInt8),
      w = coded.bytes ++ rest ∧ value = coded.value ∧ width = coded.bytes.length := by
  cases w with
  | nil => cases h
  | cons first rest =>
    have kind := leadingOnes_classified first
    unfold readUtf8Coded at h
    simp only at h
    generalize leadingOnes first 8 0 0x7F 0x80 = loop at kind h
    obtain ⟨ones, mask⟩ := loop
    simp only at kind h
    split at h
    · cases h
    rename_i other
    obtain ⟨most, lead, small⟩ := kind.resolve_left other
    split at h
    · cases h
    rename_i long
    split at h
    · cases h
    rename_i marked
    obtain ⟨digits, digits_eq⟩ := marked_digits (by simpa using marked)
    have count := congrArg List.length digits_eq
    rw [List.length_take, List.length_map, Nat.min_eq_left (by omega)] at count
    rw [digits_eq, digits_value] at h
    rw [count] at lead small
    have shown := Prod.mk.inj (Option.some.inj h)
    refine ⟨⟨(first &&& mask).toNat, digits, by omega, small⟩, rest.drop digits.length, ?_,
      shown.1.symm, ?_⟩
    · rw [bytes, List.cons_append, ← lead, ← digits_eq, count, List.take_append_drop]
    · exact shown.2.symm.trans (by rw [length_bytes, count])

end Coded

inductive SampleRate where
  | listed (code : Fin 12)
  | kilo (kHz : UInt8)
  | word (inTens : Bool) (high low : UInt8)

namespace SampleRate

def code : SampleRate → Fin 15
  | listed code => code.castLE (by decide)
  | kilo _ => 12
  | word inTens _ _ => if inTens then 14 else 13

def bytes : SampleRate → List UInt8
  | listed _ => []
  | kilo kHz => [kHz]
  | word _ high low => [high, low]

theorem read (rate : SampleRate) : sampleRateBytes rate.code.val = some rate.bytes.length := by
  cases rate with
  | listed code =>
    revert code
    decide
  | kilo kHz => rfl
  | word inTens high low => cases inTens <;> rfl

theorem of_read {code : Nat} {bytes : List UInt8} (small : code < 16)
    (h : sampleRateBytes code = some bytes.length) :
    ∃ rate : SampleRate, rate.code.val = code ∧ rate.bytes = bytes := by
  unfold sampleRateBytes at h
  split at h
  · rename_i kilo
    obtain ⟨kHz, rfl⟩ := List.length_eq_one_iff.mp (Option.some.inj h).symm
    exact ⟨.kilo kHz, kilo.symm, rfl⟩
  split at h
  · rename_i word
    obtain ⟨high, low, rfl⟩ := List.length_eq_two.mp (Option.some.inj h).symm
    rcases Bool.or_eq_true _ _ ▸ word with single | tens
    · exact ⟨.word false high low, (of_decide_eq_true single).symm, rfl⟩
    · exact ⟨.word true high low, (of_decide_eq_true tens).symm, rfl⟩
  split at h
  · cases h
  · rename_i other words last
    rw [List.length_eq_zero_iff.mp (Option.some.inj h).symm]
    simp only [Bool.or_eq_true, decide_eq_true_eq] at words
    exact ⟨.listed ⟨code, by omega⟩, rfl, rfl⟩

end SampleRate

theorem blockSize_of_read {code fixed samples : Nat} {bytes : List UInt8} (small : code < 16)
    (width : blockSizeCode code = some (fixed, bytes.length))
    (h : blockSizeBytes fixed bytes = some samples) :
    ∃ size : BlockSize, size.code.val = code ∧ size.bytes = bytes := by
  unfold blockSizeCode at width
  split at width
  · cases width
  split at width
  · rename_i listed
    have none := List.length_eq_zero_iff.mp (Prod.mk.inj (Option.some.inj width)).2.symm
    exact ⟨.table192, listed.symm, none.symm⟩
  split at width
  · rename_i zero one few
    have none := List.length_eq_zero_iff.mp (Prod.mk.inj (Option.some.inj width)).2.symm
    have place : 2 + (code - 2) = code := by omega
    exact ⟨.table576 ⟨code - 2, by omega⟩, place, none.symm⟩
  split at width
  · rename_i byte
    obtain ⟨lessOne, rfl⟩ :=
      List.length_eq_one_iff.mp (Prod.mk.inj (Option.some.inj width)).2.symm
    exact ⟨.byte lessOne, byte.symm, rfl⟩
  split at width
  · rename_i word
    obtain ⟨high, low, rfl⟩ :=
      List.length_eq_two.mp (Prod.mk.inj (Option.some.inj width)).2.symm
    unfold blockSizeBytes at h
    simp only at h
    split at h
    · cases h
    · rename_i size_ne
      exact ⟨.word high low size_ne, word.symm, rfl⟩
  · have none := List.length_eq_zero_iff.mp (Prod.mk.inj (Option.some.inj width)).2.symm
    have place : 8 + (code - 8) = code := by omega
    exact ⟨.table256 ⟨code - 8, by omega⟩, place, none.symm⟩

structure Header where
  isVariable : Bool
  size : BlockSize
  rate : SampleRate
  channels : Fin 11
  sampleSize : Fin 8
  defined : sampleSize ≠ 3
  number : Coded

namespace Header
variable (header : Header)

def fixedBytes : List UInt8 :=
  [0xFF, if header.isVariable then 0xF9 else 0xF8,
    UInt8.ofNat (header.size.code.val * 16 + header.rate.code.val),
    UInt8.ofNat (header.channels.val * 16 + header.sampleSize.val * 2)]

def covered : List UInt8 :=
  header.fixedBytes ++ (header.number.bytes ++ (header.size.bytes ++ header.rate.bytes))

def encode : List UInt8 := header.covered ++ [checksum header.covered]

def result : FrameHeader where
  blockSize := header.size.samples
  headerLen := header.encode.length
  number := header.number.value
  isVariable := header.isVariable

/-- The number has at most 36 bits: it begins with seven ones and a zero at the most. -/
def InGrammar : Prop := header.number.digits.length ≤ 6

/-- Samples of 32 bits are the ones that the code does not know. -/
def Taken : Prop := header.sampleSize ≠ 7

theorem length_covered : header.covered.length =
    4 + header.number.bytes.length + header.size.bytes.length + header.rate.bytes.length := by
  simp [covered, fixedBytes]
  omega

theorem length_encode : header.encode.length = header.covered.length + 1 := by
  rw [encode, List.length_append, List.length_singleton]

theorem channels_byte (channels : Fin 11) (sampleSize : Fin 8) (defined : sampleSize ≠ 3) :
    UInt8.ofNat (channels.val * 16 + sampleSize.val * 2) >>> 4 < 0xB ∧
      ((UInt8.ofNat (channels.val * 16 + sampleSize.val * 2) &&& 0x0E) >>> 1 ∈ sampleSizeCodes ↔
        sampleSize ≠ 7) ∧
      UInt8.ofNat (channels.val * 16 + sampleSize.val * 2) &&& 0x01 = 0 := by
  revert channels sampleSize
  decide +kernel

theorem fixed_shown (body : List UInt8) :
    (header.encode ++ body).getD 0 0 = 0xFF ∧
      (header.encode ++ body).getD 1 0 = (if header.isVariable then 0xF9 else 0xF8) ∧
      (header.encode ++ body).getD 2 0 =
        UInt8.ofNat (header.size.code.val * 16 + header.rate.code.val) ∧
      (header.encode ++ body).getD 3 0 =
        UInt8.ofNat (header.channels.val * 16 + header.sampleSize.val * 2) ∧
      (header.encode ++ body).getD 4 0 =
        leadByte header.number.digits.length header.number.bits := by
  have split : header.encode ++ body = header.fixedBytes ++ (header.number.bytes ++
      (header.size.bytes ++ (header.rate.bytes ++ ([checksum header.covered] ++ body)))) := by
    simp [encode, covered]
  rw [split]
  exact ⟨rfl, rfl, rfl, rfl, rfl⟩

theorem number_shown (body : List UInt8) :
    readUtf8Coded ((header.encode ++ body).drop 4) =
      some (header.number.value, header.number.bytes.length) := by
  have tail : (header.encode ++ body).drop 4 = header.number.bytes ++
      (header.size.bytes ++ (header.rate.bytes ++ ([checksum header.covered] ++ body))) := by
    simp [encode, covered, fixedBytes]
  rw [tail, header.number.read]

theorem sizeBytes_shown (body : List UInt8) :
    field (header.encode ++ body) (4 + header.number.bytes.length)
      header.size.bytes.length = header.size.bytes := by
  have layout := cut_flatten header.fixedBytes [header.number.bytes, header.size.bytes,
    header.rate.bytes ++ ([checksum header.covered] ++ body)]
  have whole : header.fixedBytes ++ [header.number.bytes, header.size.bytes,
      header.rate.bytes ++ ([checksum header.covered] ++ body)].flatten =
        header.encode ++ body := by
    simp [encode, covered]
  rw [whole] at layout
  simp only [List.map_cons, List.map_nil, cut, List.cons.injEq] at layout
  exact layout.2.1

theorem checksum_shown (body : List UInt8) :
    crc8 ((header.encode ++ body).take header.covered.length) =
      (header.encode ++ body).getD header.covered.length 0 := by
  rw [crc8_eq, encode, List.append_assoc, List.take_left]
  simp

/-- A header is accepted unless its samples have 32 bits, whatever the frame holds. -/
theorem parse_encode (body : List UInt8) : parseFrameHeader (header.encode ++ body) =
    if header.sampleSize = 7 then none else some header.result := by
  obtain ⟨fixed, sizeCode, size⟩ := header.size.read
  obtain ⟨codeHigh, codeLow⟩ := codes_byte header.size.code header.rate.code
  obtain ⟨channels, sampleSize, reserved⟩ :=
    channels_byte header.channels header.sampleSize header.defined
  obtain ⟨first, second, third, fourth, _⟩ := header.fixed_shown body
  have checked := header.checksum_shown body
  have number := header.number_shown body
  have sizeField := header.sizeBytes_shown body
  have length := header.length_covered
  have total := header.length_encode
  have bytes : (header.encode ++ body).length = header.encode.length + body.length :=
    List.length_append
  have rate := header.rate.read
  rw [length] at checked
  unfold parseFrameHeader
  generalize header.encode ++ body = w at *
  have long : 4 ≤ w.length := by omega
  rw [first, second, third, fourth]
  by_cases known : header.sampleSize = 7
  · rw [if_pos known]
    have unknown : ¬(UInt8.ofNat (header.channels.val * 16 + header.sampleSize.val * 2) &&& 0x0E)
        >>> 1 ∈ sampleSizeCodes := fun listed => sampleSize.mp listed known
    simp only [codeHigh, codeLow, sizeCode, rate, channels, unknown, long, guard, if_true,
      if_false, Option.pure_def, Option.bind_eq_bind, Option.bind_some]
    cases header.isVariable <;> rfl
  · rw [if_neg known]
    have sizeInside : 4 + header.number.bytes.length + header.size.bytes.length ≤ w.length := by
      omega
    have crcInside : 4 + header.number.bytes.length + header.size.bytes.length +
        header.rate.bytes.length + 1 ≤ w.length := by
      omega
    have listed := sampleSize.mpr known
    simp only [codeHigh, codeLow, sizeCode, rate, number, channels, reserved, sizeField, listed,
      size, checked, long, sizeInside, crcInside, guard, if_true, result, total, length,
      Option.pure_def, Option.bind_eq_bind, Option.bind_some]
    cases header.isVariable <;> rfl

theorem sync_bytes (high low : UInt8)
    (sync : (high.toUInt16 <<< 8 ||| low.toUInt16) &&& 0xFFFE = 0xFFF8) :
    high = 0xFF ∧ (low = 0xF8 ∨ low = 0xF9) := by
  have joined : (high.toUInt16 <<< 8 ||| low.toUInt16).toNat = high.toNat * 2 ^ 8 + low.toNat := by
    have small := high.toNat_lt
    have whole : high.toNat <<< 8 % 2 ^ 16 = high.toNat <<< 8 :=
      Nat.mod_eq_of_lt (by rw [Nat.shiftLeft_eq]; omega)
    have shifted : (high.toUInt16 <<< 8).toNat = high.toNat <<< 8 % 2 ^ 16 := by
      rw [UInt16.toNat_shiftLeft, UInt8.toNat_toUInt16]
      rfl
    rw [UInt16.toNat_or, shifted, whole, UInt8.toNat_toUInt16,
      ← Nat.shiftLeft_add_eq_or_of_lt low.toNat_lt, Nat.shiftLeft_eq]
  have value := congrArg UInt16.toNat sync
  rw [UInt16.toNat_and, joined] at value
  have upper := congrArg (· / 2 ^ 8) value
  have lower := congrArg (· % 2 ^ 8) value
  have bound := low.toNat_lt
  have first : (high.toNat * 2 ^ 8 + low.toNat) / 2 ^ 8 = high.toNat := by omega
  have second : (high.toNat * 2 ^ 8 + low.toNat) % 2 ^ 8 = low.toNat := by omega
  simp only [Nat.and_div_two_pow, Nat.and_mod_two_pow, first, second] at upper lower
  have highs : ∀ small : Fin 256,
      small.val &&& UInt16.toNat 0xFFFE / 2 ^ 8 = UInt16.toNat 0xFFF8 / 2 ^ 8 →
        UInt8.ofNat small.val = 0xFF := by
    decide +kernel
  have lows : ∀ small : Fin 256,
      small.val &&& UInt16.toNat 0xFFFE % 2 ^ 8 = UInt16.toNat 0xFFF8 % 2 ^ 8 →
        UInt8.ofNat small.val = 0xF8 ∨ UInt8.ofNat small.val = 0xF9 := by
    decide +kernel
  have one := highs ⟨high.toNat, high.toNat_lt⟩ upper
  have two := lows ⟨low.toNat, low.toNat_lt⟩ lower
  rw [UInt8.ofNat_toNat] at one two
  exact ⟨one, two⟩

theorem codes_of_byte (byte : UInt8) :
    byte = UInt8.ofNat ((byte >>> 4).toNat * 16 + (byte &&& 0x0F).toNat) ∧
      (byte >>> 4).toNat < 16 ∧ (byte &&& 0x0F).toNat < 16 := by
  have all : ∀ small : Fin 256, UInt8.ofNat small.val =
        UInt8.ofNat ((UInt8.ofNat small.val >>> 4).toNat * 16 +
          (UInt8.ofNat small.val &&& 0x0F).toNat) ∧
      (UInt8.ofNat small.val >>> 4).toNat < 16 ∧ (UInt8.ofNat small.val &&& 0x0F).toNat < 16 := by
    decide +kernel
  have one := all ⟨byte.toNat, byte.toNat_lt⟩
  rwa [UInt8.ofNat_toNat] at one

theorem channels_of_byte (byte : UInt8) (channels : byte >>> 4 < 0xB)
    (listed : (byte &&& 0x0E) >>> 1 ∈ sampleSizeCodes) (reserved : byte &&& 0x01 = 0) :
    ∃ (channels : Fin 11) (sampleSize : Fin 8), sampleSize ≠ 3 ∧
      byte = UInt8.ofNat (channels.val * 16 + sampleSize.val * 2) := by
  have all : ∀ small : Fin 256, UInt8.ofNat small.val &&& 0x01 = 0 →
      ((UInt8.ofNat small.val &&& 0x0E) >>> 1).toNat < 8 ∧
      UInt8.ofNat small.val = UInt8.ofNat ((UInt8.ofNat small.val >>> 4).toNat * 16 +
        ((UInt8.ofNat small.val &&& 0x0E) >>> 1).toNat * 2) := by
    decide +kernel
  have one := all ⟨byte.toNat, byte.toNat_lt⟩
  rw [UInt8.ofNat_toNat] at one
  obtain ⟨narrow, spelled⟩ := one reserved
  refine ⟨⟨(byte >>> 4).toNat, channels⟩, ⟨((byte &&& 0x0E) >>> 1).toNat, narrow⟩, ?_, spelled⟩
  intro undefined
  have value : ((byte &&& 0x0E) >>> 1).toNat = (3 : Fin 8).val := congrArg Fin.val undefined
  have three : (byte &&& 0x0E) >>> 1 = 3 := by
    apply UInt8.toNat_inj.mp
    exact value
  rw [three] at listed
  exact absurd listed (by decide)

theorem exists_append (bytes : List UInt8) (count : Nat) (inside : count ≤ bytes.length) :
    ∃ front rest : List UInt8, bytes = front ++ rest ∧ front.length = count :=
  ⟨bytes.take count, bytes.drop count, (List.take_append_drop count bytes).symm,
    List.length_take_of_le inside⟩

theorem of_fields {second third fourth last : UInt8} {coded : Coded} {fixed blockSize : Nat}
    {sizeField rateField : List UInt8} (strategy : second = 0xF8 ∨ second = 0xF9)
    (sizeCode : blockSizeCode (third >>> 4).toNat = some (fixed, sizeField.length))
    (sizeRead : blockSizeBytes fixed sizeField = some blockSize)
    (rateCode : sampleRateBytes (third &&& 0x0F).toNat = some rateField.length)
    (channels : fourth >>> 4 < 0xB) (sampleSize : (fourth &&& 0x0E) >>> 1 ∈ sampleSizeCodes)
    (reserved : fourth &&& 0x01 = 0)
    (crc : checksum ([0xFF, second, third, fourth] ++
      (coded.bytes ++ (sizeField ++ rateField))) = last) :
    ∃ header : Header, header.encode =
      [0xFF, second, third, fourth] ++ (coded.bytes ++ (sizeField ++ rateField)) ++ [last] := by
  obtain ⟨third_eq, high, low⟩ := codes_of_byte third
  obtain ⟨size, code, rfl⟩ := blockSize_of_read high sizeCode sizeRead
  obtain ⟨rate, rateCode_eq, rfl⟩ := SampleRate.of_read low rateCode
  obtain ⟨channel, bits, defined, rfl⟩ := channels_of_byte fourth channels sampleSize reserved
  rw [← code, ← rateCode_eq] at third_eq
  refine ⟨⟨decide (second = 0xF9), size, rate, channel, bits, defined, coded⟩, ?_⟩
  have second_eq : (if decide (second = 0xF9) then 0xF9 else 0xF8) = second := by
    rcases strategy with rfl | rfl <;> rfl
  rw [encode, covered, fixedBytes]
  simp only [second_eq, ← third_eq]
  rw [crc]

theorem of_parse {w : List UInt8} {found : FrameHeader} (h : parseFrameHeader w = some found) :
    ∃ (header : Header) (body : List UInt8), w = header.encode ++ body := by
  unfold parseFrameHeader at h
  simp only [Option.bind_eq_bind, Option.bind_eq_some_iff, Option.guard_eq_some', Option.pure_def,
    Option.some.injEq] at h
  obtain ⟨_, long, _, sync, _, _, ⟨fixed, sizeBytes⟩, sizeCode, rateBytes, rateCode, _, channels,
    _, sampleSize, _, reserved, ⟨number, width⟩, numberRead, _, sizeInside, blockSize, sizeRead,
    _, crcInside, _, crc, _⟩ := h
  obtain ⟨start, tail, rfl, startLength⟩ := exists_append w 4 long
  obtain ⟨first, second, third, fourth, rfl⟩ := List.length_eq_four.mp startLength
  rw [List.drop_left' startLength] at numberRead
  obtain ⟨coded, rest, rfl, -, rfl⟩ := Coded.of_read numberRead
  simp only [List.length_append, startLength] at sizeInside crcInside
  obtain ⟨sizeField, rest, rfl, rfl⟩ := exists_append rest sizeBytes (by omega)
  rw [List.length_append] at crcInside
  obtain ⟨rateField, rest, rfl, rfl⟩ := exists_append rest rateBytes (by omega)
  rw [List.length_append] at crcInside
  obtain ⟨stored, body, rfl, storedLength⟩ := exists_append rest 1 (by omega)
  obtain ⟨last, rfl⟩ := List.length_eq_one_iff.mp storedLength
  have sizePlace : ([first, second, third, fourth] ++ coded.bytes).length =
      4 + coded.bytes.length := by
    rw [List.length_append, startLength]
  have crcPlace : ([first, second, third, fourth] ++
      (coded.bytes ++ (sizeField ++ rateField))).length =
        4 + coded.bytes.length + sizeField.length + rateField.length := by
    simp only [List.length_append, startLength]
    omega
  have checked : [first, second, third, fourth] ++
      (coded.bytes ++ (sizeField ++ (rateField ++ ([last] ++ body)))) =
        [first, second, third, fourth] ++ (coded.bytes ++ (sizeField ++ rateField)) ++
          ([last] ++ body) := by
    simp only [List.append_assoc]
  rw [← List.append_assoc _ coded.bytes, field, List.drop_left' sizePlace,
    List.take_left] at sizeRead
  rw [checked, List.take_left' crcPlace, ← crcPlace, crc8_eq, List.getD_append_right _ _ _ _
    (Nat.le_refl _), Nat.sub_self, List.singleton_append, List.getD_cons_zero] at crc
  have shown : ∀ later : List UInt8, ([first, second, third, fourth] ++ later).getD 0 0 = first ∧
      ([first, second, third, fourth] ++ later).getD 1 0 = second ∧
      ([first, second, third, fourth] ++ later).getD 2 0 = third ∧
      ([first, second, third, fourth] ++ later).getD 3 0 = fourth := fun _ => ⟨rfl, rfl, rfl, rfl⟩
  rw [(shown _).1, (shown _).2.1] at sync
  rw [(shown _).2.2.1] at sizeCode rateCode
  rw [(shown _).2.2.2] at channels sampleSize reserved
  obtain ⟨rfl, strategy⟩ := sync_bytes first second sync
  obtain ⟨header, encoded⟩ :=
    of_fields strategy sizeCode sizeRead rateCode channels sampleSize reserved crc
  exact ⟨header, body, by simp only [encoded, List.append_assoc]⟩

end Header

def byteAt (w : List UInt8) (i : Nat) : Checked UInt8 :=
  match w[i]? with
  | some byte => .ok byte
  | none => .error .read

def bytesAt (w : List UInt8) : Nat → Nat → Checked (List UInt8)
  | _, 0 => return []
  | i, count + 1 => do
    let byte ← byteAt w i
    return byte :: (← bytesAt w (i + 1) count)

def continuationAt (w : List UInt8) : Nat → Nat → Nat → Checked (Option Nat)
  | _, 0, value => return some value
  | i, count + 1, value => do
    let byte ← byteAt w i
    if byte &&& 0xC0 ≠ 0x80 then return none
    continuationAt w (i + 1) count (value * 64 + (byte &&& 0x3F).toNat)

def readUtf8CodedAt (w : List UInt8) (i : Nat) : Checked (Option (Nat × Nat)) := do
  if w.length - i = 0 then return none
  let first ← byteAt w i
  let ones := (leadingOnes first 8 0 0x7F 0x80).1
  let maskData := (leadingOnes first 8 0 0x7F 0x80).2
  if ones = 1 then return none
  let additional := ones - 1
  if w.length - i < 1 + additional then return none
  let value ← continuationAt w (i + 1) additional (first &&& maskData).toNat
  return value.map fun value => (value, 1 + additional)

def parseFrameHeaderIn (w : List UInt8) : Checked (Option FrameHeader) := do
  if w.length < 4 then return none
  let sync := (← byteAt w 0).toUInt16 <<< 8 ||| (← byteAt w 1).toUInt16
  if sync &&& 0xFFFE ≠ 0xFFF8 then return none
  if sync &&& 0x0002 ≠ 0 then return none
  let bsSr ← byteAt w 2
  match blockSizeCode (bsSr >>> 4).toNat with
  | none => return none
  | some (fixed, sizeBytes) =>
    match sampleRateBytes (bsSr &&& 0x0F).toNat with
    | none => return none
    | some rateBytes =>
      let chanBpsRes ← byteAt w 3
      if chanBpsRes >>> 4 ≥ 0xB then return none
      if (chanBpsRes &&& 0x0E) >>> 1 ∉ sampleSizeCodes then return none
      if chanBpsRes &&& 0x01 ≠ 0 then return none
      match ← readUtf8CodedAt w 4 with
      | none => return none
      | some (number, utf8Len) =>
        let sizeAt := 4 + utf8Len
        if w.length < sizeAt + sizeBytes then return none
        match blockSizeBytes fixed (← bytesAt w sizeAt sizeBytes) with
        | none => return none
        | some blockSize =>
          let crcAt := sizeAt + sizeBytes + rateBytes
          if w.length < crcAt + 1 then return none
          if crc8 (← bytesAt w 0 crcAt) ≠ (← byteAt w crcAt) then return none
          return some
            { blockSize, headerLen := crcAt + 1, number, isVariable := sync &&& 0x0001 ≠ 0 }

theorem byteAt_eq {w : List UInt8} {i : Nat} (inside : i < w.length) :
    byteAt w i = .ok (w.getD i 0) := by
  rw [byteAt, List.getElem?_eq_getElem inside, List.getD_eq_getElem _ _ inside]

theorem field_succ {w : List UInt8} {i : Nat} (inside : i < w.length) (count : Nat) :
    field w i (count + 1) = w.getD i 0 :: field w (i + 1) count := by
  rw [field, field, List.drop_eq_getElem_cons inside, List.take_succ_cons,
    List.getD_eq_getElem _ _ inside]

theorem bytesAt_eq {w : List UInt8} {i count : Nat} (inside : i + count ≤ w.length) :
    bytesAt w i count = .ok (field w i count) := by
  induction count generalizing i with
  | zero => simp [bytesAt, field, pure_eq_ok]
  | succ count ih =>
    rw [bytesAt, byteAt_eq (by omega), ok_bind, ih (by omega), ok_bind, field_succ (by omega)]
    rfl

theorem continuationAt_eq {w : List UInt8} {i count value : Nat} (inside : i + count ≤ w.length) :
    continuationAt w i count value =
      .ok (if (field w i count).any fun byte => byte &&& 0xC0 ≠ 0x80 then none
        else some ((field w i count).foldl
          (fun value byte => value * 64 + (byte &&& 0x3F).toNat) value)) := by
  induction count generalizing i value with
  | zero => simp [continuationAt, field, pure_eq_ok]
  | succ count ih =>
    rw [continuationAt, byteAt_eq (by omega), ok_bind, ih (by omega), field_succ (by omega),
      List.any_cons, List.foldl_cons]
    by_cases marked : w.getD i 0 &&& 0xC0 = 0x80
    · rw [if_neg (not_not.mpr marked), decide_eq_false (not_not.mpr marked), Bool.false_or]
    · rw [if_pos marked, decide_eq_true marked, Bool.true_or, if_pos rfl]
      rfl

theorem readUtf8CodedAt_eq (w : List UInt8) (i : Nat) :
    readUtf8CodedAt w i = .ok (readUtf8Coded (w.drop i)) := by
  unfold readUtf8CodedAt
  rcases Nat.lt_or_ge i w.length with inside | outside
  · rw [if_neg (by omega), byteAt_eq inside, ok_bind, List.drop_eq_getElem_cons inside,
      List.getD_eq_getElem _ _ inside, readUtf8Coded]
    simp only
    have rest : (w.drop (i + 1)).length = w.length - (i + 1) := List.length_drop
    by_cases alone : (leadingOnes w[i] 8 0 0x7F 0x80).1 = 1
    · rw [if_pos alone, if_pos alone]
      rfl
    rw [if_neg alone, if_neg alone]
    by_cases short : w.length - i < 1 + ((leadingOnes w[i] 8 0 0x7F 0x80).1 - 1)
    · rw [if_pos short, if_pos (by omega)]
      rfl
    rw [if_neg short, if_neg (by omega), continuationAt_eq (by omega), ok_bind, pure_eq_ok, field]
    split <;> rfl
  · rw [if_pos (by omega), List.drop_of_length_le outside]
    rfl

theorem refused_or {A : Type} {refused kept : Prop} [Decidable refused] [Decidable kept]
    (other : refused ↔ ¬kept) {found : Checked (Option A)} {parsed : Option A}
    (same : kept → found = .ok parsed) :
    (if refused then pure none else found) = (.ok do guard kept; parsed : Checked (Option A)) := by
  by_cases holds : kept
  · rw [if_neg fun none => other.mp none holds, same holds, guard, if_pos holds]
    rfl
  · rw [if_pos (other.mpr holds), guard, if_neg holds]
    rfl

theorem parseFrameHeaderIn_eq (w : List UInt8) :
    parseFrameHeaderIn w = .ok (parseFrameHeader w) := by
  unfold parseFrameHeaderIn parseFrameHeader
  refine refused_or (by omega) fun long => ?_
  rw [byteAt_eq (by omega), byteAt_eq (by omega), ok_bind, ok_bind]
  refine refused_or Iff.rfl fun _ => refused_or Iff.rfl fun _ => ?_
  rw [byteAt_eq (by omega), ok_bind]
  dsimp only
  cases blockSizeCode (w.getD 2 0 >>> 4).toNat with
  | none => rfl
  | some sizeCode =>
  dsimp only [Option.bind_eq_bind, Option.bind_some]
  cases sampleRateBytes (w.getD 2 0 &&& 0x0F).toNat with
  | none => rfl
  | some rateBytes =>
  dsimp only [Option.bind_some]
  rw [byteAt_eq (by omega), ok_bind]
  refine refused_or UInt8.not_lt.symm fun _ => refused_or Iff.rfl fun _ =>
    refused_or Iff.rfl fun _ => ?_
  rw [readUtf8CodedAt_eq, ok_bind]
  cases readUtf8Coded (w.drop 4) with
  | none => rfl
  | some numbered =>
  dsimp only [Option.bind_some]
  refine refused_or Nat.not_le.symm fun sizeInside => ?_
  rw [bytesAt_eq sizeInside, ok_bind]
  cases blockSizeBytes sizeCode.1 (field w (4 + numbered.2) sizeCode.2) with
  | none => rfl
  | some blockSize =>
  dsimp only [Option.bind_some]
  refine refused_or Nat.not_le.symm fun crcInside => ?_
  rw [bytesAt_eq (by omega), byteAt_eq (by omega), ok_bind, ok_bind]
  exact refused_or Iff.rfl fun _ => rfl

/-- The code reads inside the buffer only, and finds a header exactly where the grammar has one in
front, with what the grammar says of it. -/
def Exact (w : List UInt8) : Prop :=
  ∃ parsed, parseFrameHeaderIn w = .ok parsed ∧
    ∀ found, parsed = some found ↔ ∃ (header : Header) (body : List UInt8),
      header.InGrammar ∧ w = header.encode ++ body ∧ found = header.result

theorem exact_iff_parse (w : List UInt8) :
    Exact w ↔ ∀ found, parseFrameHeader w = some found ↔
      ∃ (header : Header) (body : List UInt8),
        header.InGrammar ∧ w = header.encode ++ body ∧ found = header.result := by
  unfold Exact
  rw [parseFrameHeaderIn_eq]
  simp

theorem inGrammar_shown {header : Header} {w body : List UInt8}
    (split : w = header.encode ++ body) :
    header.InGrammar ↔ w.getD 4 0 ≠ 0xFF := by
  have all : ∀ (count : Fin 8) (bits : Fin 128),
      bits.val < (if count.val = 0 then 128 else 2 ^ (6 - count.val)) →
      (count.val ≤ 6 ↔ leadByte count.val bits.val ≠ 0xFF) := by
    decide +kernel
  rw [split, (header.fixed_shown body).2.2.2.2]
  exact all ⟨header.number.digits.length, Nat.lt_succ_of_le header.number.few⟩
    ⟨header.number.bits, header.number.bits_lt_top⟩ header.number.bits_lt

theorem taken_shown {header : Header} {w body : List UInt8} (split : w = header.encode ++ body) :
    header.Taken ↔ (parseFrameHeader w).isSome := by
  rw [split, header.parse_encode]
  by_cases known : header.sampleSize = 7 <;> simp [Header.Taken, known]

/-- The parser is exact unless the bytes begin with a header of 32-bit samples, or with one whose
number has eight bytes. -/
theorem parse_exact_iff (w : List UInt8) :
    Exact w ↔ ∀ (header : Header) (body : List UInt8), w = header.encode ++ body →
      (header.Taken ↔ header.InGrammar) := by
  rw [exact_iff_parse]
  constructor
  · intro exact_ header body split
    rw [taken_shown split, Option.isSome_iff_exists]
    constructor
    · rintro ⟨found, parsed⟩
      obtain ⟨other, rest, inside, same, _⟩ := (exact_ found).mp parsed
      rw [inGrammar_shown split, ← inGrammar_shown same]
      exact inside
    · intro inside
      exact ⟨header.result, (exact_ _).mpr ⟨header, body, inside, split, rfl⟩⟩
  · intro alike found
    constructor
    · intro parsed
      obtain ⟨header, body, split⟩ := Header.of_parse parsed
      have taken := (taken_shown split).mpr (by rw [parsed]; rfl)
      have result := header.parse_encode body
      rw [← split, parsed, if_neg taken] at result
      exact ⟨header, body, (alike header body split).mp taken, split, Option.some.inj result⟩
    · rintro ⟨header, body, inside, split, rfl⟩
      have taken := (alike header body split).mpr inside
      rw [split, header.parse_encode, if_neg taken]

def eightBytes : List UInt8 :=
  [0xFF, 0xF8, 0x10, 0x00, 0xFF, 0x80, 0x80, 0x80, 0x80, 0x80, 0x80, 0x80, 0x64]

/-- The first block of a stream of 32-bit samples. -/
def wideSamples : Header where
  isVariable := false
  size := .table192
  rate := .listed 0
  channels := 0
  sampleSize := 7
  defined := by decide
  number := { bits := 0, digits := [], few := by decide, bits_lt := by decide }

theorem headers_confused : ¬Exact eightBytes ∧ ¬Exact wideSamples.encode := by
  rw [exact_iff_parse, exact_iff_parse]
  constructor
  · intro exact_
    have parsed : parseFrameHeader eightBytes = some ⟨192, 13, 0, false⟩ := by decide +kernel
    obtain ⟨header, body, inside, split, _⟩ := (exact_ _).mp parsed
    exact (inGrammar_shown split).mp inside rfl
  · intro exact_
    have refused : parseFrameHeader wideSamples.encode = none := by decide +kernel
    have short : wideSamples.InGrammar := by unfold Header.InGrammar; decide
    have parsed := (exact_ wideSamples.result).mpr
      ⟨wideSamples, [], short, (List.append_nil _).symm, rfl⟩
    rw [refused] at parsed
    cases parsed

end MisrcGui.Playback.HeaderGrammar
