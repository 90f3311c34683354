import MisrcGui.Library.Layout

/-! FLAC frame headers, checked by `gui_playback_parse_frame_header`. -/
namespace MisrcGui.Playback.Ogg
open Library.Layout

def crc8Table : Array UInt8 :=
  #[
    0x00, 0x07, 0x0e, 0x09, 0x1c, 0x1b, 0x12, 0x15, 0x38, 0x3f, 0x36, 0x31, 0x24, 0x23, 0x2a, 0x2d,
    0x70, 0x77, 0x7e, 0x79, 0x6c, 0x6b, 0x62, 0x65, 0x48, 0x4f, 0x46, 0x41, 0x54, 0x53, 0x5a, 0x5d,
    0xe0, 0xe7, 0xee, 0xe9, 0xfc, 0xfb, 0xf2, 0xf5, 0xd8, 0xdf, 0xd6, 0xd1, 0xc4, 0xc3, 0xca, 0xcd,
    0x90, 0x97, 0x9e, 0x99, 0x8c, 0x8b, 0x82, 0x85, 0xa8, 0xaf, 0xa6, 0xa1, 0xb4, 0xb3, 0xba, 0xbd,
    0xc7, 0xc0, 0xc9, 0xce, 0xdb, 0xdc, 0xd5, 0xd2, 0xff, 0xf8, 0xf1, 0xf6, 0xe3, 0xe4, 0xed, 0xea,
    0xb7, 0xb0, 0xb9, 0xbe, 0xab, 0xac, 0xa5, 0xa2, 0x8f, 0x88, 0x81, 0x86, 0x93, 0x94, 0x9d, 0x9a,
    0x27, 0x20, 0x29, 0x2e, 0x3b, 0x3c, 0x35, 0x32, 0x1f, 0x18, 0x11, 0x16, 0x03, 0x04, 0x0d, 0x0a,
    0x57, 0x50, 0x59, 0x5e, 0x4b, 0x4c, 0x45, 0x42, 0x6f, 0x68, 0x61, 0x66, 0x73, 0x74, 0x7d, 0x7a,
    0x89, 0x8e, 0x87, 0x80, 0x95, 0x92, 0x9b, 0x9c, 0xb1, 0xb6, 0xbf, 0xb8, 0xad, 0xaa, 0xa3, 0xa4,
    0xf9, 0xfe, 0xf7, 0xf0, 0xe5, 0xe2, 0xeb, 0xec, 0xc1, 0xc6, 0xcf, 0xc8, 0xdd, 0xda, 0xd3, 0xd4,
    0x69, 0x6e, 0x67, 0x60, 0x75, 0x72, 0x7b, 0x7c, 0x51, 0x56, 0x5f, 0x58, 0x4d, 0x4a, 0x43, 0x44,
    0x19, 0x1e, 0x17, 0x10, 0x05, 0x02, 0x0b, 0x0c, 0x21, 0x26, 0x2f, 0x28, 0x3d, 0x3a, 0x33, 0x34,
    0x4e, 0x49, 0x40, 0x47, 0x52, 0x55, 0x5c, 0x5b, 0x76, 0x71, 0x78, 0x7f, 0x6a, 0x6d, 0x64, 0x63,
    0x3e, 0x39, 0x30, 0x37, 0x22, 0x25, 0x2c, 0x2b, 0x06, 0x01, 0x08, 0x0f, 0x1a, 0x1d, 0x14, 0x13,
    0xae, 0xa9, 0xa0, 0xa7, 0xb2, 0xb5, 0xbc, 0xbb, 0x96, 0x91, 0x98, 0x9f, 0x8a, 0x8d, 0x84, 0x83,
    0xde, 0xd9, 0xd0, 0xd7, 0xc2, 0xc5, 0xcc, 0xcb, 0xe6, 0xe1, 0xe8, 0xef, 0xfa, 0xfd, 0xf4, 0xf3
  ]

def crc8 (data : List UInt8) : UInt8 :=
  data.foldl (fun crc byte => crc8Table.getD (crc ^^^ byte).toNat 0) 0

def leadingOnes (first : UInt8) : Nat → Nat → UInt8 → UInt8 → Nat × UInt8
  | 0, ones, maskData, _ => (ones, maskData)
  | bits + 1, ones, maskData, maskMark =>
    if first &&& maskMark ≠ 0 then
      leadingOnes first bits (ones + 1) (maskData >>> 1) (maskMark >>> 1)
    else (ones, maskData)

def readUtf8Coded : List UInt8 → Option (Nat × Nat)
  | [] => none
  | first :: rest =>
    let (ones, maskData) := leadingOnes first 8 0 0x7F 0x80
    if ones = 1 then none
    else
      let additional := ones - 1
      if rest.length < additional then none
      else if (rest.take additional).any fun byte => byte &&& 0xC0 ≠ 0x80 then none
      else
        some ((rest.take additional).foldl
          (fun value byte => value * 64 + (byte &&& 0x3F).toNat) (first &&& maskData).toNat,
          1 + additional)

/-- The block size that a code stands for, and the bytes that it is read from instead. -/
def blockSizeCode (code : Nat) : Option (Nat × Nat) :=
  if code = 0 then none
  else if code = 1 then some (192, 0)
  else if code ≤ 5 then some (576 * 2 ^ (code - 2), 0)
  else if code = 6 then some (0, 1)
  else if code = 7 then some (0, 2)
  else some (256 * 2 ^ (code - 8), 0)

def blockSizeBytes (fixed : Nat) : List UInt8 → Option Nat
  | [] => some fixed
  | [byte] => some (byte.toNat + 1)
  | high :: low :: _ =>
    let size := high.toNat * 256 + low.toNat
    if size = 0xFFFF then none else some (size + 1)

def sampleRateBytes (code : Nat) : Option Nat :=
  if code = 0xC then some 1
  else if code = 0xD || code = 0xE then some 2
  else if code = 0xF then none
  else some 0

def sampleSizeCodes : List UInt8 := [0, 1, 2, 4, 5, 6]

structure FrameHeader where
  blockSize : Nat
  headerLen : Nat
  number : Nat
  isVariable : Bool
deriving DecidableEq

def parseFrameHeader (w : List UInt8) : Option FrameHeader := do
  guard (4 ≤ w.length)
  let sync := (w.getD 0 0).toUInt16 <<< 8 ||| (w.getD 1 0).toUInt16
  guard (sync &&& 0xFFFE = 0xFFF8)
  guard (sync &&& 0x0002 = 0)
  let bsSr := w.getD 2 0
  let (fixed, sizeBytes) ← blockSizeCode (bsSr >>> 4).toNat
  let rateBytes ← sampleRateBytes (bsSr &&& 0x0F).toNat
  let chanBpsRes := w.getD 3 0
  guard (chanBpsRes >>> 4 < 0xB)
  guard ((chanBpsRes &&& 0x0E) >>> 1 ∈ sampleSizeCodes)
  guard (chanBpsRes &&& 0x01 = 0)
  let (number, utf8Len) ← readUtf8Coded (w.drop 4)
  let sizeAt := 4 + utf8Len
  guard (sizeAt + sizeBytes ≤ w.length)
  let blockSize ← blockSizeBytes fixed (field w sizeAt sizeBytes)
  let crcAt := sizeAt + sizeBytes + rateBytes
  guard (crcAt + 1 ≤ w.length)
  guard (crc8 (w.take crcAt) = w.getD crcAt 0)
  return { blockSize, headerLen := crcAt + 1, number, isVariable := sync &&& 0x0001 ≠ 0 }

inductive BlockSize where
  | table192
  | table576 (scale : Fin 4)
  | table256 (scale : Fin 8)
  | byte (lessOne : UInt8)
  | word (high low : UInt8) (size_ne : high.toNat * 256 + low.toNat ≠ 0xFFFF)

namespace BlockSize

def samples : BlockSize → Nat
  | table192 => 192
  | table576 scale => 576 * 2 ^ scale.val
  | table256 scale => 256 * 2 ^ scale.val
  | byte lessOne => lessOne.toNat + 1
  | word high low _ => high.toNat * 256 + low.toNat + 1

def code : BlockSize → Fin 16
  | table192 => 1
  | table576 scale => ⟨2 + scale.val, by omega⟩
  | table256 scale => ⟨8 + scale.val, by omega⟩
  | byte _ => 6
  | word _ _ _ => 7

def bytes : BlockSize → List UInt8
  | byte lessOne => [lessOne]
  | word high low _ => [high, low]
  | _ => []

theorem read (size : BlockSize) : ∃ fixed,
    blockSizeCode size.code.val = some (fixed, size.bytes.length) ∧
      blockSizeBytes fixed size.bytes = some size.samples := by
  cases size with
  | table192 => exact ⟨192, rfl, rfl⟩
  | table576 scale =>
    refine ⟨576 * 2 ^ scale.val, ?_, rfl⟩
    unfold blockSizeCode code
    rw [if_neg (by simp), if_neg (by simp; omega), if_pos (by simp; omega), Nat.add_sub_cancel_left]
    rfl
  | table256 scale =>
    refine ⟨256 * 2 ^ scale.val, ?_, rfl⟩
    unfold blockSizeCode code
    rw [if_neg (by simp), if_neg (by simp; omega), if_neg (by simp; omega),
      if_neg (by simp; omega), if_neg (by simp; omega), Nat.add_sub_cancel_left]
    rfl
  | byte lessOne => exact ⟨0, rfl, rfl⟩
  | word high low size_ne =>
    refine ⟨0, rfl, ?_⟩
    simp [blockSizeBytes, bytes, samples, size_ne]

end BlockSize

theorem continuation_byte (digit : Fin 64) :
    UInt8.ofNat (0x80 + digit.val) &&& 0xC0 = 0x80 ∧
      (UInt8.ofNat (0x80 + digit.val) &&& 0x3F).toNat = digit.val := by
  revert digit
  decide +kernel

theorem codes_byte (size : Fin 16) (rate : Fin 15) :
    (UInt8.ofNat (size.val * 16 + rate.val) >>> 4).toNat = size.val ∧
      (UInt8.ofNat (size.val * 16 + rate.val) &&& 0x0F).toNat = rate.val := by
  revert size rate
  decide +kernel

end MisrcGui.Playback.Ogg
