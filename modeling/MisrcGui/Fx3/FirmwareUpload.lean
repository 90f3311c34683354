import MisrcGui.Library.BigEndian
import MisrcGui.Library.MemoryWords

/-! The firmware loader of `gui_fx3.c`. A file is the list of its bytes; a read outside of them is
a fault. -/
namespace MisrcGui.Fx3
open Library
open Library.Terminated (Checked loop)
open Library.CheckedMemory (readAt)
open Library.MemoryWords

def fwChunkSize : Nat := 4096

/-- A `uint32_t` of the image, on a little-endian host. -/
def encodeWord (word : UInt32) : List UInt8 := (BigEndian.encode 4 word.toNat).reverse

def decodeWord (bytes : List UInt8) : UInt32 := UInt32.ofNat (BigEndian.decode bytes.reverse)

def wordFormat : WordFormat UInt32 where
  width := 4
  encode := encodeWord
  decode := decodeWord
  length_encode := fun word => by rw [encodeWord, List.length_reverse, BigEndian.length_encode]
  decode_encode := fun word => by
    rw [decodeWord, encodeWord, List.reverse_reverse, BigEndian.decode_encode,
      Nat.mod_eq_of_lt (show word.toNat < 256 ^ 4 from word.toNat_lt), UInt32.ofNat_toNat]
  encode_decode := fun bytes length => by
    have width : bytes.reverse.length = 4 := by rw [List.length_reverse, length]
    have small : BigEndian.decode bytes.reverse < 2 ^ 32 := by
      have bound := BigEndian.decode_lt bytes.reverse
      rwa [width] at bound
    rw [decodeWord, encodeWord, UInt32.toNat_ofNat', Nat.mod_eq_of_lt small, ← width,
      BigEndian.encode_decode, List.reverse_reverse]

/-- The value of a `uint32_t` in an `int`. -/
def asInt (word : UInt32) : Int :=
  if word.toNat < 2 ^ 31 then word.toNat else (word.toNat : Int) - 2 ^ 32

def getLsw (v : UInt32) : UInt16 := (v &&& 0xFFFF).toUInt16

def getMsw (v : UInt32) : UInt16 := (v >>> 16).toUInt16

/-- A control transfer with `FX3_CMD_FW_UPLOAD`. -/
structure Transfer where
  wValue : UInt16
  wIndex : UInt16
  data : List UInt8
deriving DecidableEq

/-- The files and the device of a run: whether they are there, and what a transfer returns, by
its number and its size. -/
structure Host where
  handle : Bool
  opened : Bool
  allocated : Bool
  readWhole : Bool
  transfer : Nat → Nat → Int

structure RamWrite where
  ramAddr : UInt32
  offset : Nat
  len : Int
  sent : List Transfer

/-- A round of `while (len > 0)`; the result is `none` for the return value -1. -/
def ramWriteBody (host : Host) (firmware : List UInt8) (state : RamWrite) :
    Checked (RamWrite ⊕ Option (List Transfer)) :=
  if state.len > 0 then do
    let size := min state.len.toNat fwChunkSize
    let data ← readAt firmware state.offset size
    if host.transfer state.sent.length size = size then
      return .inl {
        ramAddr := state.ramAddr + UInt32.ofNat size
        offset := state.offset + size
        len := state.len - size
        sent := state.sent ++ [⟨getLsw state.ramAddr, getMsw state.ramAddr, data⟩] }
    else return .inr none
  else return .inr (some state.sent)

/-- `fx3_ram_write` on the bytes from an offset on, behind transfers that went through. -/
def fx3RamWrite (host : Host) (firmware : List UInt8) (offset : Nat) (ramAddr : UInt32)
    (len : Int) (sent : List Transfer) : Checked (Option (List Transfer)) :=
  loop (ramWriteBody host firmware) (len.toNat + 1) ⟨ramAddr, offset, len, sent⟩

/-- How `fx3_upload_firmware` returns: -1, or 0 behind the transfers that went through and, from a
final section, the jump, whose own result does not count. -/
inductive Outcome
  | failure
  | success (sent : List Transfer) (jump : Option Transfer)
deriving DecidableEq

structure Upload where
  index : UInt32
  checksum : UInt32
  sent : List Transfer

def uploadSection (host : Host) (firmware : List UInt8) (state : Upload) (length address : UInt32) :
    Checked (Upload ⊕ Outcome) := do
  let checksum ← readLoop wordFormat (· + ·) firmware (state.index.toNat + 8) length.toNat
    state.checksum
  let written ← fx3RamWrite host firmware (state.index.toNat + 8) address (asInt (length * 4))
    state.sent
  match written with
  | none => return .inr .failure
  | some sent => return .inl ⟨state.index + (8 + length * 4), checksum, sent⟩

def uploadFinal (firmware : List UInt8) (state : Upload) (address : UInt32) :
    Checked (Upload ⊕ Outcome) := do
  let expected ← read wordFormat firmware (state.index.toNat + 8)
  if state.checksum ≠ expected then return .inr .failure
  else return .inr (.success state.sent (some ⟨getLsw address, getMsw address, []⟩))

/-- A round of `while (index < filesize)`. -/
def uploadBody (host : Host) (firmware : List UInt8) (state : Upload) :
    Checked (Upload ⊕ Outcome) :=
  if asInt state.index < firmware.length then do
    let length ← read wordFormat firmware state.index.toNat
    let address ← read wordFormat firmware (state.index.toNat + 4)
    if length ≠ 0 then uploadSection host firmware state length address
    else uploadFinal firmware state address
  else return .inr (.success state.sent none)

def magic : List UInt8 := [0x43, 0x59]

def fx3UploadFirmware (host : Host) (firmware : List UInt8) : Checked Outcome :=
  if !host.handle || !host.opened then return .failure
  else if firmware.length < 8 || firmware.length > 256 * 1024 then return .failure
  else if !host.allocated || !host.readWhole then return .failure
  else if firmware.take 2 ≠ magic then return .failure
  else loop (uploadBody host firmware) firmware.length ⟨4, 0, []⟩

end MisrcGui.Fx3
