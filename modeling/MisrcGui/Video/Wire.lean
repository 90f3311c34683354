import MisrcGui.Library.BigEndian
import MisrcGui.Library.Layout

/-! The framing of the monitor video stream, `gui_monitor_video_wire.c`. Buffers are the bytes
used of them. -/
namespace MisrcGui.Video
open Library
open Layout (field cut)

def headerBytes : Nat := 40
def maxPayload : Nat := 2 * 1024 * 1024
def maxWidth : Nat := 1920
def maxHeight : Nat := 1080

structure FrameHeader where
  codec : UInt8
  flags : UInt8
  streamId : UInt32
  sequence : UInt32
  ptsUs : UInt64
  width : UInt16
  height : UInt16
  fpsX100 : UInt16
  payloadBytes : UInt32
deriving DecidableEq

def codecValid (codec : UInt8) : Bool := decide (1 ≤ codec) && decide (codec ≤ 4)

def FrameHeader.valid (frame : FrameHeader) : Bool :=
  codecValid frame.codec && frame.flags &&& ~~~(1 ||| 2 ||| 4) == 0 &&
    decide (frame.width ≥ 2) && decide (frame.height ≥ 2) &&
    decide (frame.width.toNat ≤ maxWidth) && decide (frame.height.toNat ≤ maxHeight) &&
    frame.width &&& 1 == 0 && frame.height &&& 1 == 0 &&
    decide (frame.fpsX100 ≥ 100) && decide (frame.fpsX100 ≤ 6000) &&
    decide (frame.payloadBytes ≥ 4) && decide (frame.payloadBytes.toNat ≤ maxPayload)

def be16 (value : UInt16) : List UInt8 := BigEndian.encode 2 value.toNat
def be32 (value : UInt32) : List UInt8 := BigEndian.encode 4 value.toNat
def be64 (value : UInt64) : List UInt8 := BigEndian.encode 8 value.toNat

def get16 (buffer : List UInt8) (offset : Nat) : UInt16 :=
  UInt16.ofNat (BigEndian.decode (field buffer offset 2))

def get32 (buffer : List UInt8) (offset : Nat) : UInt32 :=
  UInt32.ofNat (BigEndian.decode (field buffer offset 4))

def get64 (buffer : List UInt8) (offset : Nat) : UInt64 :=
  UInt64.ofNat (BigEndian.decode (field buffer offset 8))

/-- "MVD1", the framing version and the size of the header. -/
def preamble : List UInt8 := [77, 86, 68, 49, 1, 40]

def FrameHeader.fields (frame : FrameHeader) : List (List UInt8) :=
  [preamble, [frame.codec], [frame.flags], be32 frame.streamId, be32 frame.sequence,
    be64 frame.ptsUs, be16 frame.width, be16 frame.height, be16 frame.fpsX100, [0, 0],
    be32 frame.payloadBytes, [0, 0, 0, 0]]

def FrameHeader.layout (frame : FrameHeader) : List UInt8 := frame.fields.flatten

def headerEncode (frame : FrameHeader) : Option (List UInt8) :=
  if frame.valid then some frame.layout else none

def headerDecode (buffer : List UInt8) : Option FrameHeader :=
  if field buffer 0 6 ≠ preamble ∨ field buffer 30 2 ≠ [0, 0] ∨ field buffer 36 4 ≠ [0, 0, 0, 0]
  then none
  else
    let candidate : FrameHeader :=
      { codec := buffer.getD 6 0
        flags := buffer.getD 7 0
        streamId := get32 buffer 8
        sequence := get32 buffer 12
        ptsUs := get64 buffer 16
        width := get16 buffer 24
        height := get16 buffer 26
        fpsX100 := get16 buffer 28
        payloadBytes := get32 buffer 32 }
    if candidate.valid then some candidate else none

def fieldWidths : List Nat := [6, 1, 1, 4, 4, 8, 2, 2, 2, 2, 4, 4]

theorem map_length_fields (frame : FrameHeader) :
    frame.fields.map List.length = fieldWidths := by
  simp [FrameHeader.fields, fieldWidths, be16, be32, be64, preamble]

theorem length_layout (frame : FrameHeader) : frame.layout.length = headerBytes := by
  rw [FrameHeader.layout, List.length_flatten, map_length_fields]
  rfl

theorem cut_layout (frame : FrameHeader) : cut frame.layout 0 fieldWidths = frame.fields := by
  rw [← map_length_fields frame]
  exact Layout.cut_flatten [] frame.fields

variable {buffer : List UInt8}

theorem get16_eq {offset : Nat} {value : UInt16} (h : field buffer offset 2 = be16 value) :
    get16 buffer offset = value := by
  apply UInt16.toNat_inj.mp
  have bound := value.toNat_lt
  rw [get16, h, be16, BigEndian.decode_encode, UInt16.toNat_ofNat']
  omega

theorem get32_eq {offset : Nat} {value : UInt32} (h : field buffer offset 4 = be32 value) :
    get32 buffer offset = value := by
  apply UInt32.toNat_inj.mp
  have bound := value.toNat_lt
  rw [get32, h, be32, BigEndian.decode_encode, UInt32.toNat_ofNat']
  omega

theorem get64_eq {offset : Nat} {value : UInt64} (h : field buffer offset 8 = be64 value) :
    get64 buffer offset = value := by
  apply UInt64.toNat_inj.mp
  have bound := value.toNat_lt
  rw [get64, h, be64, BigEndian.decode_encode, UInt64.toNat_ofNat']
  omega

theorem encode_field {offset width : Nat} (inside : offset + width ≤ buffer.length) :
    BigEndian.decode (field buffer offset width) < 256 ^ width ∧
      BigEndian.encode width (BigEndian.decode (field buffer offset width)) =
        field buffer offset width := by
  have size := Layout.length_field inside
  have bound := BigEndian.decode_lt (field buffer offset width)
  have same := BigEndian.encode_decode (field buffer offset width)
  rw [size] at bound same
  exact ⟨bound, same⟩

theorem be16_get16 {offset : Nat} (inside : offset + 2 ≤ buffer.length) :
    be16 (get16 buffer offset) = field buffer offset 2 := by
  have ⟨bound, same⟩ := encode_field inside
  rw [be16, get16, UInt16.toNat_ofNat', Nat.mod_eq_of_lt (by omega), same]

theorem be32_get32 {offset : Nat} (inside : offset + 4 ≤ buffer.length) :
    be32 (get32 buffer offset) = field buffer offset 4 := by
  have ⟨bound, same⟩ := encode_field inside
  rw [be32, get32, UInt32.toNat_ofNat', Nat.mod_eq_of_lt (by omega), same]

theorem be64_get64 {offset : Nat} (inside : offset + 8 ≤ buffer.length) :
    be64 (get64 buffer offset) = field buffer offset 8 := by
  have ⟨bound, same⟩ := encode_field inside
  rw [be64, get64, UInt64.toNat_ofNat', Nat.mod_eq_of_lt (by omega), same]

theorem headerDecode_layout {frame : FrameHeader} (valid : frame.valid = true) :
    headerDecode frame.layout = some frame := by
  have fields := cut_layout frame
  simp only [cut, fieldWidths, FrameHeader.fields, List.cons.injEq, Nat.reduceAdd] at fields
  obtain ⟨front, codec, flags, streamId, sequence, ptsUs, width, height, fpsX100, reserved,
    payloadBytes, padding, _⟩ := fields
  simp only [headerDecode, front, reserved, padding, Layout.field_one 0 codec,
    Layout.field_one 0 flags, get32_eq streamId, get32_eq sequence, get64_eq ptsUs,
    get16_eq width, get16_eq height, get16_eq fpsX100, get32_eq payloadBytes, ne_eq,
    not_true_eq_false, or_self, if_false, valid, if_true]

theorem layout_of_headerDecode {frame : FrameHeader} (size : buffer.length = headerBytes)
    (h : headerDecode buffer = some frame) :
    frame.valid = true ∧ frame.layout = buffer := by
  simp only [headerDecode] at h
  split at h
  · contradiction
  · next fixed =>
    split at h
    · next valid =>
      cases h
      refine ⟨valid, ?_⟩
      simp only [ne_eq, not_or, Decidable.not_not] at fixed
      obtain ⟨front, reserved, padding⟩ := fixed
      rw [headerBytes] at size
      have whole : (cut buffer 0 fieldWidths).flatten = buffer :=
        Layout.flatten_cut (by rw [size]; rfl)
      apply Eq.trans _ whole
      apply congrArg List.flatten
      simp only [FrameHeader.fields, cut, fieldWidths, Nat.reduceAdd, List.cons.injEq, and_true]
      refine ⟨front.symm, (Layout.field_getD 0 ?_).symm, (Layout.field_getD 0 ?_).symm,
        be32_get32 ?_, be32_get32 ?_, be64_get64 ?_, be16_get16 ?_, be16_get16 ?_,
        be16_get16 ?_, reserved.symm, be32_get32 ?_, padding.symm⟩
      all_goals omega
    · contradiction

end MisrcGui.Video
