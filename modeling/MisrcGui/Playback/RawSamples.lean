import MisrcGui.Library.Window
import MisrcGui.Playback.Conv16
import MisrcGui.Playback.RawOpen
import MisrcGui.Playback.ScanInput

/-! The sample readers of raw PCM, WAV and packed `.lds` files (`gui_playback_raw_read`), which
seek to any sample and read any number of them. -/
namespace MisrcGui.Playback.RawSamples
open Library Library.Layout Library.Window
open Conv16 (convertBlock)
open Ogg (littleEndian)
open RawOpen (Format RawInfo)
open ScanInput (Handle seekAbs int64Max)
open WavFile (readFormat walk parseWav)

/-- `playback_raw_reader_t`, with the convention of its channel. -/
structure Reader where
  info : RawInfo
  file : Handle
  cursorSample : Nat
  skip : Nat
  carry : List Int16
  conv16 : Conv16.State

def scaleToContainer (v : Int) (bits : Nat) : Int16 :=
  if 12 ≤ bits then Int16.ofInt (v / 2 ^ (bits - 12)) else Int16.ofInt (v * 2 ^ (12 - bits))

/-- Ten bits around 512, clamped, in the 12-bit container. -/
def tenBitSample (w : Nat) : Int16 :=
  let v : Int := w - 512
  let v := if 511 < v then 511 else v
  let v := if v < -512 then -512 else v
  Int16.ofInt (v * 4)

def byteSample (item : List UInt8) : Int16 := scaleToContainer ((item.getD 0 0).toNat - 128) 8

def signedByteSample (item : List UInt8) : Int16 :=
  scaleToContainer (item.getD 0 0).toInt8.toInt 8

/-- A 16-bit sample before its convention. -/
def shortSample (item : List UInt8) : Int := (UInt16.ofNat (littleEndian item)).toInt16.toInt

/-- 24 bits are extended in the unsigned domain; 32 bits become signed without a cast. -/
def wideSample (bits : Nat) (item : List UInt8) : Int16 :=
  let u := littleEndian item
  let u := if bits = 24 ∧ 0x800000 ≤ u then u + 0xFF000000 else u
  let v : Int := if 0x80000000 ≤ u then (u - 0x80000000 : Nat) + -0x80000000 else u
  Int16.ofInt (v / 2 ^ (bits - 12))

def itemWidth (info : RawInfo) : Nat :=
  match info.format with
  | .u8 | .s8 => 1
  | .wav => info.bits / 8
  | _ => 2

def convertItems (info : RawInfo) (conv16 : Conv16.State) (items : List (List UInt8)) :
    Conv16.State × List Int16 :=
  match info.format with
  | .u8 => (conv16, items.map byteSample)
  | .s8 => (conv16, items.map signedByteSample)
  | .u16 => (conv16, items.map fun item => tenBitSample (littleEndian item))
  | _ =>
    if info.format = .wav ∧ info.bits = 8 then (conv16, items.map byteSample)
    else if itemWidth info = 2 then convertBlock conv16 (items.map shortSample)
    else (conv16, items.map (wideSample info.bits))

/-- The size of `buf`. -/
def bufBytes : Nat := 5120

def readItems (reader : Reader) (left : Nat) : List (List UInt8) × Handle :=
  let width := itemWidth reader.info
  let (data, file) := reader.file.fread (min left (bufBytes / width) * width)
  (units width data, file)

def passes (reader : Reader) (left : Nat) : Reader × List Int16 :=
  if left = 0 then (reader, [])
  else if _ended : (readItems reader left).1 = [] then
    ({ reader with file := (readItems reader left).2 }, [])
  else
    let (conv16, first) := convertItems reader.info reader.conv16 (readItems reader left).1
    let (last, later) := passes { reader with file := (readItems reader left).2, conv16 }
      (left - (readItems reader left).1.length)
    (last, first ++ later)
termination_by left
decreasing_by
  have some_ := List.length_pos_iff.mpr _ended
  omega

def groupWords (group : List UInt8) : List Nat :=
  let byte i := group.getD i 0
  [(byte 0).toNat * 4 + (byte 1 &&& 0xC0).toNat / 2 ^ 6,
    (byte 1 &&& 0x3F).toNat * 16 + (byte 2 &&& 0xF0).toNat / 2 ^ 4,
    (byte 2 &&& 0x0F).toNat * 64 + (byte 3 &&& 0xFC).toNat / 2 ^ 2,
    (byte 3 &&& 0x03).toNat * 256 + (byte 4).toNat]

structure Unpacked where
  skip : Nat
  produced : List Int16
  carry : List Int16

/-- Mates before the cursor are dropped, those behind the chunk are kept for the next read. -/
def takeWord (chunk : Nat) (state : Unpacked) (word : Nat) : Unpacked :=
  if 0 < state.skip then { state with skip := state.skip - 1 }
  else if state.produced.length < chunk then
    { state with produced := state.produced ++ [tenBitSample word] }
  else { state with carry := state.carry ++ [tenBitSample word] }

def groups (chunk : Nat) (file : Handle) (state : Unpacked) : Handle × Unpacked :=
  if chunk ≤ state.produced.length then (file, state)
  else if _whole : (file.fread 5).1.length ≠ 5 then ((file.fread 5).2, state)
  else groups chunk (file.fread 5).2 ((groupWords (file.fread 5).1).foldl (takeWord chunk) state)
termination_by file.bytes.length - file.offset
decreasing_by
  have full : ((file.bytes.drop file.offset).take 5).length = 5 := not_not.mp _whole
  rw [List.length_take, List.length_drop] at full
  have moved : (file.fread 5).2.offset = file.offset + 5 := by
    simp only [Handle.fread, List.length_take, List.length_drop]
    omega
  have kept : (file.fread 5).2.bytes = file.bytes := rfl
  rw [moved, kept]
  omega

def rawRead (reader : Reader) (want : Nat) : List Int16 × Reader :=
  if want = 0 ∨ reader.info.totalSamples = 0 ∨
      reader.info.totalSamples ≤ reader.cursorSample then ([], reader)
  else
    let chunk := min want (reader.info.totalSamples - reader.cursorSample)
    let carried := reader.carry.take chunk
    let carry := reader.carry.drop chunk
    if reader.info.format = .lds then
      let (file, state) := groups chunk reader.file ⟨reader.skip, carried, carry⟩
      (state.produced, { reader with
        file, skip := state.skip, carry := state.carry
        cursorSample := reader.cursorSample + state.produced.length })
    else
      let (last, read) := passes { reader with carry } (chunk - carried.length)
      (carried ++ read,
        { last with cursorSample := reader.cursorSample + (carried ++ read).length })

def rawSeek (reader : Reader) (sample : Nat) : Bool × Reader :=
  if reader.info.totalSamples = 0 then (false, reader)
  else
    let sample := min sample (reader.info.totalSamples - 1)
    let (byte, skip) :=
      if reader.info.format = .lds then (sample / 4 * 5, sample % 4)
      else (sample * (reader.info.bits / 8), 0)
    match seekAbs reader.file (reader.info.dataOffset + byte) with
    | none => (false, { reader with skip })
    | some file => (true, { reader with file, skip, cursorSample := sample, carry := [] })

/-! What an open file guarantees. -/

theorem readFormat_bits {multi : Bool} {fmt : List UInt8} {format : WavFile.Format}
    (h : readFormat multi fmt = .ok format) : format.bits ∈ [8, 16, 24, 32] := by
  unfold readFormat at h
  simp only at h
  split at h
  · cases h
  split at h
  · cases h
  rename_i known
  have listed : littleEndian (field fmt 14 2) ∈ [8, 16, 24, 32] := by
    simp only [List.mem_cons, List.not_mem_nil, or_false]
    omega
  split at h
  · split at h
    · cases h
    · cases h
      exact listed
  · split at h
    · cases h
    · cases h
      exact listed

theorem readFormat_channels {fmt : List UInt8} {format : WavFile.Format}
    (h : readFormat true fmt = .ok format) : 1 ≤ format.channels ∧ format.channels ≤ 8 := by
  unfold readFormat at h
  simp only at h
  split at h
  · cases h
  split at h
  · cases h
  split at h
  · split at h
    · cases h
    · cases h
      dsimp only
      omega
  · rename_i single
    exact (single trivial).elim

/-- What the chunk loop found keeps what every format has, and its span ends inside the file. -/
theorem walk_spec {Known : WavFile.Format → Prop} {file : List UInt8} {multi : Bool} {pos : Nat}
    {format : Option WavFile.Format} {found : Option WavFile.Format × Option (Nat × Nat)}
    (reads : ∀ fmt new, readFormat multi fmt = .ok new → Known new)
    (h : walk file multi pos format = .ok found) (known : ∀ old, format = some old → Known old) :
    (∀ new, found.1 = some new → Known new) ∧
      ∀ span, found.2 = some span → span.1 + span.2 ≤ file.length := by
  rw [walk] at h
  split at h
  · cases h
    exact ⟨known, by simp⟩
  rename_i inside
  simp only at h
  split at h
  · split at h
    · cases h
      exact ⟨known, by simp⟩
    split at h
    · cases h
    · rename_i new read
      refine walk_spec reads h fun old same => ?_
      rw [← Option.some.inj same]
      exact reads _ _ read
  split at h
  · cases h
    refine ⟨known, ?_⟩
    rintro _ ⟨⟩
    dsimp only
    split <;> omega
  · exact walk_spec reads h known
termination_by file.length - pos

theorem parseWav_found (Known : WavFile.Format → Prop) {file : List UInt8} {multi : Bool}
    {wav : WavFile.WavInfo} (reads : ∀ fmt new, readFormat multi fmt = .ok new → Known new)
    (h : parseWav file multi = .ok wav) :
    Known ⟨wav.rate, wav.bits, wav.channels⟩ ∧ wav.dataOffset + wav.dataBytes ≤ file.length := by
  unfold parseWav at h
  split at h
  · cases h
  split at h
  · cases h
  · cases h
  · cases h
  · rename_i format offset bytes walked
    obtain ⟨formats, span⟩ := walk_spec reads walked (by simp)
    split at h
    · cases h
    · cases h
      exact ⟨formats format rfl, span _ rfl⟩

theorem parseWav_spec {file : List UInt8} {multi : Bool} {wav : WavFile.WavInfo}
    (h : parseWav file multi = .ok wav) :
    wav.bits ∈ [8, 16, 24, 32] ∧ wav.dataOffset + wav.dataBytes ≤ file.length :=
  parseWav_found (fun format => format.bits ∈ [8, 16, 24, 32]) (fun _ _ => readFormat_bits) h

structure Spanned (info : RawInfo) (bytes : List UInt8) : Prop where
  known : info.format = .wav → info.bits ∈ [8, 16, 24, 32]
  filled : info.totalSamples ≠ 0
  packed : info.format = .lds → info.dataOffset = 0 ∧ info.totalSamples = bytes.length / 5 * 4
  width : info.format ≠ .lds → itemWidth info = info.bits / 8 ∧ 0 < itemWidth info ∧
    itemWidth info ≤ 4
  inside : info.format ≠ .lds →
    info.dataOffset + info.totalSamples * itemWidth info ≤ bytes.length

variable {info : RawInfo} {group : Nat}

theorem withSamples_ok {path : RateHint.Text} {result : RawInfo}
    (h : RawOpen.withSamples path info = .ok result) : info = result ∧ result.totalSamples ≠ 0 := by
  unfold RawOpen.withSamples at h
  split at h
  · cases h
  · rename_i filled
    cases h
    exact ⟨rfl, filled⟩

theorem spanned_wav {path : RateHint.Text} {bytes : List UInt8}
    (h : RawOpen.rawOpenWav path bytes = .ok info) : Spanned info bytes := by
  unfold RawOpen.rawOpenWav at h
  split at h
  · cases h
  · rename_i wav parsed
    obtain ⟨bits, span⟩ := parseWav_spec parsed
    obtain ⟨same, filled⟩ := withSamples_ok h
    have fits := Nat.div_mul_le_self wav.dataBytes (wav.bits / 8)
    subst same
    refine ⟨fun _ => bits, filled, (nomatch ·), fun _ => ⟨rfl, ?_, ?_⟩, fun _ => ?_⟩
    all_goals simp only [List.mem_cons, List.not_mem_nil, or_false] at bits
    · exact Nat.div_pos (by dsimp only; omega) (by decide)
    · exact Nat.div_le_of_le_mul (by dsimp only; omega)
    · exact (Nat.add_le_add_left fits _).trans span

theorem spanned_of_open {path : RateHint.Text} {format : Format} {bytes : List UInt8}
    (raw : format ∈ [.u8, .s8, .u16, .s16, .wav, .lds])
    (h : RawOpen.rawOpen path format bytes = .ok info) : Spanned info bytes := by
  simp only [List.mem_cons, List.not_mem_nil, or_false] at raw
  rcases raw with rfl | rfl | rfl | rfl | rfl | rfl
  case inr.inr.inr.inr.inl => exact spanned_wav h
  case inr.inr.inr.inr.inr =>
    obtain ⟨same, filled⟩ := withSamples_ok h
    subst same
    exact ⟨by simp, filled, fun _ => ⟨rfl, rfl⟩, fun other => (other rfl).elim,
      fun other => (other rfl).elim⟩
  all_goals
    unfold RawOpen.rawOpen at h
    simp only at h
    split at h
    · cases h
    · obtain ⟨same, filled⟩ := withSamples_ok h
      subst same
      refine ⟨by simp, filled, by simp, fun _ => ?_, fun _ => ?_⟩
      · simp [itemWidth, RawOpen.rawBits]
      · simp [itemWidth, RawOpen.rawBits, Nat.div_mul_le_self]
/-! The samples of a file, whatever was read before. -/

def signed (bits n : Nat) : Int := if n < 2 ^ (bits - 1) then n else n - (2 ^ bits : Nat)

/-- A stored number in the 12-bit container. -/
def container (info : RawInfo) (n : Nat) : Int :=
  match info.format with
  | .u8 => ((n : Int) - 128) * 16
  | .s8 => signed 8 n * 16
  | .u16 | .lds => max (-512) (min 511 ((n : Int) - 512)) * 4
  | _ =>
    if info.bits = 8 then ((n : Int) - 128) * 16
    else signed info.bits n / 2 ^ (info.bits - 12)

def stored (info : RawInfo) (bytes : List UInt8) (i : Nat) : Nat :=
  if info.format = .lds then
    BigEndian.decode (field bytes (i / 4 * 5) 5) / 2 ^ (30 - 10 * (i % 4)) % 1024
  else littleEndian (field bytes (info.dataOffset + i * (info.bits / 8)) (info.bits / 8))

def reference (info : RawInfo) (bytes : List UInt8) (i : Nat) : Int16 :=
  Int16.ofInt (container info (stored info bytes i))

def Listed (info : RawInfo) : Prop :=
  info.format ∈ [.u8, .s8, .u16, .lds] ∨ info.format = .wav ∧ info.bits ≠ 16

theorem byteSample_eq (item : List UInt8) (one : item.length = 1) :
    byteSample item = Int16.ofInt (((littleEndian item : Nat) - 128) * 16) := by
  obtain ⟨byte, rfl⟩ := List.length_eq_one_iff.mp one
  have value : littleEndian [byte] = byte.toNat := by simp [littleEndian, BigEndian.decode]
  rw [value]
  rfl

theorem signedByteSample_eq (item : List UInt8) (one : item.length = 1) :
    signedByteSample item = Int16.ofInt (signed 8 (littleEndian item) * 16) := by
  obtain ⟨byte, rfl⟩ := List.length_eq_one_iff.mp one
  have value : littleEndian [byte] = byte.toNat := by simp [littleEndian, BigEndian.decode]
  have all : ∀ small : Fin 256, (UInt8.ofNat small.val).toInt8.toInt = signed 8 small.val := by
    decide +kernel
  have sign := all ⟨byte.toNat, byte.toNat_lt⟩
  rw [UInt8.ofNat_toNat] at sign
  rw [value, ← sign]
  rfl

theorem tenBitSample_eq (w : Nat) :
    tenBitSample w = Int16.ofInt (max (-512) (min 511 ((w : Int) - 512)) * 4) := by
  refine congrArg Int16.ofInt ?_
  split <;> split <;> omega

theorem wideSample_eq {bits : Nat} (item : List UInt8) (wide : bits = 24 ∨ bits = 32)
    (full : item.length = bits / 8) :
    wideSample bits item =
      Int16.ofInt (signed bits (littleEndian item) / 2 ^ (bits - 12)) := by
  have bound := BigEndian.decode_lt item.reverse
  rw [List.length_reverse, full] at bound
  unfold signed littleEndian
  refine congrArg Int16.ofInt (congrArg (· / 2 ^ (bits - 12)) ?_)
  unfold littleEndian
  rcases wide with rfl | rfl
  · split <;> split <;> split <;> omega
  · split <;> split <;> split <;> omega

theorem convertItems_eq {bytes : List UInt8} (spanned : Spanned info bytes) (listed : Listed info)
    (bytewise : info.format ≠ .lds) (conv16 : Conv16.State) {items : List (List UInt8)}
    (full : ∀ item ∈ items, item.length = itemWidth info) :
    convertItems info conv16 items =
      (conv16, items.map fun item => Int16.ofInt (container info (littleEndian item))) := by
  unfold Listed at listed
  simp only [List.mem_cons, List.not_mem_nil, or_false] at listed
  unfold convertItems container
  unfold itemWidth at full
  rcases listed with (u8 | s8 | u16 | lds) | ⟨wav, bits⟩
  · simp only [u8] at full ⊢
    exact congrArg (conv16, ·) (List.map_congr_left fun item member =>
      byteSample_eq item (full item member))
  · simp only [s8] at full ⊢
    exact congrArg (conv16, ·) (List.map_congr_left fun item member =>
      signedByteSample_eq item (full item member))
  · simp only [u16] at full ⊢
    exact congrArg (conv16, ·) (List.map_congr_left fun item _ =>
      tenBitSample_eq _)
  · exact (bytewise lds).elim
  · have known := spanned.known wav
    simp only [List.mem_cons, List.not_mem_nil, or_false] at known
    simp only [wav, itemWidth] at full ⊢
    by_cases narrow : info.bits = 8
    · simp only [narrow] at full ⊢
      exact congrArg (conv16, ·) (List.map_congr_left fun item member =>
      byteSample_eq item (full item member))
    · have wide : info.bits = 24 ∨ info.bits = 32 := by omega
      rw [if_neg (by simp [narrow]), if_neg (by omega)]
      simp only [narrow, if_false]
      exact congrArg (conv16, ·) (List.map_congr_left fun item member =>
      wideSample_eq item wide (full item member))

theorem fread_units (bytes : List UInt8) (offset count : Nat) {width : Nat} (positive : 0 < width)
    (inside : offset + count * width ≤ bytes.length) :
    units width ((Handle.mk bytes offset).fread (count * width)).1 =
        (List.range count).map (fun k => field bytes (offset + k * width) width) ∧
      ((Handle.mk bytes offset).fread (count * width)).2 = ⟨bytes, offset + count * width⟩ := by
  have length : (field bytes offset (count * width)).length = count * width := length_field inside
  have number : count * width / width = count := Nat.mul_div_cancel count positive
  constructor
  · change units width (field bytes offset (count * width)) = _
    rw [units, length, number]
    refine List.map_congr_left fun k member => ?_
    have last : (k + 1) * width ≤ count * width :=
      Nat.mul_le_mul_right width (List.mem_range.mp member)
    rw [Nat.add_mul, Nat.one_mul] at last
    exact WavFile.field_field last
  · exact congrArg (fun n => Handle.mk bytes (offset + n)) length

theorem readItems_eq {reader : Reader} {bytes : List UInt8} (spanned : Spanned reader.info bytes)
    (bytewise : reader.info.format ≠ .lds) {cursor left count : Nat}
    (place : reader.file = ⟨bytes, reader.info.dataOffset + cursor * itemWidth reader.info⟩)
    (inside : reader.info.dataOffset + (cursor + left) * itemWidth reader.info ≤ bytes.length)
    (count_eq : min left (bufBytes / itemWidth reader.info) = count) :
    readItems reader left = ((List.range count).map fun k =>
        field bytes (reader.info.dataOffset + (cursor + k) * itemWidth reader.info)
          (itemWidth reader.info),
      ⟨bytes, reader.info.dataOffset + (cursor + count) * itemWidth reader.info⟩) := by
  obtain ⟨_, positive, _⟩ := spanned.width bytewise
  have fewer : count ≤ left := count_eq ▸ Nat.min_le_left _ _
  unfold readItems
  dsimp only
  rw [count_eq]
  generalize itemWidth reader.info = width at *
  have few : count * width ≤ left * width := Nat.mul_le_mul_right width fewer
  rw [Nat.add_mul] at inside
  obtain ⟨items, file⟩ := fread_units bytes (reader.info.dataOffset + cursor * width) count
    positive (by omega)
  rw [place, items, file]
  simp only [Nat.add_mul, Nat.add_assoc]

theorem passes_eq (reader : Reader) {bytes : List UInt8} (spanned : Spanned reader.info bytes)
    (listed : Listed reader.info) (bytewise : reader.info.format ≠ .lds) (cursor left : Nat)
    (place : reader.file = ⟨bytes, reader.info.dataOffset + cursor * itemWidth reader.info⟩)
    (inside : reader.info.dataOffset + (cursor + left) * itemWidth reader.info ≤ bytes.length) :
    passes reader left = ({ reader with
        file := ⟨bytes, reader.info.dataOffset + (cursor + left) * itemWidth reader.info⟩ },
      window (reference reader.info bytes) cursor left) := by
  induction left using Nat.strong_induction_on generalizing reader cursor with
  | _ left ih =>
  obtain ⟨width, positive, small⟩ := spanned.width bytewise
  rcases Nat.eq_zero_or_pos left with rfl | some_
  · rw [passes, if_pos rfl, Nat.add_zero, ← place, window_zero]
  have room : 0 < bufBytes / itemWidth reader.info :=
    Nat.div_pos (small.trans (by decide)) positive
  obtain ⟨count, count_eq⟩ : ∃ count, min left (bufBytes / itemWidth reader.info) = count :=
    ⟨_, rfl⟩
  have counted : 0 < count ∧ count ≤ left := by omega
  have items := readItems_eq spanned bytewise place inside count_eq
  have ends : reader.info.dataOffset + (cursor + count + (left - count)) *
      itemWidth reader.info ≤ bytes.length := by
    have whole : cursor + count + (left - count) = cursor + left := by omega
    rwa [whole]
  have full : ∀ item ∈ (List.range count).map fun k =>
      field bytes (reader.info.dataOffset + (cursor + k) * itemWidth reader.info)
        (itemWidth reader.info), item.length = itemWidth reader.info := by
    intro item member
    obtain ⟨k, small, rfl⟩ := List.mem_map.mp member
    have last : (cursor + k + 1) * itemWidth reader.info ≤
        (cursor + left) * itemWidth reader.info := by
      refine Nat.mul_le_mul_right _ ?_
      have := List.mem_range.mp small
      omega
    rw [Nat.add_mul _ 1, Nat.one_mul] at last
    exact length_field (by omega)
  have rest : passes { reader with
        file := ⟨bytes, reader.info.dataOffset + (cursor + count) * itemWidth reader.info⟩ }
      (left - count) = ({ reader with file := ⟨bytes, reader.info.dataOffset +
        (cursor + count + (left - count)) * itemWidth reader.info⟩ },
      window (reference reader.info bytes) (cursor + count) (left - count)) :=
    ih (left - count) (by omega) { reader with file := ⟨bytes, _⟩ } spanned listed bytewise _ rfl
      ends
  have shown : ((List.range count).map fun k => field bytes (reader.info.dataOffset +
      (cursor + k) * itemWidth reader.info) (itemWidth reader.info)).map
        (fun item => Int16.ofInt (container reader.info (littleEndian item))) =
      window (reference reader.info bytes) cursor count := by
    rw [List.map_map, window]
    refine List.map_congr_left fun k _ => ?_
    rw [reference, stored, if_neg bytewise, ← width]
    rfl
  have whole : cursor + count + (left - count) = cursor + left := by omega
  rw [passes, if_neg (by omega), dif_neg, items, convertItems_eq spanned listed bytewise _ full]
  · dsimp only
    rw [List.length_map, List.length_range, rest, shown, whole, ← window_add,
      Nat.add_sub_cancel' counted.2]
  · rw [items]
    exact List.ne_nil_of_length_pos (by rw [List.length_map, List.length_range]; omega)

/-! Packed groups. -/

theorem words_of_digits {w x y z : Nat} (first : w < 1024) (second : x < 1024) (third : y < 1024)
    (fourth : z < 1024) :
    [w, x, y, z] = (List.range 4).map fun i =>
      (((w * 1024 + x) * 1024 + y) * 1024 + z) / 2 ^ (30 - 10 * i) % 1024 := by
  simp only [List.range, List.range.loop, List.map_cons, List.map_nil, List.cons.injEq, and_true]
  refine ⟨?_, ?_, ?_, ?_⟩ <;> omega

theorem groupWords_eq (group : List UInt8) (full : group.length = 5) :
    groupWords group =
      (List.range 4).map fun i => BigEndian.decode group / 2 ^ (30 - 10 * i) % 1024 := by
  match group, full with
  | [a, b, c, d, e], _ =>
    have masks : ∀ small : Fin 256,
        (UInt8.ofNat small.val &&& 0xC0).toNat = small.val / 64 * 64 ∧
        (UInt8.ofNat small.val &&& 0x3F).toNat = small.val % 64 ∧
        (UInt8.ofNat small.val &&& 0xF0).toNat = small.val / 16 * 16 ∧
        (UInt8.ofNat small.val &&& 0x0F).toNat = small.val % 16 ∧
        (UInt8.ofNat small.val &&& 0xFC).toNat = small.val / 4 * 4 ∧
        (UInt8.ofNat small.val &&& 0x03).toNat = small.val % 4 := by
      decide +kernel
    have maskB := masks ⟨b.toNat, b.toNat_lt⟩
    have maskC := masks ⟨c.toNat, c.toNat_lt⟩
    have maskD := masks ⟨d.toNat, d.toNat_lt⟩
    simp only [UInt8.ofNat_toNat] at maskB maskC maskD
    have boundA := a.toNat_lt
    have boundB := b.toNat_lt
    have boundC := c.toNat_lt
    have boundD := d.toNat_lt
    have boundE := e.toNat_lt
    have words : groupWords [a, b, c, d, e] = [a.toNat * 4 + b.toNat / 64,
        b.toNat % 64 * 16 + c.toNat / 16, c.toNat % 16 * 64 + d.toNat / 4,
        d.toNat % 4 * 256 + e.toNat] := by
      simp only [groupWords, List.getD_cons_zero, List.getD_cons_succ, maskB, maskC, maskD,
        List.cons.injEq, and_true]
      omega
    have whole : BigEndian.decode [a, b, c, d, e] =
        (((a.toNat * 4 + b.toNat / 64) * 1024 + (b.toNat % 64 * 16 + c.toNat / 16)) * 1024 +
          (c.toNat % 16 * 64 + d.toNat / 4)) * 1024 + (d.toNat % 4 * 256 + e.toNat) := by
      simp only [BigEndian.decode, List.length_cons, List.length_nil]
      omega
    rw [words, whole]
    apply words_of_digits <;> omega

theorem takeWords_eq (chunk : Nat) (words : List Nat) (state : Unpacked) :
    words.foldl (takeWord chunk) state =
      { skip := state.skip - words.length
        produced := state.produced ++ ((words.map tenBitSample).drop state.skip).take
          (chunk - state.produced.length)
        carry := state.carry ++ ((words.map tenBitSample).drop state.skip).drop
          (chunk - state.produced.length) } := by
  induction words generalizing state with
  | nil => simp
  | cons word words ih =>
    rw [List.foldl_cons, ih, takeWord, List.map_cons, List.length_cons]
    split
    · rename_i skips
      obtain ⟨skip, skip_eq⟩ : ∃ skip, state.skip = skip + 1 := ⟨state.skip - 1, by omega⟩
      dsimp only
      rw [skip_eq, List.drop_succ_cons, Nat.add_sub_cancel, Nat.add_sub_add_right]
    rename_i none
    have zero : state.skip = 0 := by omega
    split
    · rename_i room
      have more : chunk - state.produced.length =
          chunk - (state.produced ++ [tenBitSample word]).length + 1 := by
        rw [List.length_append, List.length_singleton]
        omega
      dsimp only
      rw [zero, List.drop_zero, List.drop_zero, more, List.take_succ_cons, List.drop_succ_cons,
        List.append_assoc, List.singleton_append, Nat.zero_sub, Nat.zero_sub]
    · rename_i full
      have no_room : chunk - state.produced.length = 0 := by omega
      dsimp only
      rw [zero, List.drop_zero, List.drop_zero, no_room, List.take_zero, List.take_zero,
        List.drop_zero, List.drop_zero, List.append_assoc, List.singleton_append, Nat.zero_sub,
        Nat.zero_sub]

/-- What is unpacked so far of a read that began at `first`. -/
structure Held (stream : Nat → Int16) (bytes : List UInt8) (first chunk group : Nat)
    (file : Handle) (state : Unpacked) : Prop where
  place : file = ⟨bytes, group * 5⟩
  count : first + state.produced.length + state.carry.length = group * 4 + state.skip
  shown : state.produced ++ state.carry =
    window stream first (state.produced.length + state.carry.length)
  alone : state.skip = 0 ∨ state.carry = []
  skip_lt : state.skip < 4
  carry_lt : state.carry.length < 4
  bounded : state.produced.length ≤ chunk
  kept : state.carry ≠ [] → state.produced.length = chunk

theorem words_shown (packed : info.format = .lds) (bytes : List UInt8)
    (inside : group * 5 + 5 ≤ bytes.length) :
    (groupWords (field bytes (group * 5) 5)).map tenBitSample =
      window (reference info bytes) (group * 4) 4 := by
  rw [groupWords_eq _ (length_field inside), List.map_map, window]
  refine List.map_congr_left fun i member => ?_
  have small := List.mem_range.mp member
  have place : (group * 4 + i) / 4 = group := by omega
  have mate : (group * 4 + i) % 4 = i := by omega
  rw [reference, stored, if_pos packed, place, mate, container, packed]
  exact tenBitSample_eq _

theorem held_group (packed : info.format = .lds) {bytes : List UInt8} {first chunk : Nat}
    {file : Handle} {state : Unpacked}
    (held : Held (reference info bytes) bytes first chunk group file state)
    (unfinished : state.produced.length < chunk) (inside : group * 5 + 5 ≤ bytes.length) :
    Held (reference info bytes) bytes first chunk (group + 1) (file.fread 5).2
        ((groupWords (file.fread 5).1).foldl (takeWord chunk) state) ∧
      state.produced.length <
        ((groupWords (file.fread 5).1).foldl (takeWord chunk) state).produced.length := by
  have empty : state.carry = [] := by
    by_contra held_back
    exact absurd (held.kept held_back) (by omega)
  have read : file.fread 5 = (field bytes (group * 5) 5, ⟨bytes, (group + 1) * 5⟩) := by
    rw [held.place, Nat.add_mul]
    exact congrArg (fun n => (_, Handle.mk bytes (group * 5 + n))) (length_field inside)
  have count := held.count
  have skip_lt := held.skip_lt
  rw [empty, List.length_nil, Nat.add_zero] at count
  have front : state.produced = window (reference info bytes) first state.produced.length := by
    have shown := held.shown
    rwa [empty, List.append_nil, List.length_nil, Nat.add_zero] at shown
  have four : (groupWords (field bytes (group * 5) 5)).length = 4 := rfl
  rw [takeWords_eq, read, four, words_shown packed bytes inside, window_drop, empty, ← count,
    List.nil_append]
  have rest : (window (reference info bytes) (first + state.produced.length)
      (4 - state.skip)).length = 4 - state.skip := length_window _
  have none_left : state.skip - 4 = 0 := by omega
  constructor
  · exact {
      place := rfl
      count := by
        simp only [List.length_append, List.length_take, List.length_drop, rest]
        omega
      shown := by
        simp only [List.length_append, List.length_take, List.length_drop, rest]
        have total : state.produced.length + min (chunk - state.produced.length) (4 - state.skip) +
            (4 - state.skip - (chunk - state.produced.length)) =
              state.produced.length + (4 - state.skip) := by
          omega
        rw [List.append_assoc, List.take_append_drop, total, window_add, ← front]
      alone := Or.inl none_left
      skip_lt := by dsimp only; omega
      carry_lt := by
        simp only [List.length_drop, rest]
        omega
      bounded := by
        simp only [List.length_append, List.length_take, rest]
        omega
      kept := by
        intro some_
        have positive := List.length_pos_iff.mpr some_
        simp only [List.length_append, List.length_take, List.length_drop, rest] at positive ⊢
        omega }
  · simp only [List.length_append, List.length_take, rest]
    omega

theorem held_groups (packed : info.format = .lds) {bytes : List UInt8} {first chunk : Nat}
    {file : Handle} {state : Unpacked}
    (held : Held (reference info bytes) bytes first chunk group file state)
    (enough : first + chunk ≤ bytes.length / 5 * 4) :
    (groups chunk file state).2.produced.length = chunk ∧ ∃ group',
      Held (reference info bytes) bytes first chunk group' (groups chunk file state).1
        (groups chunk file state).2 := by
  induction left : chunk - state.produced.length using Nat.strong_induction_on
    generalizing group file state with
  | _ left ih =>
  rw [groups]
  split
  · rename_i finished
    exact ⟨Nat.le_antisymm held.bounded finished, group, held⟩
  rename_i unfinished
  have empty : state.carry = [] := by
    by_contra held_back
    exact absurd (held.kept held_back) (by omega)
  have count := held.count
  rw [empty, List.length_nil, Nat.add_zero] at count
  have inside : group * 5 + 5 ≤ bytes.length := by omega
  have whole : (file.fread 5).1.length = 5 := by
    rw [held.place]
    exact length_field inside
  rw [dif_neg (not_not.mpr whole)]
  obtain ⟨next, more⟩ := held_group packed held (by omega) inside
  exact ih _ (by omega) next rfl

theorem Held.advance {stream : Nat → Int16} {bytes : List UInt8} {first chunk : Nat}
    {file : Handle} {state : Unpacked} (held : Held stream bytes first chunk group file state) :
    state.produced = window stream first state.produced.length ∧
      Held stream bytes (first + state.produced.length) 0 group file
        ⟨state.skip, [], state.carry⟩ := by
  have shown := held.shown
  rw [window_add] at shown
  obtain ⟨produced, carry⟩ := List.append_inj shown (length_window _).symm
  exact ⟨produced, { held with
    shown := by simpa using carry
    bounded := Nat.le_refl 0
    kept := fun _ => rfl }⟩

theorem Held.unload {stream : Nat → Int16} {bytes : List UInt8} {first : Nat} {file : Handle}
    {skip : Nat} {carry : List Int16}
    (held : Held stream bytes first 0 group file ⟨skip, [], carry⟩) (chunk : Nat) :
    Held stream bytes first chunk group file ⟨skip, carry.take chunk, carry.drop chunk⟩ := by
  have count := held.count
  have carry_lt := held.carry_lt
  have shown := held.shown
  simp only [List.length_nil, Nat.add_zero, Nat.zero_add, List.nil_append] at count carry_lt shown
  have total : (carry.take chunk).length + (carry.drop chunk).length = carry.length := by
    rw [← List.length_append, List.take_append_drop]
  exact { held with
    count := by dsimp only; omega
    shown := by
      dsimp only
      rw [total, List.take_append_drop, ← shown]
    alone := held.alone.imp_right fun empty => by
      dsimp only at empty ⊢
      rw [empty, List.drop_nil]
    carry_lt := by dsimp only; omega
    bounded := List.length_take_le chunk carry
    kept := by
      intro some_
      have positive := List.length_pos_iff.mpr some_
      simp only [List.length_drop, List.length_take] at positive ⊢
      omega }

/-! Any calls. -/

structure Source where
  path : RateHint.Text
  format : Format
  bytes : List UInt8
  info : RawInfo
  raw : format ∈ [.u8, .s8, .u16, .s16, .wav, .lds]
  opened : RawOpen.rawOpen path format bytes = .ok info
  listed : Listed info
  small : bytes.length ≤ int64Max

structure Inv (info : RawInfo) (bytes : List UInt8) (reader : Reader) : Prop where
  same : reader.info = info
  cursor_le : reader.cursorSample ≤ info.totalSamples
  bytewise : info.format ≠ .lds → reader.carry = [] ∧
    reader.file = ⟨bytes, info.dataOffset + reader.cursorSample * itemWidth info⟩
  packed : info.format = .lds → ∃ group, Held (reference info bytes) bytes reader.cursorSample 0
    group reader.file ⟨reader.skip, [], reader.carry⟩

/-- `gui_playback_raw_open` leaves the file at its first sample. -/
def Source.start (source : Source) : Reader where
  info := source.info
  file := ⟨source.bytes, source.info.dataOffset⟩
  cursorSample := 0
  skip := 0
  carry := []
  conv16 := .pending

theorem read_packed {bytes : List UInt8} {reader : Reader} {chunk : Nat}
    (spanned : Spanned reader.info bytes) (packed : reader.info.format = .lds)
    (held : Held (reference reader.info bytes) bytes reader.cursorSample 0 group reader.file
      ⟨reader.skip, [], reader.carry⟩)
    (inside : reader.cursorSample + chunk ≤ reader.info.totalSamples) :
    let (file, state) := groups chunk reader.file
      ⟨reader.skip, reader.carry.take chunk, reader.carry.drop chunk⟩
    state.produced = window (reference reader.info bytes) reader.cursorSample chunk ∧
      ∃ group', Held (reference reader.info bytes) bytes (reader.cursorSample + chunk) 0 group'
        file ⟨state.skip, [], state.carry⟩ := by
  rw [(spanned.packed packed).2] at inside
  obtain ⟨finished, group', after⟩ := held_groups packed (held.unload chunk) inside
  obtain ⟨produced, next⟩ := after.advance
  rw [finished] at produced next
  exact ⟨produced, group', next⟩

theorem read_spec {bytes : List UInt8} {reader : Reader} (spanned : Spanned info bytes)
    (listed : Listed info) (inv : Inv info bytes reader) (want : Nat) :
    (rawRead reader want).1 = window (reference info bytes) reader.cursorSample
        (min want (info.totalSamples - reader.cursorSample)) ∧
      (rawRead reader want).2.cursorSample =
        reader.cursorSample + min want (info.totalSamples - reader.cursorSample) ∧
      Inv info bytes (rawRead reader want).2 := by
  obtain ⟨rfl, cursor_le, bytewise, packed⟩ := inv
  unfold rawRead
  split
  · rename_i stops
    have none : min want (reader.info.totalSamples - reader.cursorSample) = 0 := by
      have := spanned.filled
      omega
    rw [none]
    exact ⟨rfl, rfl, rfl, cursor_le, bytewise, packed⟩
  rename_i goes
  obtain ⟨chunk, chunk_eq⟩ : ∃ chunk,
    min want (reader.info.totalSamples - reader.cursorSample) = chunk := ⟨_, rfl⟩
  have inside : reader.cursorSample + chunk ≤ reader.info.totalSamples := by omega
  dsimp only
  rw [chunk_eq]
  split
  · rename_i lds
    obtain ⟨group, held⟩ := packed lds
    obtain ⟨produced, after⟩ := read_packed spanned lds held inside
    have count := congrArg List.length produced
    rw [length_window] at count
    rw [count]
    exact ⟨produced, rfl, rfl, inside, fun other => (other lds).elim, fun _ => after⟩
  · rename_i notLds
    obtain ⟨empty, place⟩ := bytewise notLds
    have ends : reader.info.dataOffset + (reader.cursorSample + chunk) * itemWidth reader.info ≤
        bytes.length :=
      (Nat.add_le_add_left (Nat.mul_le_mul_right _ inside) _).trans (spanned.inside notLds)
    have read := passes_eq { reader with carry := [] } spanned listed notLds
      reader.cursorSample chunk place ends
    rw [empty, List.drop_nil, List.take_nil, List.length_nil, Nat.sub_zero, read,
      List.nil_append, length_window]
    exact ⟨rfl, rfl, rfl, inside, fun _ => ⟨rfl, rfl⟩, fun lds => (notLds lds).elim⟩

theorem seek_spec {bytes : List UInt8} {reader : Reader} (spanned : Spanned info bytes)
    (small : bytes.length ≤ int64Max) (inv : Inv info bytes reader) (target : Nat) :
    (rawSeek reader target).1 = true ∧
      (rawSeek reader target).2.cursorSample = min target (info.totalSamples - 1) ∧
      Inv info bytes (rawSeek reader target).2 := by
  obtain ⟨rfl, cursor_le, bytewise, packed⟩ := inv
  have filled := spanned.filled
  obtain ⟨sample, sample_eq⟩ : ∃ sample,
    min target (reader.info.totalSamples - 1) = sample := ⟨_, rfl⟩
  have inside : sample < reader.info.totalSamples := by omega
  unfold rawSeek
  rw [if_neg filled]
  dsimp only
  rw [sample_eq]
  by_cases lds : reader.info.format = .lds
  · obtain ⟨front, total⟩ := spanned.packed lds
    obtain ⟨group, held⟩ := packed lds
    have there : seekAbs reader.file (reader.info.dataOffset + sample / 4 * 5) =
        some ⟨bytes, sample / 4 * 5⟩ := by
      rw [seekAbs, if_neg (by omega), held.place, front, Nat.zero_add]
    rw [if_pos lds]
    dsimp only
    rw [there]
    refine ⟨rfl, rfl, rfl, inside.le, fun other => (other lds).elim, fun _ => ⟨sample / 4, ?_⟩⟩
    exact {
      place := rfl
      count := by simp only [List.length_nil]; omega
      shown := rfl
      alone := Or.inr rfl
      skip_lt := Nat.mod_lt _ (by decide)
      carry_lt := Nat.zero_lt_succ 3
      bounded := Nat.le_refl 0
      kept := fun _ => rfl }
  · obtain ⟨empty, place⟩ := bytewise lds
    obtain ⟨width, _, _⟩ := spanned.width lds
    have ends := spanned.inside lds
    have before : sample * itemWidth reader.info ≤
        reader.info.totalSamples * itemWidth reader.info := Nat.mul_le_mul_right _ inside.le
    have there : seekAbs reader.file (reader.info.dataOffset + sample * (reader.info.bits / 8)) =
        some ⟨bytes, reader.info.dataOffset + sample * itemWidth reader.info⟩ := by
      rw [seekAbs, ← width, if_neg (by omega), place]
    rw [if_neg lds]
    dsimp only
    rw [there]
    exact ⟨rfl, rfl, rfl, inside.le, fun _ => ⟨rfl, rfl⟩, fun other => (lds other).elim⟩

inductive Call where
  | read (want : Nat)
  | seek (target : Nat)

def perform (reader : Reader) : Call → Reader
  | .read want => (rawRead reader want).2
  | .seek target => (rawSeek reader target).2

def after (reader : Reader) (calls : List Call) : Reader := calls.foldl perform reader

def readAll (reader : Reader) : List Nat → List Int16
  | [] => []
  | want :: rest => (rawRead reader want).1 ++ readAll (rawRead reader want).2 rest

namespace Source
variable (source : Source)

theorem spanned : Spanned source.info source.bytes := spanned_of_open source.raw source.opened

theorem inv_start : Inv source.info source.bytes source.start where
  same := rfl
  cursor_le := Nat.zero_le _
  bytewise _ := ⟨rfl, congrArg (Handle.mk _) (by simp [start])⟩
  packed lds := ⟨0, {
    place := congrArg (Handle.mk _) (source.spanned.packed lds).1
    count := rfl
    shown := rfl
    alone := Or.inl rfl
    skip_lt := Nat.zero_lt_succ 3
    carry_lt := Nat.zero_lt_succ 3
    bounded := Nat.le_refl 0
    kept := fun _ => rfl }⟩

theorem inv_after (calls : List Call) :
    Inv source.info source.bytes (after source.start calls) := by
  suffices kept : ∀ reader, Inv source.info source.bytes reader →
      Inv source.info source.bytes (after reader calls) from kept _ source.inv_start
  induction calls with
  | nil => exact fun _ inv => inv
  | cons call calls ih =>
    intro reader inv
    refine ih _ ?_
    cases call with
    | read want => exact (read_spec source.spanned source.listed inv want).2.2
    | seek target => exact (seek_spec source.spanned source.small inv target).2.2

theorem readAll_eq (wants : List Nat) {reader : Reader}
    (inv : Inv source.info source.bytes reader) :
    readAll reader wants = window (reference source.info source.bytes) reader.cursorSample
      (min wants.sum (source.info.totalSamples - reader.cursorSample)) := by
  induction wants generalizing reader with
  | nil => simp [readAll]
  | cons want wants ih =>
    obtain ⟨samples, cursor, next⟩ := read_spec source.spanned source.listed inv want
    have total : min (want :: wants).sum (source.info.totalSamples - reader.cursorSample) =
        min want (source.info.totalSamples - reader.cursorSample) +
          min wants.sum (source.info.totalSamples - (reader.cursorSample +
            min want (source.info.totalSamples - reader.cursorSample))) := by
      rw [List.sum_cons]
      omega
    rw [readAll, samples, ih next, cursor, total, window_add]

end Source

/-- After any seeks and reads, the next samples of the file are read, as many as there are, however
the reads are cut. -/
theorem raw_reads_exact (source : Source) (calls : List Call) :
    let reader := after source.start calls
    let samples := reference source.info source.bytes
    let rest := source.info.totalSamples - reader.cursorSample
    (∀ want, (rawRead reader want).1 = window samples reader.cursorSample (min want rest) ∧
        (rawRead reader want).2.cursorSample = reader.cursorSample + min want rest) ∧
      (∀ target, (rawSeek reader target).1 = true ∧
        (rawSeek reader target).2.cursorSample = min target (source.info.totalSamples - 1)) ∧
      ∀ wants, readAll reader wants =
        window samples reader.cursorSample (min wants.sum rest) := by
  intro reader samples rest
  have inv := source.inv_after calls
  refine ⟨fun want => ?_, fun target => ?_, fun wants => source.readAll_eq wants inv⟩
  · obtain ⟨shown, moved, _⟩ := read_spec source.spanned source.listed inv want
    exact ⟨shown, moved⟩
  · obtain ⟨done, moved, _⟩ := seek_spec source.spanned source.small inv target
    exact ⟨done, moved⟩

def oneGroup : Source where
  path := []
  format := .lds
  bytes := [0x80, 0x20, 0x08, 0x02, 0x01]
  info := {
    format := .lds
    bits := 10
    dataOffset := 0
    dataBytes := 5
    totalSamples := 4
    realSampleRateHz := NumberText.toDouble ((RateHint.extractMspsHint []).getD 40 * 1000000)
    sampleRate := RawOpen.khzOf ((RateHint.extractMspsHint []).getD 40) }
  raw := by decide
  opened := rfl
  listed := Or.inl (by decide)
  small := by decide

/-- A seek into the group, a read that ends inside it, and the last sample. -/
theorem raw_reads_oneGroup :
    (rawRead (after oneGroup.start [.seek 2, .read 1]) 5).1 =
      window (reference oneGroup.info oneGroup.bytes)
        (after oneGroup.start [.seek 2, .read 1]).cursorSample
        (min 5 (4 - (after oneGroup.start [.seek 2, .read 1]).cursorSample)) :=
  ((raw_reads_exact oneGroup [.seek 2, .read 1]).1 5).1

end MisrcGui.Playback.RawSamples
