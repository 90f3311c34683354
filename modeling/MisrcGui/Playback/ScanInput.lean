import Mathlib.Data.UInt

/-! The input of the length scan (`gui_playback_scan_samples`): one window that libFLAC's reads
consume, and headers that are looked at through the same file handle. -/
namespace MisrcGui.Playback.ScanInput

def int64Max : Nat := 2 ^ 63 - 1

def chunkBytes : Nat := 2 ^ 23

def yieldBytes : Nat := 2 ^ 26

def maxHeaderLen : Nat := 17

/-- An open regular file of the C library. Its end-of-file indicator is never asked for. -/
structure Handle where
  bytes : List UInt8
  offset : Nat

def Handle.fread (handle : Handle) (want : Nat) : List UInt8 × Handle :=
  let data := (handle.bytes.drop handle.offset).take want
  (data, { handle with offset := handle.offset + data.length })

/-- `playback_scan_io_t`; the observer and the cancel flag are asked on each read. -/
structure Io where
  file : Handle
  window : List UInt8
  windowPosition : Nat
  windowOffset : Nat
  fileSize : Nat
  fileReadOffset : Nat
  deliveredOffset : Nat
  audioOffset : Nat
  sinceYield : Nat
  background : Bool
  failed : Bool

structure Weather where
  cancelled : Bool
  pressure : Bool
  waitedOut : Bool
  yielded : Bool
  cancelledLast : Bool

inductive Status where
  | abort
  | endOfStream
  | continue_
deriving DecidableEq

def fail (io : Io) : Status × List UInt8 × Io := (.abort, [], { io with failed := true })

def deliver (io : Io) (want : Nat) (weather : Weather) : Status × List UInt8 × Io :=
  if weather.cancelledLast then fail io
  else
    let bytes := (io.window.drop io.windowPosition).take want
    (.continue_, bytes, { io with
      windowPosition := io.windowPosition + bytes.length
      deliveredOffset := io.deliveredOffset + bytes.length })

def standBack (io : Io) (audio : Nat) (want : Nat) (weather : Weather) :
    Status × List UInt8 × Io :=
  if io.background then
    if weather.pressure && !weather.waitedOut then fail io
    else
      let sinceYield := io.sinceYield + audio
      if yieldBytes ≤ sinceYield then
        let io := { io with sinceYield := sinceYield % yieldBytes }
        if !weather.yielded then fail io else deliver io want weather
      else deliver { io with sinceYield } want weather
  else deliver io want weather

def scanRead (io : Io) (want : Nat) (weather : Weather) : Status × List UInt8 × Io :=
  if want = 0 || io.failed || weather.cancelled then fail io
  else if io.windowPosition = io.window.length then
    if io.fileSize ≤ io.fileReadOffset then (.endOfStream, [], io)
    else
      let io := { io with windowOffset := io.fileReadOffset }
      let (data, file) := io.file.fread chunkBytes
      if data = [] ∨ io.fileSize - io.fileReadOffset < data.length then fail { io with file }
      else
        let previousAudio := io.fileReadOffset - io.audioOffset
        let fileReadOffset := io.fileReadOffset + data.length
        standBack { io with file, window := data, windowPosition := 0, fileReadOffset }
          (fileReadOffset - io.audioOffset - previousAudio) want weather
  else deliver io want weather

def scanTell (io : Io) : Nat := io.deliveredOffset

def seekAbs (file : Handle) (offset : Nat) : Option Handle :=
  if int64Max < offset then none else some { file with offset }

def scanHeader (io : Io) (position : Nat) : Option (List UInt8) × Io :=
  if io.fileSize ≤ position then (none, io)
  else
    let size := min maxHeaderLen (io.fileSize - position)
    if io.windowOffset ≤ position ∧ position - io.windowOffset ≤ io.window.length ∧
        size ≤ io.window.length - (position - io.windowOffset) then
      (some ((io.window.drop (position - io.windowOffset)).take size), io)
    else
      let restore := io.file.offset
      match seekAbs io.file position with
      | none => (none, io)
      | some file =>
        let (header, file) := file.fread size
        match seekAbs file restore with
        | none => (none, { io with file })
        | some file =>
          (if header.length = size then some header else none, { io with file })

/-- `gui_playback_scan_samples` opens the file; its size comes from a signed tell. -/
structure Source where
  bytes : List UInt8
  audioOffset : Nat
  background : Bool
  small : bytes.length ≤ int64Max

def start (source : Source) : Io where
  file := ⟨source.bytes, 0⟩
  window := []
  windowPosition := 0
  windowOffset := 0
  fileSize := source.bytes.length
  fileReadOffset := 0
  deliveredOffset := 0
  audioOffset := source.audioOffset
  sinceYield := 0
  background := source.background
  failed := false

inductive Call where
  | read (want : Nat) (weather : Weather)
  | tell
  | header (position : Nat)

inductive Answer where
  | read (status : Status) (bytes : List UInt8)
  | tell (offset : Nat)
  | header (bytes : Option (List UInt8))
deriving DecidableEq

def callback (io : Io) : Call → Answer × Io
  | .read want weather =>
    let (status, bytes, io) := scanRead io want weather
    (.read status bytes, io)
  | .tell => (.tell (scanTell io), io)
  | .header position =>
    let (bytes, io) := scanHeader io position
    (.header bytes, io)

def after (io : Io) : List Call → Io
  | [] => io
  | call :: rest => after (callback io call).2 rest

def answers (io : Io) : List Call → List Answer
  | [] => []
  | call :: rest => (callback io call).1 :: answers (callback io call).2 rest

def delivered : List Answer → List UInt8
  | [] => []
  | .read _ bytes :: rest => bytes ++ delivered rest
  | _ :: rest => delivered rest

/-! The window holds what the handle has passed, and libFLAC stands inside it. -/

variable {source : Source} {io : Io}

structure Inv (source : Source) (io : Io) : Prop where
  bytes : io.file.bytes = source.bytes
  fileSize : io.fileSize = source.bytes.length
  offset : io.file.offset = io.fileReadOffset
  window : io.window = (source.bytes.drop io.windowOffset).take io.window.length
  window_end : io.windowOffset + io.window.length = io.fileReadOffset
  read_le : io.fileReadOffset ≤ source.bytes.length
  position_le : io.windowPosition ≤ io.window.length
  delivered : io.deliveredOffset = io.windowOffset + io.windowPosition

theorem inv_start (source : Source) : Inv source (start source) where
  bytes := rfl
  fileSize := rfl
  offset := rfl
  window := by simp [start]
  window_end := rfl
  read_le := Nat.zero_le _
  position_le := Nat.le_refl _
  delivered := rfl

theorem Inv.window_drop (inv : Inv source io) (place count : Nat)
    (inside : place + count ≤ io.window.length) :
    (io.window.drop place).take count =
      (source.bytes.drop (io.windowOffset + place)).take count := by
  rw [inv.window, List.drop_take, List.drop_drop, List.take_take, Nat.min_eq_left (by omega)]

structure Reads (source : Source) (io : Io) (want : Nat)
    (result : Status × List UInt8 × Io) : Prop where
  inv : Inv source result.2.2
  bytes : result.2.1 = (source.bytes.drop io.deliveredOffset).take result.2.1.length
  moved : result.2.2.deliveredOffset = io.deliveredOffset + result.2.1.length
  given : result.1 = .continue_ ↔ result.2.1 ≠ []
  few : result.2.1.length ≤ want
  ended : result.1 = .endOfStream → io.deliveredOffset = source.bytes.length

theorem reads_fail (inv : Inv source io) (want : Nat) : Reads source io want (fail io) where
  inv := { inv with }
  bytes := by simp [fail]
  moved := rfl
  given := by simp [fail]
  few := Nat.zero_le _
  ended := by simp [fail]

theorem reads_deliver (inv : Inv source io) (weather : Weather) {want : Nat} (wanted : 0 < want)
    (left : io.windowPosition < io.window.length) :
    Reads source io want (deliver io want weather) := by
  unfold deliver
  split
  · exact reads_fail inv want
  · have count : ((io.window.drop io.windowPosition).take want).length =
        min want (io.window.length - io.windowPosition) := by
      rw [List.length_take, List.length_drop]
    have shown : (io.window.drop io.windowPosition).take want =
        (io.window.drop io.windowPosition).take
          (min want (io.window.length - io.windowPosition)) := by
      rw [← List.length_drop, List.take_eq_take_min]
    exact {
      inv := { inv with
        position_le := by simp only [count]; omega
        delivered := by simp only [inv.delivered]; omega }
      bytes := by
        dsimp only
        rw [count, shown, inv.window_drop _ _ (by omega), ← inv.delivered]
      moved := rfl
      given := by
        simp only [true_iff]
        exact List.ne_nil_of_length_pos (by omega)
      few := by dsimp only; omega
      ended := by simp }

theorem Reads.of_delivered {other : Io} {want : Nat} {result : Status × List UInt8 × Io}
    (reads : Reads source other want result) (same : other.deliveredOffset = io.deliveredOffset) :
    Reads source io want result where
  __ := reads
  bytes := same ▸ reads.bytes
  moved := same ▸ reads.moved
  ended := same ▸ reads.ended

theorem reads_standBack (inv : Inv source io) (audio : Nat) (weather : Weather) {want : Nat}
    (wanted : 0 < want) (left : io.windowPosition < io.window.length) :
    Reads source io want (standBack io audio want weather) := by
  have counted : ∀ sinceYield, Inv source { io with sinceYield } := fun _ => { inv with }
  unfold standBack
  dsimp only
  split
  · split
    · exact reads_fail inv want
    split
    · split
      · exact (reads_fail (counted _) want).of_delivered rfl
      · exact (reads_deliver (counted ((io.sinceYield + audio) % yieldBytes)) weather wanted
          left).of_delivered rfl
    · exact (reads_deliver (counted (io.sinceYield + audio)) weather wanted left).of_delivered rfl
  · exact reads_deliver inv weather wanted left

theorem inv_refilled (inv : Inv source io) (used : io.windowPosition = io.window.length) :
    Inv source { io with
      file := (io.file.fread chunkBytes).2
      window := (io.file.fread chunkBytes).1
      windowPosition := 0
      windowOffset := io.fileReadOffset
      fileReadOffset := io.fileReadOffset + (io.file.fread chunkBytes).1.length } := by
  have count : (io.file.fread chunkBytes).1.length =
      min chunkBytes (source.bytes.length - io.fileReadOffset) := by
    rw [Handle.fread, inv.bytes, inv.offset, List.length_take, List.length_drop]
  have ends := inv.window_end
  have inside := inv.read_le
  exact { inv with
    offset := by simp only [Handle.fread, inv.offset]
    window := by
      simp only [Handle.fread, inv.bytes, inv.offset]
      exact List.prefix_iff_eq_take.mp (List.take_prefix _ _)
    window_end := rfl
    read_le := by dsimp only; omega
    position_le := Nat.zero_le _
    delivered := by
      dsimp only
      rw [inv.delivered, used, ends, Nat.add_zero] }

theorem reads_scanRead (inv : Inv source io) (want : Nat) (weather : Weather) :
    Reads source io want (scanRead io want weather) := by
  unfold scanRead
  split
  · exact reads_fail inv want
  rename_i proceeds
  simp only [Bool.or_eq_true, decide_eq_true_eq, not_or] at proceeds
  have wanted : 0 < want := Nat.pos_of_ne_zero proceeds.1.1
  split
  · rename_i used
    split
    · rename_i ended
      have ends := inv.window_end
      have inside := inv.read_le
      have size := inv.fileSize
      exact {
        inv
        bytes := by simp
        moved := rfl
        given := by simp
        few := Nat.zero_le _
        ended := by
          intro _
          rw [inv.delivered, used]
          omega }
    · rename_i more
      rw [inv.fileSize, Nat.not_le] at more
      have refilled := inv_refilled inv used
      have inside := refilled.read_le
      have some_ : 0 < (io.file.fread chunkBytes).1.length := by
        rw [Handle.fread, inv.bytes, inv.offset, List.length_take, List.length_drop]
        exact Nat.lt_min.mpr ⟨by decide, by omega⟩
      dsimp only
      rw [if_neg]
      · exact (reads_standBack refilled _ weather wanted some_).of_delivered rfl
      · rintro (none | longer)
        · rw [none] at some_
          cases some_
        · rw [inv.fileSize] at longer
          dsimp only at inside
          omega
  · rename_i unused
    exact reads_deliver inv weather wanted (Nat.lt_of_le_of_ne inv.position_le unused)

theorem scanHeader_eq (inv : Inv source io) (position : Nat) :
    scanHeader io position =
      (if position < source.bytes.length then
        some ((source.bytes.drop position).take maxHeaderLen) else none, io) := by
  unfold scanHeader
  rw [inv.fileSize]
  split
  · rename_i behind
    rw [if_neg (Nat.not_lt.mpr behind)]
  rename_i inside
  rw [Nat.not_le] at inside
  rw [if_pos inside]
  have short : (source.bytes.drop position).take maxHeaderLen =
      (source.bytes.drop position).take (min maxHeaderLen (source.bytes.length - position)) := by
    rw [← List.length_drop, List.take_eq_take_min]
  have ends := inv.window_end
  have read := inv.read_le
  have small := source.small
  rw [short]
  dsimp only
  split
  · rename_i held
    rw [inv.window_drop _ _ (by omega), Nat.add_sub_cancel' held.1]
  · have there : seekAbs io.file position = some ⟨source.bytes, position⟩ := by
      rw [seekAbs, if_neg (by omega), inv.bytes]
    have count : ((source.bytes.drop position).take
        (min maxHeaderLen (source.bytes.length - position))).length =
          min maxHeaderLen (source.bytes.length - position) := by
      rw [List.length_take, List.length_drop]
      omega
    have back : ∀ offset, seekAbs ⟨source.bytes, offset⟩ io.file.offset = some io.file := by
      intro offset
      rw [seekAbs, if_neg (by rw [inv.offset]; omega), ← inv.bytes]
    have kept : { io with fileSize := source.bytes.length } = io := by rw [← inv.fileSize]
    simp only [there, Handle.fread, back, count, if_true]
    exact congrArg (Prod.mk _) kept

theorem inv_callback (inv : Inv source io) (call : Call) : Inv source (callback io call).2 := by
  cases call with
  | read want weather => exact (reads_scanRead inv want weather).inv
  | tell => exact inv
  | header position =>
    simp only [callback, scanHeader_eq inv]
    exact inv

theorem inv_after (inv : Inv source io) (calls : List Call) : Inv source (after io calls) := by
  induction calls generalizing io with
  | nil => exact inv
  | cons call calls ih => exact ih (inv_callback inv call)

end MisrcGui.Playback.ScanInput
