import MisrcGui.Playback.FrameHeader
import MisrcGui.Playback.OggHeader

/-! `gui_playback_ogg_remux`: the frame packets of an Ogg FLAC file as a native one. Files are
readable, writes succeed, memory is granted and nothing is cancelled. -/
namespace MisrcGui.Playback.Ogg
open Library Library.Layout

def totalOffset : Nat := 18
def packedOffset : Nat := 10
def totalMod : Nat := 2 ^ 36

inductive RemuxError where
  | packetTooLarge
  | invalidFrame
  | noAudioFrames
deriving DecidableEq

/-- The packets written, and `sum`. -/
structure RemuxState where
  written : List (List UInt8)
  sum : Nat
  failure : Option RemuxError
deriving DecidableEq

def remuxStart : RemuxState := ⟨[], 0, none⟩

def RemuxState.fail (error : RemuxError) (state : RemuxState) : RemuxState :=
  { state with failure := some error }

def remuxPacket (state : RemuxState) (packet : List UInt8) : Except RemuxState RemuxState :=
  if packet = [] then .ok state
  else
    match parseFrameHeader packet with
    | none => .error (state.fail .invalidFrame)
    | some header =>
      .ok { state with
        written := state.written ++ [packet]
        sum := (state.sum + header.blockSize) % 2 ^ 64 }

def readFrameCells (serial : Nat) :
    RemuxState × List UInt8 → PageView → Except (RemuxState × List UInt8)
      (RemuxState × List UInt8) :=
  readCells remuxPacket (RemuxState.fail .packetTooLarge) serial

/-- The loop over the pages, up to the end of the file or of its intact pages. -/
def remuxPages (serial : Nat) (reading : RemuxState × List UInt8) (file : List UInt8) :
    (RemuxState × List UInt8) × Bool :=
  match _read : readPage file with
  | .ok page rest =>
    match readFrameCells serial reading page with
    | .ok next => remuxPages serial next rest
    | .error failed => (failed, false)
  | .eof | .truncated | .bad => (reading, true)
termination_by file.length
decreasing_by exact readPage_rest _read

/-- The 36 bits of the total, in the low part of the packed word at an offset. -/
def withTotal (bytes : List UInt8) (offset total : Nat) : List UInt8 :=
  bytes.take offset ++
    (BigEndian.encode 8 (BigEndian.decode (field bytes offset 8) / totalMod * totalMod + total) ++
      bytes.drop (offset + 8))

def commentBlock : Option (List UInt8) → List UInt8
  | none => []
  | some comment => 0x84 :: (BigEndian.encode 3 comment.length ++ comment)

def nativeHead (streaminfo : List UInt8) (comment : Option (List UInt8)) : List UInt8 :=
  nativeMarker ++ ([if comment.isSome then 0x00 else 0x80, 0, 0, 34] ++
    (streaminfo ++ commentBlock comment))

structure Remux where
  output : List UInt8
  totalSamples : Nat
  failure : Option RemuxError
deriving DecidableEq

def remux (file : List UInt8) (header : Header) : Remux :=
  match remuxPages header.serial (remuxStart, []) (file.drop header.audioOffset) with
  | ((state, _), good) =>
    let output := nativeHead (withTotal header.streaminfo packedOffset 0) header.vorbisComment ++
      state.written.flatten
    if !good then ⟨output, 0, state.failure⟩
    else if state.written = [] then ⟨output, 0, some .noAudioFrames⟩
    else
      ⟨withTotal output totalOffset (if state.sum < totalMod then state.sum else 0), state.sum, none⟩

/-- `readHeader` and then `remux`. -/
def remuxFile (file : List UInt8) : Except HeaderError Remux := (readHeader file).map (remux file)

theorem remuxPages_ok {serial : Nat} {reading next : RemuxState × List UInt8} {page : PageView}
    {file rest : List UInt8} (read : readPage file = .ok page rest)
    (taken : readFrameCells serial reading page = .ok next) :
    remuxPages serial reading file = remuxPages serial next rest := by
  rw [remuxPages]
  split
  · next page' rest' same =>
    cases read.symm.trans same
    rw [taken]
  all_goals next same => exact absurd (read.symm.trans same) nofun

theorem remuxPages_error {serial : Nat} {reading failed : RemuxState × List UInt8}
    {page : PageView} {file rest : List UInt8} (read : readPage file = .ok page rest)
    (taken : readFrameCells serial reading page = .error failed) :
    remuxPages serial reading file = (failed, false) := by
  rw [remuxPages]
  split
  · next page' rest' same =>
    cases read.symm.trans same
    rw [taken]
  all_goals next same => exact absurd (read.symm.trans same) nofun

theorem remuxPages_stop {serial : Nat} {reading : RemuxState × List UInt8} {file : List UInt8}
    (stops : readPage file = .eof ∨ readPage file = .truncated) :
    remuxPages serial reading file = (reading, true) := by
  rw [remuxPages]
  split
  · next page rest same => rcases stops with ends | ends <;> exact absurd (ends.symm.trans same) nofun
  all_goals rfl

theorem remuxPages_encode (serial : Nat) (reading : RemuxState × List UInt8) (pages : List Page)
    (rest : List UInt8) :
    remuxPages serial reading (encodePages pages ++ rest) =
      if (Scanner.scan (readFrameCells serial) reading (pages.map Page.view)).2 then
        remuxPages serial
          (Scanner.scan (readFrameCells serial) reading (pages.map Page.view)).1 rest
      else Scanner.scan (readFrameCells serial) reading (pages.map Page.view) := by
  induction pages generalizing reading with
  | nil => rfl
  | cons page pages ih =>
    have first : readPage (encodePages (page :: pages) ++ rest) =
        .ok page.view (encodePages pages ++ rest) := by
      rw [encodePages, List.flatMap_cons, List.append_assoc, readPage_encode]
      rfl
    rw [List.map_cons]
    cases taken : readFrameCells serial reading page.view with
    | ok next => rw [remuxPages_ok first taken, ih, Scanner.scan_ok _ taken]
    | error failed =>
      rw [remuxPages_error first taken, Scanner.scan_error _ taken, if_neg Bool.false_ne_true]

def blockSizeOf (packet : List UInt8) : Nat :=
  ((parseFrameHeader packet).map FrameHeader.blockSize).getD 0

def blockSizes (packets : List (List UInt8)) : Nat := (packets.map blockSizeOf).sum

def IsFrame (packet : List UInt8) : Prop := packet = [] ∨ (parseFrameHeader packet).isSome

/-- The total that the 36 bits hold, from a 64-bit sum. -/
def shownTotal (packets : List (List UInt8)) : Nat :=
  if blockSizes packets % 2 ^ 64 < totalMod then blockSizes packets % 2 ^ 64 else 0

def nativeFlac (streaminfo : List UInt8) (comment : Option (List UInt8))
    (packets : List (List UInt8)) : List UInt8 :=
  nativeHead (withTotal streaminfo packedOffset (shownTotal packets)) comment ++ packets.flatten

theorem scan_remuxPacket {packets : List (List UInt8)} {state : RemuxState}
    (frames : ∀ packet ∈ packets, IsFrame packet) (sum : state.sum < 2 ^ 64) :
    Scanner.scan remuxPacket state packets =
      ({ state with
        written := state.written ++ packets.filter (· ≠ [])
        sum := (state.sum + blockSizes packets) % 2 ^ 64 }, true) := by
  induction packets generalizing state with
  | nil =>
    have kept : (state.sum + blockSizes []) % 2 ^ 64 = state.sum := Nat.mod_eq_of_lt sum
    rw [kept]
    simp
  | cons packet rest ih =>
    have later : ∀ packet ∈ rest, IsFrame packet := fun other member =>
      frames other (List.mem_cons_of_mem _ member)
    rcases frames packet List.mem_cons_self with rfl | frame
    · have skipped : remuxPacket state [] = .ok state := if_pos rfl
      have none : blockSizes ([] :: rest) = blockSizes rest := by
        rw [blockSizes, List.map_cons, List.sum_cons]
        exact Nat.zero_add _
      rw [Scanner.scan_ok _ skipped, ih later sum, none]
      simp
    · obtain ⟨header, parsed⟩ := Option.isSome_iff_exists.mp frame
      have nonempty : packet ≠ [] := by
        rintro rfl
        exact absurd frame Bool.false_ne_true
      have taken : remuxPacket state packet = .ok { state with
          written := state.written ++ [packet]
          sum := (state.sum + header.blockSize) % 2 ^ 64 } := by
        unfold remuxPacket
        rw [if_neg nonempty, parsed]
      have size : blockSizes (packet :: rest) = header.blockSize + blockSizes rest := by
        rw [blockSizes, List.map_cons, List.sum_cons, blockSizeOf, parsed]
        rfl
      rw [Scanner.scan_ok _ taken, ih later (Nat.mod_lt _ (by decide)), size]
      simp [nonempty, Nat.add_assoc]

section
variable {bytes front rest : List UInt8} {offset total earlier : Nat}

theorem length_withTotal (inside : offset + 8 ≤ bytes.length) :
    (withTotal bytes offset total).length = bytes.length := by
  simp [withTotal]
  omega

theorem withTotal_append (inside : offset + 8 ≤ front.length) :
    withTotal (front ++ rest) offset total = withTotal front offset total ++ rest := by
  unfold withTotal
  rw [List.take_append_of_le_length (by omega), field_append rest inside,
    List.drop_append_of_le_length inside]
  simp

theorem withTotal_behind :
    withTotal (front ++ rest) (front.length + offset) total =
      front ++ withTotal rest offset total := by
  unfold withTotal field
  rw [Nat.add_assoc, List.take_length_add_append, List.drop_length_add_append,
    List.drop_length_add_append, List.append_assoc]

theorem withTotal_withTotal (inside : offset + 8 ≤ bytes.length) (small : earlier < totalMod) :
    withTotal (withTotal bytes offset earlier) offset total = withTotal bytes offset total := by
  have fieldLength := length_field inside
  have bound := BigEndian.decode_lt (field bytes offset 8)
  have word : BigEndian.decode (field (withTotal bytes offset earlier) offset 8) =
      BigEndian.decode (field bytes offset 8) / totalMod * totalMod + earlier := by
    have layout := cut_flatten (bytes.take offset) [BigEndian.encode 8
      (BigEndian.decode (field bytes offset 8) / totalMod * totalMod + earlier),
      bytes.drop (offset + 8)]
    rw [List.length_take_of_le (by omega)] at layout
    simp only [List.map_cons, BigEndian.length_encode, cut, List.cons.injEq, List.flatten_cons,
      List.flatten_nil, List.append_nil] at layout
    rw [withTotal, layout.1, BigEndian.decode_encode, Nat.mod_eq_of_lt]
    rw [fieldLength] at bound
    unfold totalMod at *
    omega
  have high : (BigEndian.decode (field bytes offset 8) / totalMod * totalMod + earlier) / totalMod =
      BigEndian.decode (field bytes offset 8) / totalMod := by
    unfold totalMod at *
    omega
  rw [withTotal, word, high, withTotal, withTotal]
  have before : (bytes.take offset).length = offset := List.length_take_of_le (by omega)
  have behind : ∀ word : List UInt8, word.length = 8 →
      (bytes.take offset ++ (word ++ bytes.drop (offset + 8))).drop (offset + 8) =
        bytes.drop (offset + 8) := by
    intro word width
    rw [← List.append_assoc]
    exact List.drop_left' (by rw [List.length_append, before, width])
  rw [List.take_left' before, behind _ (BigEndian.length_encode 8 _)]

end

theorem withTotal_nativeHead {streaminfo : List UInt8} (length : streaminfo.length = 34)
    (comment : Option (List UInt8)) (total : Nat) (frames : List UInt8) :
    withTotal (nativeHead (withTotal streaminfo packedOffset 0) comment ++ frames) totalOffset
        total =
      nativeHead (withTotal streaminfo packedOffset total) comment ++ frames := by
  have inside : packedOffset + 8 ≤ streaminfo.length := by
    rw [length]
    decide
  have kept : packedOffset + 8 ≤ (withTotal streaminfo packedOffset 0).length := by
    rw [length_withTotal inside]
    exact inside
  have split : ∀ streaminfo : List UInt8, nativeHead streaminfo comment ++ frames =
      (nativeMarker ++ [if comment.isSome then 0x00 else 0x80, 0, 0, 34]) ++
        (streaminfo ++ (commentBlock comment ++ frames)) := by
    intro streaminfo
    simp [nativeHead]
  have place : totalOffset =
      (nativeMarker ++ [if comment.isSome then (0x00 : UInt8) else 0x80, 0, 0, 34]).length +
        packedOffset :=
    rfl
  rw [split, split, place, withTotal_behind, withTotal_append kept,
    withTotal_withTotal inside (by decide)]

structure Stream where
  header : HeaderPages
  frames : List (List UInt8)
  audio : List Page
  flagged : Flagged false (logical header.serial audio)
  laced : lacedCells (logical header.serial audio) = frames.flatMap (Lacing.cells 255)
  isFrame : ∀ packet ∈ frames, IsFrame packet
  fits : ∀ packet ∈ frames, packet.length ≤ maxPacketBytes

def wholePages : List Page → Nat → List Page
  | [], _ => []
  | page :: rest, count =>
    if page.encode.length ≤ count then page :: wholePages rest (count - page.encode.length) else []

theorem wholePages_prefix (pages : List Page) (count : Nat) :
    ∃ later, pages = wholePages pages count ++ later := by
  induction pages generalizing count with
  | nil => exact ⟨[], rfl⟩
  | cons page rest ih =>
    unfold wholePages
    by_cases fits : page.encode.length ≤ count
    · obtain ⟨later, split⟩ := ih (count - page.encode.length)
      rw [if_pos fits]
      exact ⟨later, congrArg (page :: ·) split⟩
    · rw [if_neg fits]
      exact ⟨page :: rest, rfl⟩

theorem wholePages_all {pages : List Page} {count : Nat}
    (all : (encodePages pages).length ≤ count) : wholePages pages count = pages := by
  induction pages generalizing count with
  | nil => rfl
  | cons page rest ih =>
    rw [encodePages, List.flatMap_cons, List.length_append] at all
    unfold wholePages
    rw [if_pos (by omega), ih (by unfold encodePages; omega)]

theorem take_encodePages (pages : List Page) (count : Nat) : ∃ tail,
    (encodePages pages).take count = encodePages (wholePages pages count) ++ tail ∧
      (readPage tail = .eof ∨ readPage tail = .truncated) := by
  induction pages generalizing count with
  | nil => exact ⟨[], by simp [encodePages, wholePages], Or.inl (if_pos rfl)⟩
  | cons page rest ih =>
    unfold wholePages
    by_cases fits : page.encode.length ≤ count
    · obtain ⟨tail, split, stops⟩ := ih (count - page.encode.length)
      refine ⟨tail, ?_, stops⟩
      unfold encodePages at split ⊢
      rw [if_pos fits, List.flatMap_cons, List.flatMap_cons, List.take_append, split,
        List.take_of_length_le fits, List.append_assoc]
    · rw [if_neg fits]
      refine ⟨page.encode.take count, ?_, ?_⟩
      · unfold encodePages
        rw [List.flatMap_cons, List.flatMap_nil, List.nil_append,
          List.take_append_of_le_length (by omega)]
      · by_cases none : count = 0
        · rw [none, List.take_zero]
          exact Or.inl (if_pos rfl)
        · exact Or.inr (readPage_truncated page (Nat.pos_of_ne_zero none) (Nat.lt_of_not_le fits))

namespace Stream
variable (stream : Stream)

def file : List UInt8 := encodePages stream.header.pages ++ encodePages stream.audio

def headerBytes : Nat := (encodePages stream.header.pages).length

def intact (count : Nat) : List Page := wholePages stream.audio (count - stream.headerBytes)

def ended (count : Nat) : List (List UInt8) :=
  stream.frames.take
    ((lacedCells (logical stream.header.serial (stream.intact count))).countP fun cell =>
      cell.length ≠ 255)

theorem ended_isFrame (count : Nat) : ∀ packet ∈ stream.ended count, IsFrame packet :=
  fun packet member => stream.isFrame packet (List.mem_of_mem_take member)

theorem scan_intact (count : Nat) : ∃ carry,
    Scanner.scan (readFrameCells stream.header.serial.toNat) (remuxStart, [])
        ((stream.intact count).map Page.view) =
      ((⟨(stream.ended count).filter (· ≠ []), blockSizes (stream.ended count) % 2 ^ 64, none⟩,
        carry), true) := by
  obtain ⟨later, split⟩ := wholePages_prefix stream.audio (count - stream.headerBytes)
  have flagged := stream.flagged
  rw [split, logical_append] at flagged
  have whole : Lacing.assemble 255 [] (lacedCells (logical stream.header.serial
      (stream.intact count)) ++ lacedCells (logical stream.header.serial later)) =
      (stream.frames, []) := by
    unfold intact
    rw [← lacedCells_append, ← logical_append, ← split, stream.laced]
    exact Lacing.assemble_flatMap (by decide) _
  have packets := Lacing.assemble_front (congrArg Prod.fst whole)
  have front : Flagged false (logical stream.header.serial (stream.intact count)) := flagged.front
  exists (Lacing.assemble 255 [] (lacedCells (logical stream.header.serial
    (stream.intact count)))).2
  unfold readFrameCells
  rw [scan_readCells front fun _ => rfl]
  apply Lacing.scan_step whole stream.fits
  rw [packets]
  have scanned := scan_remuxPacket (stream.ended_isFrame count)
    (show remuxStart.sum < 2 ^ 64 by decide)
  rw [show remuxStart.sum + blockSizes (stream.ended count) = blockSizes (stream.ended count) from
    Nat.zero_add _] at scanned
  exact scanned

theorem remuxFile_take {count : Nat} (headers : stream.headerBytes ≤ count) :
    remuxFile (stream.file.take count) =
      .ok (if ∃ packet ∈ stream.ended count, packet ≠ [] then
          ⟨nativeFlac stream.header.streaminfo (carriedComment stream.header.metadata)
            (stream.ended count), blockSizes (stream.ended count) % 2 ^ 64, none⟩
        else
          ⟨nativeHead (withTotal stream.header.streaminfo packedOffset 0)
            (carriedComment stream.header.metadata), 0, some .noAudioFrames⟩) := by
  obtain ⟨tail, split, stops⟩ := take_encodePages stream.audio (count - stream.headerBytes)
  obtain ⟨carry, scanned⟩ := stream.scan_intact count
  have cut : stream.file.take count = encodePages stream.header.pages ++
      (encodePages (stream.intact count) ++ tail) := by
    rw [file, List.take_append, List.take_of_length_le headers]
    exact congrArg (encodePages stream.header.pages ++ ·) split
  have pages : remuxPages stream.header.serial.toNat (remuxStart, [])
      (encodePages (stream.intact count) ++ tail) =
      ((⟨(stream.ended count).filter (· ≠ []), blockSizes (stream.ended count) % 2 ^ 64, none⟩,
        carry), true) := by
    rw [remuxPages_encode, scanned, if_pos rfl, remuxPages_stop stops]
  rw [cut, remuxFile, stream.header.readHeader_encode]
  apply congrArg Except.ok
  unfold remux
  rw [List.drop_left, pages]
  simp only [List.flatten_filter_ne_nil]
  by_cases some : ∃ packet ∈ stream.ended count, packet ≠ []
  · have written : (stream.ended count).filter (· ≠ []) ≠ [] := by
      simpa [List.filter_eq_nil_iff] using some
    rw [if_pos some, if_neg (by decide), if_neg written,
      withTotal_nativeHead stream.header.streaminfo_length]
    rfl
  · have none : (stream.ended count).filter (· ≠ []) = [] := by
      simpa [List.filter_eq_nil_iff] using some
    have bare : (stream.ended count).flatten = [] := by
      rw [← List.flatten_filter_ne_nil, none]
      rfl
    rw [if_neg some, if_neg (by decide), if_pos none, bare, List.append_nil]

theorem ended_file : stream.ended stream.file.length = stream.frames := by
  have all : stream.intact stream.file.length = stream.audio := by
    apply wholePages_all
    rw [file, List.length_append, headerBytes]
    omega
  have count : (Lacing.assemble 255 [] (lacedCells (logical stream.header.serial
      stream.audio))).1.length = _ :=
    Lacing.length_assemble [] _
  rw [stream.laced, Lacing.assemble_flatMap (by decide)] at count
  rw [ended, all, stream.laced, ← count, List.take_length]

theorem headers_of_ended {count : Nat} (some : ∃ packet ∈ stream.ended count, packet ≠ []) :
    stream.headerBytes ≤ count := by
  by_contra short
  have none : stream.intact count = [] := by
    have zero : count - stream.headerBytes = 0 := by omega
    rw [intact, zero]
    cases stream.audio with
    | nil => rfl
    | cons page rest =>
      have length := page.length_encode
      unfold pageHeaderBytes at length
      exact if_neg (by omega)
  obtain ⟨packet, member, -⟩ := some
  rw [ended, none] at member
  exact absurd member List.not_mem_nil

/-- The remux undoes the pagination of every stream that holds a frame, and of its beginnings
that do. -/
theorem remux_undoes_pagination (some : ∃ packet ∈ stream.frames, packet ≠ []) :
    remuxFile stream.file =
        .ok ⟨nativeFlac stream.header.streaminfo (carriedComment stream.header.metadata)
          stream.frames, blockSizes stream.frames % 2 ^ 64, none⟩ ∧
      ∀ count, (∃ packet ∈ stream.ended count, packet ≠ []) →
        remuxFile (stream.file.take count) =
          .ok ⟨nativeFlac stream.header.streaminfo (carriedComment stream.header.metadata)
            (stream.ended count), blockSizes (stream.ended count) % 2 ^ 64, none⟩ := by
  have cut : ∀ count, (∃ packet ∈ stream.ended count, packet ≠ []) →
      remuxFile (stream.file.take count) =
        .ok ⟨nativeFlac stream.header.streaminfo (carriedComment stream.header.metadata)
          (stream.ended count), blockSizes (stream.ended count) % 2 ^ 64, none⟩ := by
    intro count ends
    rw [stream.remuxFile_take (stream.headers_of_ended ends), if_pos ends]
  refine ⟨?_, cut⟩
  have whole := cut stream.file.length (by rwa [ended_file])
  rwa [ended_file, List.take_length] at whole

end Stream

theorem remuxFile_too_long (header : HeaderPages) {audio : List Page} {frames : List (List UInt8)}
    (flagged : Flagged false (logical header.serial audio))
    (laced : lacedCells (logical header.serial audio) = frames.flatMap (Lacing.cells 255))
    (long : ∃ packet ∈ frames, maxPacketBytes < packet.length) : ∃ output failure,
    remuxFile (encodePages header.pages ++ encodePages audio) = .ok ⟨output, 0, some failure⟩ := by
  have whole : Lacing.assemble 255 [] (lacedCells (logical header.serial audio) ++ []) =
      (frames, []) := by
    rw [List.append_nil, laced]
    exact Lacing.assemble_flatMap (by decide) _
  have stopped : (Scanner.scan (Lacing.step maxPacketBytes (RemuxState.fail .packetTooLarge)
      remuxPacket 255) (remuxStart, []) (lacedCells (logical header.serial audio))).2 = false := by
    apply Lacing.scan_step_too_long whole
    rw [List.append_nil] at whole
    rwa [whole]
  have read : Scanner.scan (readFrameCells header.serial.toNat) (remuxStart, [])
      (audio.map Page.view) = _ :=
    scan_readCells flagged fun _ => rfl
  cases scanned : Scanner.scan (Lacing.step maxPacketBytes (RemuxState.fail .packetTooLarge)
      remuxPacket 255) (remuxStart, []) (lacedCells (logical header.serial audio)) with
  | mk reading good =>
    obtain ⟨state, carry⟩ := reading
    rw [scanned] at stopped read
    cases stopped
    have failed : state.failure.isSome := by
      apply Lacing.scan_step_failed (fun state => state.failure.isSome) (fun _ => rfl) _ scanned
      intro state packet failed refused
      unfold remuxPacket at refused
      split at refused
      · exact absurd refused nofun
      · split at refused
        · cases refused
          rfl
        · exact absurd refused nofun
    obtain ⟨failure, named⟩ := Option.isSome_iff_exists.mp failed
    have pages := remuxPages_encode header.serial.toNat (remuxStart, []) audio []
    rw [read, List.append_nil, if_neg Bool.false_ne_true] at pages
    rw [remuxFile, header.readHeader_encode]
    refine ⟨nativeHead (withTotal header.streaminfo packedOffset 0)
      (carriedComment header.metadata) ++ state.written.flatten, failure, congrArg Except.ok ?_⟩
    unfold remux
    rw [List.drop_left, pages]
    simp only [named]
    rfl

def frameCells (frames : List (List UInt8)) : List (List UInt8) :=
  frames.flatMap (Lacing.cells 255)

theorem frameCells_le (frames : List (List UInt8)) :
    ∀ cell ∈ frameCells frames, cell.length ≤ 255 := by
  intro cell member
  obtain ⟨packet, -, inside⟩ := List.mem_flatMap.mp member
  exact Lacing.cells_le (by decide) inside

def plainAudio (header : HeaderPages) (frames : List (List UInt8)) : List Page :=
  cellPages header.serial (UInt32.ofNat header.pages.length) false (frameCells frames)

theorem plainAudio_spec (header : HeaderPages) (frames : List (List UInt8)) :
    Flagged false (logical header.serial (plainAudio header frames)) ∧
      lacedCells (logical header.serial (plainAudio header frames)) =
        frames.flatMap (Lacing.cells 255) := by
  unfold plainAudio
  rw [logical_cellPages]
  exact ⟨flagged_cellPages (frameCells_le frames), lacedCells_cellPages (frameCells_le frames)⟩

def plainStream (header : HeaderPages) (frames : List (List UInt8))
    (isFrame : ∀ packet ∈ frames, IsFrame packet)
    (fits : ∀ packet ∈ frames, packet.length ≤ maxPacketBytes) : Stream where
  header
  frames
  audio := plainAudio header frames
  flagged := (plainAudio_spec header frames).1
  laced := (plainAudio_spec header frames).2
  isFrame
  fits

/-- 4096 samples, numbered 0. -/
def quietFrame : List UInt8 := [0xFF, 0xF8, 0xC9, 0x18, 0x00, 0xC2]

theorem quietFrame_isFrame : IsFrame quietFrame := Or.inr (by decide +kernel)

def zeroInfo : List UInt8 := List.replicate 34 0

def bareHeader : HeaderPages := plainHeader 1 zeroInfo [] rfl (by decide)

def quietStream : Stream :=
  plainStream bareHeader [quietFrame, [], quietFrame]
    (by
      intro packet member
      rcases List.mem_cons.mp member with rfl | member
      · exact quietFrame_isFrame
      · rcases List.mem_cons.mp member with rfl | member
        · exact Or.inl rfl
        · rw [List.mem_singleton.mp member]
          exact quietFrame_isFrame)
    (by decide)

/-- Without its last byte the stream loses its second frame. -/
theorem remux_undoes_pagination_quiet :
    remuxFile quietStream.file =
        .ok ⟨nativeFlac zeroInfo none [quietFrame, [], quietFrame], 8192, none⟩ ∧
      remuxFile (quietStream.file.take (quietStream.file.length - 1)) =
        .ok ⟨nativeFlac zeroInfo none [quietFrame, []], 4096, none⟩ := by
  have frame : ∃ packet ∈ quietStream.frames, packet ≠ [] :=
    ⟨quietFrame, List.mem_cons_self, List.cons_ne_nil _ _⟩
  have undone := quietStream.remux_undoes_pagination frame
  have both : blockSizes [quietFrame, [], quietFrame] % 2 ^ 64 = 8192 := by decide +kernel
  have first : blockSizes [quietFrame, []] % 2 ^ 64 = 4096 := by decide +kernel
  have ended : quietStream.ended (quietStream.file.length - 1) = [quietFrame, []] := by
    decide +kernel
  have cut := undone.2 (quietStream.file.length - 1) (by
    rw [ended]
    exact ⟨quietFrame, List.mem_cons_self, List.cons_ne_nil _ _⟩)
  rw [ended, first] at cut
  rw [show quietStream.frames = [quietFrame, [], quietFrame] from rfl, both] at undone
  exact ⟨undone.1, cut⟩

/-- The remux of a file is the native file of its parts, with their exact total. -/
def Undone (file streaminfo : List UInt8) (comment : Option (List UInt8))
    (frames : List (List UInt8)) : Prop :=
  ∃ total, remuxFile file =
    .ok ⟨nativeHead (withTotal streaminfo packedOffset
      (if blockSizes frames < totalMod then blockSizes frames else 0)) comment ++ frames.flatten,
      total, none⟩

def foreignPage : Page := cellPage 2 0 0x02 [0x01, 0x76]

theorem not_undone_foreign (rest streaminfo : List UInt8) (comment : Option (List UInt8))
    (frames : List (List UInt8)) :
    ¬Undone (foreignPage.encode ++ rest) streaminfo comment frames := by
  have refused : headerPage ⟨none, headerStart, []⟩ foreignPage.view = .error .badMappingHeader := by
    decide +kernel
  have read : readHeader (foreignPage.encode ++ rest) = .error .badMappingHeader := by
    rw [readHeader, show headerPageLimit = 4095 + 1 from rfl, headerPages,
      if_neg (by decide), readPage_encode]
    simp only [refused]
  rintro ⟨total, same⟩
  rw [remuxFile, read] at same
  cases same

theorem headerPages_skip {loop : HeaderLoop} {serial : Nat} (named : loop.serial = some serial)
    (going : loop.reading.1.done = false) {page : Page} (other : page.view.serial ≠ serial)
    (count offset : Nat) (rest : List UInt8) :
    ∃ last, headerPages count loop offset (encodePages (List.replicate count page) ++ rest) =
      .ok (loop, last) := by
  induction count generalizing offset with
  | zero => exact ⟨offset, rfl⟩
  | succ count ih =>
    have skipped : headerPage loop page.view = .ok loop := by
      unfold headerPage
      rw [if_neg (by simp [named]), if_pos (by simpa [named] using Ne.symm other)]
    obtain ⟨last, later⟩ := ih (offset + page.view.pageLen)
    refine ⟨last, ?_⟩
    rw [headerPages, if_neg (by simp [going]), encodePages, List.replicate_succ,
      List.flatMap_cons, List.append_assoc, readPage_encode]
    simp only [skipped]
    exact later

theorem not_undone_late (header : HeaderPages) {first : Page} {later : List Page}
    (pages : header.pages = first :: later) (more : later ≠ []) {foreign : Page}
    (other : foreign.serial ≠ header.serial) (rest streaminfo : List UInt8)
    (comment : Option (List UInt8)) (frames : List (List UInt8)) :
    ¬Undone (first.encode ++ (encodePages (List.replicate 4095 foreign) ++ rest)) streaminfo
      comment frames := by
  have split : header.pages = [first] ++ later := pages
  obtain ⟨last, scanned, done, -⟩ := header.read_front split
  have fewer := header.ended_lt split more
  have going : last.done = false := by rw [done, decide_eq_false fewer.ne]
  obtain ⟨page, others, start, bos, own⟩ := header.first
  have same : first = page := (List.cons.inj (pages.symm.trans start)).1
  cases taken : readHeaderCells header.serial.toNat (headerStart, []) first.view with
  | error failed =>
    rw [List.map_cons, Scanner.scan_error _ taken] at scanned
    exact absurd (congrArg Prod.snd scanned) Bool.false_ne_true
  | ok next =>
    rw [List.map_cons, Scanner.scan_ok _ taken] at scanned
    have reached : next.1 = last := congrArg (fun outcome => outcome.1.1) scanned
    have stepped : headerPage ⟨none, (headerStart, [])⟩ first.view =
        .ok ⟨some header.serial.toNat, next⟩ := by
      apply headerPage_read _ taken
      rw [same]
      exact Or.inr ⟨rfl, bos, congrArg UInt32.toNat own⟩
    have open' : (HeaderLoop.mk (some header.serial.toNat) next).reading.1.done = false := by
      rw [reached]
      exact going
    obtain ⟨offset, skipped⟩ := headerPages_skip rfl open'
      (fun equal => other (UInt32.toNat_inj.mp equal)) 4095 (0 + first.view.pageLen) rest
    have read : readHeader (first.encode ++ (encodePages (List.replicate 4095 foreign) ++ rest)) =
        .error .incomplete := by
      rw [readHeader, show headerPageLimit = 4095 + 1 from rfl, headerPages,
        if_neg (by decide), readPage_encode]
      simp only [stepped, skipped]
      rw [if_pos (by simp [reached, going])]
    rintro ⟨total, undone⟩
    rw [remuxFile, read] at undone
    cases undone

theorem not_undone_too_long (header : HeaderPages) {frames : List (List UInt8)}
    (long : ∃ packet ∈ frames, maxPacketBytes < packet.length) (streaminfo : List UInt8)
    (comment : Option (List UInt8)) :
    ¬Undone (encodePages header.pages ++ encodePages (plainAudio header frames)) streaminfo
      comment frames := by
  obtain ⟨flagged, laced⟩ := plainAudio_spec header frames
  obtain ⟨output, failure, failed⟩ := remuxFile_too_long header flagged laced long
  rintro ⟨total, undone⟩
  rw [failed] at undone
  exact absurd undone nofun

theorem Stream.remuxFile_file (stream : Stream) :
    remuxFile stream.file =
      .ok (if ∃ packet ∈ stream.frames, packet ≠ [] then
          ⟨nativeFlac stream.header.streaminfo (carriedComment stream.header.metadata)
            stream.frames, blockSizes stream.frames % 2 ^ 64, none⟩
        else
          ⟨nativeHead (withTotal stream.header.streaminfo packedOffset 0)
            (carriedComment stream.header.metadata), 0, some .noAudioFrames⟩) := by
  have headers : stream.headerBytes ≤ stream.file.length := by
    rw [file, List.length_append]
    exact Nat.le_add_right _ _
  have read := stream.remuxFile_take headers
  rwa [stream.ended_file, List.take_length] at read

theorem not_undone_empty (stream : Stream) (none : ∀ packet ∈ stream.frames, packet = [])
    (streaminfo : List UInt8) (comment : Option (List UInt8)) :
    ¬Undone stream.file streaminfo comment stream.frames := by
  rintro ⟨total, undone⟩
  rw [stream.remuxFile_file, if_neg (by simpa using none)] at undone
  have failures := congrArg (Except.map Remux.failure) undone
  exact absurd (Except.ok.inj failures) nofun

theorem head_of_undone (stream : Stream) (some : ∃ packet ∈ stream.frames, packet ≠ [])
    {streaminfo : List UInt8} {comment : Option (List UInt8)}
    (undone : Undone stream.file streaminfo comment stream.frames) (count : Nat) :
    (nativeHead (withTotal stream.header.streaminfo packedOffset (shownTotal stream.frames))
        (carriedComment stream.header.metadata) ++ stream.frames.flatten).take count =
      (nativeHead (withTotal streaminfo packedOffset
        (if blockSizes stream.frames < totalMod then blockSizes stream.frames else 0)) comment ++
          stream.frames.flatten).take count := by
  obtain ⟨total, undone⟩ := undone
  rw [stream.remuxFile_file, if_pos some] at undone
  have outputs := congrArg (Except.map Remux.output) undone
  exact congrArg (List.take count) (Except.ok.inj outputs)

/-- Comments of more than 64 KiB are left behind. -/
def hugeComment : Block where
  type := 4
  payload := List.replicate 65537 0
  type_lt := by decide
  type_ne := by decide
  fits := by
    rw [List.length_replicate]
    decide

theorem length_hugeComment : hugeComment.payload.length = 65537 := List.length_replicate

theorem few_hugeComment : (metadataCells [hugeComment]).length < headerPageLimit := by
  rw [metadataCells, metadataPackets, metadataPackets, List.flatMap_singleton,
    Lacing.length_cells, length_blockBytes, length_hugeComment]
  decide

theorem carried_hugeComment : carriedComment [hugeComment] = none := by
  have refused : hugeComment.carried = false := by
    rw [Block.carried, length_hugeComment]
    decide
  simp [carriedComment, refused]

def commentedStream : Stream :=
  plainStream (plainHeader 1 zeroInfo [hugeComment] rfl few_hugeComment) [quietFrame]
    (by
      intro packet member
      rw [List.mem_singleton.mp member]
      exact quietFrame_isFrame)
    (by decide)

theorem not_undone_commented :
    ¬Undone commentedStream.file zeroInfo (some hugeComment.payload) commentedStream.frames := by
  intro undone
  have heads := head_of_undone commentedStream ⟨quietFrame, List.mem_cons_self,
    List.cons_ne_nil _ _⟩ undone 5
  have comment : carriedComment commentedStream.header.metadata = none := carried_hugeComment
  rw [comment] at heads
  simp [nativeHead, nativeMarker] at heads

/-- 32768 samples. -/
def loudFrame : List UInt8 := [0xFF, 0xF8, 0xF9, 0x18, 0x00, 0x23]

theorem loudFrame_isFrame : IsFrame loudFrame := Or.inr (by decide +kernel)

def constantStream (count : Nat) : Stream :=
  plainStream bareHeader (List.replicate count loudFrame)
    (by
      intro packet member
      rw [List.eq_of_mem_replicate member]
      exact loudFrame_isFrame)
    (by
      intro packet member
      rw [List.eq_of_mem_replicate member]
      decide)

theorem not_undone_wrapped {count : Nat} (wraps : count * 32768 = 2 ^ 64 + 32768) :
    ¬Undone (constantStream count).file zeroInfo none (List.replicate count loudFrame) := by
  have each : blockSizeOf loudFrame = 32768 := by decide +kernel
  have sum : blockSizes (List.replicate count loudFrame) = 2 ^ 64 + 32768 := by
    rw [blockSizes, List.map_replicate, List.sum_replicate_nat, each, wraps]
  have some : ∃ packet ∈ (constantStream count).frames, packet ≠ [] := by
    refine ⟨loudFrame, List.mem_replicate.mpr ⟨?_, rfl⟩, List.cons_ne_nil _ _⟩
    rintro rfl
    omega
  intro undone
  have heads := head_of_undone (constantStream count) some undone 42
  have frames : (constantStream count).frames = List.replicate count loudFrame := rfl
  have comment : carriedComment (constantStream count).header.metadata = none := rfl
  have info : (constantStream count).header.streaminfo = zeroInfo := rfl
  have length : ∀ total, (nativeHead (withTotal zeroInfo packedOffset total) none).length = 42 :=
    fun total => rfl
  rw [frames, shownTotal, sum, comment, info, if_pos (by decide), if_neg (by decide),
    List.take_left' (length _), List.take_left' (length _)] at heads
  revert heads
  decide +kernel

/-- Neither foreign streams nor sizes are unlimited: a foreign first page, headers that end
behind 4096 pages, a frame of 266237 bytes, a comment of 64 KiB and a byte, no frames at all,
and 2^49 + 1 frames of 32768 samples. -/
theorem remux_limits :
    (¬Undone (foreignPage.encode ++ quietStream.file) zeroInfo none quietStream.frames) ∧
      (¬Undone ((cellPage 1 0 0x02 (mappingOf zeroInfo [hugeComment])).encode ++
        (encodePages (List.replicate 4095 foreignPage) ++
          (encodePages (cellPages 1 1 false (metadataCells [hugeComment])) ++
            encodePages commentedStream.audio))) zeroInfo (some hugeComment.payload)
              commentedStream.frames) ∧
      (¬Undone (encodePages bareHeader.pages ++
        encodePages (plainAudio bareHeader [quietFrame ++ List.replicate 266231 0])) zeroInfo none
          [quietFrame ++ List.replicate 266231 0]) ∧
      (¬Undone commentedStream.file zeroInfo (some hugeComment.payload) commentedStream.frames) ∧
      (¬Undone (constantStream 0).file zeroInfo none []) ∧
      (¬Undone (constantStream (2 ^ 49 + 1)).file zeroInfo none
        (List.replicate (2 ^ 49 + 1) loudFrame)) := by
  refine ⟨not_undone_foreign _ _ _ _, ?late, ?long, not_undone_commented, ?empty,
    not_undone_wrapped (by decide)⟩
  case late =>
    apply not_undone_late commentedStream.header rfl
    · intro none
      have size := congrArg List.length none
      rw [length_cellPages, metadataCells] at size
      simp [metadataPackets, Lacing.length_cells] at size
    · decide
  case long =>
    apply not_undone_too_long
    refine ⟨_, List.mem_cons_self, ?_⟩
    rw [List.length_append, List.length_replicate]
    decide
  case empty =>
    exact not_undone_empty (constantStream 0) (fun _ member => absurd member List.not_mem_nil) _ _

end MisrcGui.Playback.Ogg
