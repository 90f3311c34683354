import MisrcGui.Playback.OggPage

/-! The Ogg FLAC headers, read by `gui_playback_ogg_read_header`. Memory is granted and the
file is readable; the RF tags of a comment block are left out. -/
namespace MisrcGui.Playback.Ogg
open Library Library.Layout

def headerPageLimit : Nat := 4096
def maxCommentBytes : Nat := 64 * 1024

inductive HeaderError where
  | endOfFile
  | endsInsidePage
  | damagedPage
  | notBos
  | packetTooLarge
  | audioSharesPage
  | badMappingHeader
  | blockOverruns
  | firstNotStreaminfo
  | truncatedMetadata
  | lengthMismatch
  | streaminfoLength
  | incomplete
deriving DecidableEq

/-- `playback_ogg_header_t` in the making. -/
structure HeaderState where
  streaminfo : List UInt8
  haveSi : Bool
  vorbisComment : Option (List UInt8)
  done : Bool
  packetsSeen : Nat
  failure : Option HeaderError
deriving DecidableEq

def headerStart : HeaderState := ⟨List.replicate 34 0, false, none, false, 0, none⟩

def HeaderState.fail (error : HeaderError) (state : HeaderState) : HeaderState :=
  { state with failure := some error }

def collectBlock (state : HeaderState) (type : Nat) (payload : List UInt8) :
    Except HeaderState HeaderState :=
  if type = 0 then
    if payload.length ≠ 34 then .error (state.fail .streaminfoLength)
    else .ok { state with streaminfo := payload, haveSi := true }
  else if type = 4 then
    if state.vorbisComment.isSome then .ok state
    else if maxCommentBytes < payload.length then .ok state
    else .ok { state with vorbisComment := some payload }
  else .ok state

def blockType (packet : List UInt8) (offset : Nat) : Nat := (packet.getD offset 0).toNat % 128

def blockLast (packet : List UInt8) (offset : Nat) : Bool := 128 ≤ (packet.getD offset 0).toNat

def blockLength (packet : List UInt8) (offset : Nat) : Nat :=
  BigEndian.decode (field packet (offset + 1) 3)

/-- The blocks in the mapping packet from an offset on; every block takes four bytes. -/
def mappingBlocks (packet : List UInt8) :
    Nat → Nat → Bool → HeaderState → Except HeaderState HeaderState
  | 0, _, _, state => .ok state
  | fuel + 1, offset, first, state =>
    if packet.length < offset + 4 then .ok state
    else
      let type := blockType packet offset
      let length := blockLength packet offset
      if packet.length < offset + 4 + length then .error (state.fail .blockOverruns)
      else if first && type ≠ 0 then .error (state.fail .firstNotStreaminfo)
      else
        match collectBlock state type (field packet (offset + 4) length) with
        | .error failed => .error failed
        | .ok state =>
          if blockLast packet offset then .ok { state with done := true }
          else if packet.length ≤ offset + 4 + length then .ok state
          else mappingBlocks packet fuel (offset + 4 + length) false state

def flacMarker : List UInt8 := [0x46, 0x4C, 0x41, 0x43]
def nativeMarker : List UInt8 := [0x66, 0x4C, 0x61, 0x43]

def mappingPacket (state : HeaderState) (packet : List UInt8) : Except HeaderState HeaderState :=
  if packet.length < 13 + 4 + 34 || packet.getD 0 0 ≠ 0x7F || field packet 1 4 ≠ flacMarker ||
      field packet 9 4 ≠ nativeMarker then
    .error (state.fail .badMappingHeader)
  else mappingBlocks packet packet.length 13 true state

def metadataPacket (state : HeaderState) (packet : List UInt8) : Except HeaderState HeaderState :=
  if packet.length < 4 then .error (state.fail .truncatedMetadata)
  else if 4 + blockLength packet 0 ≠ packet.length then .error (state.fail .lengthMismatch)
  else
    match collectBlock state (blockType packet 0) (packet.drop 4) with
    | .error failed => .error failed
    | .ok state => .ok { state with done := state.done || blockLast packet 0 }

def headerPacket (state : HeaderState) (packet : List UInt8) : Except HeaderState HeaderState :=
  if state.done then .error (state.fail .audioSharesPage)
  else
    (if state.packetsSeen = 0 then mappingPacket state packet else metadataPacket state packet).map
      fun state => { state with packetsSeen := state.packetsSeen + 1 }

/-- The loop over the lacing values of a page, with the packet carried on. -/
def headerCell : HeaderState × List UInt8 → List UInt8 →
    Except (HeaderState × List UInt8) (HeaderState × List UInt8) :=
  Lacing.step maxPacketBytes (HeaderState.fail .packetTooLarge) headerPacket 255

structure HeaderLoop where
  serial : Option Nat
  reading : HeaderState × List UInt8
deriving DecidableEq

def headerPage (loop : HeaderLoop) (page : PageView) : Except HeaderError HeaderLoop :=
  if loop.serial = none && !page.bos then .error .notBos
  else if loop.serial.any (· ≠ page.serial) then .ok loop
  else
    let (reading, good) :=
      Scanner.scan headerCell (loop.reading.1, page.enter loop.reading.2) page.cells
    if good then .ok ⟨some page.serial, reading⟩
    else .error (reading.1.failure.getD .incomplete)

def headerPages : Nat → HeaderLoop → Nat → List UInt8 → Except HeaderError (HeaderLoop × Nat)
  | 0, loop, offset, _ => .ok (loop, offset)
  | limit + 1, loop, offset, file =>
    if loop.reading.1.done then .ok (loop, offset)
    else
      match readPage file with
      | .eof => .error .endOfFile
      | .truncated => .error .endsInsidePage
      | .bad => .error .damagedPage
      | .ok page rest =>
        match headerPage loop page with
        | .error error => .error error
        | .ok next => headerPages limit next (offset + page.pageLen) rest

structure Header where
  serial : Nat
  audioOffset : Nat
  streaminfo : List UInt8
  vorbisComment : Option (List UInt8)
deriving DecidableEq

def readHeader (file : List UInt8) : Except HeaderError Header :=
  match headerPages headerPageLimit ⟨none, headerStart, []⟩ 0 file with
  | .error error => .error error
  | .ok (loop, offset) =>
    if !loop.reading.1.done then .error .incomplete
    else if loop.reading.2 ≠ [] then .error .audioSharesPage
    else
      .ok ⟨loop.serial.getD 0, offset, loop.reading.1.streaminfo, loop.reading.1.vorbisComment⟩

structure Block where
  type : Nat
  payload : List UInt8
  type_lt : type < 128
  type_ne : type ≠ 0
  fits : 4 + payload.length ≤ maxPacketBytes

def blockBytes (last : Bool) (type : Nat) (payload : List UInt8) : List UInt8 :=
  UInt8.ofNat (type + if last then 128 else 0) :: (BigEndian.encode 3 payload.length ++ payload)

def metadataPackets : List Block → List (List UInt8)
  | [] => []
  | block :: rest => blockBytes rest.isEmpty block.type block.payload :: metadataPackets rest

/-- The constant start of the mapping packet, with its version and packet count. -/
def mappingStart (version : List UInt8) : List UInt8 :=
  [0x7F] ++ (flacMarker ++ (version ++ nativeMarker))

def headerPackets (version streaminfo : List UInt8) (metadata : List Block) :
    List (List UInt8) :=
  (mappingStart version ++ blockBytes metadata.isEmpty 0 streaminfo) :: metadataPackets metadata

def Block.carried (block : Block) : Bool :=
  block.type = 4 && block.payload.length ≤ maxCommentBytes

def carriedComment (metadata : List Block) : Option (List UInt8) :=
  (metadata.find? Block.carried).map Block.payload

theorem headByte_toNat {type : Nat} (h : type < 128) (last : Bool) :
    (UInt8.ofNat (type + if last then 128 else 0)).toNat = type + if last then 128 else 0 := by
  rw [UInt8.toNat_ofNat']
  split <;> omega

section
variable (front : List UInt8) (last : Bool) {type : Nat} {payload : List UInt8}

theorem getD_front (byte : UInt8) (rest : List UInt8) :
    (front ++ byte :: rest).getD front.length 0 = byte := by
  simp

theorem blockType_bytes (h : type < 128) (payload : List UInt8) :
    blockType (front ++ blockBytes last type payload) front.length = type := by
  rw [blockType, blockBytes, getD_front, headByte_toNat h]
  split <;> omega

theorem blockLast_bytes (h : type < 128) (payload : List UInt8) :
    blockLast (front ++ blockBytes last type payload) front.length = last := by
  rw [blockLast, blockBytes, getD_front, headByte_toNat h]
  cases last
  · simpa using h
  · simp

theorem blockBytes_fields (type : Nat) (payload : List UInt8) :
    field (front ++ blockBytes last type payload) (front.length + 1) 3 =
        BigEndian.encode 3 payload.length ∧
      field (front ++ blockBytes last type payload) (front.length + 1 + 3) payload.length =
        payload := by
  have layout := cut_flatten front
    [[UInt8.ofNat (type + if last then 128 else 0)], BigEndian.encode 3 payload.length, payload]
  simp only [List.map_cons, List.map_nil, List.length_singleton, BigEndian.length_encode, cut,
    List.cons.injEq, List.flatten_cons, List.flatten_nil, List.append_nil,
    List.singleton_append] at layout
  exact ⟨layout.2.1, layout.2.2.1⟩

theorem blockLength_bytes (type : Nat) (h : payload.length < 256 ^ 3) :
    blockLength (front ++ blockBytes last type payload) front.length = payload.length := by
  rw [blockLength, (blockBytes_fields front last type payload).1, BigEndian.decode_encode, Nat.mod_eq_of_lt h]

theorem length_blockBytes (type : Nat) (payload : List UInt8) :
    (blockBytes last type payload).length = 4 + payload.length := by
  simp [blockBytes]
  omega

end

@[simp] theorem length_mappingStart {version : List UInt8} (h : version.length = 4) :
    (mappingStart version).length = 13 := by
  simp [mappingStart, flacMarker, nativeMarker, h]

theorem mappingStart_fields {version : List UInt8} (h : version.length = 4) (rest : List UInt8) :
    (mappingStart version ++ rest).getD 0 0 = 0x7F ∧
      field (mappingStart version ++ rest) 1 4 = flacMarker ∧
      field (mappingStart version ++ rest) 9 4 = nativeMarker := by
  have layout := cut_flatten [] [[0x7F], flacMarker, version, nativeMarker, rest]
  have same : [] ++ [[0x7F], flacMarker, version, nativeMarker, rest].flatten =
      mappingStart version ++ rest := by
    simp [mappingStart]
  rw [same] at layout
  simp only [flacMarker, nativeMarker, List.map_cons, List.map_nil, List.length_cons,
    List.length_nil, h, cut, Nat.reduceAdd, Nat.zero_add, List.cons.injEq] at layout
  obtain ⟨first, flac, -, native, -⟩ := layout
  exact ⟨field_one 0 first, flac, native⟩

theorem mappingPacket_bytes {version streaminfo : List UInt8} (versionLength : version.length = 4)
    (length : streaminfo.length = 34) (last : Bool) (state : HeaderState) :
    mappingPacket state (mappingStart version ++ blockBytes last 0 streaminfo) =
      .ok { state with streaminfo, haveSi := true, done := state.done || last } := by
  have start := length_mappingStart versionLength
  obtain ⟨first, flac, native⟩ :=
    mappingStart_fields versionLength (blockBytes last 0 streaminfo)
  have type := blockType_bytes (mappingStart version) last (show 0 < 128 by decide) streaminfo
  have isLast := blockLast_bytes (mappingStart version) last (show 0 < 128 by decide) streaminfo
  have size := blockLength_bytes (mappingStart version) last 0
    (show streaminfo.length < 256 ^ 3 by rw [length]; decide)
  have fields := (blockBytes_fields (mappingStart version) last 0 streaminfo).2
  have total : (mappingStart version ++ blockBytes last 0 streaminfo).length = 51 := by
    rw [List.length_append, start, length_blockBytes, length]
  rw [start] at type isLast size fields
  rw [length] at size fields
  unfold mappingPacket
  rw [if_neg (by rw [total, first, flac, native]; decide), total]
  unfold mappingBlocks
  simp only [total, type, size, isLast, fields]
  simp only [collectBlock, length]
  cases last <;> simp

theorem metadataPacket_bytes (block : Block) (last : Bool) (state : HeaderState) :
    metadataPacket state (blockBytes last block.type block.payload) =
      .ok { state with
        vorbisComment := state.vorbisComment.or
          (if block.carried then some block.payload else none)
        done := state.done || last } := by
  have small : block.payload.length < 256 ^ 3 := by
    have fits := block.fits
    unfold maxPacketBytes at fits
    omega
  have type := blockType_bytes [] last block.type_lt block.payload
  have isLast := blockLast_bytes [] last block.type_lt block.payload
  have size := blockLength_bytes [] last block.type small
  have payload : (blockBytes last block.type block.payload).drop 4 = block.payload := by
    rw [blockBytes, List.drop_succ_cons]
    exact List.drop_left' (BigEndian.length_encode 3 _)
  simp only [List.nil_append, List.length_nil] at type isLast size
  unfold metadataPacket
  rw [length_blockBytes, if_neg (by omega), size, if_neg (not_not.mpr rfl), type, payload, isLast]
  unfold collectBlock
  rw [if_neg block.type_ne]
  by_cases comment : block.type = 4
  · rw [if_pos comment]
    cases held : state.vorbisComment with
    | some earlier => simp [held]
    | none =>
      by_cases large : maxCommentBytes < block.payload.length
      · simp [held, large, Block.carried, Nat.not_le.mpr large]
      · simp [large, Block.carried, comment, Nat.not_lt.mp large]
  · rw [if_neg comment]
    simp [Block.carried, comment]

def HeaderState.keep (state : HeaderState) (block : Block) (last : Bool) : HeaderState :=
  { state with
    vorbisComment := state.vorbisComment.or (if block.carried then some block.payload else none)
    done := last
    packetsSeen := state.packetsSeen + 1 }

def headerMapped (streaminfo : List UInt8) (last : Bool) : HeaderState :=
  { headerStart with streaminfo, haveSi := true, done := last, packetsSeen := 1 }

/-- After `count` of the metadata packets. -/
theorem scan_metadata {metadata : List Block} {state : HeaderState} {count : Nat}
    (seen : 0 < state.packetsSeen) (ready : state.done = metadata.isEmpty)
    (inside : count ≤ metadata.length) :
    ∃ last, Scanner.scan headerPacket state ((metadataPackets metadata).take count) =
        (last, true) ∧
      last.done = decide (count = metadata.length) ∧ last.streaminfo = state.streaminfo ∧
      last.vorbisComment = state.vorbisComment.or (carriedComment (metadata.take count)) := by
  induction metadata generalizing state count with
  | nil =>
    refine ⟨state, by simp [metadataPackets], ?_⟩
    have none : count = 0 := Nat.le_zero.mp inside
    simp [ready, none, carriedComment]
  | cons block rest ih =>
    cases count with
    | zero => exact ⟨state, by simp, by simp [ready], rfl, by simp [carriedComment]⟩
    | succ count =>
      have open' : state.done = false := by simpa using ready
      have taken : headerPacket state (blockBytes rest.isEmpty block.type block.payload) =
          .ok (state.keep block rest.isEmpty) := by
        unfold headerPacket
        rw [if_neg (by simp [open']), if_neg seen.ne', metadataPacket_bytes, open']
        rfl
      obtain ⟨last, scanned, done, streaminfo, comment⟩ :=
        ih (show 0 < (state.keep block rest.isEmpty).packetsSeen from Nat.succ_pos _) rfl
          (Nat.le_of_succ_le_succ inside)
      refine ⟨last, ?_, ?_, streaminfo, ?_⟩
      · rw [metadataPackets, List.take_succ_cons, Scanner.scan_ok _ taken]
        exact scanned
      · simpa using done
      · rw [comment, List.take_succ_cons, HeaderState.keep, Option.or_assoc]
        congr 1
        unfold carriedComment
        cases kept : block.carried <;> simp [kept]

/-- After `count` of the header packets; the last block is seen with the last of them. -/
theorem scan_headerPackets {version streaminfo : List UInt8} {metadata : List Block}
    {count : Nat} (versionLength : version.length = 4) (length : streaminfo.length = 34)
    (inside : count ≤ metadata.length) :
    ∃ last, Scanner.scan headerPacket headerStart
        ((headerPackets version streaminfo metadata).take (count + 1)) = (last, true) ∧
      last.done = decide (count = metadata.length) ∧ last.streaminfo = streaminfo ∧
      last.vorbisComment = carriedComment (metadata.take count) := by
  have taken : headerPacket headerStart
      (mappingStart version ++ blockBytes metadata.isEmpty 0 streaminfo) =
      .ok (headerMapped streaminfo metadata.isEmpty) := by
    unfold headerPacket
    rw [if_neg (by simp [headerStart]), if_pos (show headerStart.packetsSeen = 0 from rfl),
      mappingPacket_bytes versionLength length]
    rfl
  obtain ⟨last, scanned, done, same, comment⟩ :=
    scan_metadata (show 0 < (headerMapped streaminfo metadata.isEmpty).packetsSeen from Nat.one_pos)
      rfl inside
  refine ⟨last, ?_, done, same, comment⟩
  rw [headerPackets, List.take_succ_cons, Scanner.scan_ok _ taken, scanned]

theorem length_metadataPackets (metadata : List Block) :
    (metadataPackets metadata).length = metadata.length := by
  induction metadata with
  | nil => rfl
  | cons block rest ih => rw [metadataPackets, List.length_cons, ih, List.length_cons]

theorem metadataPackets_fit {metadata : List Block} {packet : List UInt8}
    (member : packet ∈ metadataPackets metadata) : packet.length ≤ maxPacketBytes := by
  induction metadata with
  | nil => exact absurd member List.not_mem_nil
  | cons block rest ih =>
    rcases List.mem_cons.mp member with rfl | later
    · rw [length_blockBytes]
      exact block.fits
    · exact ih later

def readHeaderCells (serial : Nat) :
    HeaderState × List UInt8 → PageView → Except (HeaderState × List UInt8)
      (HeaderState × List UInt8) :=
  readCells headerPacket (HeaderState.fail .packetTooLarge) serial

theorem headerPage_read {loop : HeaderLoop} {page : PageView} {serial : Nat}
    {next : HeaderState × List UInt8}
    (named : loop.serial = some serial ∨ loop.serial = none ∧ page.bos ∧ page.serial = serial)
    (read : readHeaderCells serial loop.reading page = .ok next) :
    headerPage loop page = .ok ⟨some serial, next⟩ := by
  unfold headerPage
  rw [if_neg (by rcases named with known | ⟨-, first, -⟩ <;> simp_all)]
  unfold readHeaderCells readCells at read
  by_cases own : page.serial = serial
  · rw [if_neg (not_not.mpr own)] at read
    rw [if_neg (by rcases named with known | ⟨unknown, -, -⟩ <;> simp_all), own]
    cases outcome : Scanner.scan headerCell (loop.reading.1, page.enter loop.reading.2)
        page.cells with
    | mk reading good =>
      unfold headerCell at outcome
      rw [outcome] at read
      cases good with
      | false => exact absurd read nofun
      | true =>
        cases read
        rfl
  · rcases named with known | ⟨-, -, same⟩
    · rw [if_pos own] at read
      cases read
      rw [if_pos (by simpa [known] using Ne.symm own), ← known]
    · exact absurd same own

def encodePages (pages : List Page) : List UInt8 := pages.flatMap Page.encode

theorem headerPages_encode {pages : List Page} {loop : HeaderLoop} {serial : Nat}
    {last : HeaderState × List UInt8} {limit : Nat} (offset : Nat) (rest : List UInt8)
    (named : loop.serial = some serial ∨ loop.serial = none ∧
      ∃ page others, pages = page :: others ∧ page.view.bos ∧ page.view.serial = serial)
    (within : pages.length ≤ limit)
    (read : Scanner.scan (readHeaderCells serial) loop.reading (pages.map Page.view) =
      (last, true))
    (done : last.1.done = true)
    (going : ∀ front later, pages = front ++ later → later ≠ [] →
      (Scanner.scan (readHeaderCells serial) loop.reading (front.map Page.view)).1.1.done =
        false) :
    headerPages limit loop offset (encodePages pages ++ rest) =
      .ok (⟨some serial, last⟩, offset + (encodePages pages).length) := by
  induction pages generalizing loop limit offset with
  | nil =>
    rcases named with known | ⟨-, page, others, absent, -⟩
    · cases read
      cases limit with
      | zero => rw [headerPages, ← known]; rfl
      | succ limit => rw [headerPages, if_pos done, ← known]; rfl
    · exact absurd absent nofun
  | cons page others ih =>
    cases limit with
    | zero => exact absurd within (Nat.not_succ_le_zero _)
    | succ limit =>
      rw [List.map_cons] at read
      cases taken : readHeaderCells serial loop.reading page.view with
      | error failed =>
        rw [Scanner.scan_error _ taken] at read
        exact absurd (congrArg Prod.snd read) Bool.false_ne_true
      | ok next =>
        rw [Scanner.scan_ok _ taken] at read
        have stepped : headerPage loop page.view = .ok ⟨some serial, next⟩ := by
          apply headerPage_read _ taken
          rcases named with known | ⟨unknown, page', others', split, start⟩
          · exact Or.inl known
          · cases split
            exact Or.inr ⟨unknown, start⟩
        have opening : loop.reading.1.done = false := going [] (page :: others) rfl nofun
        rw [headerPages, if_neg (by simp [opening]), encodePages, List.flatMap_cons,
          List.append_assoc, readPage_encode]
        simp only [stepped]
        have remaining := ih (offset + page.encode.length)
          (Or.inl (show (HeaderLoop.mk (some serial) next).serial = some serial from rfl))
          (Nat.le_of_succ_le_succ within) read (by
            intro front later split nonempty
            have before := going (page :: front) later (congrArg (page :: ·) split) nonempty
            rwa [List.map_cons, Scanner.scan_ok _ taken] at before)
        unfold encodePages at remaining
        rw [show page.view.pageLen = page.encode.length from rfl, remaining, List.length_append,
          Nat.add_assoc]

/-- The pages up to the one on which the last header packet ends. -/
structure HeaderPages where
  serial : UInt32
  version : List UInt8
  streaminfo : List UInt8
  metadata : List Block
  pages : List Page
  version_length : version.length = 4
  streaminfo_length : streaminfo.length = 34
  first : ∃ page others, pages = page :: others ∧ page.view.bos ∧ page.serial = serial
  last : ∃ before page, pages = before ++ [page] ∧ page.serial = serial ∧ page.cells ≠ []
  flagged : Flagged false (logical serial pages)
  laced : lacedCells (logical serial pages) =
    (headerPackets version streaminfo metadata).flatMap (Lacing.cells 255)
  within : pages.length ≤ headerPageLimit

namespace HeaderPages
variable (header : HeaderPages)

def packets : List (List UInt8) := headerPackets header.version header.streaminfo header.metadata

theorem packets_fit {packet : List UInt8} (member : packet ∈ header.packets) :
    packet.length ≤ maxPacketBytes := by
  rcases List.mem_cons.mp member with rfl | later
  · rw [List.length_append, length_mappingStart header.version_length, length_blockBytes,
      header.streaminfo_length]
    decide
  · exact metadataPackets_fit later

theorem assembled {front later : List Page} (split : header.pages = front ++ later) :
    Lacing.assemble 255 [] (lacedCells (logical header.serial front) ++
      lacedCells (logical header.serial later)) = (header.packets, []) := by
  rw [← lacedCells_append, ← logical_append, ← split, header.laced]
  exact Lacing.assemble_flatMap (by decide) _

def ended (front : List Page) : Nat :=
  (lacedCells (logical header.serial front)).countP fun cell => cell.length ≠ 255

theorem ended_eq (front : List Page) : header.ended front =
    (Lacing.assemble 255 [] (lacedCells (logical header.serial front))).1.length :=
  (Lacing.length_assemble [] _).symm

theorem length_packets : header.packets.length = header.metadata.length + 1 := by
  rw [packets, headerPackets, List.length_cons, length_metadataPackets]

theorem read_front {front later : List Page} (split : header.pages = front ++ later) :
    ∃ last, Scanner.scan (readHeaderCells header.serial.toNat) (headerStart, [])
        (front.map Page.view) =
          ((last, (Lacing.assemble 255 [] (lacedCells (logical header.serial front))).2), true) ∧
      last.done = decide (header.ended front = header.metadata.length + 1) ∧
      (last.done = true → last.streaminfo = header.streaminfo ∧
        last.vorbisComment = carriedComment header.metadata) := by
  have flagged := header.flagged
  rw [split, logical_append] at flagged
  have whole := header.assembled split
  have packets := Lacing.assemble_front (congrArg Prod.fst whole)
  have most : header.ended front ≤ header.metadata.length + 1 := by
    rw [ended_eq, packets, ← header.length_packets]
    exact List.length_take_le' _ _
  unfold readHeaderCells
  rw [scan_readCells flagged.front fun _ => rfl]
  cases count : header.ended front with
  | zero =>
    refine ⟨headerStart, ?_, by simp [headerStart], nofun⟩
    apply Lacing.scan_step whole fun packet member => header.packets_fit member
    unfold HeaderPages.ended at count
    rw [packets, count]
    rfl
  | succ count' =>
    obtain ⟨last, scanned, done, streaminfo, comment⟩ :=
      scan_headerPackets header.version_length
        header.streaminfo_length (show count' ≤ header.metadata.length by omega)
    refine ⟨last, ?_, by simp [done], ?_⟩
    · apply Lacing.scan_step whole fun packet member => header.packets_fit member
      unfold HeaderPages.ended at count
      rw [packets, count]
      exact scanned
    · intro closed
      have all : count' = header.metadata.length := by simpa [closed] using done
      refine ⟨streaminfo, ?_⟩
      rw [comment, all, List.take_length]

theorem ended_lt {front later : List Page} (split : header.pages = front ++ later)
    (nonempty : later ≠ []) : header.ended front < header.metadata.length + 1 := by
  have whole := header.assembled split
  have cellsLeft : lacedCells (logical header.serial later) ≠ [] := by
    obtain ⟨before, page, same, own, some⟩ := header.last
    rcases List.eq_nil_or_concat' later with rfl | ⟨body, final, rfl⟩
    · exact absurd rfl nonempty
    · rw [split, ← List.append_assoc] at same
      have final_eq : final = page := by
        have tails := (List.append_inj' same rfl).2
        simpa using tails
      rw [final_eq, logical_append, lacedCells_append]
      simp [logical, lacedCells, own, some]
  have fewer := Lacing.countP_lt (by decide) cellsLeft whole
  rwa [length_packets] at fewer

theorem readHeader_encode (rest : List UInt8) :
    readHeader (encodePages header.pages ++ rest) =
      .ok ⟨header.serial.toNat, (encodePages header.pages).length, header.streaminfo,
        carriedComment header.metadata⟩ := by
  have split : header.pages = header.pages ++ [] := (List.append_nil _).symm
  have whole := header.assembled split
  obtain ⟨last, scanned, done, kept⟩ := header.read_front split
  have noneLeft : lacedCells (logical header.serial []) = [] := rfl
  rw [noneLeft, List.append_nil] at whole
  have all : header.ended header.pages = header.metadata.length + 1 := by
    rw [ended_eq, whole, length_packets]
  have closed : last.done = true := by rw [done, all, decide_eq_true rfl]
  rw [whole] at scanned
  obtain ⟨page, others, pages, bos, own⟩ := header.first
  have named : (HeaderLoop.mk none (headerStart, [])).serial = some header.serial.toNat ∨
      (HeaderLoop.mk none (headerStart, [])).serial = none ∧ ∃ page others,
        header.pages = page :: others ∧ page.view.bos ∧ page.view.serial = header.serial.toNat :=
    Or.inr ⟨rfl, page, others, pages, bos, congrArg UInt32.toNat own⟩
  have pagesRead := headerPages_encode 0 rest named header.within scanned closed (by
    intro front later split nonempty
    obtain ⟨open', scanned, done, -⟩ := header.read_front split
    have fewer := header.ended_lt split nonempty
    rw [scanned]
    simp [done, fewer.ne])
  obtain ⟨streaminfo, comment⟩ := kept closed
  unfold readHeader
  rw [pagesRead]
  simp [closed, streaminfo, comment]

end HeaderPages

def plainVersion : List UInt8 := [1, 0, 0, 0]

def mappingOf (streaminfo : List UInt8) (metadata : List Block) : List UInt8 :=
  mappingStart plainVersion ++ blockBytes metadata.isEmpty 0 streaminfo

def metadataCells (metadata : List Block) : List (List UInt8) :=
  (metadataPackets metadata).flatMap (Lacing.cells 255)

theorem metadataCells_le (metadata : List Block) :
    ∀ cell ∈ metadataCells metadata, cell.length ≤ 255 := by
  intro cell member
  obtain ⟨packet, -, inside⟩ := List.mem_flatMap.mp member
  exact Lacing.cells_le (by decide) inside

theorem length_mappingOf {streaminfo : List UInt8} (length : streaminfo.length = 34)
    (metadata : List Block) : (mappingOf streaminfo metadata).length = 51 := by
  rw [mappingOf, List.length_append, length_mappingStart rfl, length_blockBytes, length]

def plainPages (serial : UInt32) (streaminfo : List UInt8) (metadata : List Block) : List Page :=
  cellPage serial 0 0x02 (mappingOf streaminfo metadata) ::
    cellPages serial 1 false (metadataCells metadata)

section
variable (serial : UInt32) {streaminfo : List UInt8} (metadata : List Block)

theorem logical_plainPages : logical serial (plainPages serial streaminfo metadata) =
    plainPages serial streaminfo metadata := by
  apply List.filter_eq_self.mpr
  intro page member
  rcases List.mem_cons.mp member with rfl | later
  · exact decide_eq_true rfl
  · exact decide_eq_true (mem_cellPages later).1

theorem mapping_cells (length : streaminfo.length = 34) :
    (cellPage serial 0 0x02 (mappingOf streaminfo metadata)).cells =
      [mappingOf streaminfo metadata] :=
  cellPage_cells (by rw [length_mappingOf length]; decide)

theorem flagged_plainPages (length : streaminfo.length = 34) :
    Flagged false (plainPages serial streaminfo metadata) := by
  have closed : Lacing.leavesOpen 255 false
      (cellPage serial 0 0x02 (mappingOf streaminfo metadata)).cells = false := by
    rw [mapping_cells serial metadata length]
    simp [Lacing.leavesOpen, length_mappingOf length]
  refine ⟨decide_eq_false (not_not.mpr (show (0x02 : UInt8) &&& 0x01 = 0 by decide)), ?_⟩
  rw [closed]
  exact flagged_cellPages (metadataCells_le metadata)

theorem lacedCells_plainPages (length : streaminfo.length = 34) :
    lacedCells (plainPages serial streaminfo metadata) =
      (headerPackets plainVersion streaminfo metadata).flatMap (Lacing.cells 255) := by
  have whole : Lacing.cells 255 (mappingOf streaminfo metadata) =
      [mappingOf streaminfo metadata] := by
    rw [Lacing.cells, length_mappingOf length]
    rfl
  have later : lacedCells (cellPages serial 1 false (metadataCells metadata)) =
      metadataCells metadata :=
    lacedCells_cellPages (metadataCells_le metadata)
  unfold lacedCells at later ⊢
  rw [plainPages, List.flatMap_cons, later, mapping_cells serial metadata length, headerPackets,
    List.flatMap_cons]
  unfold mappingOf at whole
  rw [whole]
  rfl

variable (streaminfo) in
def plainHeader (length : streaminfo.length = 34)
    (few : (metadataCells metadata).length < headerPageLimit) : HeaderPages where
  serial
  version := plainVersion
  streaminfo
  metadata
  pages := plainPages serial streaminfo metadata
  version_length := rfl
  streaminfo_length := length
  first := ⟨_, _, rfl, decide_eq_true (show (0x02 : UInt8) &&& 0x02 ≠ 0 by decide), rfl⟩
  last := by
    unfold plainPages
    rcases List.eq_nil_or_concat' (cellPages serial 1 false (metadataCells metadata)) with
      none | ⟨before, page, split⟩
    · rw [none]
      exact ⟨[], _, rfl, rfl, List.cons_ne_nil _ _⟩
    · have member : page ∈ cellPages serial 1 false (metadataCells metadata) := by
        rw [split]
        exact List.mem_append_right _ List.mem_cons_self
      rw [split]
      exact ⟨_ :: before, page, rfl, mem_cellPages member⟩
  flagged := by
    rw [logical_plainPages]
    exact flagged_plainPages serial metadata length
  laced := by
    rw [logical_plainPages]
    exact lacedCells_plainPages serial metadata length
  within := by
    rw [plainPages, List.length_cons, length_cellPages]
    exact few

end

end MisrcGui.Playback.Ogg
