import MisrcGui.Fx3.FirmwareUpload

/-! What the firmware loader should accept: images whose sections lie inside of the file, up to a
final section with the checksum of their words. -/
namespace MisrcGui.Fx3
open Library
open Library.Terminated (Checked loop)
open Library.CheckedMemory (readAt)
open Library.MemoryWords

structure Section where
  address : UInt32
  words : List UInt32
  nonempty : words ≠ []
  fits : words.length < 2 ^ 32

def Section.data (part : Section) : List UInt8 := write wordFormat part.words

def Section.encode (part : Section) : List UInt8 :=
  encodeWord (UInt32.ofNat part.words.length) ++ (encodeWord part.address ++ part.data)

def encodeSections (header : List UInt8) (sections : List Section) : List UInt8 :=
  header ++ sections.flatMap Section.encode

/-- The final section, with its checksum and what else is in the file. -/
def encodeFinal (entry checksum : UInt32) (behind : List UInt8) : List UInt8 :=
  encodeWord 0 ++ (encodeWord entry ++ (encodeWord checksum ++ behind))

/-- The sum of all words, with the overflow of `uint32_t`. -/
def sectionsSum (sections : List Section) : UInt32 :=
  (sections.flatMap Section.words).foldl (· + ·) 0

def place (address : UInt32) : List UInt8 → List (UInt32 × UInt8)
  | [] => []
  | byte :: rest => (address, byte) :: place (address + 1) rest

def Section.placed (part : Section) : List (UInt32 × UInt8) := place part.address part.data

def Transfer.address (transfer : Transfer) : UInt32 :=
  UInt32.ofNat (transfer.wIndex.toNat * 2 ^ 16 + transfer.wValue.toNat)

def Transfer.placed (transfer : Transfer) : List (UInt32 × UInt8) :=
  place transfer.address transfer.data

/-- A file with sections up to a final one, whose checksum need not be right. -/
structure Image where
  header : List UInt8
  sections : List Section
  entry : UInt32
  checksum : UInt32
  behind : List UInt8
  header_length : header.length = 4
  header_magic : header.take 2 = magic

def Image.encode (image : Image) : List UInt8 :=
  encodeSections image.header image.sections ++
    encodeFinal image.entry image.checksum image.behind

def jumpTo (entry : UInt32) : Transfer := ⟨getLsw entry, getMsw entry, []⟩

structure Delivered (image : Image) (sent : List Transfer) (jump : Option Transfer) : Prop where
  checked : sectionsSum image.sections = image.checksum
  placed : sent.flatMap Transfer.placed = image.sections.flatMap Section.placed
  jumped : jump = some (jumpTo image.entry)

/-- The loader comes to an end without a read outside of the file, and success means that the file
is an image that was delivered. -/
def LoadsWhole (host : Host) (firmware : List UInt8) : Prop :=
  ∃ outcome, fx3UploadFirmware host firmware = .ok outcome ∧
    ∀ sent jump, outcome = .success sent jump →
      ∃ image : Image, image.encode = firmware ∧ Delivered image sent jump

/-- The files that are turned down in front of the first section. -/
def Refused (firmware : List UInt8) : Prop :=
  firmware.length < 8 ∨ 256 * 1024 < firmware.length ∨ firmware.take 2 ≠ magic

def Framed (firmware : List UInt8) : Prop := ∃ image : Image, image.encode = firmware

theorem address_split (v : UInt32) (data : List UInt8) :
    Transfer.address ⟨getLsw v, getMsw v, data⟩ = v := by
  have low : (getLsw v).toNat = v.toNat % 2 ^ 16 := by
    have mask : (v &&& 0xFFFF).toNat = v.toNat % 2 ^ 16 := by
      rw [UInt32.toNat_and]
      exact Nat.and_two_pow_sub_one_eq_mod v.toNat 16
    rw [getLsw, UInt32.toNat_toUInt16, mask, Nat.mod_mod]
  have high : (getMsw v).toNat = v.toNat / 2 ^ 16 := by
    have shifted : (v >>> 16).toNat = v.toNat / 2 ^ 16 := by
      rw [UInt32.toNat_shiftRight]
      exact Nat.shiftRight_eq_div_pow v.toNat 16
    have := v.toNat_lt
    rw [getMsw, UInt32.toNat_toUInt16, shifted]
    omega
  unfold Transfer.address
  dsimp only
  rw [low, high, Nat.mul_comm, Nat.div_add_mod, UInt32.ofNat_toNat]

theorem placed_split (v : UInt32) (data : List UInt8) :
    Transfer.placed ⟨getLsw v, getMsw v, data⟩ = place v data := by
  rw [Transfer.placed, address_split]

theorem place_append (address : UInt32) (first second : List UInt8) :
    place address (first ++ second) =
      place address first ++ place (address + UInt32.ofNat first.length) second := by
  induction first generalizing address with
  | nil => simp [place]
  | cons byte first ih =>
    rw [List.cons_append, place, place, ih, List.cons_append, List.length_cons,
      UInt32.ofNat_add, UInt32.add_assoc, UInt32.add_comm (UInt32.ofNat _) (UInt32.ofNat 1)]
    rfl

theorem asInt_small {word : UInt32} (small : word.toNat < 2 ^ 31) : asInt word = word.toNat :=
  if_pos small

/-! `fx3_ram_write` on bytes that lie inside of the file. -/

def Generous (host : Host) : Prop := ∀ number size, host.transfer number size = size

def ready : Host := ⟨true, true, true, true, fun _ size => size⟩

section ramWrite
variable (host : Host) (front data behind : List UInt8) (address : UInt32) (sent : List Transfer)

def Halfway (state : RamWrite) : Prop :=
  ∃ done left, data = done ++ left ∧ state.offset = front.length + done.length ∧
    state.len = left.length ∧ state.ramAddr = address + UInt32.ofNat done.length ∧
    state.sent.flatMap Transfer.placed = sent.flatMap Transfer.placed ++ place address done

def Written (result : Option (List Transfer)) : Prop :=
  (∀ all, result = some all →
    all.flatMap Transfer.placed = sent.flatMap Transfer.placed ++ place address data) ∧
  (Generous host → result ≠ none)

theorem ramWriteBody_inside (state : RamWrite) (halfway : Halfway front data address sent state) :
    (∃ next, ramWriteBody host (front ++ (data ++ behind)) state = .ok (.inl next) ∧
      Halfway front data address sent next ∧ next.len.toNat < state.len.toNat) ∨
    ∃ result, ramWriteBody host (front ++ (data ++ behind)) state = .ok (.inr result) ∧
      Written host data address sent result := by
  obtain ⟨done, left, rfl, offset, len, ramAddr, placed⟩ := halfway
  unfold ramWriteBody
  by_cases more : state.len > 0
  · rw [if_pos more, offset, len, ramAddr, Int.toNat_natCast]
    generalize sized : min left.length fwChunkSize = size
    have positive : 0 < fwChunkSize := by decide
    have width : (left.take size).length = size := by
      rw [List.length_take]
      omega
    have inside : readAt (front ++ (done ++ left ++ behind)) (front.length + done.length) size =
        .ok (left.take size) := by
      rw [CheckedMemory.readAt_inside (by simp only [List.length_append]; omega), Layout.field,
        List.append_assoc, ← List.append_assoc front, ← List.length_append, List.drop_left,
        List.take_append_of_le_length (by omega)]
    dsimp only
    rw [inside, Terminated.ok_bind]
    by_cases through : host.transfer state.sent.length size = size
    · left
      rw [if_pos through]
      refine ⟨_, rfl, ⟨done ++ left.take size, left.drop size, ?_, ?_, ?_, ?_, ?_⟩, ?_⟩
      · rw [List.append_assoc, List.take_append_drop]
      · rw [List.length_append, width]
        exact Nat.add_assoc ..
      · dsimp only
        rw [List.length_drop]
        omega
      · dsimp only
        rw [List.length_append, width, UInt32.ofNat_add, UInt32.add_assoc]
      · dsimp only
        rw [List.flatMap_append, List.flatMap_singleton, placed, placed_split, List.append_assoc,
          place_append]
      · dsimp only
        omega
    · right
      rw [if_neg through]
      exact ⟨none, rfl, by simp, fun generous => absurd (generous _ _) through⟩
  · right
    have none : left = [] := List.eq_nil_of_length_eq_zero (by omega)
    subst none
    rw [if_neg more]
    refine ⟨_, rfl, ?_, by simp⟩
    intro all same
    rw [← Option.some.inj same, placed, List.append_nil]

theorem ramWrite_inside :
    ∃ result, fx3RamWrite host (front ++ (data ++ behind)) front.length address data.length sent =
      .ok result ∧ Written host data address sent result := by
  apply Terminated.loop_of_measure (fun state => state.len.toNat)
    (Halfway front data address sent) (ramWriteBody_inside host front data behind address sent)
  · exact ⟨[], data, rfl, rfl, rfl, by simp, by simp [place]⟩
  · exact Nat.lt_succ_self _

end ramWrite

structure Behind (header : List UInt8) (done : List Section) (state : Upload) : Prop where
  index : state.index.toNat = (encodeSections header done).length
  checksum : state.checksum = sectionsSum done
  placed : state.sent.flatMap Transfer.placed = done.flatMap Section.placed

section upload
variable {host : Host} {header rest : List UInt8} {done : List Section} {state : Upload}

@[simp] theorem length_encodeWord (word : UInt32) : (encodeWord word).length = 4 :=
  wordFormat.length_encode word

theorem length_data (part : Section) : part.data.length = 4 * part.words.length := length_write _

theorem Section.length_encode (part : Section) :
    part.encode.length = 8 + 4 * part.words.length := by
  simp only [Section.encode, List.length_append, length_encodeWord, length_data]
  omega

theorem sectionsSum_snoc (part : Section) :
    sectionsSum (done ++ [part]) = part.words.foldl (· + ·) (sectionsSum done) := by
  rw [sectionsSum, List.flatMap_append, List.flatMap_singleton, List.foldl_append]
  rfl

theorem encodeSections_append (done left : List Section) :
    encodeSections header (done ++ left) =
      encodeSections header done ++ left.flatMap Section.encode := by
  rw [encodeSections, List.flatMap_append, ← List.append_assoc]
  rfl

theorem encodeSections_snoc (part : Section) :
    encodeSections header (done ++ [part]) = encodeSections header done ++ part.encode := by
  rw [encodeSections_append, List.flatMap_singleton]

theorem read_here {front tail : List UInt8} {offset : Nat} (here : offset = front.length)
    (word : UInt32) : read wordFormat (front ++ (encodeWord word ++ tail)) offset = .ok word :=
  (read_eq_ok here).mpr ⟨tail, rfl⟩

theorem read_head {front : List UInt8} {offset : Nat} (here : offset = front.length)
    (length address : UInt32) (tail : List UInt8) :
    read wordFormat (front ++ (encodeWord length ++ (encodeWord address ++ tail))) offset =
        .ok length ∧
      read wordFormat (front ++ (encodeWord length ++ (encodeWord address ++ tail)))
        (offset + 4) = .ok address := by
  refine ⟨read_here here length, ?_⟩
  rw [← List.append_assoc front]
  exact read_here (by simp [here]) address

theorem asInt_index (behind : Behind header done state)
    (small : (encodeSections header done ++ rest).length ≤ 256 * 1024) :
    asInt state.index < (encodeSections header done ++ rest).length ↔ rest ≠ [] := by
  have index := behind.index
  rw [List.length_append] at small ⊢
  rw [asInt_small (by omega), index, ← List.length_pos_iff]
  omega

theorem rest_cases {result : Upload ⊕ Outcome} (behind : Behind header done state)
    (small : (encodeSections header done ++ rest).length ≤ 256 * 1024)
    (ran : uploadBody host (encodeSections header done ++ rest) state = .ok result) :
    (rest = [] ∧ result = .inr (.success state.sent none)) ∨
      (∃ part tail, rest = Section.encode part ++ tail) ∨
      ∃ entry word tail, rest = encodeFinal entry word tail := by
  rw [uploadBody] at ran
  by_cases more : rest = []
  · rw [if_neg ((asInt_index behind small).not.mpr (not_not.mpr more))] at ran
    exact .inl ⟨more, (Except.ok.inj ran).symm⟩
  right
  rw [if_pos ((asInt_index behind small).mpr more)] at ran
  obtain ⟨length, found, ran⟩ := Channelwise.bind_eq_ok.mp ran
  obtain ⟨tail, rfl⟩ := (read_eq_ok behind.index).mp found
  rw [← List.append_assoc] at ran
  obtain ⟨address, found, ran⟩ := Channelwise.bind_eq_ok.mp ran
  obtain ⟨tail, rfl⟩ := (read_eq_ok (by simp [behind.index, wordFormat])).mp found
  rw [← List.append_assoc] at ran
  have inside : state.index.toNat + 8 = (encodeSections header done ++ wordFormat.encode length ++
      wordFormat.encode address).length := by simp [behind.index, wordFormat]
  by_cases final : length = 0
  · right
    rw [if_neg (not_not.mpr final)] at ran
    obtain ⟨expected, found, _⟩ := Channelwise.bind_eq_ok.mp ran
    obtain ⟨tail, rfl⟩ := (read_eq_ok inside).mp found
    exact ⟨address, expected, tail, by rw [final]; rfl⟩
  · left
    rw [if_pos final] at ran
    obtain ⟨checksum, looped, _⟩ := Channelwise.bind_eq_ok.mp ran
    obtain ⟨words, tail, count, rfl, _⟩ := (readLoop_eq_ok inside).mp looped
    have nonempty : words ≠ [] := by
      rintro rfl
      exact final (UInt32.toNat_inj.mp count.symm)
    have size : UInt32.ofNat words.length = length := by rw [count, UInt32.ofNat_toNat]
    refine ⟨⟨address, words, nonempty, count ▸ length.toNat_lt⟩, tail, ?_⟩
    show _ = encodeWord (UInt32.ofNat words.length) ++
      (encodeWord address ++ write wordFormat words) ++ tail
    rw [size, List.append_assoc, List.append_assoc]
    rfl

theorem uploadBody_section {part : Section} {tail : List UInt8} (behind : Behind header done state)
    (small : (encodeSections header done ++ (part.encode ++ tail)).length ≤ 256 * 1024) :
    (uploadBody host (encodeSections header done ++ (part.encode ++ tail)) state =
        .ok (.inr .failure) ∧ ¬Generous host) ∨
      ∃ next, uploadBody host (encodeSections header done ++ (part.encode ++ tail)) state =
        .ok (.inl next) ∧ Behind header (done ++ [part]) next := by
  have index := behind.index
  have more : part.encode ++ tail ≠ [] := by
    rw [← List.length_pos_iff, List.length_append, part.length_encode]
    omega
  have total : (encodeSections header done).length + (8 + 4 * part.words.length) ≤ 256 * 1024 := by
    rw [List.length_append, List.length_append, part.length_encode] at small
    omega
  have positive := List.length_pos_iff.mpr part.nonempty
  have count : (UInt32.ofNat part.words.length).toNat = part.words.length := by
    rw [UInt32.toNat_ofNat', Nat.mod_eq_of_lt part.fits]
  have some : UInt32.ofNat part.words.length ≠ 0 := by
    intro none
    rw [none] at count
    exact absurd count (Nat.ne_of_lt positive)
  have bytes : (UInt32.ofNat part.words.length * 4).toNat = part.data.length := by
    rw [UInt32.toNat_mul, count, length_data]
    show part.words.length * 4 % 2 ^ 32 = _
    omega
  obtain ⟨length, address⟩ := read_head index (UInt32.ofNat part.words.length) part.address
    (part.data ++ tail)
  rw [uploadBody, if_pos ((asInt_index behind small).mpr more), Section.encode, List.append_assoc,
    List.append_assoc, length, Terminated.ok_bind, address, Terminated.ok_bind, if_pos some,
    uploadSection, ← List.append_assoc, ← List.append_assoc]
  generalize front : encodeSections header done ++ encodeWord (UInt32.ofNat part.words.length) ++
    encodeWord part.address = inner
  have inside : state.index.toNat + 8 = inner.length := by simp [← front, index]
  have summed : readLoop wordFormat (· + ·) (inner ++ (part.data ++ tail)) (state.index.toNat + 8)
      (UInt32.ofNat part.words.length).toNat state.checksum =
        .ok (part.words.foldl (· + ·) state.checksum) :=
    (readLoop_eq_ok inside).mpr ⟨part.words, tail, count.symm, rfl, rfl⟩
  obtain ⟨result, sent, written, generous⟩ := ramWrite_inside host inner part.data tail part.address
    state.sent
  have size : asInt (UInt32.ofNat part.words.length * 4) = part.data.length := by
    rw [asInt_small (by rw [bytes, length_data]; omega), bytes]
  rw [summed, Terminated.ok_bind, inside, size, sent, Terminated.ok_bind]
  cases result with
  | none => exact .inl ⟨rfl, fun all => generous all rfl⟩
  | some all =>
    refine .inr ⟨_, rfl, ?_, ?_, ?_⟩
    · dsimp only
      rw [encodeSections_snoc, List.length_append, part.length_encode, ← index]
      rw [← index] at total
      rw [length_data] at bytes
      have head : (8 : UInt32).toNat = 8 := rfl
      rw [UInt32.toNat_add, UInt32.toNat_add, bytes, head]
      omega
    · dsimp only
      rw [behind.checksum, sectionsSum_snoc]
    · dsimp only
      rw [written all rfl, behind.placed, List.flatMap_append, List.flatMap_singleton]
      rfl

theorem uploadBody_final {entry word : UInt32} {tail : List UInt8}
    (behind : Behind header done state)
    (small : (encodeSections header done ++ encodeFinal entry word tail).length ≤ 256 * 1024) :
    uploadBody host (encodeSections header done ++ encodeFinal entry word tail) state =
      .ok (.inr (if state.checksum ≠ word then .failure
        else .success state.sent (some (jumpTo entry)))) := by
  have more : encodeFinal entry word tail ≠ [] := by
    rw [encodeFinal, ← List.length_pos_iff, List.length_append, length_encodeWord]
    omega
  obtain ⟨length, address⟩ := read_head behind.index 0 entry (encodeWord word ++ tail)
  rw [uploadBody, if_pos ((asInt_index behind small).mpr more), encodeFinal, length,
    Terminated.ok_bind, address, Terminated.ok_bind, if_neg (not_not.mpr rfl), uploadFinal,
    ← List.append_assoc, ← List.append_assoc, read_here (by simp [behind.index]) word, Terminated.ok_bind]
  split <;> rfl

theorem behind_header (length : header.length = 4) : Behind header [] ⟨4, 0, []⟩ :=
  ⟨by rw [encodeSections, List.flatMap_nil, List.append_nil, length]; rfl, rfl, rfl⟩

/-- A run with a generous device that has no fault ends with the file, or the file is framed. -/
theorem framed_of_loop {rounds : Nat} {outcome : Outcome} (generous : Generous host)
    (length : header.length = 4) (first : header.take 2 = magic)
    (behind : Behind header done state)
    (small : (encodeSections header done ++ rest).length ≤ 256 * 1024)
    (ran : loop (uploadBody host (encodeSections header done ++ rest)) rounds state =
      .ok outcome) :
    Framed (encodeSections header done ++ rest) ∨ ∃ sent, outcome = .success sent none := by
  induction rounds generalizing done rest state with
  | zero => cases ran
  | succ rounds ih =>
    obtain ⟨result, body, _⟩ := Channelwise.bind_eq_ok.mp ran
    rcases rest_cases behind small body with ⟨_, rfl⟩ | ⟨part, tail, rfl⟩ | ⟨entry, word, tail, rfl⟩
    · rw [Terminated.loop_stop body] at ran
      exact .inr ⟨_, (Except.ok.inj ran).symm⟩
    · rcases uploadBody_section behind small with ⟨_, fails⟩ | ⟨next, round, further⟩
      · exact absurd generous fails
      · rw [Terminated.loop_step round] at ran
        rw [← List.append_assoc, ← encodeSections_snoc] at ran small ⊢
        exact ih further small ran
    · exact .inl ⟨⟨header, done, entry, word, tail, length, first⟩, rfl⟩

end upload

theorem Image.encode_split (image : Image) {done left : List Section}
    (split : image.sections = done ++ left) :
    image.encode = encodeSections image.header done ++ (left.flatMap Section.encode ++
      encodeFinal image.entry image.checksum image.behind) := by
  rw [Image.encode, split, encodeSections_append, List.append_assoc]

theorem Image.length_encode (image : Image) : 16 ≤ image.encode.length := by
  simp only [Image.encode, encodeSections, encodeFinal, List.length_append, length_encodeWord,
    image.header_length]
  omega

def Ends (image : Image) (outcome : Outcome) : Prop :=
  ∀ sent jump, outcome = .success sent jump → Delivered image sent jump

theorem loop_image (host : Host) (image : Image) (small : image.encode.length ≤ 256 * 1024) :
    ∃ outcome, loop (uploadBody host image.encode) image.encode.length ⟨4, 0, []⟩ = .ok outcome ∧
      Ends image outcome := by
  apply Terminated.loop_of_measure (fun state => image.encode.length - state.index.toNat)
    (fun state => ∃ done left, image.sections = done ++ left ∧ Behind image.header done state)
  · rintro state ⟨done, left, split, behind⟩
    have whole := image.encode_split split
    rw [whole] at small ⊢
    cases left with
    | nil =>
      right
      refine ⟨_, uploadBody_final behind small, ?_⟩
      intro sent jump success
      by_cases same : state.checksum = image.checksum
      · rw [if_neg (not_not.mpr same)] at success
        cases success
        rw [List.append_nil] at split
        exact ⟨by rw [split, ← behind.checksum, same], by rw [split, behind.placed], rfl⟩
      · rw [if_pos same] at success
        cases success
    | cons part left =>
      rw [List.flatMap_cons, List.append_assoc] at small ⊢
      rcases uploadBody_section behind small with ⟨failed, _⟩ | ⟨next, round, further⟩
      · exact .inr ⟨_, failed, nofun⟩
      · refine .inl ⟨next, round, ⟨done ++ [part], left, ?_, further⟩, ?_⟩
        · rw [split, List.append_assoc]
          rfl
        · have later := further.index
          rw [encodeSections_snoc, List.length_append, part.length_encode, ← behind.index] at later
          rw [List.length_append, List.length_append, part.length_encode, ← behind.index]
          omega
  · exact ⟨[], image.sections, rfl, behind_header image.header_length⟩
  · have four : (4 : UInt32).toNat = 4 := rfl
    have nonempty := image.length_encode
    dsimp only
    rw [four]
    omega

theorem of_not_refused {firmware : List UInt8} (accepted : ¬Refused firmware) :
    8 ≤ firmware.length ∧ firmware.length ≤ 256 * 1024 ∧ firmware.take 2 = magic :=
  ⟨Nat.le_of_not_lt fun short => accepted (.inl short),
    Nat.le_of_not_lt fun long => accepted (.inr (.inl long)),
    not_not.mp fun other => accepted (.inr (.inr other))⟩

theorem fx3UploadFirmware_eq {host : Host} {firmware : List UInt8} (accepted : ¬Refused firmware) :
    fx3UploadFirmware host firmware =
      if host.handle && host.opened && host.allocated && host.readWhole then
        loop (uploadBody host firmware) firmware.length ⟨4, 0, []⟩
      else .ok .failure := by
  obtain ⟨long, short, first⟩ := of_not_refused accepted
  unfold fx3UploadFirmware
  cases host.handle <;> cases host.opened <;> cases host.allocated <;> cases host.readWhole <;>
    simp [long, short, first] <;> rfl

theorem fx3UploadFirmware_refused {host : Host} {firmware : List UInt8}
    (refused : Refused firmware) : fx3UploadFirmware host firmware = .ok .failure := by
  unfold fx3UploadFirmware
  by_cases absent : (!host.handle || !host.opened) = true
  · exact if_pos absent
  by_cases size : (decide (firmware.length < 8) || decide (firmware.length > 256 * 1024)) = true
  · rw [if_neg absent, if_pos size]
    rfl
  by_cases unread : (!host.allocated || !host.readWhole) = true
  · rw [if_neg absent, if_neg size, if_pos unread]
    rfl
  · have other : firmware.take 2 ≠ magic := by
      rcases refused with short | long | other
      · simp [short] at size
      · simp [long] at size
      · exact other
    rw [if_neg absent, if_neg size, if_neg unread, if_pos other]
    rfl

/-- A file is turned down at once, or it is framed, just where the loader is right about it with
whatever device. -/
theorem loadsWhole_iff (firmware : List UInt8) :
    (∀ host, LoadsWhole host firmware) ↔ Refused firmware ∨ Framed firmware := by
  constructor
  · intro whole
    by_cases refused : Refused firmware
    · exact .inl refused
    right
    obtain ⟨host, present, generous⟩ : ∃ host : Host,
        (host.handle && host.opened && host.allocated && host.readWhole) = true ∧ Generous host :=
      ⟨ready, rfl, fun _ _ => rfl⟩
    obtain ⟨outcome, ran, only⟩ := whole host
    rw [fx3UploadFirmware_eq refused, if_pos present] at ran
    obtain ⟨long, short, first⟩ := of_not_refused refused
    obtain ⟨header, rest, rfl, length⟩ : ∃ header rest, firmware = header ++ rest ∧
        header.length = 4 :=
      ⟨firmware.take 4, firmware.drop 4, (List.take_append_drop 4 firmware).symm,
        List.length_take_of_le (by omega)⟩
    have start : encodeSections header [] = header := List.append_nil header
    rw [List.take_append_of_le_length (by omega)] at first
    rw [← start] at ran short ⊢
    rcases framed_of_loop generous length first (behind_header length) short ran with
      framed | ⟨sent, rfl⟩
    · exact framed
    · obtain ⟨image, _, delivered⟩ := only sent none rfl
      cases delivered.jumped
  · intro fine host
    by_cases refused : Refused firmware
    · exact ⟨.failure, fx3UploadFirmware_refused refused, nofun⟩
    · obtain ⟨image, rfl⟩ := fine.resolve_left refused
      rw [LoadsWhole, fx3UploadFirmware_eq refused]
      split
      · obtain ⟨outcome, ran, ends⟩ := loop_image host image
          (Nat.le_of_not_lt fun long => refused (.inr (.inl long)))
        exact ⟨outcome, ran, fun sent jump success => ⟨image, rfl, ends sent jump success⟩⟩
      · exact ⟨.failure, rfl, nofun⟩

def unterminated : List UInt8 := [0x43, 0x59, 0, 0, 1, 0, 0, 0, 0, 0, 0, 0, 7, 0, 0, 0]

def truncated : List UInt8 := [0x43, 0x59, 0, 0, 2, 0, 0, 0, 0, 0, 0, 0, 7, 0, 0, 0]

theorem unterminated_and_truncated :
    ¬LoadsWhole ready unterminated ∧ ¬LoadsWhole ready truncated := by
  constructor
  · rintro ⟨outcome, ran, only⟩
    have accepted : fx3UploadFirmware ready unterminated =
        .ok (.success [⟨0, 0, [7, 0, 0, 0]⟩] none) := by decide +kernel
    rw [accepted] at ran
    cases ran
    obtain ⟨image, _, delivered⟩ := only _ _ rfl
    cases delivered.jumped
  · rintro ⟨outcome, ran, _⟩
    have fault : fx3UploadFirmware ready truncated = .error .read := by decide +kernel
    rw [fault] at ran
    cases ran

end MisrcGui.Fx3
