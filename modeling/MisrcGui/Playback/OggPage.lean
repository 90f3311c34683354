import Mathlib.Algebra.Order.BigOperators.Group.List
import MisrcGui.Library.BigEndian
import MisrcGui.Library.Layout
import MisrcGui.Library.Lacing

/-! Ogg pages, and their reader in `gui_playback.c`. A file is the list of its bytes from the
reader's position on. -/
namespace MisrcGui.Playback.Ogg
open Library Library.Layout

def pageHeaderBytes : Nat := 27
def maxSegments : Nat := 255
def maxPageBytes : Nat := pageHeaderBytes + maxSegments + maxSegments * 255
def maxPacketBytes : Nat := 65535 * 4 + 4096

def crcRound (r : UInt32) : UInt32 :=
  if r &&& 0x80000000 ≠ 0 then (r <<< 1) ^^^ 0x04C11DB7 else r <<< 1

/-- An entry of `s_ogg_crc_table`. -/
def crcEntry (index : UInt32) : UInt32 := crcRound^[8] (index <<< 24)

def oggCrc (crc : UInt32) (data : List UInt8) : UInt32 :=
  data.foldl
    (fun crc byte => (crc <<< 8) ^^^ crcEntry (((crc >>> 24) ^^^ byte.toUInt32) &&& 0xFF)) crc

def littleEndian (bytes : List UInt8) : Nat := BigEndian.decode bytes.reverse

/-- What a read page leaves in `playback_ogg_page_t`. -/
structure PageView where
  headerType : UInt8
  granule : Nat
  serial : Nat
  segments : List Nat
  payload : List UInt8
  pageLen : Nat
deriving DecidableEq

inductive PageStatus where
  | ok (page : PageView) (rest : List UInt8)
  | eof
  | truncated
  | bad

def capturePattern : List UInt8 := [0x4F, 0x67, 0x67, 0x53]

def readPage (file : List UInt8) : PageStatus :=
  if file = [] then .eof
  else if file.length < pageHeaderBytes then .truncated
  else if file.take 4 ≠ capturePattern || file.getD 4 0 ≠ 0 then .bad
  else
    let nseg := (file.getD 26 0).toNat
    if maxPageBytes < pageHeaderBytes + nseg then .bad
    else if file.length < pageHeaderBytes + nseg then .truncated
    else
      let segments := (field file pageHeaderBytes nseg).map UInt8.toNat
      let total := pageHeaderBytes + nseg + segments.sum
      if maxPageBytes < total then .bad
      else if file.length < total then .truncated
      else
        let zeroed := file.take 22 ++ (List.replicate 4 0 ++ field file 26 (total - 26))
        if (oggCrc 0 zeroed).toNat ≠ littleEndian (field file 22 4) then .bad
        else
          .ok
            { headerType := file.getD 5 0
              granule := littleEndian (field file 6 8)
              serial := littleEndian (field file 14 4)
              segments
              payload := field file (pageHeaderBytes + nseg) segments.sum
              pageLen := total }
            (file.drop total)

def PageView.cells (page : PageView) : List (List UInt8) := cut page.payload 0 page.segments

def PageView.continued (page : PageView) : Bool := page.headerType &&& 0x01 ≠ 0

def PageView.bos (page : PageView) : Bool := page.headerType &&& 0x02 ≠ 0

def PageView.enter (page : PageView) (carry : List UInt8) : List UInt8 :=
  if page.continued then carry else []

structure Page where
  headerType : UInt8
  granule : UInt64
  serial : UInt32
  sequence : UInt32
  cells : List (List UInt8)
  count_le : cells.length ≤ maxSegments
  cell_le : ∀ cell ∈ cells, cell.length ≤ 255

def encodeLittle (width value : Nat) : List UInt8 := (BigEndian.encode width value).reverse

def Page.front (page : Page) : List UInt8 :=
  capturePattern ++ ([0] ++ ([page.headerType] ++ (encodeLittle 8 page.granule.toNat ++
    (encodeLittle 4 page.serial.toNat ++ encodeLittle 4 page.sequence.toNat))))

def Page.back (page : Page) : List UInt8 :=
  [UInt8.ofNat page.cells.length] ++
    ((page.cells.map fun cell => UInt8.ofNat cell.length) ++ page.cells.flatten)

def Page.checksum (page : Page) : UInt32 :=
  oggCrc 0 (page.front ++ (List.replicate 4 0 ++ page.back))

def Page.encode (page : Page) : List UInt8 :=
  page.front ++ (encodeLittle 4 page.checksum.toNat ++ page.back)

def Page.view (page : Page) : PageView where
  headerType := page.headerType
  granule := page.granule.toNat
  serial := page.serial.toNat
  segments := page.cells.map List.length
  payload := page.cells.flatten
  pageLen := page.encode.length

@[simp] theorem length_encodeLittle (width value : Nat) :
    (encodeLittle width value).length = width := by
  rw [encodeLittle, List.length_reverse, BigEndian.length_encode]

theorem littleEndian_encodeLittle {width value : Nat} (h : value < 256 ^ width) :
    littleEndian (encodeLittle width value) = value := by
  rw [littleEndian, encodeLittle, List.reverse_reverse, BigEndian.decode_encode,
    Nat.mod_eq_of_lt h]

theorem PageStatus.passed {refused : Prop} [Decidable refused] {status next found : PageStatus}
    (read : (if refused then status else next) = found) (other : status ≠ found) :
    ¬refused ∧ next = found := by
  by_cases refuses : refused
  · rw [if_pos refuses] at read
    exact (other read).elim
  · rw [if_neg refuses] at read
    exact ⟨refuses, read⟩

theorem readPage_ok {file rest : List UInt8} {page : PageView}
    (read : readPage file = .ok page rest) :
    file ≠ [] ∧ pageHeaderBytes ≤ page.pageLen ∧ rest = file.drop page.pageLen := by
  unfold readPage at read
  obtain ⟨some_, read⟩ := PageStatus.passed read nofun
  iterate 7 obtain ⟨-, read⟩ := PageStatus.passed read nofun
  cases read
  exact ⟨some_, (Nat.le_add_right _ _).trans (Nat.le_add_right _ _), rfl⟩

theorem readPage_eof {file : List UInt8} (read : readPage file = .eof) : file = [] := by
  by_contra some_
  unfold readPage at read
  rw [if_neg some_] at read
  iterate 7 obtain ⟨-, read⟩ := PageStatus.passed read nofun
  cases read

theorem readPage_rest {file rest : List UInt8} {page : PageView}
    (read : readPage file = .ok page rest) : rest.length < file.length := by
  obtain ⟨some_, length, rfl⟩ := readPage_ok read
  have positive : 0 < file.length := List.length_pos_iff.mpr some_
  rw [List.length_drop]
  unfold pageHeaderBytes at length
  omega

section
variable (page : Page)

@[simp] theorem Page.view_cells : page.view.cells = page.cells :=
  cut_flatten [] page.cells

@[simp] theorem Page.length_front : page.front.length = 22 := by
  simp [Page.front, capturePattern]

theorem Page.length_back :
    page.back.length = 1 + page.cells.length + (page.cells.map List.length).sum := by
  simp [Page.back, List.length_flatten]
  omega

theorem Page.length_encode : page.encode.length =
    pageHeaderBytes + page.cells.length + (page.cells.map List.length).sum := by
  simp [Page.encode, Page.length_back, pageHeaderBytes]
  omega

theorem Page.lacing :
    ((page.cells.map fun cell => UInt8.ofNat cell.length).map UInt8.toNat) =
      page.cells.map List.length := by
  rw [List.map_map]
  apply List.map_congr_left
  intro cell member
  have small := page.cell_le cell member
  simp only [Function.comp_apply, UInt8.toNat_ofNat']
  omega

theorem Page.sum_le : (page.cells.map List.length).sum ≤ maxSegments * 255 := by
  have each : (page.cells.map List.length).sum ≤ page.cells.length * 255 := by
    have bounded := List.sum_le_card_nsmul (page.cells.map List.length) 255 (by
      intro size member
      obtain ⟨cell, inside, rfl⟩ := List.mem_map.mp member
      exact page.cell_le cell inside)
    simpa using bounded
  exact each.trans (Nat.mul_le_mul_right 255 page.count_le)

def Page.fields (rest : List UInt8) : List (List UInt8) :=
  [capturePattern, [0], [page.headerType], encodeLittle 8 page.granule.toNat,
    encodeLittle 4 page.serial.toNat, encodeLittle 4 page.sequence.toNat,
    encodeLittle 4 page.checksum.toNat, [UInt8.ofNat page.cells.length],
    page.cells.map fun cell => UInt8.ofNat cell.length, page.cells.flatten, rest]

theorem Page.flatten_fields (rest : List UInt8) :
    (page.fields rest).flatten = page.encode ++ rest := by
  simp [Page.fields, Page.encode, Page.front, Page.back]

theorem Page.cut_fields (rest : List UInt8) :
    cut (page.encode ++ rest) 0 ((page.fields rest).map List.length) = page.fields rest := by
  rw [← Page.flatten_fields]
  exact cut_flatten [] (page.fields rest)

theorem Page.cut_sides (rest : List UInt8) :
    cut (page.encode ++ rest) 0 [22, 4, page.back.length] =
      [page.front, encodeLittle 4 page.checksum.toNat, page.back] := by
  have sides := cut_flatten [] [page.front, encodeLittle 4 page.checksum.toNat, page.back, rest]
  simp only [List.flatten_cons, List.flatten_nil, List.append_nil, List.nil_append,
    List.map_cons, List.map_nil, Page.length_front, length_encodeLittle, List.length_nil, cut,
    List.cons.injEq] at sides
  rw [Page.encode, List.append_assoc, List.append_assoc]
  simp only [cut, List.cons.injEq]
  exact ⟨sides.1, sides.2.1, sides.2.2.1, trivial⟩

theorem Page.header_shown {file later rest : List UInt8}
    (same : file ++ later = page.encode ++ rest) (whole : pageHeaderBytes ≤ file.length) :
    file.take 4 = capturePattern ∧ file.getD 4 0 = 0 ∧ file.getD 5 0 = page.headerType ∧
      (file.getD 26 0).toNat = page.cells.length := by
  have most := page.count_le
  have layout := page.cut_fields rest
  unfold pageHeaderBytes at whole
  unfold maxSegments at most
  simp only [← same, Page.fields, List.map_cons, List.map_nil, List.length_map,
    List.length_cons, List.length_nil, capturePattern, length_encodeLittle, Nat.reduceAdd, cut,
    Nat.zero_add, List.cons.injEq] at layout
  obtain ⟨pattern, version, headerType, -, -, -, -, nseg, -⟩ := layout
  rw [field_append later (by omega)] at pattern version headerType nseg
  refine ⟨pattern, field_one 0 version, field_one 0 headerType, ?_⟩
  rw [field_one 0 nseg, UInt8.toNat_ofNat']
  omega

theorem Page.lacing_shown {file later rest : List UInt8}
    (same : file ++ later = page.encode ++ rest)
    (whole : pageHeaderBytes + page.cells.length ≤ file.length) :
    (field file pageHeaderBytes page.cells.length).map UInt8.toNat =
      page.cells.map List.length := by
  have layout := page.cut_fields rest
  simp only [← same, Page.fields, List.map_cons, List.map_nil, List.length_map,
    List.length_cons, List.length_nil, capturePattern, length_encodeLittle, Nat.reduceAdd, cut,
    Nat.zero_add, List.cons.injEq] at layout
  have lacing := layout.2.2.2.2.2.2.2.2.1
  unfold pageHeaderBytes at whole ⊢
  rw [field_append later whole] at lacing
  rw [lacing, page.lacing]

theorem readPage_encode (rest : List UInt8) :
    readPage (page.encode ++ rest) = .ok page.view rest := by
  have same : (page.encode ++ rest) ++ [] = page.encode ++ rest := List.append_nil _
  have length := page.length_encode
  have whole : (page.encode ++ rest).length = page.encode.length + rest.length :=
    List.length_append
  have after : (page.encode ++ rest).drop page.encode.length = rest := List.drop_left
  have layout := page.cut_fields rest
  have sides := page.cut_sides rest
  have backLength := page.length_back
  have most := page.count_le
  have sum := page.sum_le
  obtain ⟨pattern, version, headerType, nseg⟩ := page.header_shown same (by omega)
  have lacing := page.lacing_shown same (by omega)
  simp only [Page.fields, List.map_cons, List.map_nil, List.length_map,
    List.length_cons, List.length_nil, capturePattern, length_encodeLittle, Nat.reduceAdd, cut,
    Nat.zero_add, List.cons.injEq] at layout sides
  obtain ⟨-, -, -, granule, serial, -, stored, -, -, payload, -⟩ := layout
  obtain ⟨front, -, back, -⟩ := sides
  generalize page.encode ++ rest = file at *
  unfold pageHeaderBytes at length lacing
  unfold maxSegments at most sum
  have nonempty : file ≠ [] := by
    rintro rfl
    rw [List.length_nil] at whole
    omega
  have checked : oggCrc 0 (file.take 22 ++ (List.replicate 4 0 ++
      field file 26 page.back.length)) = page.checksum := by
    rw [back]
    unfold field at front
    rw [List.drop_zero] at front
    rw [front]
    rfl
  have covered : pageHeaderBytes + page.cells.length + (page.cells.map List.length).sum - 26 =
      page.back.length := by
    unfold pageHeaderBytes
    omega
  have payloadLength : page.cells.flatten.length = (page.cells.map List.length).sum :=
    List.length_flatten
  rw [payloadLength] at payload
  unfold readPage
  rw [if_neg nonempty, if_neg (by unfold pageHeaderBytes; omega),
    if_neg (by rw [pattern, version]; decide)]
  simp only [nseg]
  rw [if_neg (by unfold maxPageBytes pageHeaderBytes maxSegments; omega),
    if_neg (by unfold pageHeaderBytes; omega)]
  unfold pageHeaderBytes at *
  simp only [lacing]
  rw [if_neg (by unfold maxPageBytes pageHeaderBytes maxSegments; omega), if_neg (by omega),
    covered, checked, stored, littleEndian_encodeLittle page.checksum.toNat_lt,
    if_neg (not_not.mpr rfl), granule, serial, headerType, payload,
    littleEndian_encodeLittle page.granule.toNat_lt,
    littleEndian_encodeLittle page.serial.toNat_lt, ← length, after]
  rfl

theorem readPage_truncated {count : Nat} (some : 0 < count) (short : count < page.encode.length) :
    readPage (page.encode.take count) = .truncated := by
  have same : page.encode.take count ++ page.encode.drop count = page.encode ++ [] := by
    rw [List.take_append_drop, List.append_nil]
  have length : (page.encode.take count).length = count := List.length_take_of_le short.le
  have total := page.length_encode
  have most := page.count_le
  have sum := page.sum_le
  have nonempty : page.encode.take count ≠ [] := by
    intro empty
    rw [empty] at length
    exact some.ne length
  unfold readPage
  rw [if_neg nonempty]
  by_cases header : (page.encode.take count).length < pageHeaderBytes
  · rw [if_pos header]
  · obtain ⟨pattern, version, -, nseg⟩ := page.header_shown same (Nat.not_lt.mp header)
    rw [if_neg header, if_neg (by rw [pattern, version]; decide)]
    simp only [nseg]
    rw [if_neg (by unfold maxPageBytes maxSegments at *; omega)]
    by_cases table : (page.encode.take count).length < pageHeaderBytes + page.cells.length
    · rw [if_pos table]
    · rw [if_neg table]
      simp only [page.lacing_shown same (Nat.not_lt.mp table)]
      rw [if_neg (by unfold maxPageBytes maxSegments at *; omega), if_pos (by omega)]

end

def logical (serial : UInt32) (pages : List Page) : List Page :=
  pages.filter fun page => page.serial = serial

def lacedCells (pages : List Page) : List (List UInt8) := pages.flatMap Page.cells

theorem logical_append (serial : UInt32) (front rest : List Page) :
    logical serial (front ++ rest) = logical serial front ++ logical serial rest :=
  List.filter_append front rest

theorem lacedCells_append (front rest : List Page) :
    lacedCells (front ++ rest) = lacedCells front ++ lacedCells rest :=
  List.flatMap_append

/-- The continuation flag of each page says whether the pages before it stop inside a packet. -/
def Flagged : Bool → List Page → Prop
  | _, [] => True
  | start, page :: rest =>
    page.view.continued = start ∧ Flagged (Lacing.leavesOpen 255 start page.cells) rest

def cellPage (serial sequence : UInt32) (headerType : UInt8) (cell : List UInt8) : Page where
  headerType
  granule := 0
  serial
  sequence
  cells := [cell.take 255]
  count_le := show 1 ≤ maxSegments by decide
  cell_le := by
    intro shown member
    rw [List.mem_singleton.mp member]
    exact List.length_take_le 255 cell

def cellPages (serial : UInt32) : UInt32 → Bool → List (List UInt8) → List Page
  | _, _, [] => []
  | sequence, start, cell :: rest =>
    cellPage serial sequence (if start then 0x01 else 0x00) cell ::
      cellPages serial (sequence + 1) (cell.length = 255) rest

section
variable {serial sequence : UInt32} {start : Bool} {cells : List (List UInt8)}

@[simp] theorem length_cellPages :
    (cellPages serial sequence start cells).length = cells.length := by
  induction cells generalizing sequence start with
  | nil => rfl
  | cons cell rest ih => rw [cellPages, List.length_cons, ih, List.length_cons]

theorem mem_cellPages {page : Page} (member : page ∈ cellPages serial sequence start cells) :
    page.serial = serial ∧ page.cells ≠ [] := by
  induction cells generalizing sequence start with
  | nil => exact absurd member List.not_mem_nil
  | cons cell rest ih =>
    rcases List.mem_cons.mp member with rfl | later
    · exact ⟨rfl, List.cons_ne_nil _ _⟩
    · exact ih later

theorem logical_cellPages :
    logical serial (cellPages serial sequence start cells) =
      cellPages serial sequence start cells :=
  List.filter_eq_self.mpr fun _ member => decide_eq_true (mem_cellPages member).1

theorem cellPage_cells {headerType : UInt8} {cell : List UInt8} (small : cell.length ≤ 255) :
    (cellPage serial sequence headerType cell).cells = [cell] :=
  congrArg (fun shown => [shown]) (List.take_of_length_le small)

theorem lacedCells_cellPages (small : ∀ cell ∈ cells, cell.length ≤ 255) :
    lacedCells (cellPages serial sequence start cells) = cells := by
  unfold lacedCells
  induction cells generalizing sequence start with
  | nil => rfl
  | cons cell rest ih =>
    rw [cellPages, List.flatMap_cons, cellPage_cells (small cell List.mem_cons_self),
      ih fun other member => small other (List.mem_cons_of_mem _ member)]
    rfl

theorem flagged_cellPages (small : ∀ cell ∈ cells, cell.length ≤ 255) :
    Flagged start (cellPages serial sequence start cells) := by
  induction cells generalizing sequence start with
  | nil => trivial
  | cons cell rest ih =>
    refine ⟨by cases start <;> simp [PageView.continued, cellPage, Page.view], ?_⟩
    rw [cellPage_cells (small cell List.mem_cons_self)]
    exact ih fun other member => small other (List.mem_cons_of_mem _ member)

end

theorem Flagged.front {start : Bool} {front rest : List Page}
    (flagged : Flagged start (front ++ rest)) : Flagged start front := by
  induction front generalizing start with
  | nil => trivial
  | cons page front ih => exact ⟨flagged.1, ih flagged.2⟩

section
variable {State : Type*} (handle : State → List UInt8 → Except State State)
  (tooLarge : State → State)

/-- The cells of a page of the logical stream; a page of another one is skipped. -/
def readCells (serial : Nat) (reading : State × List UInt8) (page : PageView) :
    Except (State × List UInt8) (State × List UInt8) :=
  if page.serial ≠ serial then .ok reading
  else
    match Scanner.scan (Lacing.step maxPacketBytes tooLarge handle 255)
        (reading.1, page.enter reading.2) page.cells with
    | (next, true) => .ok next
    | (failed, false) => .error failed

variable {handle tooLarge}

theorem scan_readCells {serial : UInt32} {pages : List Page} {start : Bool} {state : State}
    {carry : List UInt8} (flagged : Flagged start (logical serial pages))
    (closed : start = false → carry = []) :
    Scanner.scan (readCells handle tooLarge serial.toNat) (state, carry) (pages.map Page.view) =
      Scanner.scan (Lacing.step maxPacketBytes tooLarge handle 255) (state, carry)
        (lacedCells (logical serial pages)) := by
  induction pages generalizing start state carry with
  | nil => rfl
  | cons page rest ih =>
    rw [List.map_cons]
    by_cases own : page.serial = serial
    · have kept : logical serial (page :: rest) = page :: logical serial rest := by
        simp [logical, own]
      rw [kept] at flagged ⊢
      obtain ⟨flag, later⟩ := flagged
      have entered : page.view.enter carry = carry := by
        unfold PageView.enter
        split
        · rfl
        · next fresh =>
          rw [flag, Bool.not_eq_true] at fresh
          exact (closed fresh).symm
      have shown : page.view.serial = serial.toNat := congrArg UInt32.toNat own
      rw [lacedCells, List.flatMap_cons, ← lacedCells, Scanner.scan_append]
      cases outcome : Scanner.scan (Lacing.step maxPacketBytes tooLarge handle 255)
          (state, carry) page.cells with
      | mk next good =>
        cases good with
        | false =>
          have taken : readCells handle tooLarge serial.toNat (state, carry) page.view =
              .error next := by
            simp [readCells, shown, entered, outcome]
          rw [Scanner.scan_error _ taken]
          simp
        | true =>
          obtain ⟨after, left⟩ := next
          have carried := Lacing.scan_step_carry outcome
          have taken : readCells handle tooLarge serial.toNat (state, carry) page.view =
              .ok (after, left) := by
            simp [readCells, shown, entered, outcome]
          rw [Scanner.scan_ok _ taken, if_pos rfl]
          apply ih later
          intro closes
          rw [carried]
          exact Lacing.carry_of_closed closed closes
    · have skipped : logical serial (page :: rest) = logical serial rest := by
        simp [logical, own]
      have other : page.view.serial ≠ serial.toNat := fun same => own (UInt32.toNat_inj.mp same)
      rw [skipped] at flagged ⊢
      have taken : readCells handle tooLarge serial.toNat (state, carry) page.view =
          .ok (state, carry) := by
        simp [readCells, other]
      rw [Scanner.scan_ok _ taken]
      exact ih flagged closed

end

end MisrcGui.Playback.Ogg
