import Mathlib.Data.List.GetD
import MisrcGui.Library.Incremental
import MisrcGui.Playback.OggPage
import MisrcGui.Playback.ScanInput

/-! The scan for the last page of an Ogg stream (`gui_playback_ogg_scan_window`), in chunks whose
undecided end is carried on. -/
namespace MisrcGui.Playback.Ogg.Tail
open Library Library.Incremental Library.Layout
open ScanInput (Handle seekAbs int64Max)

def scanChunkBytes : Nat := 2 ^ 20

def noGranule : Nat := 2 ^ 64 - 1

/-- The outputs of `gui_playback_ogg_parse_page_in_buffer`. -/
structure BufPage where
  pageLen : Nat
  granule : Nat
  serial : Nat
deriving DecidableEq

inductive BufStatus where
  | valid (page : BufPage)
  | invalid
  | incomplete
deriving DecidableEq

def parsePageInBuffer (p : List UInt8) : BufStatus :=
  if p.length < pageHeaderBytes then .incomplete
  else if p.take 4 ≠ capturePattern || p.getD 4 0 ≠ 0 then .invalid
  else
    let segEnd := pageHeaderBytes + (p.getD 26 0).toNat
    if p.length < segEnd then .incomplete
    else
      let payloadLen := ((field p pageHeaderBytes (p.getD 26 0).toNat).map UInt8.toNat).sum
      let total := segEnd + payloadLen
      if maxPageBytes < total then .invalid
      else if p.length < total then .incomplete
      else
        let crc := oggCrc (oggCrc (oggCrc 0 (p.take 22)) (List.replicate 4 0))
          (field p 26 (total - 26))
        if crc.toNat ≠ littleEndian (field p 22 4) then .invalid
        else .valid ⟨total, littleEndian (field p 6 8), littleEndian (field p 14 4)⟩

/-- `best` behind one more page. -/
def note (serial : Nat) (best : Option Nat) (page : BufPage) : Option Nat :=
  if page.serial = serial ∧ page.granule ≠ noGranule then some page.granule else best

variable {p buf : List UInt8} (serial : Nat)

theorem parse_valid_length {page : BufPage} (h : parsePageInBuffer p = .valid page) :
    0 < page.pageLen ∧ page.pageLen ≤ p.length := by
  unfold parsePageInBuffer at h
  dsimp only at h
  split_ifs at h
  cases h
  unfold pageHeaderBytes at *
  dsimp only
  omega

theorem parse_invalid_length (h : parsePageInBuffer p = .invalid) : 1 ≤ p.length := by
  by_contra short
  rw [parsePageInBuffer, if_pos (by unfold pageHeaderBytes; omega)] at h
  cases h

/-- The loop over a buffer that ends `room` bytes or more before the window does: what it found, and
what it carries on. -/
def scanBuffer (serial room : Nat) (buf : List UInt8) (best : Option Nat) :
    Option Nat × List UInt8 :=
  if _short : buf.length < pageHeaderBytes then (best, buf)
  else match _parsed : parsePageInBuffer buf with
    | .incomplete => (best, buf)
    | .valid page =>
      if page.pageLen ≤ room then
        scanBuffer serial (room - page.pageLen) (buf.drop page.pageLen) (note serial best page)
      else scanBuffer serial (room - 1) (buf.drop 1) best
    | .invalid => scanBuffer serial (room - 1) (buf.drop 1) best
termination_by buf.length
decreasing_by
  all_goals
    rw [List.length_drop]
    unfold pageHeaderBytes at _short
  · have positive := (parse_valid_length _parsed).1
    omega
  · omega
  · omega

theorem length_scanBuffer (room : Nat) (buf : List UInt8) (best : Option Nat) :
    (scanBuffer serial room buf best).2.length ≤ buf.length := by
  induction same : buf.length using Nat.strong_induction_on generalizing buf room best with
  | _ size ih =>
  have less : ∀ count, (buf.drop count).length ≤ size := by
    intro count
    rw [List.length_drop]
    omega
  have shorter : ∀ count, 0 < count → pageHeaderBytes ≤ buf.length →
      (buf.drop count).length < size := by
    intro count positive long
    unfold pageHeaderBytes at long
    rw [List.length_drop]
    omega
  unfold scanBuffer
  split
  · exact same.le
  rename_i long
  have long := Nat.not_lt.mp long
  split
  · exact same.le
  · rename_i page parsed
    split
    · exact (ih _ (shorter _ (parse_valid_length parsed).1 long) _ _ _ rfl).trans (less _)
    · exact (ih _ (shorter _ Nat.one_pos long) _ _ _ rfl).trans (less _)
  · exact (ih _ (shorter _ Nat.one_pos long) _ _ _ rfl).trans (less _)

def granted (want : Nat) : Option Nat → Nat
  | none => want
  | some grant => min want (grant + 1)

def readChunk (end_ : Nat) (grants : List Nat) (file : Handle) (base carried : Nat) :
    List UInt8 × Handle :=
  let want := min (end_ - (base + carried)) (scanChunkBytes + maxPageBytes - carried)
  file.fread (granted want grants.head?)

/-- The loop over the chunks: `base` is the place of the buffer's first byte. -/
def scanChunks (serial end_ : Nat) (grants : List Nat) (file : Handle) (base : Nat)
    (buf : List UInt8) (best : Option Nat) : Option Nat :=
  if end_ ≤ base + buf.length then best
  else if _ended : (readChunk end_ grants file base buf.length).1 = [] then best
  else
    let chunk := readChunk end_ grants file base buf.length
    let scanned := scanBuffer serial (end_ - base) (buf ++ chunk.1) best
    scanChunks serial end_ grants.tail chunk.2
      (base + ((buf ++ chunk.1).length - scanned.2.length)) scanned.2 scanned.1
termination_by end_ - (base + buf.length)
decreasing_by
  have some_ := List.length_pos_iff.mpr _ended
  have bound := length_scanBuffer serial (end_ - base)
    (buf ++ (readChunk end_ grants file base buf.length).1) best
  rw [List.length_append] at bound ⊢
  omega

structure Capture where
  bytes : List UInt8
  small : bytes.length ≤ int64Max

def scanWindow (file : Capture) (start end_ serial : Nat) (grants : List Nat) : Option Nat :=
  if end_ ≤ start then none
  else match seekAbs ⟨file.bytes, 0⟩ start with
    | none => none
    | some handle => scanChunks serial end_ grants handle start [] none

theorem readPage_some {data : List UInt8}
    (h : readPage data = .truncated ∨ readPage data = .bad) : 0 < data.length := by
  refine List.length_pos_iff.mpr ?_
  rintro rfl
  rcases h with h | h <;> cases h

/-- The pages that are complete and whole, their own bytes not searched again. -/
def pages (data : List UInt8) : List PageView :=
  match _read : readPage data with
  | .ok page rest => page :: pages rest
  | .eof => []
  | .truncated => pages (data.drop 1)
  | .bad => pages (data.drop 1)
termination_by data.length
decreasing_by
  · exact readPage_rest _read
  · rw [List.length_drop]
    exact Nat.sub_lt (readPage_some (Or.inl _read)) Nat.one_pos
  · rw [List.length_drop]
    exact Nat.sub_lt (readPage_some (Or.inr _read)) Nat.one_pos

/-- The pages before a candidate that the end cuts off, and the bytes behind its first one. -/
def taken (data : List UInt8) : List PageView × List UInt8 :=
  match _read : readPage data with
  | .ok page rest => (page :: (taken rest).1, (taken rest).2)
  | .eof => ([], [])
  | .truncated => ([], data.drop 1)
  | .bad => taken (data.drop 1)
termination_by data.length
decreasing_by
  · exact readPage_rest _read
  · rw [List.length_drop]
    exact Nat.sub_lt (readPage_some (Or.inr _read)) Nat.one_pos

def noteView (serial : Nat) (best : Option Nat) (page : PageView) : Option Nat :=
  if page.serial = serial ∧ page.granule ≠ noGranule then some page.granule else best

def lastGranule (serial : Nat) (pages : List PageView) : Option Nat :=
  pages.foldl (noteView serial) none

def Capture.window (file : Capture) (start end_ : Nat) : List UInt8 :=
  (file.bytes.take end_).drop start

theorem parse_eq (p : List UInt8) : parsePageInBuffer p =
    match readPage p with
    | .ok page _ => .valid ⟨page.pageLen, page.granule, page.serial⟩
    | .bad => .invalid
    | _ => .incomplete := by
  unfold parsePageInBuffer readPage
  have table : ¬maxPageBytes < pageHeaderBytes + (p.getD 26 0).toNat := by
    have := (p.getD 26 0).toNat_lt
    unfold maxPageBytes pageHeaderBytes maxSegments
    omega
  have sum (seed : UInt32) (a b c : List UInt8) :
      oggCrc (oggCrc (oggCrc seed a) b) c = oggCrc seed (a ++ (b ++ c)) := by
    unfold oggCrc
    rw [List.foldl_append, List.foldl_append]
  by_cases empty : p = []
  · rw [if_pos empty, empty]
    rfl
  rw [if_neg empty]
  split
  · rfl
  split
  · rfl
  dsimp only
  rw [if_neg table]
  split
  · rfl
  split
  · rfl
  split
  · rfl
  rw [sum]
  split
  · rfl
  · rfl

theorem parse_valid_iff (p : List UInt8) (found : BufPage) : parsePageInBuffer p = .valid found ↔
    ∃ page rest, readPage p = .ok page rest ∧
      found = ⟨page.pageLen, page.granule, page.serial⟩ := by
  rw [parse_eq]
  cases readPage p with
  | ok page rest => simp [eq_comm]
  | eof => simp
  | truncated => simp
  | bad => simp

theorem parse_append (decided : parsePageInBuffer p ≠ .incomplete) (later : List UInt8) :
    parsePageInBuffer (p ++ later) = parsePageInBuffer p := by
  have longer : (p ++ later).length = p.length + later.length := List.length_append
  have header : pageHeaderBytes ≤ p.length := by
    by_contra short
    exact decided (if_pos (Nat.not_le.mp short))
  have cells : 27 ≤ p.length := header
  have front : (p ++ later).take 4 = p.take 4 := List.take_append_of_le_length (by omega)
  have sides : (p ++ later).take 22 = p.take 22 := List.take_append_of_le_length (by omega)
  have version : (p ++ later).getD 4 0 = p.getD 4 0 := List.getD_append _ _ _ _ (by omega)
  have count : (p ++ later).getD 26 0 = p.getD 26 0 := List.getD_append _ _ _ _ (by omega)
  have longHeader : ¬(p ++ later).length < pageHeaderBytes := by omega
  unfold parsePageInBuffer at decided ⊢
  rw [if_neg (Nat.not_lt.mpr header)] at decided ⊢
  rw [if_neg longHeader, front, version, count]
  split
  · rfl
  rename_i captured
  rw [if_neg captured] at decided
  dsimp only at decided ⊢
  have table : ¬p.length < pageHeaderBytes + (p.getD 26 0).toNat := by
    intro short
    exact decided (if_pos short)
  have longTable : ¬(p ++ later).length < pageHeaderBytes + (p.getD 26 0).toNat := by omega
  rw [if_neg table] at decided ⊢
  rw [if_neg longTable, field_append later (Nat.not_lt.mp table)]
  split
  · rfl
  rename_i fits
  rw [if_neg fits] at decided
  have whole : ¬p.length < pageHeaderBytes + (p.getD 26 0).toNat +
      ((field p pageHeaderBytes (p.getD 26 0).toNat).map UInt8.toNat).sum := by
    intro short
    exact decided (if_pos short)
  have longWhole : ¬(p ++ later).length < pageHeaderBytes + (p.getD 26 0).toNat +
      ((field p pageHeaderBytes (p.getD 26 0).toNat).map UInt8.toNat).sum := by
    omega
  have covered : 26 + (pageHeaderBytes + (p.getD 26 0).toNat +
      ((field p pageHeaderBytes (p.getD 26 0).toNat).map UInt8.toNat).sum - 26) ≤ p.length := by
    unfold pageHeaderBytes at *
    omega
  rw [if_neg whole, if_neg longWhole, sides, field_append later covered,
    field_append later (by omega), field_append later (by omega), field_append later (by omega)]

def pageGrammar : Grammar UInt8 (Option BufPage) where
  next stream := match parsePageInBuffer stream with
    | .incomplete => .more
    | .valid page => .item (some page) (stream.drop page.pageLen)
    | .invalid => .item none (stream.drop 1)
  bad_append stream later h := by
    cases parsed : parsePageInBuffer stream <;> rw [parsed] at h <;> cases h
  item_append stream later value rest h := by
    cases parsed : parsePageInBuffer stream with
    | incomplete =>
      rw [parsed] at h
      cases h
    | valid page =>
      rw [parsed] at h
      cases h
      rw [parse_append (by rw [parsed]; simp), parsed]
      dsimp only
      rw [List.drop_append_of_le_length (parse_valid_length parsed).2]
    | invalid =>
      rw [parsed] at h
      cases h
      rw [parse_append (by rw [parsed]; simp), parsed]
      dsimp only
      rw [List.drop_append_of_le_length (parse_invalid_length parsed)]
  shorter stream value rest h := by
    cases parsed : parsePageInBuffer stream with
    | incomplete =>
      rw [parsed] at h
      cases h
    | valid page =>
      obtain ⟨positive, inside⟩ := parse_valid_length parsed
      rw [parsed] at h
      cases h
      rw [List.length_drop]
      omega
    | invalid =>
      have inside := parse_invalid_length parsed
      rw [parsed] at h
      cases h
      rw [List.length_drop]
      omega

/-- `best` behind a page or a byte. -/
def noteItem (serial : Nat) (best : Option Nat) : Option BufPage → Option Nat
  | none => best
  | some page => note serial best page

theorem next_more_iff {stream : List UInt8} :
    pageGrammar.next stream = .more ↔ parsePageInBuffer stream = .incomplete := by
  simp only [pageGrammar]
  cases parsePageInBuffer stream <;> simp

theorem length_undecided {stream : List UInt8} (h : parsePageInBuffer stream = .incomplete) :
    stream.length < maxPageBytes := by
  by_contra long
  unfold parsePageInBuffer at h
  have table := (stream.getD 26 0).toNat_lt
  dsimp only at h
  unfold maxPageBytes pageHeaderBytes maxSegments at *
  split_ifs at h <;> omega

theorem parse_short (short : buf.length < pageHeaderBytes) :
    parsePageInBuffer buf = .incomplete := if_pos short

theorem scanBuffer_incomplete (room : Nat) (best : Option Nat)
    (parsed : parsePageInBuffer buf = .incomplete) :
    scanBuffer serial room buf best = (best, buf) := by
  rw [scanBuffer]
  split
  · rfl
  split
  · rfl
  · rename_i other
    cases parsed.symm.trans other
  · rename_i other
    cases parsed.symm.trans other

theorem scanBuffer_valid {room : Nat} {page : BufPage} (best : Option Nat)
    (parsed : parsePageInBuffer buf = .valid page) (fits : page.pageLen ≤ room) :
    scanBuffer serial room buf best =
      scanBuffer serial (room - page.pageLen) (buf.drop page.pageLen) (note serial best page) := by
  rw [scanBuffer]
  split
  · rename_i short
    cases (parse_short short).symm.trans parsed
  split
  · rename_i other
    cases parsed.symm.trans other
  · rename_i other
    cases parsed.symm.trans other
    rw [if_pos fits]
  · rename_i other
    cases parsed.symm.trans other

theorem scanBuffer_invalid (room : Nat) (best : Option Nat)
    (parsed : parsePageInBuffer buf = .invalid) : scanBuffer serial room buf best =
      scanBuffer serial (room - 1) (buf.drop 1) best := by
  rw [scanBuffer]
  split
  · rename_i short
    cases (parse_short short).symm.trans parsed
  split
  · rename_i other
    cases parsed.symm.trans other
  · rename_i other
    cases parsed.symm.trans other
  · rfl

theorem next_eq (stream : List UInt8) : pageGrammar.next stream =
    match parsePageInBuffer stream with
    | .incomplete => .more
    | .valid page => .item (some page) (stream.drop page.pageLen)
    | .invalid => .item none (stream.drop 1) := rfl

theorem next_not_bad (stream : List UInt8) : pageGrammar.next stream ≠ .bad := by
  rw [next_eq]
  cases parsePageInBuffer stream <;> simp

theorem scanBuffer_eq (room : Nat) (inside : buf.length ≤ room) (best : Option Nat) :
    ∃ tail, (items pageGrammar buf).2 = some tail ∧
      scanBuffer serial room buf best =
        ((items pageGrammar buf).1.foldl (noteItem serial) best, tail) := by
  induction buf using stream_induction pageGrammar generalizing room best with
  | more buf h =>
    rw [items_more h, scanBuffer_incomplete serial room best (next_more_iff.mp h)]
    exact ⟨buf, rfl, rfl⟩
  | bad buf h => exact (next_not_bad buf h).elim
  | item buf value rest h ih =>
    rw [items_item h]
    rw [next_eq] at h
    cases parsed : parsePageInBuffer buf with
    | incomplete =>
      rw [parsed] at h
      cases h
    | valid page =>
      obtain ⟨positive, whole⟩ := parse_valid_length parsed
      rw [parsed] at h
      cases h
      rw [scanBuffer_valid serial best parsed (whole.trans inside), List.foldl_cons]
      exact ih _ (by rw [List.length_drop]; omega) _
    | invalid =>
      rw [parsed] at h
      cases h
      rw [scanBuffer_invalid serial room best parsed, List.foldl_cons]
      exact ih _ (by rw [List.length_drop]; omega) _

theorem granted_le (want : Nat) (grant : Option Nat) : granted want grant ≤ want := by
  cases grant with
  | none => exact Nat.le_refl want
  | some grant => exact Nat.min_le_left _ _

theorem granted_pos {want : Nat} (grant : Option Nat) (some_ : 0 < want) :
    0 < granted want grant := by
  cases grant with
  | none => exact some_
  | some grant => exact Nat.lt_min.mpr ⟨some_, Nat.succ_pos grant⟩

theorem readChunk_eq (bytes : List UInt8) {end_ base carried : Nat} (grants : List Nat)
    (room : carried < maxPageBytes) (unread : base + carried < end_) :
    ∃ count > 0, readChunk end_ grants ⟨bytes, base + carried⟩ base carried =
      (((bytes.take end_).drop (base + carried)).take count, ⟨bytes, base + carried +
        (((bytes.take end_).drop (base + carried)).take count).length⟩) := by
  obtain ⟨want, want_eq⟩ : ∃ want,
    min (end_ - (base + carried)) (scanChunkBytes + maxPageBytes - carried) = want := ⟨_, rfl⟩
  have some_ : 0 < want := by omega
  have most := granted_le want grants.head?
  have same : ((bytes.take end_).drop (base + carried)).take (granted want grants.head?) =
      (bytes.drop (base + carried)).take (granted want grants.head?) := by
    rw [List.drop_take, List.take_take, Nat.min_eq_left (by omega)]
  refine ⟨granted want grants.head?, granted_pos _ some_, ?_⟩
  rw [same, readChunk, want_eq]
  rfl

theorem scanChunks_eq (bytes : List UInt8) (serial : Nat) {end_ base : Nat} (best : Option Nat)
    (grants : List Nat) (undecided : parsePageInBuffer buf = .incomplete) :
    scanChunks serial end_ grants ⟨bytes, base + buf.length⟩ base buf best =
      (items pageGrammar (buf ++ (bytes.take end_).drop (base + buf.length))).1.foldl
        (noteItem serial) best := by
  induction left : ((bytes.take end_).drop (base + buf.length)).length
    using Nat.strong_induction_on generalizing base buf best grants with
  | _ left ih =>
  have stuck : (items pageGrammar buf).1 = [] := by
    rw [items_more (next_more_iff.mpr undecided)]
  unfold scanChunks
  split
  · rename_i ended
    have none_left : (bytes.take end_).drop (base + buf.length) = [] := by
      rw [List.drop_eq_nil_iff, List.length_take]
      omega
    rw [none_left, List.append_nil, stuck]
    rfl
  rename_i unread
  obtain ⟨count, positive, chunk⟩ :=
    readChunk_eq bytes grants (length_undecided undecided) (Nat.not_le.mp unread)
  rw [chunk]
  obtain ⟨ahead, ahead_eq⟩ : ∃ ahead, (bytes.take end_).drop (base + buf.length) = ahead :=
    ⟨_, rfl⟩
  rw [ahead_eq] at left ⊢
  split
  · rename_i ended
    have none_left : ahead = [] := by
      rcases List.take_eq_nil_iff.mp ended with zero | empty
      · omega
      · exact empty
    rw [none_left, List.append_nil, stuck]
    rfl
  rename_i more
  have some_ := List.length_pos_iff.mpr more
  have inside : ahead.length ≤ end_ - (base + buf.length) := by
    rw [← ahead_eq, List.length_drop, List.length_take]
    omega
  have part := List.length_take_le' count ahead
  have room : (buf ++ ahead.take count).length ≤ end_ - base := by
    rw [List.length_append]
    omega
  obtain ⟨tail, kept, scanned⟩ := scanBuffer_eq serial (end_ - base) room best
  have shorter := length_rest_le kept
  have place : base + buf.length + (ahead.take count).length =
      base + ((buf ++ ahead.take count).length - tail.length) + tail.length := by
    rw [List.length_append] at shorter ⊢
    omega
  have rest : (bytes.take end_).drop (base + ((buf ++ ahead.take count).length - tail.length) +
      tail.length) = ahead.drop count := by
    rw [← place, ← List.drop_drop, ahead_eq, List.length_take]
    rcases Nat.le_total count ahead.length with fits | long
    · rw [Nat.min_eq_left fits]
    · rw [Nat.min_eq_right long, List.drop_length, List.drop_of_length_le long]
  have split : buf ++ ahead = (buf ++ ahead.take count) ++ ahead.drop count := by
    rw [List.append_assoc, List.take_append_drop]
  have fewer : (ahead.drop count).length < ahead.length := by
    have both := congrArg List.length (List.take_append_drop count ahead)
    rw [List.length_append] at both
    dsimp only at some_
    omega
  dsimp only
  rw [scanned, place, ih _ (left ▸ fewer) _ _ (next_more_iff.mp (next_rest kept)) (by rw [rest]),
    rest, split, items_carried kept, List.foldl_append]

theorem pages_ok {data rest : List UInt8} {page : PageView} (read : readPage data = .ok page rest) :
    pages data = page :: pages rest := by
  rw [pages]
  split <;> rename_i other <;> cases read.symm.trans other
  rfl

theorem pages_nil : pages [] = [] := by
  rw [pages]
  split <;> rename_i read <;> first | rfl | cases read

theorem pages_other {data : List UInt8} (read : ∀ page rest, readPage data ≠ .ok page rest) :
    pages data = pages (data.drop 1) := by
  rw [pages]
  split
  · rename_i other
    exact (read _ _ other).elim
  · rename_i ended
    rw [readPage_eof ended, List.drop_nil, pages_nil]
  · rfl
  · rfl

theorem taken_ok {data rest : List UInt8} {page : PageView} (read : readPage data = .ok page rest) :
    taken data = (page :: (taken rest).1, (taken rest).2) := by
  rw [taken]
  split <;> rename_i other <;> cases read.symm.trans other
  rfl

theorem taken_bad {data : List UInt8} (read : readPage data = .bad) :
    taken data = taken (data.drop 1) := by
  rw [taken]
  split <;> rename_i other <;> cases read.symm.trans other
  rfl

theorem taken_cut {data : List UInt8} (read : parsePageInBuffer data = .incomplete) :
    taken data = ([], data.drop 1) := by
  rw [parse_eq] at read
  rw [taken]
  split
  · rename_i other
    rw [other] at read
    cases read
  · rename_i ended
    rw [readPage_eof ended]
    rfl
  · rfl
  · rename_i other
    rw [other] at read
    cases read

/-- The scan of a whole buffer notes the pages before the first candidate that is cut off. -/
theorem items_taken (data : List UInt8) (best : Option Nat) :
    (items pageGrammar data).1.foldl (noteItem serial) best =
      (taken data).1.foldl (noteView serial) best := by
  induction data using stream_induction pageGrammar generalizing best with
  | more data h =>
    rw [items_more h, taken_cut (next_more_iff.mp h)]
    rfl
  | bad data h => exact (next_not_bad data h).elim
  | item data value rest h ih =>
    rw [items_item h, List.foldl_cons, ih]
    rw [next_eq, parse_eq] at h
    cases read : readPage data with
    | ok page behind =>
      rw [read] at h
      cases h
      rw [taken_ok read, (readPage_ok read).2.2, List.foldl_cons]
      rfl
    | eof | truncated =>
      rw [read] at h
      cases h
    | bad =>
      rw [read] at h
      cases h
      rw [taken_bad read]
      rfl

theorem pages_eq (data : List UInt8) : pages data = (taken data).1 ++ pages (taken data).2 := by
  induction data using stream_induction pageGrammar with
  | more data h =>
    have cut := next_more_iff.mp h
    rw [taken_cut cut, List.nil_append]
    refine pages_other fun page rest read => ?_
    rw [parse_eq, read] at cut
    cases cut
  | bad data h => exact (next_not_bad data h).elim
  | item data value rest h ih =>
    rw [next_eq, parse_eq] at h
    cases read : readPage data with
    | ok page behind =>
      rw [read] at h
      cases h
      rw [← (readPage_ok read).2.2] at ih
      rw [pages_ok read, taken_ok read, List.cons_append, ih]
    | eof | truncated =>
      rw [read] at h
      cases h
    | bad =>
      rw [read] at h
      cases h
      rw [taken_bad read, ← ih]
      exact pages_other fun page rest other => by cases read.symm.trans other

theorem foldl_noteView (pages : List PageView) (best : Option Nat) :
    pages.foldl (noteView serial) best = (lastGranule serial pages).or best := by
  unfold lastGranule
  induction pages generalizing best with
  | nil => rfl
  | cons page pages ih =>
    rw [List.foldl_cons, List.foldl_cons, ih, ih (noteView serial none page), Option.or_assoc]
    unfold noteView
    split <;> simp

theorem lastGranule_append (front rest : List PageView) :
    lastGranule serial (front ++ rest) =
      (lastGranule serial rest).or (lastGranule serial front) := by
  rw [lastGranule, List.foldl_append]
  exact foldl_noteView serial rest _

theorem scanWindow_eq (file : Capture) (start end_ serial : Nat) (grants : List Nat) :
    scanWindow file start end_ serial grants =
      lastGranule serial (taken (file.window start end_)).1 := by
  have small := file.small
  have empty (none_left : file.window start end_ = []) :
      lastGranule serial (taken (file.window start end_)).1 = none := by
    rw [none_left, taken_cut rfl]
    rfl
  have window : file.window start end_ = [] ↔ min end_ file.bytes.length ≤ start := by
    rw [Capture.window, List.drop_eq_nil_iff, List.length_take]
  unfold scanWindow seekAbs
  split
  · rw [empty (window.mpr (by omega))]
  split
  · rename_i far
    rw [ite_eq_left_iff] at far
    rw [empty (window.mpr (by by_contra inside; cases far (by omega)))]
  · rename_i handle sought
    split at sought
    · cases sought
    · cases sought
      have undecided : parsePageInBuffer [] = .incomplete := rfl
      exact (scanChunks_eq file.bytes serial none grants undecided).trans
        (items_taken serial _ none)

/-- The scan finds the last page of the window, and the two parsers agree. -/
def Finds (file : Capture) (start end_ serial : Nat) (grants : List Nat) : Prop :=
  scanWindow file start end_ serial grants = lastGranule serial (pages (file.window start end_)) ∧
    ∀ p found, parsePageInBuffer p = .valid found ↔ ∃ page rest, readPage p = .ok page rest ∧
      found = ⟨page.pageLen, page.granule, page.serial⟩

/-- The scan does unless a candidate that the end cuts off hides pages behind it, the last of which
has another granule than the last one before it. -/
theorem finds_iff (file : Capture) (start end_ serial : Nat) (grants : List Nat) :
    Finds file start end_ serial grants ↔
      ∀ granule, lastGranule serial (pages (taken (file.window start end_)).2) = some granule →
        lastGranule serial (taken (file.window start end_)).1 = some granule := by
  unfold Finds
  rw [scanWindow_eq, pages_eq, lastGranule_append]
  cases lastGranule serial (pages (taken (file.window start end_)).2) with
  | none => simpa using parse_valid_iff
  | some granule =>
    simp only [Option.some_or, Option.some.injEq, forall_eq']
    exact ⟨fun finds => finds.1, fun same => ⟨same, parse_valid_iff⟩⟩

theorem readPage_begins {byte : UInt8} {rest behind : List UInt8} {page : PageView}
    (h : readPage (byte :: rest) = .ok page behind) : byte = 0x4F := by
  by_contra differs
  have other : ((byte :: rest).take 4 ≠ capturePattern || (byte :: rest).getD 4 0 ≠ 0) = true := by
    refine Bool.or_eq_true_iff.mpr (Or.inl (decide_eq_true fun captured => ?_))
    rw [List.take_succ_cons] at captured
    exact differs (List.cons.inj captured).1
  unfold readPage at h
  rw [if_neg (List.cons_ne_nil byte rest), if_pos other] at h
  split at h <;> cases h

theorem pages_skip {front : List UInt8} (other : ∀ byte ∈ front, byte ≠ 0x4F)
    (data : List UInt8) : pages (front ++ data) = pages data := by
  induction front with
  | nil => rfl
  | cons byte front ih =>
    have passed : pages (byte :: (front ++ data)) = pages ((byte :: (front ++ data)).drop 1) :=
      pages_other fun page rest read => other byte List.mem_cons_self (readPage_begins read)
    rw [List.cons_append, passed, List.drop_succ_cons, List.drop_zero]
    exact ih fun byte member => other byte (List.mem_cons_of_mem _ member)

def lastPage : Page where
  headerType := 4
  granule := 4096
  serial := 1
  sequence := 2
  cells := [[0xFF]]
  count_le := by decide
  cell_le := by decide

/-- The header of a page of 255 bytes, which are not there, and the last page. -/
def damagedTail : Capture where
  bytes := capturePattern ++ (List.replicate 22 0 ++ [1, 255]) ++ lastPage.encode
  small := by decide +kernel

/-- The candidate at the start of the window hides the page behind it. -/
theorem candidate_hides : ¬Finds damagedTail 0 57 1 [] := by
  intro finds
  have whole : damagedTail.window 0 57 = damagedTail.bytes := by decide +kernel
  have undecided : parsePageInBuffer damagedTail.bytes = .incomplete := by decide +kernel
  have same := finds.1
  have behind : pages damagedTail.bytes = [lastPage.view] := by
    rw [pages_eq, taken_cut undecided, List.nil_append]
    have silent : ∀ byte ∈ [0x67, 0x67, 0x53] ++ (List.replicate 22 0 ++ [1, 255]),
        byte ≠ (0x4F : UInt8) := by
      decide +kernel
    refine (pages_skip silent lastPage.encode).trans ?_
    rw [← List.append_nil lastPage.encode, pages_ok (readPage_encode lastPage []), pages_nil]
  rw [scanWindow_eq, whole, taken_cut undecided, behind] at same
  revert same
  decide

end MisrcGui.Playback.Ogg.Tail
