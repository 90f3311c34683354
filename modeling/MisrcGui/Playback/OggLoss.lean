import MisrcGui.Playback.OggRemux

/-! Streams that audio pages are missing from. Every page that is left is intact; its sequence
number, which would show the gap, is not looked at. -/
namespace MisrcGui.Playback.Ogg
open Library

def writtenPackets (file : List UInt8) (header : Header) : List (List UInt8) :=
  (remuxPages header.serial (remuxStart, []) (file.drop header.audioOffset)).1.1.written

def remaining (pages : List (Page × Bool)) : List Page := (pages.filter Prod.snd).map Prod.fst

def Resumes (serial : UInt32) : Bool → List (Page × Bool) → Prop
  | _, [] => True
  | lost, (page, left) :: rest =>
    if page.serial ≠ serial then Resumes serial lost rest
    else if left then
      (lost = true → page.view.continued = false) ∧ Resumes serial false rest
    else Resumes serial true rest

instance decidableResumes (serial : UInt32) :
    (lost : Bool) → (pages : List (Page × Bool)) → Decidable (Resumes serial lost pages)
  | _, [] => inferInstanceAs (Decidable True)
  | lost, (page, left) :: rest =>
    have := decidableResumes serial lost rest
    have := decidableResumes serial false rest
    have := decidableResumes serial true rest
    inferInstanceAs (Decidable (if page.serial ≠ serial then _ else if left then _ else _))

section
variable {frames : List (List UInt8)} {serial : UInt32}

def WritesOnly (frames : List (List UInt8)) (state : RemuxState) : Prop :=
  ∀ packet ∈ state.written, packet ∈ frames

theorem remuxPacket_writesOnly {state : RemuxState} (kept : WritesOnly frames state)
    {packet : List UInt8} (own : packet ∈ frames) :
    WritesOnly frames (Scanner.reached (remuxPacket state packet)) := by
  unfold remuxPacket
  by_cases empty : packet = []
  · rw [if_pos empty]
    exact kept
  · rw [if_neg empty]
    cases parseFrameHeader packet with
    | none => exact kept
    | some header =>
      intro other member
      rcases List.mem_append.mp member with earlier | last
      · exact kept other earlier
      · rw [List.mem_singleton.mp last]
        exact own

theorem readFrameCells_writesOnly {state : RemuxState} {carry : List UInt8} {page : PageView}
    (kept : WritesOnly frames state)
    (own : ∀ packet ∈ (Lacing.assemble 255 (page.enter carry) page.cells).1, packet ∈ frames) :
    WritesOnly frames (Scanner.reached (readFrameCells page.serial (state, carry) page)).1 ∧
      ∀ next, readFrameCells page.serial (state, carry) page = .ok next →
        next.2 = (Lacing.assemble 255 (page.enter carry) page.cells).2 := by
  have written : WritesOnly frames (Scanner.scan (Lacing.step maxPacketBytes
      (RemuxState.fail .packetTooLarge) remuxPacket 255) (state, page.enter carry) page.cells).1.1 := by
    apply Lacing.scan_step_invariant (WritesOnly frames)
    · exact fun _ kept => kept
    · exact fun packet member _ kept => remuxPacket_writesOnly kept (own packet member)
    · exact kept
  unfold readFrameCells readCells
  rw [if_neg (not_not.mpr rfl)]
  cases outcome : Scanner.scan (Lacing.step maxPacketBytes (RemuxState.fail .packetTooLarge)
      remuxPacket 255) (state, page.enter carry) page.cells with
  | mk next good =>
    rw [outcome] at written
    cases good with
    | false => exact ⟨written, nofun⟩
    | true =>
      refine ⟨written, ?_⟩
      intro after same
      cases same
      exact Lacing.scan_step_carry outcome

/-- Behind each page, and each gap that ends with a packet, the code carries what the stream
does. -/
theorem scan_remaining {pages : List (Page × Bool)} {lost start : Bool} {state : RemuxState}
    {carry whole : List UInt8} (resumes : Resumes serial lost pages)
    (flagged : Flagged start (logical serial (pages.map Prod.fst)))
    (closed : start = false → whole = []) (agree : lost = false → carry = whole)
    (own : ∀ packet ∈ (Lacing.assemble 255 whole
      (lacedCells (logical serial (pages.map Prod.fst)))).1, packet ∈ frames)
    (kept : WritesOnly frames state) :
    WritesOnly frames (Scanner.scan (readFrameCells serial.toNat) (state, carry)
      ((remaining pages).map Page.view)).1.1 := by
  induction pages generalizing lost start state carry whole with
  | nil => exact kept
  | cons entry rest ih =>
    obtain ⟨page, left⟩ := entry
    unfold Resumes at resumes
    by_cases foreign : page.serial ≠ serial
    · have skipped : logical serial (((page, left) :: rest).map Prod.fst) =
          logical serial (rest.map Prod.fst) := List.filter_cons_of_neg (by simpa using foreign)
      rw [if_pos foreign] at resumes
      rw [skipped] at flagged own
      cases left with
      | false => exact ih resumes flagged closed agree own kept
      | true =>
        have other : page.view.serial ≠ serial.toNat :=
          fun same => foreign (UInt32.toNat_inj.mp same)
        have passed : readFrameCells serial.toNat (state, carry) page.view = .ok (state, carry) :=
          if_pos other
        rw [remaining, List.filter_cons_of_pos rfl, List.map_cons, List.map_cons,
          Scanner.scan_ok _ passed]
        exact ih resumes flagged closed agree own kept
    · have same : page.serial = serial := not_not.mp foreign
      have shown : logical serial (((page, left) :: rest).map Prod.fst) =
          page :: logical serial (rest.map Prod.fst) := List.filter_cons_of_pos (decide_eq_true same)
      rw [if_neg foreign] at resumes
      rw [shown] at flagged own
      obtain ⟨flag, later⟩ := flagged
      rw [lacedCells, List.flatMap_cons, ← lacedCells, Lacing.assemble_append] at own
      have ends : ∀ packet ∈ (Lacing.assemble 255 whole page.cells).1, packet ∈ frames :=
        fun packet member => own packet (List.mem_append_left _ member)
      have remain : ∀ packet ∈ (Lacing.assemble 255 (Lacing.assemble 255 whole page.cells).2
          (lacedCells (logical serial (rest.map Prod.fst)))).1, packet ∈ frames :=
        fun packet member => own packet (List.mem_append_right _ member)
      have shuts : Lacing.leavesOpen 255 start page.cells = false →
          (Lacing.assemble 255 whole page.cells).2 = [] := Lacing.carry_of_closed closed
      cases left with
      | false => exact ih resumes later shuts (by simp) remain kept
      | true =>
        rw [if_pos rfl] at resumes
        obtain ⟨fresh, resumed⟩ := resumes
        have entered : page.view.enter carry = whole := by
          unfold PageView.enter
          cases continued : page.view.continued with
          | false =>
            rw [if_neg Bool.false_ne_true, closed (flag.symm.trans continued)]
          | true =>
            rw [if_pos rfl]
            apply agree
            by_contra gap
            rw [fresh (by simpa using gap)] at continued
            exact absurd continued Bool.false_ne_true
        have own : ∀ packet ∈ (Lacing.assemble 255 (page.view.enter carry) page.view.cells).1,
            packet ∈ frames := by
          rw [entered, Page.view_cells]
          exact ends
        have read := readFrameCells_writesOnly kept own
        rw [entered, Page.view_cells, show page.view.serial = serial.toNat from
          congrArg UInt32.toNat same] at read
        rw [remaining, List.filter_cons_of_pos rfl, List.map_cons, List.map_cons]
        cases taken : readFrameCells serial.toNat (state, carry) page.view with
        | error failed =>
          rw [taken] at read
          rw [Scanner.scan_error _ taken]
          exact read.1
        | ok next =>
          rw [taken] at read
          rw [Scanner.scan_ok _ taken]
          obtain ⟨nextState, nextCarry⟩ := next
          exact ih resumed later shuts (fun _ => read.2 _ rfl) remain read.1

end

def lossFile (header : HeaderPages) (pages : List (Page × Bool)) : List UInt8 :=
  encodePages header.pages ++ encodePages (remaining pages)

theorem writtenPackets_lossFile (header : HeaderPages) (pages : List (Page × Bool)) :
    (readHeader (lossFile header pages)).map (writtenPackets (lossFile header pages)) =
      .ok (Scanner.scan (readFrameCells header.serial.toNat) (remuxStart, [])
        ((remaining pages).map Page.view)).1.1.written := by
  have read := remuxPages_encode header.serial.toNat (remuxStart, []) (remaining pages) []
  have stop : ∀ reading, remuxPages header.serial.toNat reading [] = (reading, true) :=
    fun reading => remuxPages_stop (Or.inl rfl)
  rw [List.append_nil, stop] at read
  rw [lossFile, header.readHeader_encode]
  apply congrArg Except.ok
  rw [writtenPackets, List.drop_left, read]
  split <;> rfl

/-- When no page behind a gap continues a packet, everything that is written is a packet of the
stream. -/
theorem Stream.written_of_resumes (stream : Stream) {pages : List (Page × Bool)}
    (marked : pages.map Prod.fst = stream.audio)
    (resumes : Resumes stream.header.serial false pages) :
    ∃ header, readHeader (lossFile stream.header pages) = .ok header ∧
      ∀ packet ∈ writtenPackets (lossFile stream.header pages) header, packet ∈ stream.frames := by
  have whole : Lacing.assemble 255 [] (lacedCells (logical stream.header.serial
      (pages.map Prod.fst))) = (stream.frames, []) := by
    rw [marked, stream.laced]
    exact Lacing.assemble_flatMap (by decide) _
  have flagged : Flagged false (logical stream.header.serial (pages.map Prod.fst)) := by
    rw [marked]
    exact stream.flagged
  have kept : WritesOnly stream.frames remuxStart := fun packet member =>
    absurd member List.not_mem_nil
  have written := scan_remaining resumes flagged (fun _ => rfl) (fun _ => rfl) (by
    rw [whole]
    exact fun packet member => member) kept
  have shown := writtenPackets_lossFile stream.header pages
  cases read : readHeader (lossFile stream.header pages) with
  | error failed =>
    rw [read] at shown
    exact absurd shown nofun
  | ok header =>
    rw [read] at shown
    refine ⟨header, rfl, ?_⟩
    have same : writtenPackets (lossFile stream.header pages) header = _ := Except.ok.inj shown
    rw [same]
    exact written

def longFrame : List UInt8 := quietFrame ++ List.replicate 600 0

def nestedFrame : List UInt8 := quietFrame ++ (List.replicate 249 0 ++ quietFrame)

def singleStream (frame : List UInt8) (isFrame : IsFrame frame)
    (fits : frame.length ≤ maxPacketBytes) : Stream :=
  plainStream bareHeader [frame]
    (by
      intro packet member
      rw [List.mem_singleton.mp member]
      exact isFrame)
    (by
      intro packet member
      rw [List.mem_singleton.mp member]
      exact fits)

def longStream : Stream :=
  singleStream longFrame (Or.inr (by decide +kernel)) (by decide +kernel)

def nestedStream : Stream :=
  singleStream nestedFrame (Or.inr (by decide +kernel)) (by decide +kernel)

/-- Losing the end of a packet is harmless. -/
theorem written_of_resumes_long :
    ∃ header, readHeader (lossFile longStream.header
        (longStream.audio.zip [true, false, false])) = .ok header ∧
      ∀ packet ∈ writtenPackets (lossFile longStream.header
        (longStream.audio.zip [true, false, false])) header, packet ∈ longStream.frames :=
  longStream.written_of_resumes (List.map_fst_zip (by decide +kernel)) (by decide +kernel)

/-- The two ends of a packet are joined over its missing middle; the end of a packet without its
start is taken for one. -/
theorem splices :
    (∃ packets, (readHeader (lossFile longStream.header
        (longStream.audio.zip [true, false, true]))).map
          (writtenPackets (lossFile longStream.header
            (longStream.audio.zip [true, false, true]))) = .ok packets ∧
      (quietFrame ++ List.replicate 345 0) ∈ packets ∧
      (quietFrame ++ List.replicate 345 0) ∉ longStream.frames) ∧
    ∃ packets, (readHeader (lossFile nestedStream.header
        (nestedStream.audio.zip [false, true]))).map
          (writtenPackets (lossFile nestedStream.header
            (nestedStream.audio.zip [false, true]))) = .ok packets ∧
      quietFrame ∈ packets ∧ quietFrame ∉ nestedStream.frames := by
  refine ⟨⟨_, writtenPackets_lossFile _ _, ?_, ?_⟩, ⟨_, writtenPackets_lossFile _ _, ?_, ?_⟩⟩
  all_goals decide +kernel

end MisrcGui.Playback.Ogg
