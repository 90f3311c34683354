import MisrcGui.Capture.FrameParser

/-! The words that `frame_parse_line` and `frame_check_idle` read, with their place in the line. -/
namespace MisrcGui.Capture.LineTrailer

/-- A result, and the indexes of the words that were read for it. -/
abbrev Traced (A : Type) := StateM (List Int) A

def load (line : Int → UInt16) (index : Int) : Traced UInt16 := do
  modify (· ++ [index])
  return line index

def loadIf (present : Bool) (line : Int → UInt16) (index : Int) : Traced UInt16 :=
  if present then load line index else return 0

/-- `frame_parse_line`, with the `int` that it takes for the width. -/
def frameParseLine (line : Int → UInt16) (width : Int) (hasStreamId hasCrc : Bool) :
    Traced ParsedLine := do
  let trailer : Int := trailerWords hasStreamId hasCrc
  if width ≤ trailer then return ⟨0, 0, 0, false⟩
  else
    let last ← load line (width - 1)
    let crc ← loadIf hasCrc line (width - 2)
    let streamId ← loadIf hasStreamId line (width - 3)
    let payloadLen := (last &&& 0x0FFF).toNat
    return ⟨payloadLen, crc, streamId &&& 0x0FFF,
      decide ((payloadLen : Int) ≤ (width - trailer) % 2 ^ 16)⟩

/-- `frame_check_idle`; the library's function reads all the words that it is given. -/
def frameCheckIdle (idleCnt : UInt16) (line : Int → UInt16) (payloadLen : Nat) (width : Int)
    (hasStreamId hasCrc : Bool) : Traced (Nat × UInt16) := do
  let idleLen := width - payloadLen - trailerWords hasStreamId hasCrc
  if idleLen < 0 then return (1, idleCnt)
  else
    let words ← (List.range (idleLen % 2 ^ 16).toNat).mapM fun (word : Nat) =>
      load line (payloadLen + word)
    return checkIdleCnt words idleCnt

variable {line : Int → UInt16} {width : Int} {hasStreamId hasCrc : Bool}

@[simp] theorem run_load (index : Int) (before : List Int) :
    (load line index).run before = (line index, before ++ [index]) := rfl

theorem run_words (line : Int → UInt16) (start : Int) (words : List Nat) (before : List Int) :
    (words.mapM fun (word : Nat) => load line (start + word)).run before =
      (words.map fun (word : Nat) => line (start + word),
        before ++ words.map fun (word : Nat) => start + word) := by
  induction words generalizing before with
  | nil =>
    exact congrArg (Prod.mk []) (List.append_nil before).symm
  | cons word rest ih =>
    have later := ih (before ++ [start + word])
    rw [List.append_assoc] at later
    rw [List.mapM_cons, StateT.run_bind, run_load, List.map_cons, List.map_cons]
    show ((rest.mapM fun (word : Nat) => load line (start + word)) >>= fun words =>
      pure (line (start + word) :: words)).run (before ++ [start + word]) = _
    rw [StateT.run_bind, later]
    rfl

def payloadLen (line : Int → UInt16) (width : Int) : Nat := (line (width - 1) &&& 0x0FFF).toNat

theorem payloadLen_lt (line : Int → UInt16) (width : Int) : payloadLen line width < 4096 := by
  rw [payloadLen, UInt16.toNat_and]
  exact Nat.lt_succ_of_le Nat.and_le_right

def trailer (hasStreamId hasCrc : Bool) (width : Int) : List Int :=
  [width - 1] ++ (if hasCrc then [width - 2] else []) ++ if hasStreamId then [width - 3] else []

theorem frameParseLine_run (wide : (trailerWords hasStreamId hasCrc : Int) < width) :
    (frameParseLine line width hasStreamId hasCrc).run [] =
      (⟨payloadLen line width, if hasCrc then line (width - 2) else 0,
          if hasStreamId then line (width - 3) &&& 0x0FFF else 0,
          decide ((payloadLen line width : Int) ≤
            (width - trailerWords hasStreamId hasCrc) % 2 ^ 16)⟩,
        trailer hasStreamId hasCrc width) := by
  have behind : ¬width ≤ (trailerWords hasStreamId hasCrc : Int) := by omega
  rw [frameParseLine, if_neg behind]
  cases hasStreamId <;> cases hasCrc <;> rfl

theorem frameParseLine_refused (narrow : width ≤ (trailerWords hasStreamId hasCrc : Int)) :
    (frameParseLine line width hasStreamId hasCrc).run [] = (⟨0, 0, 0, false⟩, []) := by
  rw [frameParseLine, if_pos narrow]
  rfl

theorem parseLine_traced (words : Nat → UInt16) (width : Nat) (hasStreamId hasCrc : Bool) :
    ((frameParseLine (fun i => words i.toNat) width hasStreamId hasCrc).run []).1 =
      parseLine words width hasStreamId hasCrc := by
  by_cases narrow : width ≤ trailerWords hasStreamId hasCrc
  · rw [frameParseLine_refused (Int.ofNat_le.mpr narrow), parseLine]
    exact (if_pos narrow).symm
  · have wide := Nat.lt_of_not_le narrow
    have last : ((width : Int) - 1).toNat = width - 1 := by omega
    have second : ((width : Int) - 2).toNat = width - 2 := by omega
    have third : ((width : Int) - 3).toNat = width - 3 := by omega
    have room : ((width : Int) - trailerWords hasStreamId hasCrc) % 2 ^ 16 =
        ((width - trailerWords hasStreamId hasCrc) % 2 ^ 16 : Nat) := by omega
    rw [frameParseLine_run (Int.ofNat_lt.mpr wide), parseLine]
    simp only [payloadLen, last, second, third, room, Int.ofNat_le, if_neg narrow]

theorem frameCheckIdle_run (idleCnt : UInt16) (payloadLen : Nat) :
    ((frameCheckIdle idleCnt line payloadLen width hasStreamId hasCrc).run []).2 =
      if width - payloadLen - trailerWords hasStreamId hasCrc < 0 then []
      else (List.range ((width - payloadLen - trailerWords hasStreamId hasCrc) % 2 ^ 16).toNat).map
        fun (word : Nat) => (payloadLen : Int) + word := by
  rw [frameCheckIdle]
  split
  · rfl
  · have traced := run_words line payloadLen
      (List.range ((width - payloadLen - trailerWords hasStreamId hasCrc) % 2 ^ 16).toNat) []
    rw [StateT.run_bind, traced]
    rfl

theorem frameCheckIdle_traced (idleCnt : UInt16) (words : Nat → UInt16) (payloadLen width : Nat)
    (hasStreamId hasCrc : Bool) :
    ((frameCheckIdle idleCnt (fun i => words i.toNat) payloadLen width hasStreamId hasCrc).run
      []).1 = Capture.frameCheckIdle idleCnt words payloadLen width hasStreamId hasCrc := by
  rw [frameCheckIdle, Capture.frameCheckIdle]
  by_cases short : width < payloadLen + trailerWords hasStreamId hasCrc
  · rw [if_pos short, if_pos (by omega)]
    rfl
  · have count : (((width : Int) - payloadLen - trailerWords hasStreamId hasCrc) % 2 ^ 16).toNat =
        (width - (payloadLen + trailerWords hasStreamId hasCrc)) % 2 ^ 16 := by omega
    rw [if_neg short, if_neg (by omega), count, StateT.run_bind, run_words]
    rfl

/-- The words that are read for a line that is accepted, against its payload. -/
def Disjoint (line : Int → UInt16) (width : Int) (hasStreamId hasCrc : Bool) : Prop :=
  let parsed := (frameParseLine line width hasStreamId hasCrc).run []
  parsed.1.valid → ∀ idleCnt,
    let idle := (frameCheckIdle idleCnt line parsed.1.payloadLen width hasStreamId hasCrc).run []
    (∀ index ∈ parsed.2, (parsed.1.payloadLen : Int) ≤ index ∧ index < width) ∧
      ∀ index ∈ idle.2, (parsed.1.payloadLen : Int) ≤ index ∧ index < width

/-- The trailer and the payload are apart except where a stream id without a CRC meets a payload
that goes on up to the trailer's two words. -/
theorem trailer_disjoint_iff (line : Int → UInt16) (width : Int) (hasStreamId hasCrc : Bool) :
    Disjoint line width hasStreamId hasCrc ↔
      ¬(hasStreamId = true ∧ hasCrc = false ∧ 2 < width ∧
        ((line (width - 1) &&& 0x0FFF).toNat : Int) = width - 2) := by
  have words : (trailerWords hasStreamId hasCrc : Int) = 1 + hasStreamId.toNat + hasCrc.toNat :=
    rfl
  by_cases wide : (trailerWords hasStreamId hasCrc : Int) < width
  · have small := payloadLen_lt line width
    show _ ↔ ¬(_ ∧ _ ∧ _ ∧ (payloadLen line width : Int) = width - 2)
    simp only [Disjoint, frameParseLine_run wide, frameCheckIdle_run, decide_eq_true_eq]
    constructor
    · rintro disjoint ⟨rfl, rfl, _, full⟩
      have fits : (payloadLen line width : Int) ≤ (width - trailerWords true false) % 2 ^ 16 := by
        rw [Bool.toNat_true, Bool.toNat_false] at words
        omega
      have third := ((disjoint fits 0).1 (width - 3) (by simp [trailer])).1
      omega
    · intro apart fits _
      refine ⟨fun index read => ?_, fun index read => ?_⟩
      · cases hasStreamId <;> cases hasCrc <;>
          simp only [trailer, Bool.toNat_true, Bool.toNat_false, Bool.false_eq_true, if_true,
            if_false, List.append_nil, List.cons_append, List.nil_append, List.mem_cons,
            List.not_mem_nil, or_false, true_and, false_and, not_false_eq_true] at * <;> omega
      · split at read
        · exact absurd read List.not_mem_nil
        · obtain ⟨word, inside, rfl⟩ := List.mem_map.mp read
          have := List.mem_range.mp inside
          omega
  · have narrow := Int.not_lt.mp wide
    simp only [Disjoint, frameParseLine_refused narrow]
    constructor
    · rintro _ ⟨rfl, rfl, more, _⟩
      rw [Bool.toNat_true, Bool.toNat_false] at words
      omega
    · exact fun _ accepted => absurd accepted Bool.false_ne_true

/-- A line of three words, the first of which is payload and the stream's id. -/
theorem trailer_overlap : ¬Disjoint (fun _ => 1) 3 true false := by
  intro disjoint
  exact absurd ((disjoint (by decide) 0).1 0 (by decide)) (by decide)

end MisrcGui.Capture.LineTrailer
