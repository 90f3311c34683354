import MisrcGui.Playback.AnalysisWindow
import MisrcGui.Playback.FlacDecode

/-! The columns of a paused-analysis window, `gui_playback_analysis_worker`: they are dealt out to
the segment decoders, which outlive the requests. A column stands for the samples that its
transform is made of, and for none where the buffer stays zero. The segments share no state. -/
namespace MisrcGui.Playback.AnalysisColumns
open AnalysisWindow (Request window)
open FlacDecode

variable {Sample : Type}

def slices : Nat := 512

def hopMax : Nat := 262144

/-- `playback_analysis_segment_t`. A decoder is `usable` until a seek of it fails, as no code
flushes it; `scratch` is `fft_in` up to `col_pos`, `written` what the segment has put into the
magnitude buffer. -/
structure Segment (Sample : Type) where
  usable : Bool
  decoder : FlacDecode.Decoder Sample
  sliceFirst : Nat
  sliceCount : Nat
  hop : Nat
  segStart : Nat
  segSpan : Nat
  decoded : Nat
  slicesDone : Nat
  scratch : List Sample
  written : List (Nat × List Sample)

def flushColumn (s : Segment Sample) : Segment Sample :=
  if s.scratch = [] then s
  else { s with
    written := s.written ++ [(s.sliceFirst + s.slicesDone, s.scratch.take s.hop)]
    slicesDone := s.slicesDone + 1
    scratch := [] }

def push (s : Segment Sample) (sample : Sample) : Segment Sample :=
  if s.sliceCount ≤ s.slicesDone then s
  else if s.scratch.length < s.hop then
    let s := { s with scratch := s.scratch ++ [sample] }
    if s.scratch.length = s.hop then flushColumn s else s
  else s

def writeCallback (s : Segment Sample) (frame : List Sample) : Segment Sample :=
  { frame.foldl push s with decoded := s.decoded + frame.length }

def Segment.full (s : Segment Sample) : Bool := s.segSpan ≤ s.decoded

def flushLast (s : Segment Sample) : Segment Sample :=
  if s.slicesDone < s.sliceCount then flushColumn s else s

/-- `gui_playback_analysis_segment_decode`; `reads` is whether the file lets a seek work. -/
def segmentDecode (frames : List (List Sample)) (reads : Bool) (s : Segment Sample) :
    Segment Sample :=
  if s.sliceCount = 0 then s
  else
    let sought :=
      if s.usable && reads then seekAbsolute writeCallback frames s.segStart s else none
    match sought with
    | none => { s with usable := false }
    | some (decoder, s) =>
      let (decoder, s) := decode Segment.full writeCallback decoder s
      flushLast { s with decoder }

structure Job where
  request : Request
  reads : Nat → Bool

def hopOf (span : Nat) : Nat :=
  let hop := (span + slices - 1) / slices
  let hop := if hop = 0 then 1 else hop
  if hopMax < hop then hopMax else hop

def perSegment (segCount : Nat) : Nat :=
  let segs := if 0 < segCount then segCount else 1
  (slices + segs - 1) / segs

def assign (segCount start hop i : Nat) (s : Segment Sample) : Segment Sample :=
  let first := i * perSegment segCount
  if slices ≤ first then { s with sliceCount := 0 }
  else
    let count :=
      if slices < first + perSegment segCount then slices - first else perSegment segCount
    { s with
      sliceFirst := first
      sliceCount := count
      hop
      segStart := start + first * hop
      segSpan := count * hop }

/-- The last segment that has columns is extended to the end of the window. -/
def extendFinal (winEnd : Nat) (segs : Nat → Segment Sample) : Nat → Nat → Segment Sample
  | 0 => segs
  | i + 1 =>
    if (segs i).sliceCount = 0 then extendFinal winEnd segs i
    else
      let segEnd := (segs i).segStart + (segs i).segSpan
      if segEnd < winEnd then
        Function.update segs i
          { segs i with segSpan := (segs i).segSpan + (winEnd - segEnd) }
      else segs

def reset (s : Segment Sample) : Segment Sample :=
  if s.sliceCount = 0 then { s with written := [] }
  else { s with decoded := 0, slicesDone := 0, scratch := [], written := [] }

def layout (segCount : Nat) (request : Request) (segs : Nat → Segment Sample) :
    Nat → Segment Sample :=
  let place := window request
  let hop := hopOf place.span
  let segs := fun i => assign segCount place.start hop i (segs i)
  fun i => reset (extendFinal (place.start + place.span) segs segCount i)

def serve (frames : List (List Sample)) (segCount : Nat) (segs : Nat → Segment Sample)
    (job : Job) : Nat → Segment Sample :=
  if job.request.total = 0 then segs
  else fun i => segmentDecode frames (job.reads i) (layout segCount job.request segs i)

/-- The segments as `gui_playback_analysis_init` leaves them. -/
def opened (frames : List (List Sample)) (_i : Nat) : Segment Sample where
  usable := true
  decoder := ⟨frames, false⟩
  sliceFirst := 0
  sliceCount := 0
  hop := 1
  segStart := 0
  segSpan := 0
  decoded := 0
  slicesDone := 0
  scratch := []
  written := []

def serveAll (frames : List (List Sample)) (segCount : Nat) (jobs : List Job) :
    Nat → Segment Sample :=
  jobs.foldl (serve frames segCount) (opened frames)

def writeCells (cells : List (Nat × List Sample)) : Nat → List Sample :=
  cells.foldl (fun buffer cell => Function.update buffer cell.1 cell.2) fun _ => []

def published (frames : List (List Sample)) (segCount : Nat) (history : List Job) (job : Job) :
    Nat → List Sample :=
  writeCells ((List.range segCount).flatMap fun i =>
    (serve frames segCount (serveAll frames segCount history) job i).written)

def column (frames : List (List Sample)) (request : Request) (i : Nat) : List Sample :=
  let place := window request
  let hop := hopOf place.span
  if i < slices then (frames.flatten.drop (place.start + i * hop)).take hop else []

def Fills (segCount i column : Nat) : Prop :=
  i * perSegment segCount ≤ column ∧ column < (i + 1) * perSegment segCount ∧ column < slices

/-- The columns depend on the request alone: they are those of its definition and of one fresh
segment, and each has its segment. -/
structure Independent (frames : List (List Sample)) (segCount : Nat) (history : List Job)
    (job : Job) : Prop where
  columns : published frames segCount history job = column frames job.request
  fresh : published frames segCount history job =
    published frames 1 [] { job with reads := fun _ => true }
  once : ∀ i < slices, ∃ j < segCount, Fills segCount j i ∧
    ∀ other, Fills segCount other i → other = j

def startOf (segCount i : Nat) (request : Request) : Nat :=
  (window request).start + i * perSegment segCount * hopOf (window request).span

def Sought (frames : List (List Sample)) (segCount i : Nat) (job : Job) : Prop :=
  job.reads i ∧ startOf segCount i job.request < frames.flatten.length

/-- What a segment needs that has samples to decode for a job: no seek of it has failed. -/
def Ready (frames : List (List Sample)) (segCount : Nat) (history : List Job) (job : Job) : Prop :=
  ∀ i < segCount, i * perSegment segCount < slices →
    startOf segCount i job.request < frames.flatten.length → job.reads i ∧
      ∀ earlier ∈ history, earlier.request.total ≠ 0 → Sought frames segCount i earlier

def holding (s : Segment Sample) (written : List (Nat × List Sample)) (scratch : List Sample)
    (decoded : Nat) : Segment Sample :=
  { s with decoded, slicesDone := written.length, scratch, written }

def cells (first hop done : Nat) (samples : List Sample) : List (Nat × List Sample) :=
  (List.range done).map fun k => (first + k, (samples.drop (k * hop)).take hop)

@[simp] theorem length_cells (first hop done : Nat) (samples : List Sample) :
    (cells first hop done samples).length = done := by
  simp [cells]

def taking (s : Segment Sample) (samples : List Sample) (decoded : Nat) : Segment Sample :=
  let done := samples.length / s.hop
  if done < s.sliceCount then
    holding s (cells s.sliceFirst s.hop done samples) (samples.drop (done * s.hop)) decoded
  else holding s (cells s.sliceFirst s.hop s.sliceCount samples) [] decoded

variable {frames : List (List Sample)} {s : Segment Sample} {written : List (Nat × List Sample)}
  {scratch samples : List Sample} {decoded : Nat}

theorem push_closed (full : s.sliceCount ≤ written.length) (sample : Sample) :
    push (holding s written scratch decoded) sample = holding s written scratch decoded :=
  if_pos full

theorem push_inside (open_ : written.length < s.sliceCount) (room : scratch.length + 1 < s.hop)
    (sample : Sample) : push (holding s written scratch decoded) sample =
      holding s written (scratch ++ [sample]) decoded := by
  have length : (scratch ++ [sample]).length = scratch.length + 1 := List.length_append
  unfold push holding
  dsimp only
  rw [if_neg (Nat.not_le_of_lt open_), if_pos (by omega), if_neg (by omega)]

theorem push_last (open_ : written.length < s.sliceCount) (room : scratch.length + 1 = s.hop)
    (sample : Sample) : push (holding s written scratch decoded) sample =
      holding s (written ++ [(s.sliceFirst + written.length, scratch ++ [sample])]) [] decoded := by
  have length : (scratch ++ [sample]).length = scratch.length + 1 := List.length_append
  have whole : (scratch ++ [sample]).take s.hop = scratch ++ [sample] :=
    List.take_of_length_le (by omega)
  unfold push holding
  dsimp only
  rw [if_neg (Nat.not_le_of_lt open_), if_pos (by omega), if_pos (by omega), flushColumn,
    if_neg (by simp), whole, List.length_append]
  rfl

theorem cells_append {hop done : Nat} (full : done * hop ≤ samples.length)
    (later : List Sample) (first : Nat) :
    cells first hop done (samples ++ later) = cells first hop done samples := by
  refine List.map_congr_left fun k member => ?_
  have last : (k + 1) * hop ≤ done * hop := Nat.mul_le_mul_right hop (List.mem_range.mp member)
  rw [Nat.add_mul, Nat.one_mul] at last
  rw [List.drop_append_of_le_length (by omega), List.take_append_of_le_length]
  rw [List.length_drop]
  omega

theorem cells_succ (first hop done : Nat) (samples : List Sample) :
    cells first hop (done + 1) samples =
      cells first hop done samples ++ [(first + done, (samples.drop (done * hop)).take hop)] := by
  rw [cells, List.range_succ, List.map_append]
  rfl

theorem push_taking (positive : 0 < s.hop) (samples : List Sample) (decoded : Nat)
    (sample : Sample) :
    push (taking s samples decoded) sample = taking s (samples ++ [sample]) decoded := by
  have lower : samples.length / s.hop * s.hop ≤ samples.length := Nat.div_mul_le_self _ _
  have upper : samples.length < samples.length / s.hop * s.hop + s.hop :=
    Nat.lt_div_mul_add positive
  have length : (samples ++ [sample]).length = samples.length + 1 := List.length_append
  unfold taking
  dsimp only
  rw [length]
  generalize q_eq : samples.length / s.hop = q at *
  have rest : (samples.drop (q * s.hop)).length = samples.length - q * s.hop := List.length_drop
  rcases Nat.lt_or_ge q s.sliceCount with open_ | full
  · have same := cells_append lower [sample] s.sliceFirst
    have rest' : (samples ++ [sample]).drop (q * s.hop) = samples.drop (q * s.hop) ++ [sample] :=
      List.drop_append_of_le_length lower
    rw [if_pos open_]
    rcases Nat.lt_or_ge (samples.length + 1) (q * s.hop + s.hop) with inside | ends
    · have same_q : (samples.length + 1) / s.hop = q :=
        Nat.div_eq_of_lt_le (by omega) (by rw [Nat.add_mul, Nat.one_mul]; exact inside)
      rw [same_q, if_pos open_, push_inside (by rwa [length_cells]) (by omega), same, rest']
    · have next_q : (samples.length + 1) / s.hop = q + 1 :=
        Nat.div_eq_of_lt_le (by rw [Nat.add_mul, Nat.one_mul]; exact ends)
          (by rw [Nat.add_mul, Nat.add_mul, Nat.one_mul]; omega)
      have last : (samples.drop (q * s.hop) ++ [sample]).take s.hop =
          samples.drop (q * s.hop) ++ [sample] :=
        List.take_of_length_le (by rw [List.length_append, List.length_singleton]; omega)
      have none : (samples ++ [sample]).drop ((q + 1) * s.hop) = [] :=
        List.drop_of_length_le (by rw [length, Nat.add_mul, Nat.one_mul]; omega)
      rw [next_q, push_last (by rwa [length_cells]) (by omega), length_cells]
      have column : cells s.sliceFirst s.hop q samples ++
          [(s.sliceFirst + q, samples.drop (q * s.hop) ++ [sample])] =
            cells s.sliceFirst s.hop (q + 1) (samples ++ [sample]) := by
        rw [cells_succ, same, rest', last]
      rw [column, none]
      split
      · rfl
      · have final : q + 1 = s.sliceCount := by omega
        rw [final]
  · have still : s.sliceCount ≤ (samples.length + 1) / s.hop :=
      Nat.le_trans full (q_eq ▸ Nat.div_le_div_right (Nat.le_succ _))
    have reach : s.sliceCount * s.hop ≤ samples.length :=
      Nat.le_trans (Nat.mul_le_mul_right _ full) lower
    rw [if_neg (by omega), if_neg (by omega),
      push_closed (Nat.le_of_eq (length_cells _ _ _ _).symm), cells_append reach]

theorem pushes_taking (positive : 0 < s.hop) (samples frame : List Sample) (decoded : Nat) :
    frame.foldl push (taking s samples decoded) = taking s (samples ++ frame) decoded := by
  induction frame generalizing samples with
  | nil => rw [List.append_nil, List.foldl_nil]
  | cons sample frame ih =>
    rw [List.foldl_cons, push_taking positive, ih, List.append_assoc, List.singleton_append]

theorem taking_decoded (samples : List Sample) (decoded other : Nat) :
    { taking s samples decoded with decoded := other } = taking s samples other := by
  unfold taking
  dsimp only
  split <;> rfl

theorem decoded_taking (samples : List Sample) (decoded : Nat) :
    (taking s samples decoded).decoded = decoded := by
  unfold taking
  dsimp only
  split <;> rfl

theorem full_taking (samples : List Sample) (decoded : Nat) :
    (taking s samples decoded).full = decide (s.segSpan ≤ decoded) := by
  unfold taking
  dsimp only
  split <;> rfl

theorem usable_flushLast (s : Segment Sample) : (flushLast s).usable = s.usable := by
  unfold flushLast flushColumn
  split
  · split <;> rfl
  · rfl

theorem taking_decoder (samples : List Sample) (decoded : Nat)
    (decoder : FlacDecode.Decoder Sample) :
    { taking s samples decoded with decoder := decoder } =
      taking { s with decoder := decoder } samples decoded := by
  unfold taking
  dsimp only
  split <;> rfl

theorem write_taking (positive : 0 < s.hop) (samples frame : List Sample) :
    writeCallback (taking s samples samples.length) frame =
      taking s (samples ++ frame) (samples ++ frame).length := by
  rw [writeCallback, pushes_taking positive, taking_decoded, decoded_taking, List.length_append]

theorem writes_taking (positive : 0 < s.hop) (samples : List Sample)
    (frames : List (List Sample)) :
    frames.foldl writeCallback (taking s samples samples.length) =
      taking s (samples ++ frames.flatten) (samples ++ frames.flatten).length := by
  induction frames generalizing samples with
  | nil => simp
  | cons frame frames ih =>
    rw [List.foldl_cons, write_taking positive, ih, List.flatten_cons, List.append_assoc]

theorem mem_flushed (positive : 0 < s.hop) (samples : List Sample) (decoded c : Nat)
    (w : List Sample) :
    (c, w) ∈ (flushLast (taking s samples decoded)).written ↔
      ∃ k < s.sliceCount, c = s.sliceFirst + k ∧
        w = (samples.drop (k * s.hop)).take s.hop ∧ w ≠ [] := by
  have lower : samples.length / s.hop * s.hop ≤ samples.length := Nat.div_mul_le_self _ _
  have upper : samples.length < samples.length / s.hop * s.hop + s.hop :=
    Nat.lt_div_mul_add positive
  have filled : ∀ k, (samples.drop (k * s.hop)).take s.hop ≠ [] ↔ k * s.hop < samples.length := by
    intro k
    rw [← List.length_pos_iff, List.length_take, List.length_drop]
    omega
  have before : ∀ k < samples.length / s.hop, k * s.hop < samples.length := by
    intro k small
    have next : (k + 1) * s.hop ≤ samples.length / s.hop * s.hop := Nat.mul_le_mul_right _ small
    rw [Nat.add_mul, Nat.one_mul] at next
    omega
  have behind : ∀ k, samples.length / s.hop < k → ¬k * s.hop < samples.length := by
    intro k large
    have next : (samples.length / s.hop + 1) * s.hop ≤ k * s.hop := Nat.mul_le_mul_right _ large
    rw [Nat.add_mul, Nat.one_mul] at next
    omega
  have inCells : ∀ done, (c, w) ∈ cells s.sliceFirst s.hop done samples ↔
      ∃ k < done, c = s.sliceFirst + k ∧ w = (samples.drop (k * s.hop)).take s.hop := by
    intro done
    simp only [cells, List.mem_map, List.mem_range, Prod.mk.injEq]
    exact exists_congr fun k => and_congr_right fun _ => and_congr eq_comm eq_comm
  unfold flushLast taking
  dsimp only
  generalize samples.length / s.hop = q at *
  by_cases open_ : q < s.sliceCount
  · rw [if_pos open_]
    simp only [holding, length_cells]
    rw [if_pos open_]
    have within : ∀ k, k * s.hop < samples.length → k ≤ q := fun k some_ =>
      Nat.le_of_not_lt fun large => behind k large some_
    unfold flushColumn
    dsimp only
    split
    · rename_i empty
      have none : ¬q * s.hop < samples.length := by
        have length := congrArg List.length empty
        rw [List.length_drop, List.length_nil] at length
        omega
      rw [inCells]
      constructor
      · rintro ⟨k, small, rfl, rfl⟩
        exact ⟨k, by omega, rfl, rfl, (filled k).mpr (before k small)⟩
      · rintro ⟨k, -, rfl, rfl, some_⟩
        have inside := (filled k).mp some_
        refine ⟨k, Nat.lt_of_le_of_ne (within k inside) ?_, rfl, rfl⟩
        rintro rfl
        exact none inside
    · rename_i held
      have some_ : q * s.hop < samples.length := by
        have length := List.length_pos_iff.mpr held
        rw [List.length_drop] at length
        omega
      dsimp only
      rw [List.mem_append, inCells, List.mem_singleton, Prod.mk.injEq]
      constructor
      · rintro (⟨k, small, rfl, rfl⟩ | ⟨rfl, rfl⟩)
        · exact ⟨k, by omega, rfl, rfl, (filled k).mpr (before k small)⟩
        · exact ⟨q, open_, rfl, rfl, (filled q).mpr some_⟩
      · rintro ⟨k, -, rfl, rfl, nonempty⟩
        rcases Nat.lt_or_eq_of_le (within k ((filled k).mp nonempty)) with small | rfl
        · exact Or.inl ⟨k, small, rfl, rfl⟩
        · exact Or.inr ⟨rfl, rfl⟩
  · rw [if_neg open_]
    simp only [holding, length_cells]
    rw [if_neg (Nat.lt_irrefl _), inCells]
    refine exists_congr fun k => and_congr_right fun small => and_congr_right fun _ => ?_
    refine ⟨fun value => ⟨value, ?_⟩, And.left⟩
    rw [value, filled]
    exact before k (by omega)

structure Laid (s : Segment Sample) : Prop where
  some : 0 < s.sliceCount
  positive : 0 < s.hop
  span : s.sliceCount * s.hop ≤ s.segSpan
  decoded : s.decoded = 0
  slicesDone : s.slicesDone = 0
  scratch : s.scratch = []
  written : s.written = []

theorem Laid.taking_nil (laid : Laid s) : taking s [] 0 = s := by
  obtain ⟨some_, -, -, decoded, slicesDone, scratch, written⟩ := laid
  unfold taking
  dsimp only
  rw [List.length_nil, Nat.zero_div, if_pos some_]
  obtain ⟨usable, decoder, sliceFirst, sliceCount, hop, segStart, segSpan, _, _, _, _⟩ := s
  dsimp only at decoded slicesDone scratch written
  subst decoded slicesDone scratch written
  simp [holding, cells]

theorem decode_failed (laid : Laid s) {reads : Bool}
    (failed : ¬(s.usable ∧ reads ∧ s.segStart < frames.flatten.length)) :
    (segmentDecode frames reads s).written = [] ∧
      (segmentDecode frames reads s).usable = false := by
  have none : (if s.usable && reads then seekAbsolute writeCallback frames s.segStart s
      else none) = none := by
    split
    · rename_i tried
      obtain ⟨usable, read⟩ := Bool.and_eq_true_iff.mp tried
      exact seekAbsolute_outside (Nat.le_of_not_lt fun inside => failed ⟨usable, read, inside⟩) s
    · rfl
  rw [segmentDecode, if_neg (Nat.ne_of_gt laid.some)]
  dsimp only
  rw [none]
  exact ⟨laid.written, rfl⟩

theorem decode_sought (laid : Laid s) (usable : s.usable = true)
    (inside : s.segStart < frames.flatten.length) :
    (∀ c w, (c, w) ∈ (segmentDecode frames true s).written ↔ ∃ k < s.sliceCount,
      c = s.sliceFirst + k ∧
        w = (frames.flatten.drop (s.segStart + k * s.hop)).take s.hop ∧ w ≠ []) ∧
      (segmentDecode frames true s).usable = true := by
  obtain ⟨slice, rest, sought, stream⟩ := seekAbsolute_inside writeCallback inside s
  obtain ⟨taken, took⟩ := process_taken Segment.full writeCallback rest (writeCallback s slice)
  have first : writeCallback s slice = taking s slice slice.length := by
    have write := write_taking laid.positive [] slice
    rwa [List.length_nil, laid.taking_nil, List.nil_append] at write
  rw [first] at took
  generalize result : process Segment.full writeCallback rest (taking s slice slice.length) = after
    at took
  have run : segmentDecode frames true s = flushLast
      (taking { s with decoder := after.1 } (slice ++ taken.flatten)
        (slice ++ taken.flatten).length) := by
    rw [segmentDecode, if_neg (Nat.ne_of_gt laid.some)]
    have tried : (s.usable && true) = true := by rw [Bool.and_true, usable]
    dsimp only
    rw [if_pos tried, sought]
    dsimp only
    rw [decode, if_neg Bool.false_ne_true, first]
    dsimp only
    rw [result, took.written, writes_taking laid.positive, taking_decoder]
  -- all that the file has for the segment, or all that it has
  have whole : slice ++ taken.flatten = frames.flatten.drop s.segStart ∨
      s.sliceCount * s.hop ≤ (slice ++ taken.flatten).length := by
    cases done : after.1.ended with
    | true =>
      have split := took.split
      rw [took.short done, List.append_nil] at split
      exact Or.inl (split ▸ stream)
    | false =>
      have full : Segment.full after.2 := by simpa [done] using took.ended
      rw [took.written, writes_taking laid.positive, full_taking, decide_eq_true_eq] at full
      exact Or.inr (Nat.le_trans laid.span full)
  have shown : ∀ k < s.sliceCount, ((slice ++ taken.flatten).drop (k * s.hop)).take s.hop =
      ((frames.flatten.drop s.segStart).drop (k * s.hop)).take s.hop := by
    intro k small
    rcases whole with all | enough
    · rw [all]
    · have last : (k + 1) * s.hop ≤ s.sliceCount * s.hop := Nat.mul_le_mul_right _ small
      have long : frames.flatten.drop s.segStart =
          slice ++ taken.flatten ++ after.1.rest.flatten := by
        rw [← stream, ← took.split, List.flatten_append, List.append_assoc]
      rw [Nat.add_mul, Nat.one_mul] at last
      rw [long]
      generalize slice ++ taken.flatten = samples at enough ⊢
      rw [List.drop_append_of_le_length (by omega), List.take_append_of_le_length]
      rw [List.length_drop]
      omega
  rw [run]
  refine ⟨fun c w => ?_, (usable_flushLast _).trans ?_⟩
  · refine Iff.trans (mem_flushed ?_ _ _ c w) ?_
    · exact laid.positive
    · refine exists_congr fun k => and_congr_right fun small => and_congr_right fun _ => ?_
      dsimp only
      rw [shown k small, List.drop_drop]
  · unfold taking
    dsimp only
    split <;> exact usable

variable {segCount : Nat}

theorem hopOf_positive (span : Nat) : 0 < hopOf span := by
  unfold hopOf hopMax
  dsimp only
  generalize (span + slices - 1) / slices = hop
  split <;> split <;> omega

theorem perSegment_positive (segCount : Nat) : 0 < perSegment segCount := by
  unfold perSegment slices
  dsimp only
  split
  · exact Nat.div_pos (by omega) (by omega)
  · decide

theorem slices_le (some_ : 0 < segCount) : slices ≤ segCount * perSegment segCount := by
  unfold perSegment slices
  dsimp only
  rw [if_pos some_]
  have above : 512 + segCount - 1 < (512 + segCount - 1) / segCount * segCount + segCount :=
    Nat.lt_div_mul_add some_
  rw [Nat.mul_comm] at above
  omega

theorem extendFinal_eq (winEnd : Nat) (segs : Nat → Segment Sample) (count i : Nat) :
    ∃ span, (segs i).segSpan ≤ span ∧
      extendFinal winEnd segs count i = { segs i with segSpan := span } := by
  induction count with
  | zero => exact ⟨_, Nat.le_refl _, rfl⟩
  | succ count ih =>
    rw [extendFinal]
    split
    · exact ih
    · dsimp only
      split
      · rcases Decidable.em (i = count) with rfl | other
        · exact ⟨_, Nat.le_add_right _ _, Function.update_self _ _ _⟩
        · exact ⟨_, Nat.le_refl _, Function.update_of_ne other _ _⟩
      · exact ⟨_, Nat.le_refl _, rfl⟩

variable {i c : Nat}

theorem layout_idle (none : slices ≤ i * perSegment segCount) (request : Request)
    (segs : Nat → Segment Sample) :
    (layout segCount request segs i).sliceCount = 0 ∧
      (layout segCount request segs i).written = [] ∧
      (layout segCount request segs i).usable = (segs i).usable := by
  unfold layout
  obtain ⟨span, -, extended⟩ := extendFinal_eq
    ((window request).start + (window request).span)
    (fun i => assign segCount (window request).start (hopOf (window request).span) i (segs i))
    segCount i
  have assigned : assign segCount (window request).start (hopOf (window request).span) i (segs i) =
      { segs i with sliceCount := 0 } := if_pos none
  rw [extended]
  dsimp only
  rw [assigned]
  exact ⟨rfl, rfl, rfl⟩

structure LaidOut (segCount i : Nat) (request : Request) (old s : Segment Sample) : Prop
    extends Laid s where
  first : s.sliceFirst = i * perSegment segCount
  count : s.sliceCount = min (perSegment segCount) (slices - i * perSegment segCount)
  hop : s.hop = hopOf (window request).span
  start : s.segStart = startOf segCount i request
  usable : s.usable = old.usable

theorem layout_active (active : i * perSegment segCount < slices) (request : Request)
    (segs : Nat → Segment Sample) :
    LaidOut segCount i request (segs i) (layout segCount request segs i) := by
  have positive := perSegment_positive segCount
  have hop := hopOf_positive (window request).span
  have count : (if slices < i * perSegment segCount + perSegment segCount then
      slices - i * perSegment segCount else perSegment segCount) =
        min (perSegment segCount) (slices - i * perSegment segCount) := by
    split <;> omega
  obtain ⟨span, wide, extended⟩ := extendFinal_eq
    ((window request).start + (window request).span)
    (fun i => assign segCount (window request).start (hopOf (window request).span) i (segs i))
    segCount i
  unfold layout
  rw [extended]
  unfold assign at wide ⊢
  dsimp only at wide ⊢
  rw [if_neg (Nat.not_le_of_lt active), count] at wide ⊢
  have some_ : min (perSegment segCount) (slices - i * perSegment segCount) ≠ 0 := by omega
  unfold reset
  dsimp only
  rw [if_neg some_]
  exact {
    some := Nat.pos_of_ne_zero some_
    positive := hop
    span := wide
    decoded := rfl
    slicesDone := rfl
    scratch := rfl
    written := rfl
    first := rfl
    count := rfl
    hop := rfl
    start := rfl
    usable := rfl }

def Works (frames : List (List Sample)) (segCount : Nat) (segs : Nat → Segment Sample) (job : Job)
    (i : Nat) : Prop :=
  (segs i).usable ∧ Sought frames segCount i job

variable {segs : Nat → Segment Sample} {job : Job}

theorem serve_idle (none : slices ≤ i * perSegment segCount) (total : job.request.total ≠ 0) :
    (serve frames segCount segs job i).written = [] ∧
      (serve frames segCount segs job i).usable = (segs i).usable := by
  obtain ⟨count, written, usable⟩ := layout_idle none job.request segs
  rw [serve, if_neg total, segmentDecode, if_pos count]
  exact ⟨written, usable⟩

theorem serve_failed (active : i * perSegment segCount < slices) (total : job.request.total ≠ 0)
    (failed : ¬Works frames segCount segs job i) :
    (serve frames segCount segs job i).written = [] ∧
      (serve frames segCount segs job i).usable = false := by
  have laid := layout_active active job.request segs
  rw [serve, if_neg total]
  refine decode_failed laid.toLaid fun ⟨usable, reads, inside⟩ => failed ?_
  exact ⟨laid.usable ▸ usable, reads, laid.start ▸ inside⟩

theorem serve_works (active : i * perSegment segCount < slices) (total : job.request.total ≠ 0)
    (works : Works frames segCount segs job i) :
    (∀ c w, (c, w) ∈ (serve frames segCount segs job i).written ↔
      Fills segCount i c ∧ w = column frames job.request c ∧ w ≠ []) ∧
      (serve frames segCount segs job i).usable = true := by
  have laid := layout_active active job.request segs
  obtain ⟨usable, reads, inside⟩ := works
  obtain ⟨written, still⟩ := decode_sought laid.toLaid (laid.usable.trans usable)
    (by rw [laid.start]; exact inside)
  rw [serve, if_neg total, reads]
  refine ⟨fun c w => ?_, still⟩
  rw [written, laid.count, laid.first, laid.hop, laid.start]
  have next : (i + 1) * perSegment segCount = i * perSegment segCount + perSegment segCount := by
    rw [Nat.add_mul, Nat.one_mul]
  unfold Fills column startOf
  rw [next]
  dsimp only
  have place : ∀ k, (window job.request).start +
      i * perSegment segCount * hopOf (window job.request).span +
        k * hopOf (window job.request).span = (window job.request).start +
          (i * perSegment segCount + k) * hopOf (window job.request).span := by
    intro k
    rw [Nat.add_mul, Nat.add_assoc]
  constructor
  · rintro ⟨k, small, rfl, rfl, some_⟩
    refine ⟨by omega, ?_, some_⟩
    rw [if_pos (by omega), place]
  · rintro ⟨fills, rfl, some_⟩
    refine ⟨c - i * perSegment segCount, by omega, by omega, ?_, some_⟩
    rw [if_pos fills.2.2, place, Nat.add_sub_cancel' fills.1]

theorem fills_active (fills : Fills segCount i c) : i * perSegment segCount < slices :=
  Nat.lt_of_le_of_lt fills.1 fills.2.2

theorem mem_written (total : job.request.total ≠ 0) (i c : Nat) (w : List Sample) :
    (c, w) ∈ (serve frames segCount segs job i).written ↔
      Works frames segCount segs job i ∧ Fills segCount i c ∧
        w = column frames job.request c ∧ w ≠ [] := by
  rcases Nat.lt_or_ge (i * perSegment segCount) slices with active | idle
  · by_cases works : Works frames segCount segs job i
    · rw [(serve_works active total works).1]
      exact (and_iff_right works).symm
    · rw [(serve_failed active total works).1]
      exact iff_of_false List.not_mem_nil fun written => works written.1
  · rw [(serve_idle idle total).1]
    exact iff_of_false List.not_mem_nil fun written =>
      Nat.not_le_of_lt (fills_active written.2.1) idle

theorem writeCells_eq {cells : List (Nat × List Sample)} {v : List Sample}
    (one : ∀ w, (c, w) ∈ cells → w = v) (some_ : v ≠ [] → (c, v) ∈ cells) :
    writeCells cells c = v := by
  induction cells using List.reverseRecOn with
  | nil =>
    by_contra other
    exact absurd (some_ fun empty => other empty.symm) List.not_mem_nil
  | append_singleton cells cell ih =>
    rw [writeCells, List.foldl_append, List.foldl_cons, List.foldl_nil]
    rcases Decidable.em (c = cell.1) with rfl | other
    · rw [Function.update_self]
      exact one _ (List.mem_append_right _ (List.mem_singleton.mpr rfl))
    · rw [Function.update_of_ne other]
      refine ih (fun w member => one w (List.mem_append_left _ member)) fun nonempty => ?_
      rcases List.mem_append.mp (some_ nonempty) with early | last
      · exact early
      · exact absurd (congrArg Prod.fst (List.mem_singleton.mp last)) other

theorem fills_unique {j : Nat} (first : Fills segCount i c) (second : Fills segCount j c) :
    i = j := by
  have positive := perSegment_positive segCount
  have place : ∀ k, Fills segCount k c → k = c / perSegment segCount := fun k fills =>
    (Nat.div_eq_of_lt_le fills.1 fills.2.1).symm
  rw [place i first, place j second]

theorem fills_exists (some_ : 0 < segCount) (inside : c < slices) :
    ∃ i < segCount, Fills segCount i c := by
  have positive := perSegment_positive segCount
  refine ⟨c / perSegment segCount, ?_, Nat.div_mul_le_self _ _, ?_, inside⟩
  · exact Nat.div_lt_of_lt_mul (Nat.mul_comm _ _ ▸ Nat.lt_of_lt_of_le inside (slices_le some_))
  · rw [Nat.add_mul, Nat.one_mul]
    exact Nat.lt_div_mul_add positive

theorem column_nonempty {request : Request} (inside : c < slices) :
    column frames request c ≠ [] ↔
      (window request).start + c * hopOf (window request).span < frames.flatten.length := by
  have positive := hopOf_positive (window request).span
  unfold column
  dsimp only
  rw [if_pos inside, ← List.length_pos_iff, List.length_take, List.length_drop]
  omega

theorem startOf_le {request : Request} (fills : Fills segCount i c) :
    startOf segCount i request ≤
      (window request).start + c * hopOf (window request).span :=
  Nat.add_le_add_left (Nat.mul_le_mul_right _ fills.1) _

theorem serveAll_usable (active : i * perSegment segCount < slices) (jobs : List Job) :
    (serveAll frames segCount jobs i).usable ↔
      ∀ job ∈ jobs, job.request.total ≠ 0 → Sought frames segCount i job := by
  induction jobs using List.reverseRecOn with
  | nil => simp [serveAll, opened]
  | append_singleton jobs job ih =>
    have last : serveAll frames segCount (jobs ++ [job]) i =
        serve frames segCount (serveAll frames segCount jobs) job i := by
      rw [serveAll, List.foldl_append]
      rfl
    rw [last]
    simp only [List.mem_append, List.mem_singleton, or_imp, forall_and, forall_eq]
    rw [← ih]
    by_cases total : job.request.total = 0
    · rw [serve, if_pos total]
      exact (and_iff_left fun some_ => absurd total some_).symm
    · by_cases works : Works frames segCount (serveAll frames segCount jobs) job i
      · rw [(serve_works active total works).2]
        exact iff_of_true rfl ⟨works.1, fun _ => works.2⟩
      · rw [(serve_failed active total works).2]
        exact iff_of_false Bool.false_ne_true fun both => works ⟨both.1, both.2 total⟩

theorem published_column {history : List Job} (some_ : 0 < segCount)
    (total : job.request.total ≠ 0) (ready : Ready frames segCount history job) :
    published frames segCount history job = column frames job.request := by
  funext c
  refine writeCells_eq (fun w member => ?_) fun nonempty => ?_
  · obtain ⟨i, -, written⟩ := List.mem_flatMap.mp member
    exact ((mem_written total i c w).mp written).2.2.1
  · have inside : c < slices := by
      by_contra outside
      exact nonempty (if_neg outside)
    obtain ⟨i, small, fills⟩ := fills_exists some_ inside
    have held : startOf segCount i job.request < frames.flatten.length :=
      Nat.lt_of_le_of_lt (startOf_le fills) ((column_nonempty inside).mp nonempty)
    obtain ⟨reads, sought⟩ := ready i small (fills_active fills) held
    have usable := (serveAll_usable (fills_active fills) history).mpr sought
    refine List.mem_flatMap.mpr ⟨i, List.mem_range.mpr small, ?_⟩
    exact (mem_written total i c _).mpr ⟨⟨usable, reads, held⟩, fills, rfl, nonempty⟩

theorem works_of_published {history : List Job} (total : job.request.total ≠ 0)
    (fills : Fills segCount i c) (nonempty : published frames segCount history job c ≠ []) :
    Works frames segCount (serveAll frames segCount history) job i := by
  by_contra lost
  refine nonempty (writeCells_eq (fun w member => ?_) fun absurd_ => absurd rfl absurd_)
  obtain ⟨j, -, written⟩ := List.mem_flatMap.mp member
  obtain ⟨works, filled, -⟩ := (mem_written total j c w).mp written
  rw [fills_unique filled fills] at works
  exact absurd works lost

/-- The columns of a request depend on nothing else exactly while no seek has failed of a segment
that has samples to decode for it. -/
theorem columns_independent_iff (frames : List (List Sample)) (segCount : Nat)
    (history : List Job) (job : Job) (some_ : 0 < segCount) (total : job.request.total ≠ 0) :
    Independent frames segCount history job ↔ Ready frames segCount history job := by
  constructor
  · intro independent i small active held
    have fills : Fills segCount i (i * perSegment segCount) := by
      refine ⟨Nat.le_refl _, ?_, active⟩
      rw [Nat.add_mul, Nat.one_mul]
      exact Nat.lt_add_of_pos_right (perSegment_positive segCount)
    have nonempty : published frames segCount history job (i * perSegment segCount) ≠ [] := by
      rw [independent.columns, column_nonempty active]
      exact held
    obtain ⟨usable, reads, -⟩ := works_of_published total fills nonempty
    exact ⟨reads, (serveAll_usable active history).mp usable⟩
  · intro ready
    have columns := published_column some_ total ready
    refine ⟨columns, ?_, fun c inside => ?_⟩
    · have alone : published frames 1 [] { job with reads := fun _ => true } =
          column frames job.request := by
        apply published_column Nat.one_pos
        · exact total
        · intro _ _ _ _
          exact ⟨rfl, fun _ none => absurd none List.not_mem_nil⟩
      rw [columns, alone]
    · obtain ⟨i, small, fills⟩ := fills_exists some_ inside
      exact ⟨i, small, fills, fun other filled => fills_unique filled fills⟩

/-- A file of one FLAC frame, and a job whose seeks the file lets work. -/
def shortFile : List (List Nat) := [List.replicate 4000 1]

def asking (center span : Nat) : Job := ⟨⟨center, span, 4000⟩, fun _ => true⟩

theorem length_shortFile : shortFile.flatten.length = 4000 := by
  rw [shortFile, List.flatten_cons, List.flatten_nil, List.append_nil, List.length_replicate]

theorem columns_independent_short :
    Independent shortFile 8 [asking 2000 4000] (asking 1000 2205) := by
  refine (columns_independent_iff shortFile 8 _ _ (by decide) (by decide)).mpr ?_
  intro i small _ _
  refine ⟨rfl, fun earlier member _ => ?_⟩
  have inside : ∀ i < 8, startOf 8 i (asking 2000 4000).request < 4000 := by decide
  rw [List.mem_singleton.mp member]
  refine ⟨rfl, ?_⟩
  rw [length_shortFile]
  exact inside i small

/-- At the end of the file the last segment has nothing to seek to, and in the next window its
columns stay empty. -/
theorem lost_segment_empty :
    ¬Independent shortFile 8 [asking 3999 2205] (asking 2000 4000) := by
  intro independent
  have fills : Fills 8 7 448 := ⟨by decide, by decide, by decide⟩
  have nonempty : published shortFile 8 [asking 3999 2205] (asking 2000 4000) 448 ≠ [] := by
    rw [independent.columns, column_nonempty (by decide), length_shortFile]
    decide
  obtain ⟨usable, -⟩ := works_of_published (by decide) fills nonempty
  have sought := (serveAll_usable (by decide) [asking 3999 2205]).mp usable _
    (List.mem_singleton.mpr rfl) (by decide)
  have outside : 4000 ≤ startOf 8 7 (asking 3999 2205).request := by decide
  have inside := sought.2
  rw [length_shortFile] at inside
  omega

end MisrcGui.Playback.AnalysisColumns
