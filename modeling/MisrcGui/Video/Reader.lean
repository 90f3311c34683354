import MisrcGui.Library.Incremental
import MisrcGui.Video.Wire

/-! The incremental reader of the video stream and the receive loop of
`gui_monitor_video_client.c` around it. -/
namespace MisrcGui.Video
open Library
open Layout (field)
open Incremental (Grammar Next items)

inductive ReaderState where
  | header
  | payload
  | complete
  | failed
deriving DecidableEq

def emptyHeader : FrameHeader := ⟨0, 0, 0, 0, 0, 0, 0, 0, 0⟩

structure FrameReader where
  headerBuf : List UInt8
  payload : List UInt8
  payloadCapacity : Nat
  frame : FrameHeader
  state : ReaderState

def readerInit (capacity : Nat) : FrameReader := ⟨[], [], capacity, emptyHeader, .header⟩

def readerReset (reader : FrameReader) : FrameReader := readerInit reader.payloadCapacity

/-- The returns 0, 1, -1 and -2. -/
inductive FeedResult where
  | more
  | complete
  | invalid
  | tooLarge
deriving DecidableEq

/-- The payload phase of a call that has consumed some bytes already. -/
def feedPayload (reader : FrameReader) (input : List UInt8) (consumed : Nat) :
    FrameReader × FeedResult × Nat :=
  let n := min (reader.frame.payloadBytes.toNat - reader.payload.length) input.length
  let reader := { reader with payload := reader.payload ++ input.take n }
  if reader.payload.length = reader.frame.payloadBytes.toNat then
    ({ reader with state := .complete }, .complete, consumed + n)
  else (reader, .more, consumed + n)

def readerFeed (reader : FrameReader) (input : List UInt8) : FrameReader × FeedResult × Nat :=
  match reader.state with
  | .failed | .complete => (reader, .invalid, 0)
  | .header =>
    let n := min (headerBytes - reader.headerBuf.length) input.length
    let reader := { reader with headerBuf := reader.headerBuf ++ input.take n }
    if reader.headerBuf.length ≠ headerBytes then (reader, .more, n)
    else
      match headerDecode reader.headerBuf with
      | none => ({ reader with state := .failed }, .invalid, n)
      | some frame =>
        let reader := { reader with frame }
        if frame.payloadBytes.toNat > reader.payloadCapacity then
          ({ reader with state := .failed }, .tooLarge, n)
        else feedPayload { reader with state := .payload } (input.drop n) n
  | .payload => feedPayload reader input 0

abbrev Frame := FrameHeader × List UInt8

/-- The receive loop over one chunk, which delivers each frame and resets the reader. The
verdict is false when the loop gives up. -/
def receiveLoop : Nat → FrameReader → List UInt8 → FrameReader × List Frame × Bool
  | 0, reader, _ => (reader, [], false)
  | fuel + 1, reader, input =>
    if input = [] then (reader, [], true)
    else
      match readerFeed reader input with
      | (reader, .invalid, _) | (reader, .tooLarge, _) => (reader, [], false)
      | (reader, .more, consumed) =>
        if consumed = 0 then (reader, [], false)
        else receiveLoop fuel reader (input.drop consumed)
      | (reader, .complete, consumed) =>
        if consumed = 0 then (reader, [], false)
        else
          let (last, frames, verdict) :=
            receiveLoop fuel (readerReset reader) (input.drop consumed)
          (last, (reader.frame, reader.payload) :: frames, verdict)

def receive (reader : FrameReader) (chunk : List UInt8) : FrameReader × List Frame × Bool :=
  receiveLoop (chunk.length + 1) reader chunk

def receiveChunks : FrameReader → List (List UInt8) → FrameReader × List Frame × Bool
  | reader, [] => (reader, [], true)
  | reader, chunk :: chunks =>
    match receive reader chunk with
    | (reader, frames, false) => (reader, frames, false)
    | (reader, frames, true) =>
      let (last, later, verdict) := receiveChunks reader chunks
      (last, frames ++ later, verdict)

def bodyNext (capacity : Nat) (body : List UInt8) : Option FrameHeader → Next UInt8 Frame
  | none => .bad
  | some frame =>
    if capacity < frame.payloadBytes.toNat then .bad
    else if body.length < frame.payloadBytes.toNat then .more
    else
      .item (frame, body.take frame.payloadBytes.toNat) (body.drop frame.payloadBytes.toNat)

def streamNext (capacity : Nat) (stream : List UInt8) : Next UInt8 Frame :=
  if stream.length < headerBytes then .more
  else bodyNext capacity (stream.drop headerBytes) (headerDecode (stream.take headerBytes))

theorem streamNext_append {capacity : Nat} {header : List UInt8} (body : List UInt8)
    (size : header.length = headerBytes) :
    streamNext capacity (header ++ body) = bodyNext capacity body (headerDecode header) := by
  have long : ¬(header ++ body).length < headerBytes := by
    rw [List.length_append]
    omega
  rw [streamNext, if_neg long, List.drop_left' size, List.take_left' size]

theorem bodyNext_bad_append {capacity : Nat} {decoded : Option FrameHeader} {body : List UInt8}
    (later : List UInt8) (h : bodyNext capacity body decoded = .bad) :
    bodyNext capacity (body ++ later) decoded = .bad := by
  cases decoded with
  | none => rfl
  | some frame =>
    by_cases large : capacity < frame.payloadBytes.toNat
    · simp [bodyNext, large]
    · by_cases short : body.length < frame.payloadBytes.toNat
      · simp [bodyNext, large, short] at h
      · simp [bodyNext, large, short] at h

theorem bodyNext_item {capacity : Nat} {decoded : Option FrameHeader} {body rest : List UInt8}
    {value : Frame} (h : bodyNext capacity body decoded = .item value rest) :
    rest.length ≤ body.length ∧ ∀ later,
      bodyNext capacity (body ++ later) decoded = .item value (rest ++ later) := by
  cases decoded with
  | none => contradiction
  | some frame =>
    by_cases large : capacity < frame.payloadBytes.toNat
    · simp [bodyNext, large] at h
    · by_cases short : body.length < frame.payloadBytes.toNat
      · simp [bodyNext, large, short] at h
      · simp only [bodyNext, large, short, if_false, Next.item.injEq] at h ⊢
        obtain ⟨rfl, rfl⟩ := h
        refine ⟨by simp, ?_⟩
        intro later
        have long : ¬(body ++ later).length < frame.payloadBytes.toNat := by
          rw [List.length_append]
          omega
        rw [if_neg long, List.take_append_of_le_length (by omega),
          List.drop_append_of_le_length (by omega)]

theorem header_split {stream : List UInt8} (long : ¬stream.length < headerBytes) :
    ∃ header body, stream = header ++ body ∧ header.length = headerBytes := by
  refine ⟨stream.take headerBytes, stream.drop headerBytes,
    (List.take_append_drop ..).symm, ?_⟩
  rw [List.length_take]
  omega

def streamGrammar (capacity : Nat) : Grammar UInt8 Frame where
  next := streamNext capacity
  bad_append := by
    intro stream later h
    by_cases short : stream.length < headerBytes
    · simp [streamNext, short] at h
    · obtain ⟨header, body, rfl, size⟩ := header_split short
      rw [streamNext_append body size] at h
      rw [List.append_assoc, streamNext_append _ size]
      exact bodyNext_bad_append later h
  item_append := by
    intro stream later value rest h
    by_cases short : stream.length < headerBytes
    · simp [streamNext, short] at h
    · obtain ⟨header, body, rfl, size⟩ := header_split short
      rw [streamNext_append body size] at h
      rw [List.append_assoc, streamNext_append _ size]
      exact (bodyNext_item h).2 later
  shorter := by
    intro stream value rest h
    by_cases short : stream.length < headerBytes
    · simp [streamNext, short] at h
    · obtain ⟨header, body, rfl, size⟩ := header_split short
      rw [streamNext_append body size] at h
      rw [List.length_append, size]
      exact Nat.lt_of_le_of_lt (bodyNext_item h).1 (Nat.lt_add_of_pos_left (Nat.succ_pos 39))

inductive Holds (reader : FrameReader) (seen : List UInt8) : Prop where
  | header (state : reader.state = .header) (empty : reader.payload = [])
      (short : reader.headerBuf.length < headerBytes) (same : seen = reader.headerBuf)
  | payload (state : reader.state = .payload) (size : reader.headerBuf.length = headerBytes)
      (decoded : headerDecode reader.headerBuf = some reader.frame)
      (fits : reader.frame.payloadBytes.toNat ≤ reader.payloadCapacity)
      (short : reader.payload.length < reader.frame.payloadBytes.toNat)
      (same : seen = reader.headerBuf ++ reader.payload)

inductive Fed (reader : FrameReader) (seen input : List UInt8) (next : Next UInt8 Frame)
    (after : FrameReader) (result : FeedResult) (consumed : Nat) : Prop where
  | more (said : next = .more) (more : result = .more) (whole : consumed = input.length)
      (holds : Holds after (seen ++ input))
      (capacity : after.payloadCapacity = reader.payloadCapacity)
  | bad (said : next = .bad) (refused : result = .invalid ∨ result = .tooLarge)
  | item (said : next = .item (after.frame, after.payload) (input.drop consumed))
      (complete : result = .complete) (some : 0 < consumed)
      (capacity : after.payloadCapacity = reader.payloadCapacity)

/-- The payload phase, `front` being what the call has consumed before it. -/
theorem feedPayload_fed {reader start : FrameReader} {seen front : List UInt8}
    (input : List UInt8) (state : reader.state = .payload)
    (size : reader.headerBuf.length = headerBytes)
    (decoded : headerDecode reader.headerBuf = some reader.frame)
    (fits : reader.frame.payloadBytes.toNat ≤ reader.payloadCapacity)
    (short : reader.payload.length < reader.frame.payloadBytes.toNat)
    (capacity : reader.payloadCapacity = start.payloadCapacity)
    (held : seen ++ front = reader.headerBuf ++ reader.payload) :
    Fed start seen (front ++ input) (streamNext start.payloadCapacity (seen ++ (front ++ input)))
      (feedPayload reader input front.length).1 (feedPayload reader input front.length).2.1
      (feedPayload reader input front.length).2.2 := by
  have room : ¬reader.payloadCapacity < reader.frame.payloadBytes.toNat := by omega
  rw [← List.append_assoc, held, List.append_assoc, streamNext_append _ size, decoded,
    ← capacity]
  simp only [bodyNext, room, if_false, feedPayload, List.length_append, List.length_take]
  by_cases enough : reader.payload.length + input.length < reader.frame.payloadBytes.toNat
  · have whole : min (reader.frame.payloadBytes.toNat - reader.payload.length) input.length =
        input.length := by omega
    have unfinished : ¬reader.payload.length + input.length =
        reader.frame.payloadBytes.toNat := by omega
    rw [if_pos enough, whole, Nat.min_self, if_neg unfinished, List.take_length]
    refine .more rfl rfl (List.length_append ..).symm ?_ capacity
    refine .payload state size decoded fits ?_ ?_
    · simpa using enough
    · rw [← List.append_assoc, held, List.append_assoc]
  · have part : min (reader.frame.payloadBytes.toNat - reader.payload.length) input.length =
        reader.frame.payloadBytes.toNat - reader.payload.length := by omega
    have taken : (reader.payload ++ input).take reader.frame.payloadBytes.toNat =
        reader.payload ++
          input.take (reader.frame.payloadBytes.toNat - reader.payload.length) := by
      rw [List.take_append, List.take_of_length_le (by omega)]
    have left : (reader.payload ++ input).drop reader.frame.payloadBytes.toNat =
        (front ++ input).drop
          (front.length + (reader.frame.payloadBytes.toNat - reader.payload.length)) := by
      rw [List.drop_append, List.drop_of_length_le (by omega), List.nil_append,
        List.drop_length_add_append]
    rw [if_neg enough, part, Nat.min_eq_left (by omega), if_pos (by omega), taken, left]
    refine .item rfl rfl ?_ capacity
    change 0 < front.length + (reader.frame.payloadBytes.toNat - reader.payload.length)
    omega

theorem payload_positive {frame : FrameHeader} (valid : frame.valid = true) :
    0 < frame.payloadBytes.toNat := by
  simp only [FrameHeader.valid, Bool.and_eq_true, decide_eq_true_eq] at valid
  have least : (4 : UInt32).toNat ≤ frame.payloadBytes.toNat := valid.1.2
  have four : (4 : UInt32).toNat = 4 := rfl
  omega

theorem readerFeed_fed {reader : FrameReader} {seen : List UInt8} (holds : Holds reader seen)
    (input : List UInt8) :
    Fed reader seen input (streamNext reader.payloadCapacity (seen ++ input))
      (readerFeed reader input).1 (readerFeed reader input).2.1
      (readerFeed reader input).2.2 := by
  cases holds with
  | payload state size decoded fits short same =>
    simp only [readerFeed, state]
    have held : seen ++ [] = reader.headerBuf ++ reader.payload := by
      rw [List.append_nil, same]
    exact feedPayload_fed input state size decoded fits short rfl held
  | header state empty short same =>
    subst same
    simp only [readerFeed, state, List.length_append, List.length_take]
    by_cases enough : reader.headerBuf.length + input.length < headerBytes
    · have whole : min (headerBytes - reader.headerBuf.length) input.length = input.length := by
        omega
      have unfinished : reader.headerBuf.length + input.length ≠ headerBytes := by omega
      have shown : (reader.headerBuf ++ input).length < headerBytes := by
        rw [List.length_append]
        exact enough
      rw [whole, Nat.min_self, if_pos unfinished, List.take_length, streamNext, if_pos shown]
      exact .more rfl rfl rfl (.header rfl empty shown rfl) rfl
    · have part : min (headerBytes - reader.headerBuf.length) input.length =
          headerBytes - reader.headerBuf.length := by omega
      have full : reader.headerBuf.length + (headerBytes - reader.headerBuf.length) =
          headerBytes := by omega
      rw [part, Nat.min_eq_left (by omega), full]
      simp only [ne_eq, not_true_eq_false, if_false]
      have size : (reader.headerBuf ++
          input.take (headerBytes - reader.headerBuf.length)).length = headerBytes := by
        rw [List.length_append, List.length_take]
        omega
      have cut : reader.headerBuf ++ input =
          reader.headerBuf ++ input.take (headerBytes - reader.headerBuf.length) ++
            input.drop (headerBytes - reader.headerBuf.length) := by
        rw [List.append_assoc, List.take_append_drop]
      have front : (input.take (headerBytes - reader.headerBuf.length)).length =
          headerBytes - reader.headerBuf.length := by
        rw [List.length_take]
        omega
      cases decoded : headerDecode (reader.headerBuf ++
          input.take (headerBytes - reader.headerBuf.length)) with
      | none =>
        rw [cut, streamNext_append _ size, decoded]
        exact .bad rfl (Or.inl rfl)
      | some frame =>
        by_cases large : frame.payloadBytes.toNat > reader.payloadCapacity
        · rw [cut, streamNext_append _ size, decoded]
          simp only [bodyNext, large, if_true]
          exact .bad rfl (Or.inr rfl)
        · simp only [large, if_false]
          have next : ∃ next : FrameReader, next = { reader with
              headerBuf := reader.headerBuf ++
                input.take (headerBytes - reader.headerBuf.length)
              frame
              state := .payload } := ⟨_, rfl⟩
          obtain ⟨next, shape⟩ := next
          have positive : next.payload.length < next.frame.payloadBytes.toNat := by
            rw [shape, empty]
            exact payload_positive (layout_of_headerDecode size decoded).1
          have held : reader.headerBuf ++ input.take (headerBytes - reader.headerBuf.length) =
              next.headerBuf ++ next.payload := by
            rw [shape, empty, List.append_nil]
          have fed := feedPayload_fed (input.drop (headerBytes - reader.headerBuf.length))
            (by rw [shape]) (by rw [shape]; exact size) (by rw [shape]; exact decoded)
            (by rw [shape]; exact Nat.le_of_not_lt large) positive
            (by rw [shape] : next.payloadCapacity = reader.payloadCapacity) held
          rw [List.take_append_drop, front, shape] at fed
          exact fed

theorem Holds.more {reader : FrameReader} {seen : List UInt8} (holds : Holds reader seen) :
    streamNext reader.payloadCapacity seen = .more := by
  cases holds with
  | header _ _ short same => rw [same, streamNext, if_pos short]
  | payload _ size decoded fits short same =>
    have room : ¬reader.payloadCapacity < reader.frame.payloadBytes.toNat := by omega
    rw [same, streamNext_append _ size, decoded, bodyNext, if_neg room, if_pos short]

theorem holds_reset (reader : FrameReader) : Holds (readerReset reader) [] :=
  .header rfl rfl (Nat.zero_lt_succ 39) rfl

/-- The outcome of the loop is that of the stream it has taken in. -/
def Received (capacity : Nat) (parsed : List Frame × Option (List UInt8))
    (outcome : FrameReader × List Frame × Bool) : Prop :=
  outcome.2.1 = parsed.1 ∧
    match parsed.2 with
    | some left =>
      outcome.2.2 = true ∧ Holds outcome.1 left ∧ outcome.1.payloadCapacity = capacity
    | none => outcome.2.2 = false

theorem receiveLoop_nil {fuel : Nat} (some : 0 < fuel) (reader : FrameReader) :
    receiveLoop fuel reader [] = (reader, [], true) := by
  cases fuel with
  | zero => contradiction
  | succ fuel => rw [receiveLoop, if_pos rfl]

theorem receiveLoop_received {fuel : Nat} {reader : FrameReader} {seen input : List UInt8}
    (enough : input.length < fuel) (holds : Holds reader seen) :
    Received reader.payloadCapacity
      (items (streamGrammar reader.payloadCapacity) (seen ++ input))
      (receiveLoop fuel reader input) := by
  induction fuel generalizing reader seen input with
  | zero => omega
  | succ fuel ih =>
    by_cases none : input = []
    · rw [none, List.append_nil, Incremental.items_more holds.more, receiveLoop, if_pos rfl]
      exact ⟨rfl, rfl, holds, rfl⟩
    · have positive := List.length_pos_of_ne_nil none
      have fed := readerFeed_fed holds input
      rw [receiveLoop, if_neg none]
      cases h : readerFeed reader input with
      | mk after outcome =>
        obtain ⟨result, consumed⟩ := outcome
        rw [h] at fed
        dsimp only at fed
        cases fed with
        | more said more whole holding capacity =>
          subst more whole
          have some : ¬input.length = 0 := by omega
          have fuelled : 0 < fuel := by omega
          simp only [some, if_false, List.drop_length, receiveLoop_nil fuelled]
          rw [Incremental.items_more said]
          exact ⟨rfl, rfl, holding, capacity⟩
        | bad said refused =>
          rw [Incremental.items_bad said]
          rcases refused with rfl | rfl
          · exact ⟨rfl, rfl⟩
          · exact ⟨rfl, rfl⟩
        | item said complete some capacity =>
          subst complete
          have turn : ¬consumed = 0 := by omega
          have shorter : (input.drop consumed).length < fuel := by
            rw [List.length_drop]
            omega
          have rest := ih shorter (holds_reset after)
          have same : (readerReset after).payloadCapacity = reader.payloadCapacity := capacity
          rw [same, List.nil_append] at rest
          simp only [turn, if_false]
          rw [Incremental.items_item said]
          exact ⟨congrArg _ rest.1, rest.2⟩

theorem receiveChunks_received {reader : FrameReader} {seen : List UInt8}
    (chunks : List (List UInt8)) (holds : Holds reader seen) :
    Received reader.payloadCapacity
      (items (streamGrammar reader.payloadCapacity) (seen ++ chunks.flatten))
      (receiveChunks reader chunks) := by
  induction chunks generalizing reader seen with
  | nil =>
    rw [List.flatten_nil, List.append_nil, Incremental.items_more holds.more]
    exact ⟨rfl, rfl, holds, rfl⟩
  | cons chunk chunks ih =>
    have first := receiveLoop_received (Nat.lt_succ_self chunk.length) holds
    rw [List.flatten_cons, ← List.append_assoc, Incremental.items_append, receiveChunks, receive]
    cases parsed : items (streamGrammar reader.payloadCapacity) (seen ++ chunk) with
    | mk frames left =>
      rw [parsed] at first
      cases h : receiveLoop (chunk.length + 1) reader chunk with
      | mk after outcome =>
        obtain ⟨delivered, verdict⟩ := outcome
        rw [h] at first
        cases left with
        | none =>
          obtain ⟨rfl, rfl⟩ := first
          exact ⟨rfl, rfl⟩
        | some left =>
          obtain ⟨rfl, rfl, holding, capacity⟩ := first
          have later := ih holding
          dsimp only at capacity later
          rw [capacity] at later
          exact ⟨congrArg _ later.1, later.2⟩

def Sendable (frame : Frame) : Prop :=
  frame.1.valid = true ∧ frame.2.length = frame.1.payloadBytes.toNat

def wire (frame : Frame) : List UInt8 := frame.1.layout ++ frame.2

theorem streamNext_wire {capacity : Nat} {frame : Frame} (sendable : Sendable frame)
    (fits : frame.1.payloadBytes.toNat ≤ capacity) (rest : List UInt8) :
    streamNext capacity (wire frame ++ rest) = .item frame rest := by
  have room : ¬capacity < frame.1.payloadBytes.toNat := by omega
  have whole : ¬(frame.2 ++ rest).length < frame.1.payloadBytes.toNat := by
    rw [List.length_append, sendable.2]
    omega
  rw [wire, List.append_assoc, streamNext_append _ (length_layout frame.1),
    headerDecode_layout sendable.1, bodyNext, if_neg room, if_neg whole,
    List.take_left' sendable.2, List.drop_left' sendable.2]

theorem valid_payload_le {header : FrameHeader} (valid : header.valid = true) :
    header.payloadBytes.toNat ≤ maxPayload := by
  simp only [FrameHeader.valid, Bool.and_eq_true, decide_eq_true_eq] at valid
  exact valid.2

theorem items_wire {frames : List Frame} (sendable : ∀ frame ∈ frames, Sendable frame)
    (rest : List UInt8) :
    items (streamGrammar maxPayload) (frames.flatMap wire ++ rest) =
      (frames ++ (items (streamGrammar maxPayload) rest).1,
        (items (streamGrammar maxPayload) rest).2) := by
  induction frames with
  | nil => rfl
  | cons frame frames ih =>
    have here := sendable frame (List.mem_cons_self ..)
    have next : (streamGrammar maxPayload).next
        (wire frame ++ (frames.flatMap wire ++ rest)) = .item frame _ :=
      streamNext_wire here (valid_payload_le here.1) _
    rw [List.flatMap_cons, List.append_assoc, Incremental.items_item next,
      ih fun other member => sendable other (List.mem_cons_of_mem _ member)]
    rfl

theorem items_refused {stream : List UInt8} (long : headerBytes ≤ stream.length)
    (refused : headerDecode (stream.take headerBytes) = none) :
    items (streamGrammar maxPayload) stream = ([], none) := by
  apply Incremental.items_bad
  have whole : ¬stream.length < headerBytes := by omega
  change streamNext maxPayload stream = .bad
  rw [streamNext, if_neg whole, refused, bodyNext]

/-- The frames of a stream are delivered in order for every way of cutting it, each byte of
them is consumed, and a header that does not decode is an error. Encoding and decoding of
headers undo each other. -/
theorem stream_exact :
    (∀ frames, (∀ frame ∈ frames, Sendable frame) → ∀ chunks,
      chunks.flatten = frames.flatMap wire →
        (receiveChunks (readerInit maxPayload) chunks).2 = (frames, true) ∧
          Holds (receiveChunks (readerInit maxPayload) chunks).1 []) ∧
    (∀ frames, (∀ frame ∈ frames, Sendable frame) → ∀ chunks rest,
      chunks.flatten = frames.flatMap wire ++ rest → headerBytes ≤ rest.length →
        headerDecode (rest.take headerBytes) = none →
          (receiveChunks (readerInit maxPayload) chunks).2 = (frames, false)) ∧
    (∀ frame buffer, headerEncode frame = some buffer → headerDecode buffer = some frame) ∧
    ∀ frame buffer, buffer.length = headerBytes → headerDecode buffer = some frame →
      headerEncode frame = some buffer := by
  have start : Holds (readerInit maxPayload) [] := .header rfl rfl (Nat.zero_lt_succ 39) rfl
  refine ⟨?_, ?_, ?_, ?_⟩
  · intro frames sendable chunks whole
    have received := receiveChunks_received chunks start
    have parsed := items_wire sendable []
    have empty : items (streamGrammar maxPayload) [] = ([], some []) :=
      Incremental.items_more start.more
    rw [List.append_nil, empty] at parsed
    rw [List.nil_append, whole] at received
    change Received maxPayload (items (streamGrammar maxPayload) _) _ at received
    rw [parsed, List.append_nil] at received
    obtain ⟨delivered, verdict, holds, _⟩ := received
    exact ⟨Prod.ext delivered verdict, holds⟩
  · intro frames sendable chunks rest whole long refused
    have received := receiveChunks_received chunks start
    have parsed := items_wire sendable rest
    rw [items_refused long refused] at parsed
    rw [List.nil_append, whole] at received
    change Received maxPayload (items (streamGrammar maxPayload) _) _ at received
    rw [parsed, List.append_nil] at received
    exact Prod.ext received.1 received.2
  · intro frame buffer encoded
    unfold headerEncode at encoded
    split at encoded
    · next valid =>
      cases encoded
      exact headerDecode_layout valid
    · contradiction
  · intro frame buffer size decoded
    obtain ⟨valid, same⟩ := layout_of_headerDecode size decoded
    rw [headerEncode, if_pos valid, same]

def heartbeat : Frame := (⟨1, 4, 1, 7, 0, 2, 2, 100, 4⟩, [1, 2, 3, 4])

/-- A heartbeat frame cut inside its header, then forty zero bytes. -/
theorem stream_exact_heartbeat :
    (receiveChunks (readerInit maxPayload)
      [(wire heartbeat).take 7, (wire heartbeat).drop 7]).2 = ([heartbeat], true) ∧
    (receiveChunks (readerInit maxPayload) [wire heartbeat, List.replicate 40 0]).2 =
      ([heartbeat], false) ∧
    headerDecode heartbeat.1.layout = some heartbeat.1 ∧
    headerEncode heartbeat.1 = some heartbeat.1.layout := by
  have sendable : ∀ frame ∈ [heartbeat], Sendable frame := by
    intro frame member
    cases List.mem_singleton.mp member
    exact ⟨by decide, rfl⟩
  have encoded : headerEncode heartbeat.1 = some heartbeat.1.layout := if_pos (by decide)
  have decoded := stream_exact.2.2.1 heartbeat.1 heartbeat.1.layout encoded
  refine ⟨?_, ?_, decoded, ?_⟩
  · apply (stream_exact.1 [heartbeat] sendable _ _).1
    simp
  · apply stream_exact.2.1 [heartbeat] sendable _ (List.replicate 40 0)
    · simp
    · decide
    · decide
  · exact stream_exact.2.2.2 heartbeat.1 heartbeat.1.layout (length_layout _) decoded

end MisrcGui.Video
