import MisrcGui.Playback.Source

/-! Which samples of its file a channel has in its buffer and its source: reading on and seeking
keep them consecutive. -/
namespace MisrcGui.Playback

variable {Sample : Type}

theorem writeCallback_eq {buffer next : DecodeBuffer Sample} {frame : List Sample}
    (h : buffer.writeCallback frame = some next) :
    next = { buffer with stored := buffer.stored ++ frame } ∧
      buffer.stored.length + frame.length ≤ decodeBufSize := by
  simp only [DecodeBuffer.writeCallback] at h
  split at h
  · cases h
  · next fits =>
    cases h
    exact ⟨rfl, Nat.le_of_not_gt fits⟩

theorem pending_append {buffer : DecodeBuffer Sample} (inside : buffer.pos ≤ buffer.stored.length)
    (samples : List Sample) :
    ({ buffer with stored := buffer.stored ++ samples } : DecodeBuffer Sample).pending =
      buffer.pending ++ samples :=
  List.drop_append_of_le_length inside

/-- A decoder and a buffer with the samples of a stream from `current` on. -/
structure Streaming (frames : List (List Sample)) (decoder : Decoder Sample)
    (buffer : DecodeBuffer Sample) (current : Nat) : Prop where
  inside : buffer.pos ≤ buffer.stored.length
  ahead : buffer.pending ++ decoder.rest.flatten = frames.flatten.drop current
  ended : decoder.state = .endOfStream → decoder.rest = []

theorem decodeFrames_streaming {frames rest : List (List Sample)} {buffer : DecodeBuffer Sample}
    {current : Nat} (streaming : Streaming frames ⟨.searchForFrameSync, rest⟩ buffer current) :
    Streaming frames (decodeFrames rest buffer).1 (decodeFrames rest buffer).2 current := by
  induction rest generalizing buffer with
  | nil =>
    simp only [decodeFrames]
    split
    · exact ⟨streaming.inside, streaming.ahead, fun _ => rfl⟩
    · exact streaming
  | cons frame rest ih =>
    simp only [decodeFrames]
    split
    · split
      · next buffer' stored =>
        obtain ⟨rfl, _⟩ := writeCallback_eq stored
        apply ih
        refine ⟨?_, ?_, nofun⟩
        · dsimp only
          rw [List.length_append]
          exact Nat.le_add_right_of_le streaming.inside
        · rw [pending_append streaming.inside, List.append_assoc]
          exact streaming.ahead
      · exact ⟨streaming.inside, streaming.ahead, nofun⟩
    · exact streaming

theorem refillDecoder_streaming {frames : List (List Sample)} {decoder after : Decoder Sample}
    {buffer filled : DecodeBuffer Sample} {current : Nat}
    (streaming : Streaming frames decoder buffer current)
    (h : refillDecoder decoder buffer = some (after, filled)) :
    Streaming frames after filled current := by
  obtain ⟨state, rest⟩ := decoder
  simp only [refillDecoder] at h
  split at h
  · cases state with
    | searchForFrameSync =>
      have decoded := decodeFrames_streaming streaming
      rw [Option.some.inj h] at decoded
      exact decoded
    | endOfStream =>
      cases h
      exact streaming
    | aborted => cases h
  · cases h
    exact streaming

theorem sliceAt_eq {frames rest : List (List Sample)} {target : Nat} {slice : List Sample}
    (h : sliceAt frames target = some (slice, rest)) :
    slice ≠ [] ∧ slice ++ rest.flatten = frames.flatten.drop target := by
  induction frames generalizing target with
  | nil => cases h
  | cons frame others ih =>
    simp only [sliceAt] at h
    split at h
    · next inside =>
      cases h
      refine ⟨?_, ?_⟩
      · intro empty
        exact absurd (List.drop_eq_nil_iff.mp empty) (Nat.not_le_of_lt inside)
      · rw [List.flatten_cons, List.drop_append_of_le_length (Nat.le_of_lt inside)]
    · next behind =>
      obtain ⟨nonempty, ahead⟩ := ih h
      refine ⟨nonempty, ?_⟩
      rw [ahead, List.flatten_cons, List.drop_append, List.drop_eq_nil_of_le (Nat.le_of_not_lt behind)]
      rfl

/-- A seek that is taken for a success has the stream from its target on, and no more. -/
theorem seekAttempt_found {frames : List (List Sample)} {decoder after : Decoder Sample}
    {buffer : DecodeBuffer Sample} {target : Nat} {answer : SeekAnswer Sample}
    (h : seekAttempt frames decoder target answer = (after, buffer, true)) :
    after.state = .searchForFrameSync ∧ buffer.pos = 0 ∧
      buffer.stored ++ after.rest.flatten = frames.flatten.drop target := by
  cases answer with
  | exact =>
    simp only [seekAttempt] at h
    split at h
    · cases h
    · next slice rest found =>
      split at h
      · cases h
      · next stored =>
        obtain ⟨rfl, _⟩ := writeCallback_eq stored
        simp only [Prod.mk.injEq] at h
        obtain ⟨rfl, rfl, _⟩ := h
        exact ⟨rfl, rfl, (sliceAt_eq found).2⟩
  | missed answer decoder delivered misses =>
    simp only [seekAttempt, Prod.mk.injEq, Bool.and_eq_true, decide_eq_true_eq,
      Bool.not_eq_true', List.isEmpty_eq_false_iff] at h
    exact absurd ⟨h.2.2.1.1, h.2.2.1.2, h.2.2.2⟩ misses

theorem seekAttempt_streaming {frames : List (List Sample)} {decoder after : Decoder Sample}
    {buffer : DecodeBuffer Sample} {target : Nat} {answer : SeekAnswer Sample}
    (h : seekAttempt frames decoder target answer = (after, buffer, true)) :
    Streaming frames after buffer target := by
  obtain ⟨sync, start, ahead⟩ := seekAttempt_found h
  refine ⟨?_, ?_, ?_⟩
  · rw [start]
    exact Nat.zero_le _
  · rw [DecodeBuffer.pending, start]
    exact ahead
  · rw [sync]
    nofun

theorem processSingle_ended {decoder after : Decoder Sample} {buffer filled : DecodeBuffer Sample}
    (sync : decoder.state = .searchForFrameSync)
    (h : processSingle decoder buffer = (after, filled, true))
    (ended : after.state = .endOfStream) :
    decoder.rest = [] ∧ after.rest = [] ∧ filled = buffer := by
  obtain ⟨state, rest⟩ := decoder
  dsimp only at sync
  subst sync
  cases rest with
  | nil =>
    cases h
    exact ⟨rfl, rfl, rfl⟩
  | cons frame rest =>
    simp only [processSingle] at h
    split at h
    · cases h
      cases ended
    · cases h

/-- The last sample alone behind a seek, and then the end of the stream: the channel is at its
end again. -/
theorem ended_streaming {frames : List (List Sample)} {decoder after ended : Decoder Sample}
    {buffer filled : DecodeBuffer Sample} {previous : Nat} {answer : SeekAnswer Sample}
    (positive : previous > 0) (one : buffer.stored.length = 1)
    (back : seekAttempt frames decoder (previous - 1) answer = (after, buffer, true))
    (run : processSingle after emptyBuffer = (ended, filled, true))
    (ends : ended.state = .endOfStream) : Streaming frames ended filled previous := by
  obtain ⟨sync, start, ahead⟩ := seekAttempt_found back
  obtain ⟨none, empty, kept⟩ := processSingle_ended sync run ends
  rw [none, List.flatten_nil, List.append_nil] at ahead
  have last : frames.flatten.length = previous := by
    have length := congrArg List.length ahead
    rw [one, List.length_drop] at length
    omega
  rw [kept]
  refine ⟨Nat.le_refl _, ?_, fun _ => empty⟩
  rw [empty, ← last, List.drop_length]
  rfl

/-- Behind a seek that failed, a recovery that is not given up is where the channel was. -/
theorem recover_streaming {frames : List (List Sample)} {decoder : Decoder Sample}
    {previous : Nat} {previousEof : Bool} {calls : SeekCalls Sample}
    (restored : (recover frames decoder previous previousEof calls).recoveryFailed = false) :
    Streaming frames (recover frames decoder previous previousEof calls).decoder
      (recover frames decoder previous previousEof calls).buffer previous := by
  generalize result : recover frames decoder previous previousEof calls = flac at restored ⊢
  simp only [recover] at result
  split at result
  · generalize back : seekAttempt frames decoder _ calls.back = attempt at result
    obtain ⟨after, buffer, found⟩ := attempt
    dsimp only at result
    split at result
    · next isFound =>
      rw [isFound] at back
      split at result
      · next eof =>
        split at result
        · next last =>
          simp only [Bool.and_eq_true, decide_eq_true_eq] at last
          rw [eof, Bool.true_and, if_pos (decide_eq_true (Nat.ne_of_gt last.1))] at back
          generalize run : processSingle after emptyBuffer = processed at result
          obtain ⟨ended, filled, good⟩ := processed
          dsimp only at result
          split at result
          · next ends =>
            simp only [Bool.and_eq_true, decide_eq_true_eq] at ends
            rw [ends.1] at run
            rw [← result]
            exact ended_streaming last.1 last.2 back run ends.2
          · rw [← result] at restored
            cases restored
        · rw [← result] at restored
          cases restored
      · next notEof =>
        rw [Bool.not_eq_true] at notEof
        rw [← result]
        rw [notEof, Bool.false_and, if_neg Bool.false_ne_true] at back
        exact seekAttempt_streaming back
    · rw [← result] at restored
      cases restored
  · rw [← result] at restored
    cases restored

theorem seekDecoder_found {frames : List (List Sample)} {flac next : Flac Sample}
    {previous target : Nat} {calls : SeekCalls Sample}
    (h : seekDecoder frames flac previous target calls = (next, true)) :
    Streaming frames next.decoder next.buffer target ∧ next.recoveryFailed = false := by
  simp only [seekDecoder] at h
  generalize first : seekAttempt frames flac.decoder target calls.target = attempt at h
  obtain ⟨after, buffer, found⟩ := attempt
  dsimp only at h
  split at h
  · next isFound =>
    rw [isFound] at first
    cases h
    exact ⟨seekAttempt_streaming first, rfl⟩
  · cases h

theorem seekDecoder_failed {frames : List (List Sample)} {flac next : Flac Sample}
    {previous target : Nat} {calls : SeekCalls Sample}
    (h : seekDecoder frames flac previous target calls = (next, false))
    (restored : next.recoveryFailed = false) :
    Streaming frames next.decoder next.buffer previous := by
  simp only [seekDecoder] at h
  generalize first : seekAttempt frames flac.decoder target calls.target = attempt at h
  obtain ⟨after, buffer, found⟩ := attempt
  dsimp only at h
  split at h
  · cases h
  · simp only [Prod.mk.injEq, and_true] at h
    rw [← h] at restored ⊢
    exact recover_streaming restored

structure Reading (samples : List Sample) (reader : RawReader Sample) : Prop where
  whole : reader.lds = true → ldsGroupSamples ∣ samples.length ∧ ldsGroupSamples ∣ reader.next
  skip : reader.skip < ldsGroupSamples
  unpacked : reader.lds = false → reader.skip = 0 ∧ reader.carry = []
  ahead : reader.carry ++ (samples.drop reader.next).drop reader.skip =
    samples.drop reader.cursor
  inside : reader.cursor ≤ samples.length
  carried : reader.carry ≠ [] → reader.skip = 0
  place : reader.next + reader.skip = reader.cursor + reader.carry.length

/-- Groups give the samples behind those that are skipped, in their order. -/
structure Groups (rest : List Sample) (skip want : Nat) (unpacked : Unpacked Sample) : Prop where
  out : unpacked.out = (rest.drop skip).take want
  ahead : unpacked.carry ++ (rest.drop (unpacked.groups * ldsGroupSamples)).drop unpacked.skip =
    (rest.drop skip).drop want
  few : unpacked.skip < ldsGroupSamples
  carried : unpacked.carry ≠ [] → unpacked.skip = 0
  place : unpacked.groups * ldsGroupSamples + unpacked.skip =
    skip + unpacked.out.length + unpacked.carry.length

theorem group_drop (a b c d : Sample) (rest : List Sample) {skip : Nat}
    (few : skip < ldsGroupSamples) :
    (a :: b :: c :: d :: rest).drop skip = [a, b, c, d].drop skip ++ rest := by
  have group : skip ≤ [a, b, c, d].length := Nat.le_of_lt few
  exact List.drop_append_of_le_length group

theorem readGroups_groups {rest : List Sample} {skip want : Nat}
    (whole : ldsGroupSamples ∣ rest.length) (few : skip < ldsGroupSamples)
    (enough : want + skip ≤ rest.length) : Groups rest skip want (readGroups rest skip want) := by
  induction rest, skip, want using readGroups.induct with
  | case1 a b c d rest skip =>
    rw [readGroups, if_pos rfl]
    exact ⟨rfl, rfl, few, fun carried => absurd rfl carried, Nat.zero_add _⟩
  | case2 a b c d rest skip want some mates short ih =>
    have none : skip - ldsGroupSamples = 0 := Nat.sub_eq_zero_of_le (Nat.le_of_lt few)
    have length : mates.length + skip = ldsGroupSamples := by
      rw [List.length_drop]
      exact Nat.sub_add_cancel (Nat.le_of_lt few)
    have total : (a :: b :: c :: d :: rest).length = rest.length + ldsGroupSamples := rfl
    rw [total] at whole enough
    have later := ih ((Nat.dvd_add_left (Nat.dvd_refl _)).mp whole) (by rw [none]; decide)
      (by omega)
    rw [readGroups, if_neg some]
    dsimp only
    rw [if_pos short]
    constructor
    · dsimp only
      rw [later.out, none, group_drop a b c d rest few, List.take_append,
        List.take_of_length_le (Nat.le_of_lt short)]
      rfl
    · have next : ∀ groups, (a :: b :: c :: d :: rest).drop ((groups + 1) * ldsGroupSamples) =
          rest.drop (groups * ldsGroupSamples) := by
        intro groups
        rw [Nat.succ_mul, Nat.add_comm, ← List.drop_drop]
        rfl
      dsimp only
      rw [next, later.ahead, none, group_drop a b c d rest few, List.drop_append,
        List.drop_eq_nil_of_le (Nat.le_of_lt short)]
      rfl
    · exact later.few
    · exact later.carried
    · have place := later.place
      generalize readGroups rest (skip - ldsGroupSamples)
        (want - ([a, b, c, d].drop skip).length) = unpacked at place ⊢
      have sum : skip + (mates ++ unpacked.out).length =
          ldsGroupSamples + unpacked.out.length := by
        rw [List.length_append]
        omega
      dsimp only
      rw [sum, Nat.succ_mul]
      omega
  | case3 a b c d rest skip want some mates long ih =>
    have none : skip - ldsGroupSamples = 0 := Nat.sub_eq_zero_of_le (Nat.le_of_lt few)
    have long := Nat.le_of_not_lt long
    rw [readGroups, if_neg some]
    dsimp only
    rw [if_neg (Nat.not_lt_of_le long), none]
    constructor
    · dsimp only
      rw [group_drop a b c d rest few, List.take_append_of_le_length long]
    · dsimp only
      rw [group_drop a b c d rest few, List.drop_append_of_le_length long]
      rfl
    · exact Nat.zero_lt_succ _
    · exact fun _ => rfl
    · have length : mates.length + skip = ldsGroupSamples := by
        rw [List.length_drop]
        exact Nat.sub_add_cancel (Nat.le_of_lt few)
      have sum : (mates.take want).length + (mates.drop want).length = mates.length := by
        rw [← List.length_append, List.take_append_drop]
      dsimp only
      rw [Nat.add_assoc, sum, Nat.one_mul]
      omega
  | case4 rest skip want short =>
    have empty : rest = [] := by
      obtain ⟨quarter, length⟩ := whole
      match rest, short, length with
      | [], _, _ => rfl
      | [a], _, length | [a, b], _, length | [a, b, c], _, length =>
        simp only [ldsGroupSamples, List.length_cons, List.length_nil] at length
        omega
      | a :: b :: c :: d :: rest, short, _ => exact (short a b c d rest rfl).elim
    subst empty
    rw [List.length_nil] at enough
    obtain ⟨rfl, rfl⟩ : want = 0 ∧ skip = 0 := by omega
    rw [readGroups.eq_def]
    exact ⟨rfl, rfl, few, fun carried => absurd rfl carried, rfl⟩

@[simp] theorem readGroups_zero (rest : List Sample) (skip : Nat) :
    readGroups rest skip 0 = ⟨[], 0, skip, []⟩ := by
  rw [readGroups.eq_def]
  split
  · rw [if_pos rfl]
  · rfl

structure ReadOn (samples : List Sample) (reader : RawReader Sample) (want : Nat)
    (out : List Sample) (next : RawReader Sample) : Prop where
  read : out = (samples.drop reader.cursor).take want
  cursor : next.cursor = reader.cursor + out.length
  lds : next.lds = reader.lds
  reading : Reading samples next

theorem rawRead_packed {samples : List Sample} {reader : RawReader Sample} {want : Nat}
    (reading : Reading samples reader) (packed : reader.lds = true)
    (some : ¬(want = 0 ∨ reader.cursor ≥ samples.length)) :
    ReadOn samples reader want (rawRead samples reader want).1
      (rawRead samples reader want).2 := by
  obtain ⟨whole, aligned⟩ := reading.whole packed
  have all := congrArg List.length reading.ahead
  rw [List.length_append, List.length_drop, List.length_drop, List.length_drop] at all
  simp only [rawRead, if_neg some, packed, if_true]
  generalize chunk_eq : min want (samples.length - reader.cursor) = chunk
  generalize need_eq : chunk - (reader.carry.take chunk).length = need
  rw [List.length_take] at need_eq
  have enough : need + reader.skip ≤ (samples.drop reader.next).length := by
    rw [List.length_drop]
    by_cases carried : reader.carry = []
    · rw [carried, List.length_nil] at all need_eq
      omega
    · have none := reading.carried carried
      omega
  have groups := readGroups_groups
    (by rw [List.length_drop]; exact Nat.dvd_sub whole aligned) reading.skip enough
  generalize unpacked_eq : readGroups (samples.drop reader.next) reader.skip need = unpacked at groups
  have need_eq : need = chunk - reader.carry.length := by omega
  have out : reader.carry.take chunk ++ unpacked.out =
      (samples.drop reader.cursor).take chunk := by
    rw [groups.out, need_eq, ← List.take_append, reading.ahead]
  have length : (reader.carry.take chunk ++ unpacked.out).length = chunk := by
    rw [out, List.length_take, List.length_drop]
    omega
  have skip : reader.carry.drop chunk ++ unpacked.carry ≠ [] → unpacked.skip = 0 := by
    intro carried
    by_cases mates : unpacked.carry = []
    · rw [mates, List.append_nil] at carried
      have long : chunk < reader.carry.length := by
        by_contra short
        exact carried (List.drop_eq_nil_of_le (Nat.le_of_not_lt short))
      have none : need = 0 := by omega
      rw [← unpacked_eq, none, readGroups_zero]
      apply reading.carried
      intro empty
      rw [empty] at long
      cases long
    · exact groups.carried mates
  refine ⟨?_, rfl, packed.symm, ⟨fun _ => ⟨whole, ?_⟩, groups.few, nofun, ?_, ?_, skip, ?_⟩⟩
  · rw [out, ← chunk_eq, ← List.length_drop, ← List.take_eq_take_min]
  · exact Nat.dvd_add aligned (Nat.dvd_mul_left ..)
  · dsimp only
    rw [← List.drop_drop, List.append_assoc, groups.ahead, length, need_eq, ← List.drop_append,
      reading.ahead, List.drop_drop]
  · dsimp only
    omega
  · have place := groups.place
    have before := reading.place
    dsimp only
    rw [List.length_append, List.length_append, List.length_take, List.length_drop]
    by_cases none : need = 0
    · rw [none, readGroups_zero] at unpacked_eq
      rw [← unpacked_eq] at place ⊢
      simp only [List.length_nil] at place ⊢
      omega
    · omega

theorem rawRead_plain {samples : List Sample} {reader : RawReader Sample} {want : Nat}
    (reading : Reading samples reader) (plain : reader.lds = false)
    (some : ¬(want = 0 ∨ reader.cursor ≥ samples.length)) :
    ReadOn samples reader want (rawRead samples reader want).1
      (rawRead samples reader want).2 := by
  obtain ⟨noSkip, noCarry⟩ := reading.unpacked plain
  have ahead := reading.ahead
  rw [noSkip, noCarry, List.nil_append, List.drop_zero] at ahead
  simp only [rawRead, if_neg some, plain, Bool.false_eq_true, if_false, ahead]
  have length : ((samples.drop reader.cursor).take (min want (samples.length - reader.cursor))).length =
      min want (samples.length - reader.cursor) := by
    rw [List.length_take, List.length_drop]
    omega
  have place := reading.place
  refine ⟨?_, rfl, plain.symm, ⟨nofun, reading.skip, fun _ => ⟨noSkip, noCarry⟩, ?_, ?_, ?_, ?_⟩⟩
  · rw [← List.length_drop, ← List.take_eq_take_min]
  · dsimp only
    rw [noSkip, noCarry, List.nil_append, List.drop_zero, ← List.drop_drop, ahead, List.drop_drop]
  · dsimp only
    rw [length]
    omega
  · exact fun _ => noSkip
  · dsimp only
    omega

theorem rawRead_readOn {samples : List Sample} {reader : RawReader Sample}
    (reading : Reading samples reader) (want : Nat) :
    ReadOn samples reader want (rawRead samples reader want).1
      (rawRead samples reader want).2 := by
  by_cases none : want = 0 ∨ reader.cursor ≥ samples.length
  · rw [rawRead, if_pos none]
    refine ⟨?_, rfl, rfl, reading⟩
    rcases none with rfl | past
    · rfl
    · rw [List.drop_eq_nil_of_le past]
      exact List.take_nil.symm
  · cases kind : reader.lds with
    | false => exact rawRead_plain reading kind none
    | true => exact rawRead_packed reading kind none

theorem rawOpen_reading {samples : List Sample} {lds : Bool}
    (whole : lds = true → ldsGroupSamples ∣ samples.length) :
    Reading samples (rawOpen lds) :=
  ⟨fun packed => ⟨whole packed, Nat.dvd_zero _⟩, Nat.zero_lt_succ _, fun _ => ⟨rfl, rfl⟩, rfl,
    Nat.zero_le _, fun _ => rfl, rfl⟩

theorem rawSeek_reading {samples : List Sample} {reader next : RawReader Sample} {sample : Nat}
    {fseek : Bool} (reading : Reading samples reader) (inside : sample < samples.length)
    (h : rawSeek samples reader sample fseek = (next, true)) :
    next.cursor = sample ∧ next.lds = reader.lds ∧ Reading samples next := by
  simp only [rawSeek] at h
  split at h
  · cases h
  · rw [if_neg (Nat.not_le_of_lt inside)] at h
    split at h
    · simp only [Prod.mk.injEq, and_true] at h
      rw [← h]
      refine ⟨rfl, rfl, ?_⟩
      cases packed : reader.lds with
      | false =>
        exact ⟨nofun, Nat.zero_lt_succ _, fun _ => ⟨rfl, rfl⟩, rfl, Nat.le_of_lt inside,
          fun _ => rfl, rfl⟩
      | true =>
        have few : sample % ldsGroupSamples < ldsGroupSamples := Nat.mod_lt _ (Nat.zero_lt_succ _)
        have split : sample - sample % ldsGroupSamples + sample % ldsGroupSamples = sample :=
          Nat.sub_add_cancel (Nat.mod_le ..)
        refine ⟨fun _ => ⟨(reading.whole packed).1, Nat.dvd_sub_mod sample⟩, few, nofun, ?_,
          Nat.le_of_lt inside, fun carried => absurd rfl carried, split⟩
        dsimp only
        rw [List.nil_append, List.drop_drop, if_pos rfl, split]
    · cases h

theorem Reading.end_skip {samples : List Sample} {reader : RawReader Sample}
    (reading : Reading samples reader) (ended : rawEof samples reader = true) :
    reader.skip = 0 := by
  have ended := of_decide_eq_true ended
  have inside := reading.inside
  have place := reading.place
  have few := reading.skip
  have ahead := congrArg List.length reading.ahead
  rw [List.length_append, List.length_drop, List.length_drop, List.length_drop] at ahead
  cases packed : reader.lds with
  | false => exact (reading.unpacked packed).1
  | true =>
    obtain ⟨⟨file, whole⟩, ⟨groups, aligned⟩⟩ := reading.whole packed
    simp only [ldsGroupSamples] at whole aligned few
    omega

theorem rawSeek_failed {samples : List Sample} {reader next : RawReader Sample} {sample : Nat}
    {fseek : Bool} (h : rawSeek samples reader sample fseek = (next, false))
    (same : next.skip = reader.skip) : next = reader := by
  simp only [rawSeek] at h
  split at h
  · cases h
    rfl
  · split at h
    · cases h
    · split at h
      all_goals
        simp only [Prod.mk.injEq, and_true] at h
        rw [← h] at same ⊢
        dsimp only at same
        rw [same]

end MisrcGui.Playback
