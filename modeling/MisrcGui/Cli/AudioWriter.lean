import MisrcGui.Audio.Deinterleave

/-! `audio_file_writer` of the command line capture: blocks of the audio ring through the
conversions of `extract.c` into the files. -/
namespace MisrcGui.Cli.AudioWriter
open Library
open Library.Layout (field)
open Library.Terminated (Checked)
open Library.CheckedMemory (readAt)
open Library.Channelwise (bind_eq_ok)
open Library.Interleave
open Audio.Conversion Audio.Deinterleave
open Audio.WavRecording (readSize frameBytes)

/-- Files by channel, `none` for a null pointer; without the headers. -/
abbrev Files (n : Nat) := Fin n → Option (List UInt8)

/-- The ring is what can be read of it; `taken` is ghost, what has been read. -/
structure Writer where
  ring : List UInt8
  taken : List UInt8
  len : Nat
  f4ch : Option (List UInt8)
  f2ch : Files 2
  f1ch : Files 4
  buffer2ch : Channels 2
  buffer1ch : Channels 4
  totalBytes : Nat
  finished : Bool

variable {n size bytes : Nat}

/-- `convert_1ch` and `convert_2ch`. -/
def convert (files : Files n) : Bool := (List.finRange n).any fun i => (files i).isSome

def converted (n size : Nat) (files : Files n) (block : List UInt8) (buffer : Channels n) :
    Checked (Channels n) :=
  if convert files then extract n size block block.length buffer else .ok buffer

/-- `if (f[i] != NULL) fwrite(buffer[i], 1, bytes, f[i])`. -/
def fwriteChannel (bytes : Nat) (buffer : List UInt8) (file : Option (List UInt8)) :
    Checked (Option (List UInt8)) :=
  match file with
  | none => .ok none
  | some written => do
    let more ← readAt buffer 0 bytes
    return some (written ++ more)

def fwriteChannels (bytes : Nat) (buffer : Channels n) (files : Files n) : Checked (Files n) :=
  (List.finRange n).foldlM (fun files i => do
    let file ← fwriteChannel bytes (buffer i) (files i)
    return Function.update files i file) files

/-- The loop's body behind `rb_read_ptr`. -/
def writeBlock (s : Writer) : Checked Writer := do
  let block := s.ring.take s.len
  let buffer1ch ← converted 4 1 s.f1ch block s.buffer1ch
  let buffer2ch ← converted 2 2 s.f2ch block s.buffer2ch
  let f2ch ← fwriteChannels (block.length / 2) buffer2ch s.f2ch
  let f1ch ← fwriteChannels (block.length / 4) buffer1ch s.f1ch
  return { s with
    ring := s.ring.drop s.len
    taken := s.taken ++ block
    f4ch := s.f4ch.map (· ++ block)
    f2ch, f1ch, buffer2ch, buffer1ch
    totalBytes := s.totalBytes + block.length }

/-- The writer looks at the ring and at `do_exit`. -/
def look (doExit : Bool) (s : Writer) : Checked Writer :=
  if s.finished then .ok s
  else if doExit then
    if s.ring.length = 0 then .ok { s with len := 0, finished := true }
    else writeBlock { s with len := s.ring.length }
  else if s.len ≤ s.ring.length then writeBlock s
  else .ok s

inductive Event where
  | arrive (bytes : List UInt8)
  | look (doExit : Bool)

def step (s : Writer) : Event → Checked Writer
  | .arrive bytes => .ok { s with ring := s.ring ++ bytes }
  | .look doExit => look doExit s

def start (four : Bool) (pairs : Fin 2 → Bool) (channels : Fin 4 → Bool) (buffer2ch : Channels 2)
    (buffer1ch : Channels 4) : Writer :=
  ⟨[], [], readSize, if four then some [] else none, fun i => if pairs i then some [] else none,
    fun i => if channels i then some [] else none, buffer2ch, buffer1ch, 0, false⟩

local instance neZero2 : NeZero 2 := ⟨by decide⟩
local instance neZero4 : NeZero 4 := ⟨by decide⟩

structure Exact (s : Writer) : Prop where
  four : ∀ written, s.f4ch = some written → written = s.taken
  two : ∀ i written, s.f2ch i = some written → written = deal 2 6 i s.taken
  one : ∀ i written, s.f1ch i = some written → written = deal 4 3 i s.taken

def Fits (s : Writer) (len : Nat) : Prop :=
  (convert s.f1ch ∨ convert s.f2ch →
    len / frameBytes ≤ readSize / frameBytes ∧ len % frameBytes < 4) ∧
  ((s.f1ch 0).isSome ∨ (s.f2ch 0).isSome → len % frameBytes = 0) ∧
  ((s.f2ch 1).isSome → len % frameBytes < 2)

section group

variable {files files' : Files n} {out buffer : Channels n} {block taken : List UInt8}

theorem convert_of_some {i : Fin n} (here : (files i).isSome) : convert files = true :=
  List.any_eq_true.mpr ⟨i, List.mem_finRange i, here⟩

theorem some_of_convert (on : convert files = true) : ∃ i, (files i).isSome = true := by
  obtain ⟨i, _, here⟩ := List.any_eq_true.mp on
  exact ⟨i, here⟩

theorem fwriteChannels_iff :
    fwriteChannels bytes out files = .ok files' ↔
      ∀ i, fwriteChannel bytes (out i) (files i) = .ok (files' i) := by
  rw [fwriteChannels, Channelwise.foldlM_update_iff (fun i file => fwriteChannel bytes (out i) file)
    (List.nodup_finRange n)]
  simp [List.mem_finRange]

theorem fwriteChannel_some {memory written : List UInt8} {file : Option (List UInt8)} :
    fwriteChannel bytes memory (some written) = .ok file ↔
      bytes ≤ memory.length ∧ file = some (written ++ field memory 0 bytes) := by
  rw [fwriteChannel, bind_eq_ok]
  simp only [Channelwise.readAt_eq_ok, Nat.zero_add]
  constructor
  · rintro ⟨_, ⟨inside, rfl⟩, ran⟩
    exact ⟨inside, (Except.ok.inj ran).symm⟩
  · rintro ⟨inside, rfl⟩
    exact ⟨_, ⟨inside, rfl⟩, rfl⟩

def GroupExact (n size : Nat) (files : Files n) (buffer : Channels n) (block taken : List UInt8) :
    Prop :=
  ∃ out files', converted n size files block buffer = .ok out ∧
    fwriteChannels (block.length / n) out files = .ok files' ∧
    ∀ i written, files' i = some written → written = deal n (3 * size) i (taken ++ block)

theorem deal_block (elements : n * size = 4) (i : Fin n) :
    deal n (3 * size) i block =
      ((List.range (block.length / frameBytes)).flatMap fun frame =>
        field block (n * (3 * size) * frame + 3 * size * i) (3 * size)) ++
      field block (frameBytes * (block.length / frameBytes) + 3 * size * i) (3 * size) := by
  have bytes := frame_bytes elements
  have positive : 0 < frameBytes := by decide
  have parts := Nat.div_add_mod block.length frameBytes
  have small := Nat.mod_lt block.length positive
  rw [← bytes] at parts small ⊢
  apply deal_cut i.isLt
  · omega
  · rw [Nat.mul_succ]
    omega

theorem length_frames (elements : n * size = 4) (i : Fin n) :
    ((List.range (block.length / frameBytes)).flatMap fun frame =>
      field block (n * (3 * size) * frame + 3 * size * i) (3 * size)).length =
        3 * size * (block.length / frameBytes) := by
  apply length_uniform
  intro frame small
  apply Layout.length_field
  have inside := sample_inside (w := 3 * size) small i.isLt
  rw [frame_bytes elements] at inside ⊢
  have := Nat.mul_div_le block.length frameBytes
  omega

theorem length_behind (size : Nat) (i : Fin n) :
    (field block (frameBytes * (block.length / frameBytes) + 3 * size * i) (3 * size)).length =
      min (3 * size) (block.length % frameBytes - 3 * size * i) := by
  have parts := Nat.div_add_mod block.length frameBytes
  rw [field, List.length_take, List.length_drop]
  omega

/-- The bytes that `fwrite` takes, of the frames and behind them. -/
theorem written_bytes (elements : n * size = 4) (block : List UInt8) :
    block.length / n = 3 * size * (block.length / frameBytes) + block.length % frameBytes / n := by
  have positive : 0 < n := by
    apply Nat.pos_of_ne_zero
    rintro rfl
    omega
  calc block.length / n
      = (frameBytes * (block.length / frameBytes) + block.length % frameBytes) / n := by
        rw [Nat.div_add_mod]
    _ = (n * (3 * size * (block.length / frameBytes)) + block.length % frameBytes) / n := by
        rw [← Nat.mul_assoc, frame_bytes elements]
    _ = _ := Nat.mul_add_div positive _ _

theorem rounds_block (short : block.length % frameBytes < 4) :
    rounds block.length = block.length / frameBytes := by
  unfold rounds frameBytes at *
  omega

theorem room_iff (elements : n * size = 4) {count : Nat} :
    3 * size * count ≤ readSize / n ↔ count ≤ readSize / frameBytes := by
  have positive : 0 < n := by
    apply Nat.pos_of_ne_zero
    rintro rfl
    omega
  have bytes := frame_bytes elements
  rw [Nat.le_div_iff_mul_le positive, Nat.le_div_iff_mul_le (by decide), ← bytes]
  have same : 3 * size * count * n = count * (n * (3 * size)) := by ring
  rw [same]

def GroupFits (n size : Nat) (files : Files n) (len : Nat) : Prop :=
  convert files = true →
    len / frameBytes ≤ readSize / frameBytes ∧ len % frameBytes < 4 ∧
    ∀ i, (files i).isSome → len % frameBytes / n = 0 ∧ len % frameBytes ≤ 3 * size * i

variable {count : Nat}

theorem group_fits (elements : n * size = 4) (sized : Sized buffer)
    (whole : taken.length = frameBytes * count)
    (exact : ∀ i written, files i = some written → written = deal n (3 * size) i taken)
    (empty : ∀ i < n, ∀ rest < 4, min (3 * size) (rest - 3 * size * i) = rest / n →
      rest / n = 0 ∧ rest ≤ 3 * size * i)
    (turn : GroupExact n size files buffer block taken) :
    GroupFits n size files block.length := by
  intro on
  obtain ⟨out, files', ran, written, exact'⟩ := turn
  rw [converted, if_pos on, extract_iff] at ran
  have short := (inside_iff elements).mp fun ch => (ran ch).1
  obtain ⟨opened, _⟩ := some_of_convert on
  have room := (ran opened).2.1
  rw [sized, rounds_block short, room_iff elements] at room
  refine ⟨room, short, fun i here => empty i i.isLt _ short ?_⟩
  obtain ⟨old, file⟩ := Option.isSome_iff_exists.mp here
  have wrote := fwriteChannels_iff.mp written i
  rw [file, fwriteChannel_some] at wrote
  have later := exact' i _ wrote.2
  rw [deal_append (by rw [frame_bytes elements, whole]) i.isLt, ← exact i old file] at later
  have length := congrArg List.length (List.append_cancel_left later)
  rw [Layout.length_field (by omega), deal_block elements, List.length_append,
    length_frames elements, length_behind, written_bytes elements] at length
  omega

theorem group_exact (elements : n * size = 4) (sized : Sized buffer)
    (whole : taken.length = frameBytes * count)
    (exact : ∀ i written, files i = some written → written = deal n (3 * size) i taken)
    (fits : GroupFits n size files block.length) : GroupExact n size files buffer block taken := by
  by_cases on : convert files = true
  · obtain ⟨room, short, rests⟩ := fits on
    have sizes := (room_iff elements).mpr room
    refine ⟨_, fun i => (files i).map fun old => old ++ deal n (3 * size) i block,
      (if_pos on).trans (extract_iff.mpr fun i => ⟨?_, ?_, rfl⟩),
      fwriteChannels_iff.mpr fun i => ?_, ?_⟩
    · exact (inside_iff elements).mpr short i
    · rw [sized, rounds_block short]
      exact sizes
    · cases file : files i with
      | none => rfl
      | some old =>
        obtain ⟨none, behind⟩ := rests i (by rw [file]; rfl)
        have nothing : field block
            (frameBytes * (block.length / frameBytes) + 3 * size * i) (3 * size) = [] := by
          apply List.eq_nil_of_length_eq_zero
          rw [length_behind]
          omega
        rw [fwriteChannel_some, written_bytes elements, none, Nat.add_zero, rounds_block short,
          deal_block elements, nothing, List.append_nil]
        constructor
        · rw [List.length_append, length_frames elements]
          omega
        · rw [field, List.drop_zero, List.take_left' (length_frames elements i)]
          rfl
    · intro i written file'
      obtain ⟨old, file, rfl⟩ := Option.map_eq_some_iff.mp file'
      rw [deal_append (by rw [frame_bytes elements, whole]) i.isLt, exact i old file]
  · have closed (i : Fin n) : files i = none := by
      rw [← Option.not_isSome_iff_eq_none]
      exact fun here => on (convert_of_some here)
    refine ⟨buffer, files, if_neg on, fwriteChannels_iff.mpr fun i => ?_, fun i written file => ?_⟩
    · rw [closed]
      rfl
    · rw [closed] at file
      cases file

end group

/-- The writer in front of a block, before `do_exit` is seen. -/
structure Ready (s : Writer) : Prop where
  exact : Exact s
  whole : ∃ count, s.taken.length = frameBytes * count
  sized2ch : Sized s.buffer2ch
  sized1ch : Sized s.buffer1ch

theorem fits_iff (s : Writer) (len : Nat) :
    Fits s len ↔ GroupFits 4 1 s.f1ch len ∧ GroupFits 2 2 s.f2ch len := by
  constructor
  · rintro ⟨both, first, second⟩
    refine ⟨fun on => ⟨(both (Or.inl on)).1, (both (Or.inl on)).2, fun i here => ?_⟩,
      fun on => ⟨(both (Or.inr on)).1, (both (Or.inr on)).2, fun i here => ?_⟩⟩
    · have short := (both (Or.inl on)).2
      match i with
      | 0 =>
        have none := first (Or.inl here)
        omega
      | ⟨i + 1, _⟩ =>
        dsimp only
        omega
    · match i with
      | 0 =>
        have none := first (Or.inr here)
        omega
      | 1 =>
        have small := second here
        rw [Fin.val_one]
        omega
  · rintro ⟨one, two⟩
    refine ⟨?_, ?_, fun here => ?_⟩
    · rintro (on | on)
      · exact ⟨(one on).1, (one on).2.1⟩
      · exact ⟨(two on).1, (two on).2.1⟩
    · rintro (here | here)
      · exact Nat.le_zero.mp ((one (convert_of_some here)).2.2 0 here).2
      · exact Nat.le_zero.mp ((two (convert_of_some here)).2.2 0 here).2
    · have small := ((two (convert_of_some here)).2.2 1 here).1
      omega

theorem writeBlock_groups {s : Writer} (exact : Exact s) :
    (∃ next, writeBlock s = .ok next ∧ Exact next) ↔
      GroupExact 4 1 s.f1ch s.buffer1ch (s.ring.take s.len) s.taken ∧
      GroupExact 2 2 s.f2ch s.buffer2ch (s.ring.take s.len) s.taken := by
  simp only [writeBlock, bind_eq_ok]
  constructor
  · rintro ⟨next, ⟨one, ranOne, two, ranTwo, f2ch, wroteTwo, f1ch, wroteOne, ran⟩, after⟩
    cases Except.ok.inj ran
    exact ⟨⟨one, f1ch, ranOne, wroteOne, after.one⟩, ⟨two, f2ch, ranTwo, wroteTwo, after.two⟩⟩
  · rintro ⟨⟨one, f1ch, ranOne, wroteOne, exactOne⟩, ⟨two, f2ch, ranTwo, wroteTwo, exactTwo⟩⟩
    refine ⟨_, ⟨one, ranOne, two, ranTwo, f2ch, wroteTwo, f1ch, wroteOne, rfl⟩, ?_, exactTwo,
      exactOne⟩
    intro written file
    obtain ⟨old, before, rfl⟩ := Option.map_eq_some_iff.mp file
    rw [exact.four old before]

theorem writeBlock_iff {s : Writer} (ready : Ready s) (len : Nat) (inside : len ≤ s.ring.length) :
    (∃ next, writeBlock { s with len } = .ok next ∧ Exact next) ↔ Fits s len := by
  obtain ⟨exact, ⟨count, whole⟩, sized2ch, sized1ch⟩ := ready
  have block : (s.ring.take len).length = len := by
    rw [List.length_take]
    omega
  have groups := writeBlock_groups (s := { s with len }) ⟨exact.four, exact.two, exact.one⟩
  rw [groups, fits_iff]
  constructor
  · rintro ⟨one, two⟩
    constructor
    · have fits := group_fits (by decide) sized1ch whole exact.one (fun _ _ _ _ _ => by omega) one
      rwa [block] at fits
    · have fits := group_fits (by decide) sized2ch whole exact.two (fun _ _ _ _ _ => by omega) two
      rwa [block] at fits
  · rintro ⟨one, two⟩
    constructor
    · apply group_exact (by decide) sized1ch whole exact.one
      rwa [block]
    · apply group_exact (by decide) sized2ch whole exact.two
      rwa [block]

theorem converted_sized {m : Nat} {files : Files n} {block : List UInt8} {buffer out : Channels n}
    (sized : Sized buffer) (ran : converted n m files block buffer = .ok out) : Sized out := by
  unfold converted at ran
  split at ran
  · exact extract_sized sized ran
  · exact Except.ok.inj ran ▸ sized

theorem writeBlock_ready {s : Writer} (ready : Ready s) (len : s.len = readSize)
    (inside : s.len ≤ s.ring.length) :
    ∃ next, writeBlock s = .ok next ∧ Ready next ∧ next.len = readSize ∧
      next.finished = s.finished := by
  have fits : Fits s s.len := by
    rw [len]
    exact ⟨fun _ => ⟨Nat.le_refl _, by decide⟩, fun _ => by decide, fun _ => by decide⟩
  obtain ⟨next, ran, exact⟩ := (writeBlock_iff ready s.len inside).mpr fits
  obtain ⟨_, ⟨count, whole⟩, sized2ch, sized1ch⟩ := ready
  refine ⟨next, ran, ?_⟩
  simp only [writeBlock, bind_eq_ok] at ran
  obtain ⟨one, ranOne, two, ranTwo, _, _, _, _, ran⟩ := ran
  cases Except.ok.inj ran
  refine ⟨⟨exact, ⟨count + readSize / frameBytes, ?_⟩, converted_sized sized2ch ranTwo,
    converted_sized sized1ch ranOne⟩, len, rfl⟩
  rw [List.length_append, List.length_take, whole, Nat.min_eq_left inside, len, Nat.mul_add]
  rfl

/-- The writer before `do_exit` is seen. -/
structure Waiting (s : Writer) : Prop where
  ready : Ready s
  len : s.len = readSize
  running : s.finished = false

theorem step_waiting {s : Writer} (waiting : Waiting s) {event : Event}
    (normal : event ≠ .look true) : ∃ next, step s event = .ok next ∧ Waiting next := by
  obtain ⟨ready, len, running⟩ := waiting
  cases event with
  | arrive bytes =>
    refine ⟨_, rfl, ⟨⟨?_, ready.whole, ready.sized2ch, ready.sized1ch⟩, len, running⟩⟩
    exact ⟨ready.exact.four, ready.exact.two, ready.exact.one⟩
  | look doExit =>
    cases doExit with
    | true => exact absurd rfl normal
    | false =>
      by_cases inside : s.len ≤ s.ring.length
      · obtain ⟨next, ran, after, same, on⟩ := writeBlock_ready ready len inside
        refine ⟨next, ?_, after, same, on.trans running⟩
        rw [step, look, running, if_neg Bool.false_ne_true, if_neg Bool.false_ne_true,
          if_pos inside]
        exact ran
      · refine ⟨s, ?_, ready, len, running⟩
        rw [step, look, running, if_neg Bool.false_ne_true, if_neg Bool.false_ne_true,
          if_neg inside]

variable {four : Bool} {pairs : Fin 2 → Bool} {channels : Fin 4 → Bool}
  {buffer2ch : Channels 2} {buffer1ch : Channels 4}

theorem start_waiting (sized2ch : Sized buffer2ch) (sized1ch : Sized buffer1ch) :
    Waiting (start four pairs channels buffer2ch buffer1ch) := by
  have empty {on : Bool} {written : List UInt8}
      (file : (if on then some [] else none) = some written) : written = [] := by
    cases on with
    | false => cases file
    | true => exact (Option.some.inj file).symm
  refine ⟨⟨⟨fun _ file => empty file, fun i _ file => ?_, fun i _ file => ?_⟩, ⟨0, rfl⟩, sized2ch,
    sized1ch⟩, rfl, rfl⟩
  · rw [empty file]
    simp [start, deal, field]
  · rw [empty file]
    simp [start, deal, field]

theorem run_waiting {s : Writer} (waiting : Waiting s) {events : List Event}
    (normal : ∀ event ∈ events, event ≠ .look true) :
    ∃ last, events.foldlM step s = .ok last ∧ Waiting last := by
  apply Library.CheckedMemory.foldlM_ok Waiting ?_ waiting
  exact fun s waiting event listed => step_waiting waiting (normal event listed)

theorem look_exit_iff {s : Writer} (waiting : Waiting s) :
    (∃ next, look true s = .ok next ∧ Exact next) ↔ Fits s s.ring.length := by
  rw [look, if_neg (by rw [waiting.running]; decide), if_pos rfl]
  split
  · next none =>
    rw [none]
    constructor
    · intro _
      exact ⟨fun _ => by decide, fun _ => rfl, fun _ => by decide⟩
    · intro _
      exact ⟨_, rfl, waiting.ready.exact.four, waiting.ready.exact.two, waiting.ready.exact.one⟩
  · exact writeBlock_iff waiting.ready s.ring.length (Nat.le_refl _)

/-- Up to the look that sees `do_exit` the files are exact; what is then left in the ring is
written exactly when it fits. -/
theorem backlog_exact_iff (four : Bool) (pairs : Fin 2 → Bool) (channels : Fin 4 → Bool)
    (buffer2ch : Channels 2) (buffer1ch : Channels 4) (sized2ch : Sized buffer2ch)
    (sized1ch : Sized buffer1ch) (before : List Event)
    (normal : ∀ event ∈ before, event ≠ .look true) :
    ∃ s, before.foldlM step (start four pairs channels buffer2ch buffer1ch) = .ok s ∧ Exact s ∧
      ((∃ next, look true s = .ok next ∧ Exact next) ↔ Fits s s.ring.length) := by
  obtain ⟨s, ran, waiting⟩ := run_waiting (start_waiting sized2ch sized1ch) normal
  exact ⟨s, ran, waiting.ready.exact, look_exit_iff waiting⟩

def zeroed (n : Nat) : Channels n := fun _ => List.replicate (readSize / n) 0

theorem zeroed_sized (n : Nat) : Sized (zeroed n) := fun _ => List.length_replicate

theorem backlog_exact_frame :
    ∃ s, [Event.look false, .arrive (List.replicate 12 1)].foldlM step
        (start true (fun _ => true) (fun _ => true) (zeroed 2) (zeroed 4)) = .ok s ∧ Exact s ∧
      ((∃ next, look true s = .ok next ∧ Exact next) ↔ Fits s s.ring.length) :=
  backlog_exact_iff true (fun _ => true) (fun _ => true) (zeroed 2) (zeroed 4) (zeroed_sized 2)
    (zeroed_sized 4) [.look false, .arrive (List.replicate 12 1)] (by simp)

/-- Four bytes in the ring at the end, with the file of the first channel open. -/
theorem backlog_four_bytes :
    ¬∃ s next, [Event.arrive (List.replicate 4 0)].foldlM step
        (start false (fun _ => false) (fun i => i == 0) (zeroed 2) (zeroed 4)) = .ok s ∧
      look true s = .ok next ∧ Exact next := by
  rintro ⟨s, next, ran, written, exact⟩
  cases Except.ok.inj ran
  have waiting : Waiting (start false (fun _ => false) (fun i => i == 0) (zeroed 2) (zeroed 4)) :=
    start_waiting (zeroed_sized 2) (zeroed_sized 4)
  have normal : Event.arrive (List.replicate 4 0) ≠ .look true := nofun
  obtain ⟨_, same, arrived⟩ := step_waiting waiting normal
  cases Except.ok.inj same
  have fits := ((look_exit_iff arrived).mp ⟨next, written, exact⟩).1
  exact absurd (fits (Or.inl rfl)).2 (by decide)

end MisrcGui.Cli.AudioWriter
