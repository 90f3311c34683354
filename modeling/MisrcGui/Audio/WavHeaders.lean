import MisrcGui.Audio.WavBlocks

/-! The headers of the WAV files against their data, over every run of the thread. -/
namespace MisrcGui.Audio.WavHeaders
open Library
open Library.Window (window length_window)
open Library.Terminated (Checked ok_bind pure_eq_ok)
open Library.CheckedMemory
open Conversion WavFiles WavBlocks
open WavRecording (Output Settings enabled readSize chunkBytes frameBytes Place width)

def frames (file : File) : Nat := file.pcm.length / width file.output

structure Agrees (header : WaveHeader) (file : File) : Prop where
  whole : file.pcm.length = width file.output * frames file
  samples : header.sampleCount = frames file
  size : header.dataBytes = file.pcm.length

theorem width_pos (output : Output) : 0 < width output := by
  cases output with
  | four => decide
  | two _ => exact (by decide : 0 < 6)
  | one _ => exact (by decide : 0 < 3)

theorem width_channels (output : Output) : 24 / 8 * channelCount output = width output := by
  cases output <;> rfl

theorem width_le (output : Output) : width output ≤ frameBytes := by
  cases output with
  | four => decide
  | two _ => exact (by decide : 6 ≤ 12)
  | one _ => exact (by decide : 3 ≤ 12)

theorem frames_of_length {file : File} {n : Nat}
    (length : file.pcm.length = width file.output * n) : frames file = n := by
  rw [frames, length, Nat.mul_div_cancel_left n (width_pos file.output)]

theorem dataBytes_created {samples rate : Nat} {output : Output}
    (short : frameBytes * samples < 2 ^ 32) :
    (createWaveHeader samples rate (channelCount output) 24).dataBytes =
      width output * samples := by
  have small : width output * samples < 2 ^ 32 :=
    lt_of_le_of_lt (Nat.mul_le_mul_right samples (width_le output)) short
  have exact64 : 24 / 8 * channelCount output * samples % 2 ^ 64 = width output * samples := by
    rw [width_channels]
    exact Nat.mod_eq_of_lt (by omega)
  simp only [createWaveHeader, WaveHeader.dataBytes, exact64]
  by_cases long : 2147483647 - headerBytes < width output * samples
  · rw [if_pos (if_pos long)]
  · have plain : ¬(if 2147483647 - headerBytes < width output * samples then waveRf64
        else waveRiff) = waveRf64 := by
      rw [if_neg long]
      decide
    rw [if_neg plain, if_neg long]
    exact Nat.mod_eq_of_lt small

theorem created_agrees {file : File} {n total : Nat} (rate : Nat)
    (length : file.pcm.length = width file.output * n) (counted : total = frameBytes * n % 2 ^ 64)
    (short : frameBytes * n < 2 ^ 32) :
    Agrees (createWaveHeader (total / 12) rate (channelCount file.output) 24) file := by
  have frames := frames_of_length length
  have samples : total / 12 = n := by
    rw [counted, Nat.mod_eq_of_lt (by omega)]
    exact Nat.mul_div_cancel_left n (by decide)
  rw [samples]
  refine ⟨?_, frames.symm, ?_⟩
  · rw [frames]
    exact length
  · rw [length]
    exact dataBytes_created short

theorem placeholder_agrees {file : File} (empty : file.pcm = []) : Agrees placeholder file := by
  have none : frames file = 0 := by
    rw [frames, empty]
    exact Nat.zero_div _
  refine ⟨?_, none.symm, ?_⟩
  · rw [none, empty]
    rfl
  · rw [empty]
    rfl

/-- The files as far as they are written, with `n` frames in each that is open. -/
structure Filed (s : State) (n : Nat) : Prop where
  written : ∀ file ∈ s.files, file.pcm.length = width file.output * n
  current : ∀ file ∈ s.files, file.recording = s.recordings
  counted : s.files ≠ [] → s.totalBytes = frameBytes * n % 2 ^ 64
  headers : ∀ c ∈ s.closed, frameBytes * frames c.file < 2 ^ 32 → Agrees c.header c.file
  numbered : ∀ c ∈ s.closed, c.file.recording ≤ s.recordings
  earlier : s.files ≠ [] → ∀ c ∈ s.closed, c.dropped = false → c.file.recording < s.recordings
  same : ∀ c ∈ s.closed, ∀ d ∈ s.closed, c.dropped = false → d.dropped = false →
    c.file.recording = d.file.recording → frames c.file = frames d.file

variable {guarded : Bool} {s next : State} {n len rate : Nat} {block : List UInt8} {o : Opening}

theorem filed_close (filed : Filed s n) : Filed (closeFiles rate s) n where
  written := nofun
  current := nofun
  counted := fun some => absurd rfl some
  earlier := fun some => absurd rfl some
  headers := by
    intro c listed short
    rcases List.mem_append.mp listed with old | new
    · exact filed.headers c old short
    · obtain ⟨file, inside, rfl⟩ := List.mem_map.mp new
      have length := filed.written file inside
      have frames : frames file = n := frames_of_length length
      have short : frameBytes * WavHeaders.frames file < 2 ^ 32 := short
      rw [frames] at short
      exact created_agrees rate length (filed.counted (List.ne_nil_of_mem inside)) short
  numbered := by
    intro c listed
    rcases List.mem_append.mp listed with old | new
    · exact filed.numbered c old
    · obtain ⟨file, inside, rfl⟩ := List.mem_map.mp new
      exact Nat.le_of_eq (filed.current file inside)
  same := by
    have apart {c : Closed} {file : File} (old : c ∈ s.closed) (kept : c.dropped = false)
        (inside : file ∈ s.files) : c.file.recording ≠ file.recording := by
      rw [filed.current file inside]
      exact Nat.ne_of_lt (filed.earlier (List.ne_nil_of_mem inside) c old kept)
    intro c inC d inD keptC keptD equal
    rcases List.mem_append.mp inC with oldC | newC <;>
      rcases List.mem_append.mp inD with oldD | newD
    · exact filed.same c oldC d oldD keptC keptD equal
    · obtain ⟨file, inside, rfl⟩ := List.mem_map.mp newD
      exact absurd equal (apart oldC keptC inside)
    · obtain ⟨file, inside, rfl⟩ := List.mem_map.mp newC
      exact absurd equal.symm (apart oldD keptD inside)
    · obtain ⟨first, insideC, rfl⟩ := List.mem_map.mp newC
      obtain ⟨second, insideD, rfl⟩ := List.mem_map.mp newD
      exact (frames_of_length (filed.written first insideC)).trans
        (frames_of_length (filed.written second insideD)).symm

theorem filed_open (filed : Filed s n) (none : s.files = []) : Filed (openFiles s o) 0 := by
  have opened : (openFiles s o).files = ((enabled o.settings).filter o.opens).map
      fun output => ⟨output, s.recordings + 1, []⟩ := by
    show s.files.filter _ ++ _ = _
    rw [none]
    rfl
  refine ⟨?_, ?_, fun _ => rfl, filed.headers, ?_, ?_, filed.same⟩
  · intro file inside
    rw [opened] at inside
    obtain ⟨output, -, rfl⟩ := List.mem_map.mp inside
    rfl
  · intro file inside
    rw [opened] at inside
    obtain ⟨output, -, rfl⟩ := List.mem_map.mp inside
    rfl
  · exact fun c listed => Nat.le_succ_of_le (filed.numbered c listed)
  · exact fun _ c listed _ => Nat.lt_succ_of_le (filed.numbered c listed)

theorem filed_drop (filed : Filed s 0) (group : Output → Bool) : Filed (dropFiles group s) 0 := by
  have kept {file : File} (inside : file ∈ (dropFiles group s).files) : file ∈ s.files :=
    (List.mem_filter.mp inside).1
  have some (left : (dropFiles group s).files ≠ []) : s.files ≠ [] := by
    obtain ⟨file, inside⟩ := List.exists_mem_of_ne_nil _ left
    exact List.ne_nil_of_mem (kept inside)
  have closed {c : Closed} (listed : c ∈ (dropFiles group s).closed) :
      c ∈ s.closed ∨ ∃ file ∈ s.files, c = ⟨file, placeholder, true⟩ := by
    rcases List.mem_append.mp listed with old | new
    · exact .inl old
    · obtain ⟨file, inside, rfl⟩ := List.mem_map.mp new
      exact .inr ⟨file, (List.mem_filter.mp inside).1, rfl⟩
  refine ⟨fun file inside => filed.written file (kept inside),
    fun file inside => filed.current file (kept inside), fun left => filed.counted (some left),
    ?_, ?_, ?_, ?_⟩
  · intro c listed short
    rcases closed listed with old | ⟨file, inside, rfl⟩
    · exact filed.headers c old short
    · apply placeholder_agrees
      exact List.eq_nil_of_length_eq_zero (filed.written file inside)
  · intro c listed
    rcases closed listed with old | ⟨file, inside, rfl⟩
    · exact filed.numbered c old
    · exact Nat.le_of_eq (filed.current file inside)
  · intro left c listed whole
    rcases closed listed with old | ⟨file, inside, rfl⟩
    · exact filed.earlier (some left) c old whole
    · contradiction
  · intro c inC d inD keptC keptD
    rcases closed inC with oldC | ⟨file, -, rfl⟩
    · rcases closed inD with oldD | ⟨file, -, rfl⟩
      · exact filed.same c oldC d oldD keptC keptD
      · contradiction
    · contradiction

theorem filed_write (whole : frameBytes ∣ len) (filed : Filed s n) (wrote : Wrote s next len) :
    Filed next (n + len / frameBytes) := by
  have some (left : next.files ≠ []) : s.files ≠ [] := by
    intro none
    apply left
    have same := wrote.files.length_eq
    rw [none, List.length_nil] at same
    exact List.eq_nil_of_length_eq_zero same.symm
  have closed : next.closed = s.closed := by rw [wrote.frame]
  have recordings : next.recordings = s.recordings := by rw [wrote.frame]
  have total : next.totalBytes = (s.totalBytes + len) % 2 ^ 64 := by rw [wrote.frame]
  refine ⟨?_, ?_, ?_, ?_, ?_, ?_, ?_⟩
  · refine forall_grown wrote (fun file grown length output _ more => ?_) filed.written
    rw [more, length, output, Nat.mul_add]
  · rw [recordings]
    exact forall_grown wrote (fun _ _ current _ recording _ => recording.trans current)
      filed.current
  · intro left
    obtain ⟨count, rfl⟩ := whole
    rw [total, filed.counted (some left), Nat.mul_div_cancel_left count (by decide), Nat.mul_add,
      Nat.mod_add_mod]
  · rw [closed]
    exact filed.headers
  · rw [closed, recordings]
    exact filed.numbered
  · rw [closed, recordings]
    exact fun left => filed.earlier (some left)
  · rw [closed]
    exact filed.same

structure Supplied (s : State) : Prop where
  sized1ch : ∀ out, s.buffer1ch = some out → Sized out
  sized2ch : ∀ out, s.buffer2ch = some out → Sized out
  groups : ∀ file ∈ s.files, converts s file.output

/-- The buffers that the conversions need are there, but for one that is skipped. -/
structure Ready (s : State) : Prop extends Supplied s where
  one : s.convert1ch → s.buffer1ch.isSome
  two : s.convert2ch → s.buffer2ch.isSome ∨ s.skipped

theorem ready_write (ready : Ready s) (wrote : Wrote s next len) : Ready next := by
  obtain ⟨one, buffer1ch⟩ := wrote.buffer1ch
  obtain ⟨two, buffer2ch⟩ := wrote.buffer2ch
  have converts : converts next = converts s := by
    rw [wrote.frame]
    funext output
    cases output <;> rfl
  have convert1ch : next.convert1ch = s.convert1ch := by rw [wrote.frame]
  have convert2ch : next.convert2ch = s.convert2ch := by rw [wrote.frame]
  have skipped : next.skipped = s.skipped := by rw [wrote.frame]
  refine ⟨⟨wrote.sized1ch ready.sized1ch, wrote.sized2ch ready.sized2ch, ?_⟩, ?_, ?_⟩
  · rw [converts]
    refine forall_grown wrote (fun file grown on output _ _ => ?_) ready.groups
    rw [output]
    exact on
  · rw [convert1ch, buffer1ch, Option.isSome_map]
    exact ready.one
  · rw [convert2ch, buffer2ch, Option.isSome_map, skipped]
    exact ready.two

theorem write_or_skipped (guarded : Bool) (ready : Ready s) (whole : frameBytes ∣ len)
    (long : len ≤ block.length) (room : len ≤ readSize) :
    (∃ next, writeBlock guarded s block len = .ok next) ∨ s.skipped := by
  by_cases skipped : s.skipped = true
  · exact .inr skipped
  · left
    have ready1ch : s.convert1ch → ∃ out, s.buffer1ch = some out ∧ Sized out := by
      intro on
      obtain ⟨out, here⟩ := Option.isSome_iff_exists.mp (ready.one on)
      exact ⟨out, here, ready.sized1ch out here⟩
    have ready2ch : s.convert2ch → ∃ out, s.buffer2ch = some out ∧ Sized out := by
      intro on
      obtain ⟨out, here⟩ := Option.isSome_iff_exists.mp ((ready.two on).resolve_right skipped)
      exact ⟨out, here, ready.sized2ch out here⟩
    exact writeBlock_ok guarded whole long room ready1ch ready2ch ready.groups

theorem sized_allocated (n : Nat) : ∀ out, some (allocated n) = some out → Sized out := by
  intro out same ch
  rw [← Option.some.inj same]
  exact List.length_replicate

theorem supplied_open (supplied : Supplied s) (none : s.files = []) :
    Supplied (openFiles s o) := by
  refine ⟨supplied.sized1ch, supplied.sized2ch, ?_⟩
  intro file inside
  have opened : file ∈ ((enabled o.settings).filter o.opens).map
      fun output => (⟨output, s.recordings + 1, []⟩ : File) := by
    rcases List.mem_append.mp inside with old | new
    · rw [none] at old
      contradiction
    · exact new
  obtain ⟨output, listed, rfl⟩ := List.mem_map.mp opened
  have on := (List.mem_filter.mp listed).1
  cases output with
  | four => rfl
  | two | one => exact Bool.or_eq_true_iff.mpr (.inr (List.any_eq_true.mpr ⟨_, on, rfl⟩))

theorem ready_allocate2ch (supplied : Supplied s) (one : s.convert1ch → s.buffer1ch.isSome) :
    Ready (allocate2ch o s) := by
  unfold allocate2ch
  split
  · split
    · exact ⟨⟨supplied.sized1ch, sized_allocated 2, supplied.groups⟩, one, fun _ => .inl rfl⟩
    · refine ⟨⟨supplied.sized1ch, supplied.sized2ch, ?_⟩, one, nofun⟩
      intro file inside
      obtain ⟨listed, apart⟩ := List.mem_filter.mp inside
      obtain ⟨output, recording, pcm⟩ := file
      cases output with
      | two pair => contradiction
      | four => rfl
      | one channel => exact supplied.groups _ listed
  · rename_i needless
    refine ⟨supplied, one, fun on => .inl ?_⟩
    rw [on, Bool.true_and, Bool.not_eq_true, Option.isNone_eq_false_iff] at needless
    exact needless

theorem ready_allocate (supplied : Supplied s) : Ready (allocate o s) := by
  unfold allocate
  split
  · split
    · apply ready_allocate2ch
      · exact ⟨sized_allocated 4, supplied.sized2ch, supplied.groups⟩
      · exact fun _ => rfl
    · refine ⟨⟨supplied.sized1ch, supplied.sized2ch, ?_⟩, nofun, ?_⟩
      · intro file inside
        obtain ⟨listed, apart⟩ := List.mem_filter.mp inside
        obtain ⟨output, recording, pcm⟩ := file
        cases output with
        | one channel => contradiction
        | four => rfl
        | two pair => exact supplied.groups _ listed
      · intro on
        have on : s.convert2ch = true := on
        show s.buffer2ch.isSome = true ∨ (s.skipped || s.convert2ch && s.buffer2ch.isNone) = true
        rw [on]
        cases s.buffer2ch with
        | some out => exact .inl rfl
        | none => exact .inr (Bool.or_true _)
  · rename_i needless
    apply ready_allocate2ch supplied
    intro on
    rw [on, Bool.true_and, Bool.not_eq_true, Option.isNone_eq_false_iff] at needless
    exact needless

theorem filed_allocate2ch (filed : Filed s 0) : Filed (allocate2ch o s) 0 := by
  unfold allocate2ch
  split
  · split
    · exact { filed with }
    · exact { filed_drop filed inTwo with }
  · exact filed

theorem filed_allocate (filed : Filed s 0) : Filed (allocate o s) 0 := by
  unfold allocate
  split
  · split
    · exact filed_allocate2ch { filed with }
    · exact { filed_drop filed inOne with }
  · exact filed_allocate2ch filed

structure Around (s next : State) : Prop where
  written : next.written = s.written
  taken : next.taken = s.taken
  isRecording : next.isRecording = s.isRecording
  outside : next.outside = s.outside
  skipped : s.skipped → next.skipped

theorem around_allocate2ch : Around s (allocate2ch o s) := by
  unfold allocate2ch
  split
  · split
    · exact ⟨rfl, rfl, rfl, rfl, id⟩
    · exact ⟨rfl, rfl, rfl, rfl, id⟩
  · exact ⟨rfl, rfl, rfl, rfl, id⟩

theorem around_allocate : Around s (allocate o s) := by
  unfold allocate
  split
  · split
    · exact { around_allocate2ch with }
    · exact ⟨rfl, rfl, rfl, rfl, fun skipped => Bool.or_eq_true_iff.mpr (.inl skipped)⟩
  · exact around_allocate2ch

structure Kept (s : State) : Prop where
  wholeWritten : frameBytes ∣ s.written
  wholeTaken : frameBytes ∣ s.taken
  filed : ∃ n, Filed s n
  outside : s.outside → s.skipped

structure Inv (s : State) : Prop extends Kept s where
  drains : ∀ len, s.place = .drain len → frameBytes ∣ len ∧ len ≤ readSize
  ready : s.place ≠ .finished → Ready s
  off : s.place ≠ .finished → s.wasRecording = false → s.files = []

theorem kept_write (kept : Kept s) (whole : frameBytes ∣ len) (wrote : Wrote s next len) :
    Kept next := by
  obtain ⟨n, filed⟩ := kept.filed
  have frame := wrote.frame
  refine ⟨?_, ?_, ⟨n + len / frameBytes, filed_write whole filed wrote⟩, ?_⟩
  · rw [frame]
    exact kept.wholeWritten
  · rw [frame]
    exact Nat.dvd_add kept.wholeTaken whole
  · rw [frame]
    exact kept.outside

/-- A block is written, or the thread has left its memory after a skipped allocation. -/
theorem settle_cases (guarded : Bool) (ready : Ready s) (whole : frameBytes ∣ len)
    (long : len ≤ block.length) (room : len ≤ readSize) :
    Wrote s (settle s (writeBlock guarded s block len)) len ∨
      settle s (writeBlock guarded s block len) = { s with place := .finished, outside := true } ∧
        s.skipped := by
  cases ran : writeBlock guarded s block len with
  | ok next => exact .inl (writeBlock_wrote whole ready.groups ran)
  | error fault =>
    rcases write_or_skipped guarded ready whole long room with ⟨next, fine⟩ | skipped
    · rw [ran] at fine
      contradiction
    · exact .inr ⟨rfl, skipped⟩

theorem inv_settle (inv : Inv s) (running : s.place ≠ .finished) (whole : frameBytes ∣ len)
    (long : len ≤ block.length) (room : len ≤ readSize) :
    Inv (settle s (writeBlock guarded s block len)) := by
  rcases settle_cases guarded (inv.ready running) whole long room with
    wrote | ⟨left, skipped⟩
  · have place : (settle s (writeBlock guarded s block len)).place = s.place := by
      rw [wrote.frame]
    have was : (settle s (writeBlock guarded s block len)).wasRecording = s.wasRecording := by
      rw [wrote.frame]
    refine ⟨kept_write inv.toKept whole wrote, ?_, ?_, ?_⟩
    · rw [place]
      exact inv.drains
    · exact fun _ => ready_write (inv.ready running) wrote
    · rw [was]
      intro _ idle
      have same := wrote.files.length_eq
      rw [inv.off running idle] at same
      exact List.eq_nil_of_length_eq_zero same.symm
  · rw [left]
    obtain ⟨n, filed⟩ := inv.filed
    exact ⟨⟨inv.wholeWritten, inv.wholeTaken, ⟨n, { filed with }⟩, fun _ => skipped⟩, nofun,
      fun moving => absurd rfl moving, fun moving => absurd rfl moving⟩

theorem Inv.move (inv : Inv s) (running : s.place ≠ .finished) (aligned : Bool) (place : Place)
    (apart : ∀ len, place ≠ .drain len) :
    Inv { s with recStartAligned := aligned, place := place } := by
  obtain ⟨n, filed⟩ := inv.filed
  exact ⟨⟨inv.wholeWritten, inv.wholeTaken, ⟨n, { filed with }⟩, inv.outside⟩,
    fun len drain => absurd drain (apart len), fun _ => { inv.ready running with },
    fun _ => inv.off running⟩

theorem Inv.take (inv : Inv s) (whole : frameBytes ∣ len) :
    Inv { s with taken := s.taken + len } := by
  obtain ⟨n, filed⟩ := inv.filed
  exact ⟨⟨inv.wholeWritten, Nat.dvd_add inv.wholeTaken whole, ⟨n, { filed with }⟩, inv.outside⟩,
    inv.drains, fun running => { inv.ready running with }, inv.off⟩

theorem inv_opened (inv : Inv s) (running : s.place ≠ .finished) (none : s.files = []) :
    Inv { allocate o (openFiles s o) with wasRecording := true, place := .top } := by
  obtain ⟨n, filed⟩ := inv.filed
  have opened := filed_allocate (o := o) (filed_open (o := o) filed none)
  have ready := ready_allocate (o := o) (supplied_open (o := o) (inv.ready running).toSupplied none)
  have around : Around (openFiles s o) (allocate o (openFiles s o)) := around_allocate
  refine ⟨⟨?_, ?_, ⟨0, { opened with }⟩, ?_⟩, nofun, fun _ => { ready with }, nofun⟩
  · show frameBytes ∣ (allocate o (openFiles s o)).written
    rw [around.written]
    exact inv.wholeWritten
  · show frameBytes ∣ (allocate o (openFiles s o)).taken
    rw [around.taken]
    exact inv.wholeTaken
  · intro out
    have out : (allocate o (openFiles s o)).outside = true := out
    rw [around.outside] at out
    exact around.skipped (inv.outside out)

theorem inv_closed (inv : Inv s) (running : s.place ≠ .finished) :
    Inv { closeFiles rate s with wasRecording := false, place := .top } := by
  obtain ⟨n, filed⟩ := inv.filed
  have ready := inv.ready running
  exact ⟨⟨inv.wholeWritten, inv.wholeTaken, ⟨n, { filed_close filed with }⟩, inv.outside⟩, nofun,
    fun _ => ⟨⟨ready.sized1ch, ready.sized2ch, nofun⟩, ready.one, ready.two⟩, fun _ _ => rfl⟩

theorem granted_long {stream : Nat → UInt8} : len ≤ (granted stream s len).length :=
  Nat.le_of_eq (length_window len).symm

theorem inv_handleBlock (inv : Inv s) (running : s.place ≠ .finished) (stream : Nat → UInt8) :
    Inv (handleBlock stream s o rate) := by
  have whole : frameBytes ∣ readSize := by decide
  have written {turned : State} (kept : Inv turned) (top : turned.place = .top) :
      Inv (settle turned (writeRead turned (granted stream turned readSize) readSize)) := by
    have running : turned.place ≠ .finished := by
      rw [top]
      exact nofun
    exact inv_settle kept running whole granted_long (Nat.le_refl _)
  have moved (was : Bool) (same : s.wasRecording = was) :
      Inv { s with wasRecording := was, place := .top } := by
    subst same
    exact inv.move running s.recStartAligned .top nofun
  unfold handleBlock
  cases was : s.wasRecording with
  | false =>
    cases on : s.isRecording with
    | true => exact written (inv_opened inv running (inv.off running was)) rfl
    | false => exact (moved false was).take whole
  | true =>
    cases on : s.isRecording with
    | true => exact written (moved true was) rfl
    | false => exact (inv_closed inv running).take whole

theorem inv_finished (inv : Inv s) : Inv { closeFiles rate s with place := .finished } := by
  obtain ⟨n, filed⟩ := inv.filed
  exact ⟨⟨inv.wholeWritten, inv.wholeTaken, ⟨n, { filed_close filed with }⟩, inv.outside⟩, nofun,
    fun moving => absurd rfl moving, fun moving => absurd rfl moving⟩

theorem whole_fill (kept : Kept s) : frameBytes ∣ fill s :=
  Nat.dvd_sub kept.wholeWritten kept.wholeTaken

theorem step_inv {stream : Nat → UInt8} {action : Action} (inv : Inv s)
    (taken : step stream s action = some next) : Inv next := by
  have wholeChunk : frameBytes ∣ chunkBytes := by decide
  have wholeRead : frameBytes ∣ readSize := by decide
  have running {place : Place} (here : s.place = place) (apart : place ≠ .finished) :
      s.place ≠ .finished := by
    rw [here]
    exact apart
  cases action with
  | capture frames =>
    cases taken
    obtain ⟨n, filed⟩ := inv.filed
    exact ⟨⟨Nat.dvd_add inv.wholeWritten (Nat.dvd_mul_right _ _), inv.wholeTaken,
      ⟨n, { filed with }⟩, inv.outside⟩, inv.drains, fun running => { inv.ready running with },
      inv.off⟩
  | record on =>
    cases taken
    obtain ⟨n, filed⟩ := inv.filed
    exact ⟨⟨inv.wholeWritten, inv.wholeTaken, ⟨n, { filed with }⟩, inv.outside⟩, inv.drains,
      fun running => { inv.ready running with }, inv.off⟩
  | sampleTop =>
    simp only [step] at taken
    split at taken
    · contradiction
    · rename_i here
      have moving := running (not_not.mp here) nofun
      split at taken
      · cases taken
        exact inv.move moving true .discard nofun
      · split at taken
        · cases taken
          exact inv.move moving false .flush nofun
        · cases taken
          exact inv.move moving s.recStartAligned .read nofun
  | chunk =>
    simp only [step] at taken
    split at taken
    · rename_i here
      split at taken
      · cases taken
        exact inv.move (running here nofun) s.recStartAligned .read nofun
      · cases taken
        exact inv.take wholeChunk
    · rename_i here
      split at taken
      · cases taken
        exact inv.move (running here nofun) s.recStartAligned .read nofun
      · cases taken
        exact inv_settle inv (running here nofun) wholeChunk granted_long (by decide)
    · contradiction
  | read =>
    simp only [step] at taken
    split at taken
    · contradiction
    · rename_i here
      cases taken
      apply inv.move (running (not_not.mp here) nofun) s.recStartAligned
      intro len
      split <;> exact nofun
  | idle exits =>
    simp only [step] at taken
    split at taken
    · contradiction
    · rename_i here
      cases taken
      apply inv.move (running (not_not.mp here) nofun) s.recStartAligned
      intro len
      split <;> exact nofun
  | sampleBlock o rate =>
    simp only [step] at taken
    split at taken
    · contradiction
    · rename_i here
      cases taken
      exact inv_handleBlock inv (running (not_not.mp here) nofun) stream
  | measure rate =>
    simp only [step] at taken
    split at taken
    · contradiction
    · rename_i here
      have moving := running (not_not.mp here) nofun
      split at taken
      · cases taken
        exact inv_finished inv
      · cases taken
        have measured : frameBytes ∣ min (fill s) readSize := by
          rcases le_total (fill s) readSize with less | more
          · rw [Nat.min_eq_left less]
            exact whole_fill inv.toKept
          · rw [Nat.min_eq_right more]
            exact wholeRead
        obtain ⟨n, filed⟩ := inv.filed
        refine ⟨⟨inv.wholeWritten, inv.wholeTaken, ⟨n, { filed with }⟩, inv.outside⟩, ?_,
          fun _ => { inv.ready moving with }, fun _ => inv.off moving⟩
        intro len same
        cases same
        exact ⟨measured, Nat.min_le_right _ _⟩
  | drain =>
    simp only [step] at taken
    split at taken
    · rename_i len here
      cases taken
      obtain ⟨whole, room⟩ := inv.drains len here
      have measured := inv.move (running here nofun) s.recStartAligned .measure nofun
      exact inv_settle measured nofun whole granted_long room
    · contradiction

/-- What `gui_audio_start` hands over. -/
theorem init_inv (held : Nat) (recording : Bool) (settings : Settings) (alloc1ch alloc2ch : Bool) :
    Inv (init held recording settings alloc1ch alloc2ch) := by
  have supply {m : Nat} (on : Bool) :
      ∀ out, (if on then some (allocated m) else none) = some out → Sized out := by
    intro out same
    cases on with
    | false => contradiction
    | true => exact sized_allocated m out same
  dsimp only [init]
  generalize (if recording then enabled settings else []) = on
  refine ⟨⟨Nat.dvd_mul_right _ _, Nat.dvd_zero _, ⟨0, ?_⟩, nofun⟩, ?_, ?_, ?_⟩
  · refine ⟨?_, ?_, fun _ => rfl, nofun, nofun, fun _ => nofun, nofun⟩
    · intro file inside
      obtain ⟨output, -, rfl⟩ := List.mem_map.mp inside
      rfl
    · intro file inside
      obtain ⟨output, -, rfl⟩ := List.mem_map.mp inside
      rfl
  · intro len
    dsimp only
    split <;> exact nofun
  · intro running
    have fine : (on.any inOne && !alloc1ch || on.any inTwo && !alloc2ch) = false := by
      by_contra failed
      rw [Bool.not_eq_false] at failed
      exact running (if_pos failed)
    rw [Bool.or_eq_false_iff] at fine
    have given {uses alloc : Bool} {m : Nat} (fine : (uses && !alloc) = false)
        (need : uses = true) :
        (if uses && alloc then some (allocated m) else none).isSome := by
      subst need
      cases alloc with
      | false => contradiction
      | true => rfl
    refine ⟨⟨supply _, supply _, ?_⟩, given fine.1, fun need => .inl (given fine.2 need)⟩
    intro file inside
    obtain ⟨output, listed, rfl⟩ := List.mem_map.mp inside
    cases output with
    | four => rfl
    | two | one => exact List.any_eq_true.mpr ⟨_, listed, rfl⟩
  · intro _ idle
    have none : on = [] := by
      rwa [Bool.not_eq_false', List.isEmpty_iff] at idle
    rw [none]
    rfl

/-- Every open file, and every closed one but for those that a failed allocation has dropped. -/
def lasting (s : State) : List File :=
  s.files ++ (s.closed.filter fun c => !c.dropped).map Closed.file

theorem lasting_same (kept : Kept s) : ∀ file ∈ lasting s, ∀ other ∈ lasting s,
    file.recording = other.recording → frames file = frames other := by
  obtain ⟨n, filed⟩ := kept.filed
  have closed {file : File}
      (listed : file ∈ (s.closed.filter fun c => !c.dropped).map Closed.file) :
      ∃ c ∈ s.closed, c.dropped = false ∧ c.file = file := by
    obtain ⟨c, inside, rfl⟩ := List.mem_map.mp listed
    obtain ⟨inside, whole⟩ := List.mem_filter.mp inside
    exact ⟨c, inside, Bool.not_eq_true' _ ▸ whole, rfl⟩
  have apart {file other : File} (opened : file ∈ s.files)
      (listed : other ∈ (s.closed.filter fun c => !c.dropped).map Closed.file) :
      other.recording ≠ file.recording := by
    obtain ⟨c, inside, whole, rfl⟩ := closed listed
    rw [filed.current file opened]
    exact Nat.ne_of_lt (filed.earlier (List.ne_nil_of_mem opened) c inside whole)
  intro file first other second same
  rcases List.mem_append.mp first with opened | listed <;>
    rcases List.mem_append.mp second with openedToo | listedToo
  · exact (frames_of_length (filed.written file opened)).trans
      (frames_of_length (filed.written other openedToo)).symm
  · exact absurd same.symm (apart opened listedToo)
  · exact absurd same (apart openedToo listed)
  · obtain ⟨c, insideC, wholeC, rfl⟩ := closed listed
    obtain ⟨d, insideD, wholeD, rfl⟩ := closed listedToo
    exact filed.same c insideC d insideD wholeC wholeD same

/-- The headers of the closed files count their data, the files of a recording are as long as each
other, and every access of a conversion is within its block and its buffers. -/
theorem headers_count {stream : Nat → UInt8} (held : Nat) (recording : Bool) (settings : Settings)
    (alloc1ch alloc2ch : Bool) (schedule : List Action) (last : State)
    (run : Machine.run (step stream) (init held recording settings alloc1ch alloc2ch) schedule =
      some last) :
    (∀ c ∈ last.closed, frameBytes * frames c.file < 2 ^ 32 → Agrees c.header c.file) ∧
      (∀ file ∈ lasting last, ∀ other ∈ lasting last,
        file.recording = other.recording → frames file = frames other) ∧
      (last.outside → last.skipped) := by
  have inv : Inv last := Machine.run_invariant Inv (fun _ _ _ => step_inv)
    (init_inv held recording settings alloc1ch alloc2ch) run
  obtain ⟨n, filed⟩ := inv.filed
  exact ⟨filed.headers, lasting_same inv.toKept, inv.outside⟩

/-- Two frames for the four-channel file of a recording that is under way. -/
def drainedFrames : List Action :=
  [.sampleTop, .chunk, .capture 2, .read, .idle true, .measure 48000, .drain, .measure 48000]

def fourChannels : Settings := ⟨true, false, false, fun _ => false⟩

theorem headers_count_drained : ∃ last,
    Machine.run (step UInt8.ofNat) (init 0 true fourChannels true true) drainedFrames = some last ∧
      last.closed.map (fun c => (c.header.sampleCount, c.file.pcm.length)) = [(2, 24)] ∧
      (∀ c ∈ last.closed, frameBytes * frames c.file < 2 ^ 32 → Agrees c.header c.file) ∧
      (∀ file ∈ lasting last, ∀ other ∈ lasting last,
        file.recording = other.recording → frames file = frames other) ∧
      (last.outside → last.skipped) := by
  have shown : (Machine.run (step UInt8.ofNat) (init 0 true fourChannels true true)
      drainedFrames).map (fun last => last.closed.map fun c =>
        (c.header.sampleCount, c.file.pcm.length)) = some [(2, 24)] := by
    decide +kernel
  obtain ⟨last, run, closed⟩ := Option.map_eq_some_iff.mp shown
  exact ⟨last, run, closed, headers_count 0 true fourChannels true true drainedFrames last run⟩

theorem skipped_faults (uses : s.convert2ch = true) (none : s.buffer2ch = none) (some : 4 ≤ len) :
    ∃ fault, writeBlock guarded s block len = .error fault := by
  have second : ∃ fault, convert extractAudio2chC s.convert2ch block len s.buffer2ch =
      .error fault := by
    rw [uses, none]
    exact extract_null (by decide) (by decide) some
  obtain ⟨fault, second⟩ := second
  unfold writeBlock
  cases first : convert extractAudio1chC s.convert1ch block len s.buffer1ch with
  | error fault => exact ⟨fault, rfl⟩
  | ok one =>
    refine ⟨fault, ?_⟩
    rw [ok_bind, second]
    rfl

theorem four_written (stream : Nat → UInt8) (recording : Nat)
    (files : s.files = [⟨.four, recording, []⟩]) (one : s.convert1ch = false)
    (two : s.convert2ch = false) :
    writeRead s (granted stream s len) len = .ok { s with
      taken := s.taken + len
      files := [⟨.four, recording, granted stream s len⟩]
      buffer1ch := s.buffer1ch.map fun _ => memory s.buffer1ch
      buffer2ch := s.buffer2ch.map fun _ => memory s.buffer2ch
      totalBytes := (s.totalBytes + len) % 2 ^ 64 } := by
  have long : 0 + len ≤ (granted stream s len).length := by
    rw [Nat.zero_add]
    exact granted_long
  have whole : Layout.field (granted stream s len) 0 len = granted stream s len :=
    List.take_of_length_le (Nat.le_of_eq (length_window len))
  have read := readAt_inside long
  rw [whole] at read
  rw [writeRead, writeBlock, one, two, files]
  show ([⟨.four, recording, []⟩].mapM fun file => appendBlock (granted stream s len)
    (memory s.buffer2ch) (memory s.buffer1ch) len file) >>= _ = _
  rw [List.mapM_cons, List.mapM_nil]
  show (((readAt (granted stream s len) 0 len >>= fun bytes =>
    pure (⟨.four, recording, [] ++ bytes⟩ : File)) >>= _) >>= _) = _
  rw [read]
  rfl

def fetched : List Action := [.capture 16384, .sampleTop, .read, .record true]

def refused (settings : Settings) : Action :=
  .sampleBlock ⟨settings, fun _ => true, false, true⟩ 48000

def stopped : List Action := [.sampleTop, .chunk, .read, .idle true, .measure 48000]

def inHand (settings : Settings) : State :=
  { init 0 false settings true true with
    written := readSize
    isRecording := true
    place := .block }

theorem fetched_run (stream : Nat → UInt8) (settings : Settings) :
    Machine.run (step stream) (init 0 false settings true true) fetched =
      some (inHand settings) := by
  simp [fetched, step, init, inHand, fill, readSize, frameBytes]

def firstAndFour : Settings := ⟨true, false, false, fun ch => ch = 0⟩

def firstAndPair : Settings := ⟨false, true, false, fun ch => ch = 0⟩

theorem handleBlock_opening (stream : Nat → UInt8) (rate : Nat) (was : s.wasRecording = false)
    (on : s.isRecording = true) {turned : State}
    (opened : { allocate o (openFiles s o) with wasRecording := true, place := .top } = turned) :
    handleBlock stream s o rate =
      settle turned (writeRead turned (granted stream turned readSize) readSize) := by
  unfold handleBlock
  rw [was, on, ← opened]
  rfl

def turnedFour : State :=
  { inHand firstAndFour with
    place := .top
    wasRecording := true
    files := [⟨.four, 1, []⟩]
    closed := [⟨⟨.one 0, 1, []⟩, placeholder, true⟩]
    recordings := 1 }

theorem turned_four : { allocate ⟨firstAndFour, fun _ => true, false, true⟩
    (openFiles (inHand firstAndFour) ⟨firstAndFour, fun _ => true, false, true⟩) with
      wasRecording := true, place := .top } = turnedFour := by
  rfl

def writing (pcm : List UInt8) : State :=
  { turnedFour with taken := readSize, files := [⟨.four, 1, pcm⟩], totalBytes := readSize }

theorem refused_step (stream : Nat → UInt8) :
    step stream (inHand firstAndFour) (refused firstAndFour) =
      some (writing (window stream 0 readSize)) := by
  have written : writeRead turnedFour (granted stream turnedFour readSize) readSize =
      .ok (writing (window stream 0 readSize)) :=
    four_written stream 1 rfl rfl rfl
  have handled := handleBlock_opening stream 48000 rfl rfl turned_four
  rw [written] at handled
  exact congrArg some handled

def left (pcm : List UInt8) : State :=
  { closeFiles 48000 { writing pcm with recStartAligned := true } with place := .finished }

theorem stopped_run (stream : Nat → UInt8) (pcm : List UInt8) :
    Machine.run (step stream) (writing pcm) stopped = some (left pcm) := by
  have some : 0 < chunkBytes := by decide
  have more : 0 < readSize := by decide
  simp [stopped, step, left, writing, turnedFour, inHand, init, fill, closeFiles, some, more]

theorem left_closed (pcm : List UInt8) : (left pcm).closed =
    [⟨⟨.one 0, 1, []⟩, placeholder, true⟩,
      ⟨⟨.four, 1, pcm⟩, createWaveHeader (readSize / 12) 48000 4 24, false⟩] := rfl

theorem left_frames {pcm : List UInt8} (whole : pcm.length = readSize) :
    ∃ c ∈ (left pcm).closed, ∃ d ∈ (left pcm).closed, c.file.recording = d.file.recording ∧
      frames c.file = 0 ∧ frames d.file = 16384 := by
  rw [left_closed]
  refine ⟨_, List.mem_cons_self, _, List.mem_cons_of_mem _ List.mem_cons_self, rfl, rfl, ?_⟩
  rw [frames, whole]
  show readSize / width .four = 16384
  decide

local instance neZero2 : NeZero 2 := ⟨by decide⟩

def turnedPair : State :=
  { inHand firstAndPair with
    place := .top
    wasRecording := true
    files := [⟨.two 0, 1, []⟩]
    convert2ch := true
    closed := [⟨⟨.one 0, 1, []⟩, placeholder, true⟩]
    recordings := 1
    skipped := true }

theorem turned_pair : { allocate ⟨firstAndPair, fun _ => true, false, true⟩
    (openFiles (inHand firstAndPair) ⟨firstAndPair, fun _ => true, false, true⟩) with
      wasRecording := true, place := .top } = turnedPair := by
  rfl

theorem refused_faults (stream : Nat → UInt8) :
    step stream (inHand firstAndPair) (refused firstAndPair) =
      some { turnedPair with place := .finished, outside := true } := by
  have faults : ∃ fault, writeRead turnedPair (granted stream turnedPair readSize) readSize =
      .error fault := skipped_faults rfl rfl (by decide)
  obtain ⟨fault, faults⟩ := faults
  have handled := handleBlock_opening stream 48000 rfl rfl turned_pair
  rw [faults] at handled
  exact congrArg some handled

/-- Without the buffer for one channel the files of a recording differ, and with the second group
on the thread converts into a null pointer. -/
theorem refused_buffer :
    (∃ stream schedule last,
      Machine.run (step stream) (init 0 false firstAndFour true true) schedule = some last ∧
        ∃ c ∈ last.closed, ∃ d ∈ last.closed, c.file.recording = d.file.recording ∧
          frames c.file = 0 ∧ frames d.file = 16384) ∧
      ∃ stream schedule last,
        Machine.run (step stream) (init 0 false firstAndPair true true) schedule = some last ∧
          last.outside = true := by
  constructor
  · refine ⟨UInt8.ofNat, fetched ++ refused firstAndFour :: stopped,
      left (window UInt8.ofNat 0 readSize), ?_, ?_⟩
    · rw [Machine.run_append, fetched_run, Option.bind_some, Machine.run_cons, refused_step,
        Option.bind_some, stopped_run]
    · exact left_frames (length_window readSize)
  · refine ⟨UInt8.ofNat, fetched ++ [refused firstAndPair],
      { turnedPair with place := .finished, outside := true }, ?_, rfl⟩
    rw [Machine.run_append, fetched_run, Option.bind_some, Machine.run_cons, refused_faults]
    rfl

end MisrcGui.Audio.WavHeaders
