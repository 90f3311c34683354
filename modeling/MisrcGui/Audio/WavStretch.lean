import MisrcGui.Audio.WavRecording

/-! The recorded WAV files as channel splits of one stretch of the captured audio. -/
namespace MisrcGui.Audio.WavRecording
open Library
open Library.Layout (field units)
open Library.Window (window window_add length_window)

variable {stream : Nat → UInt8} {s next : State} {file : File} {output : Output} {len : Nat}
  {memory old : List UInt8}

def split (output : Output) (bytes : List UInt8) : List UInt8 :=
  match output with
  | .four => bytes
  | _ => (units frameBytes bytes).flatMap fun frame => field frame (offset output) (width output)

theorem split_append {first : List UInt8} (whole : frameBytes ∣ first.length ∨ output = .four)
    (later : List UInt8) :
    split output (first ++ later) = split output first ++ split output later := by
  have frames (whole : frameBytes ∣ first.length) (part : List UInt8 → List UInt8) :
      (units frameBytes (first ++ later)).flatMap part =
        (units frameBytes first).flatMap part ++ (units frameBytes later).flatMap part := by
    rw [Layout.units_append whole, List.flatMap_append]
  cases output with
  | four => rfl
  | two | one => exact frames (whole.resolve_right nofun) _

@[simp] theorem split_nil (output : Output) : split output [] = [] := by
  cases output <;> simp [split]

theorem fits (output : Output) : offset output + width output ≤ frameBytes := by
  cases output with
  | four => decide
  | two | one =>
    rw [offset, width, frameBytes]
    omega

theorem field_within {start : Nat} (inside : start + frameBytes ≤ len) :
    field memory (start + offset output) (width output) =
      field (field (memory.take len) start frameBytes) (offset output) (width output) := by
  have small := fits output
  simp only [field, List.drop_take, List.take_take, List.drop_drop]
  congr 1
  omega

theorem extract_whole (count : Nat) (there : frameBytes * count ≤ memory.length) :
    extract output (frameBytes * count) memory =
      (units frameBytes (memory.take (frameBytes * count))).flatMap
        fun frame => field frame (offset output) (width output) := by
  have turns : (frameBytes * count / 4 + 2) / 3 = count := by
    rw [frameBytes]
    omega
  have frames : (memory.take (frameBytes * count)).length / frameBytes = count := by
    rw [List.length_take, Nat.min_eq_left there]
    exact Nat.mul_div_cancel_left count (by decide)
  rw [extract, turns, units, frames, List.flatMap_map]
  refine List.flatMap_congr fun i listed => ?_
  have inside : i * frameBytes + frameBytes ≤ frameBytes * count := by
    rw [← Nat.succ_mul, Nat.mul_comm]
    exact Nat.mul_le_mul_left _ (List.mem_range.mp listed)
  rw [Nat.mul_comm frameBytes i]
  exact field_within inside

theorem length_extract (count : Nat) (there : frameBytes * count ≤ memory.length) :
    (extract output (frameBytes * count) memory).length = count * width output := by
  have turns : (frameBytes * count / 4 + 2) / 3 = count := by
    rw [frameBytes]
    omega
  have each : ∀ i ∈ List.range count,
      (field memory (frameBytes * i + offset output) (width output)).length = width output := by
    intro i listed
    refine Layout.length_field ?_
    have small := fits output
    have inside : frameBytes * (i + 1) ≤ frameBytes * count :=
      Nat.mul_le_mul_left _ (List.mem_range.mp listed)
    rw [Nat.mul_add] at inside
    omega
  rw [extract, turns, List.length_flatMap, List.map_congr_left each, List.map_const',
    List.length_range, List.sum_replicate_nat]

theorem converted_whole (whole : frameBytes ∣ len) (there : len ≤ memory.length) :
    converted output len memory old = split output (memory.take len) := by
  obtain ⟨count, rfl⟩ := whole
  have all (output : Output) : (extract output (frameBytes * count) memory ++
      old.drop (extract output (frameBytes * count) memory).length).take
        (frameBytes * count * width output / frameBytes) =
      (units frameBytes (memory.take (frameBytes * count))).flatMap
        fun frame => field frame (offset output) (width output) := by
    have share : frameBytes * count * width output / frameBytes = count * width output := by
      rw [Nat.mul_assoc]
      exact Nat.mul_div_cancel_left _ (by decide)
    rw [share, List.take_left' (length_extract count there)]
    exact extract_whole count there
  cases output with
  | four => rfl
  | two pair => exact all _
  | one channel => exact all _

/-- The file holds its channels of one range of the captured audio, which starts no earlier
than where the thread first saw the recording. -/
def Contiguous (stream : Nat → UInt8) (written : Nat) (seen : Option Nat) (file : File) : Prop :=
  ∃ start len, frameBytes ∣ start ∧ (∃ place ∈ seen, place ≤ start) ∧ start + len ≤ written ∧
    file.pcm = split file.output (window stream start len)

/-- An open file holds everything from its start up to what the thread has taken. -/
structure Current (stream : Nat → UInt8) (taken : Nat) (seen : Option Nat) (file : File) :
    Prop where
  start : file.start ≤ taken
  aligned : frameBytes ∣ file.start
  seen : ∃ place ∈ seen, place ≤ file.start
  pcm : file.pcm = split file.output (window stream file.start (taken - file.start))
  frames : frameBytes ∣ taken - file.start ∨ file.output = .four

def Early : Place → Prop
  | .measure | .drain _ | .finished => False
  | _ => True

def Held (s : State) : Place → Prop
  | .block => readSize ≤ fill s
  | .drain len => len ≤ fill s
  | _ => True

structure Inv (stream : Nat → UInt8) (s : State) : Prop where
  bounded : s.taken ≤ s.written
  whole : Early s.place → frameBytes ∣ s.taken
  held : Held s s.place
  opened : s.wasRecording = false → s.files = []
  current : ∀ file ∈ s.files, Current stream s.taken s.seen file
  contiguous : ∀ file ∈ s.closed, Contiguous stream s.written s.seen file
  seen : ∀ place ∈ s.seen, place ≤ s.taken
  complete : s.leftOut = 0

theorem Contiguous.more {written later : Nat} {seen : Option Nat}
    (ok : Contiguous stream written seen file) (more : written ≤ later) :
    Contiguous stream later seen file := by
  obtain ⟨start, len, aligned, first, inside, pcm⟩ := ok
  exact ⟨start, len, aligned, first, Nat.le_trans inside more, pcm⟩

theorem Current.close {taken written : Nat} {seen : Option Nat}
    (ok : Current stream taken seen file) (bounded : taken ≤ written) :
    Contiguous stream written seen file := by
  refine ⟨file.start, taken - file.start, ok.aligned, ok.seen, ?_, ok.pcm⟩
  have := ok.start
  omega

def Writable (files : List File) (len : Nat) : Prop :=
  frameBytes ∣ len ∨ ∀ file ∈ files, file.output = .four

theorem Current.write {taken : Nat} {seen : Option Nat} {beyond : List UInt8}
    (ok : Current stream taken seen file) (whole : frameBytes ∣ len ∨ file.output = .four) :
    Current stream (taken + len) seen { file with
      pcm := file.pcm ++ converted file.output len (window stream taken len ++ beyond) old } := by
  have start := ok.start
  have grown : taken + len - file.start = (taken - file.start) + len := by omega
  have place : file.start + (taken - file.start) = taken := by omega
  refine ⟨by dsimp only; omega, ok.aligned, ok.seen, ?_, ?_⟩
  · have added : converted file.output len (window stream taken len ++ beyond) old =
        split file.output (window stream taken len) := by
      have front : (window stream taken len ++ beyond).take len = window stream taken len :=
        List.take_left' (length_window len)
      rcases whole with whole | four
      · rw [converted_whole whole (by simp), front]
      · rw [four]
        exact front
    dsimp only
    rw [grown, window_add, place, added, ok.pcm, split_append]
    rw [length_window]
    exact ok.frames
  · rw [grown]
    rcases whole with whole | four
    · exact ok.frames.imp_left fun before => Nat.dvd_add before whole
    · exact .inr four

theorem write_current {files : List File} {taken : Nat} {seen : Option Nat} {beyond : List UInt8}
    (ok : ∀ file ∈ files, Current stream taken seen file) (writable : Writable files len) :
    ∀ file ∈ write files len (window stream taken len ++ beyond) old,
      Current stream (taken + len) seen file := by
  intro file listed
  obtain ⟨before, member, rfl⟩ := List.mem_map.mp listed
  exact (ok before member).write (writable.imp_right fun four => four before member)

/-- The condition that every step must meet: no chunk is discarded while a file is open, no
block in hand finds the recording over while a file is open, and what the exit drain takes is
whole frames if it is split. -/
def allowed (s : State) : Action → Bool
  | .chunk => s.place ≠ .discard ∨ s.files = [] ∨ fill s < chunkBytes
  | .sampleBlock _ => s.flag = .on ∨ s.files = []
  | .drain _ _ =>
    match s.place with
    | .drain len => len % frameBytes = 0 ∨ s.files.all fun file => file.output = .four
    | _ => true
  | _ => true

theorem init_inv : Inv stream init where
  bounded := Nat.le_refl _
  whole := fun _ => Nat.dvd_zero _
  held := trivial
  opened := fun _ => rfl
  current := nofun
  contiguous := nofun
  seen := nofun
  complete := rfl

theorem Inv.move (inv : Inv stream s) (place : Place) (early : Early place → Early s.place)
    (held : Held s place) (recStartAligned : Bool) :
    Inv stream { s with place := place, recStartAligned := recStartAligned } where
  __ := inv
  whole := fun now => inv.whole (early now)
  held := held

theorem Inv.see (inv : Inv stream s) : Inv stream (see s) := by
  rw [WavRecording.see]
  split
  · have first {place : Nat} (known : place ∈ s.seen) : place ∈ s.seen.or (some s.taken) := by
      rw [Option.mem_def.mp known]
      rfl
    refine ⟨inv.bounded, inv.whole, inv.held, inv.opened, fun file listed => ?_,
      fun file listed => ?_, fun place known => ?_, inv.complete⟩
    · obtain ⟨start, aligned, ⟨place, known, early⟩, pcm, frames⟩ := inv.current file listed
      exact ⟨start, aligned, ⟨place, first known, early⟩, pcm, frames⟩
    · obtain ⟨start, len, aligned, ⟨place, known, early⟩, content⟩ := inv.contiguous file listed
      exact ⟨start, len, aligned, ⟨place, first known, early⟩, content⟩
    · cases before : s.seen with
      | none =>
        have known : place ∈ s.seen.or (some s.taken) := known
        rw [before, Option.none_or, Option.mem_some_iff] at known
        exact Nat.le_of_eq known.symm
      | some place' =>
        have known : place ∈ s.seen.or (some s.taken) := known
        rw [before, Option.some_or] at known
        exact inv.seen place (before ▸ known)
  · exact inv

theorem le_written (inv : Inv stream s) (there : len ≤ fill s) : s.taken + len ≤ s.written := by
  have := inv.bounded
  rw [fill] at there
  omega

theorem Inv.leaveOut (inv : Inv stream s) (apart : s.files = []) (early : Early s.place)
    (whole : frameBytes ∣ len) (there : len ≤ fill s) (place : Place) (held : ∀ s, Held s place)
    (wasRecording : Bool) :
    Inv stream { leaveOut s len with place := place, wasRecording := wasRecording } where
  bounded := le_written inv there
  whole := fun _ => Nat.dvd_add (inv.whole early) whole
  held := held _
  opened := fun _ => apart
  current := by
    intro file listed
    have listed : file ∈ s.files := listed
    rw [apart] at listed
    nomatch listed
  contiguous := inv.contiguous
  seen := fun place known => Nat.le_add_right_of_le (inv.seen place known)
  complete := by
    change s.leftOut + (if s.files = [] then 0 else len) = 0
    rw [if_pos apart]
    exact inv.complete

theorem Inv.writeOut {beyond : List UInt8} (inv : Inv stream s) (there : len ≤ fill s)
    (writable : Writable s.files len) (place : Place)
    (whole : Early place → Early s.place ∧ frameBytes ∣ len) (held : ∀ s, Held s place) :
    Inv stream { writeOut stream s len beyond old with place := place } where
  bounded := le_written inv there
  whole := fun now => Nat.dvd_add (inv.whole (whole now).1) (whole now).2
  held := held _
  opened := by
    intro apart
    have none : s.files = [] := inv.opened apart
    change write s.files len _ old = []
    rw [none]
    rfl
  current := write_current inv.current writable
  __ := inv
  seen := fun place known => Nat.le_add_right_of_le (inv.seen place known)

theorem Inv.close (inv : Inv stream s) (place : Place) (early : Early place → Early s.place)
    (held : ∀ s, Held s place) (wasRecording : Bool) :
    Inv stream { close s with place := place, wasRecording := wasRecording } where
  __ := inv
  whole := fun now => inv.whole (early now)
  held := held _
  opened := fun _ => rfl
  current := nofun
  contiguous := by
    intro file listed
    rcases List.mem_append.mp listed with before | now
    · exact inv.contiguous file before
    · exact (inv.current file now).close inv.bounded

theorem Inv.opens (inv : Inv stream s) (early : Early s.place)
    (on : s.flag = .on) (outputs : List Output) :
    Inv stream { WavRecording.see s with
      files := outputs.map fun output => ⟨output, s.taken, []⟩
      wasRecording := true } := by
  have looked := inv.see
  have taken : (WavRecording.see s).taken = s.taken := by
    rw [WavRecording.see, if_pos on]
  refine ⟨looked.bounded, looked.whole, looked.held, nofun, fun file listed => ?_,
    looked.contiguous, looked.seen, looked.complete⟩
  obtain ⟨output, -, rfl⟩ := List.mem_map.mp listed
  have known : ∃ place ∈ (WavRecording.see s).seen, place ≤ s.taken := by
    rw [WavRecording.see, if_pos on]
    cases before : s.seen with
    | none => exact ⟨s.taken, rfl, Nat.le_refl _⟩
    | some place => exact ⟨place, rfl, inv.seen place before⟩
  refine ⟨Nat.le_of_eq taken.symm, inv.whole early, known, ?_, .inl ?_⟩
  · rw [taken, Nat.sub_self]
    exact (split_nil output).symm
  · rw [taken, Nat.sub_self]
    exact Nat.dvd_zero _

theorem Inv.recordBlock (inv : Inv stream s) (place : s.place = .block) (on : s.flag = .on)
    (outputs : List Output) :
    Inv stream { WavRecording.writeOut stream { WavRecording.see s with
      files := if s.wasRecording then s.files
        else outputs.map fun output => ⟨output, s.taken, []⟩ } readSize [] [] with
      wasRecording := true
      place := .top } := by
  have early : Early s.place := by
    rw [place]
    trivial
  have there : readSize ≤ fill s := by
    have held := inv.held
    rwa [place] at held
  have opened : Inv stream { WavRecording.see s with
      files := if s.wasRecording then s.files
        else outputs.map fun output => ⟨output, s.taken, []⟩
      wasRecording := true } := by
    by_cases was : s.wasRecording
    · rw [if_pos was]
      have looked := inv.see
      rw [WavRecording.see, if_pos on] at looked ⊢
      exact ⟨looked.bounded, looked.whole, looked.held, nofun, looked.current, looked.contiguous,
        looked.seen, looked.complete⟩
    · rw [if_neg was]
      exact inv.opens early on outputs
  have looked : (WavRecording.see s).place = s.place ∧ fill (WavRecording.see s) = fill s := by
    rw [WavRecording.see, if_pos on]
    exact ⟨rfl, rfl⟩
  exact opened.writeOut (Nat.le_trans there (Nat.le_of_eq looked.2.symm)) (.inl (by decide)) .top
    (fun _ => ⟨looked.1 ▸ early, by decide⟩) (fun _ => trivial)

theorem step_inv {action : Action} (inv : Inv stream s) (fine : allowed s action)
    (h : step stream s action = some next) : Inv stream next := by
  cases action with
  | capture len =>
    cases h
    refine ⟨Nat.le_add_right_of_le inv.bounded, inv.whole, ?_, inv.opened, inv.current,
      fun file listed => (inv.contiguous file listed).more (Nat.le_add_right _ _), inv.seen,
      inv.complete⟩
    have held := inv.held
    have grows : fill s ≤ fill { s with written := s.written + len } :=
      Nat.sub_le_sub_right (Nat.le_add_right _ _) _
    change Held _ s.place
    cases place : s.place with
    | block | drain =>
      rw [place] at held
      exact Nat.le_trans held grows
    | _ => trivial
  | record | stop =>
    simp only [step] at h
    split at h
    · cases h
      exact ⟨inv.bounded, inv.whole, inv.held, inv.opened, inv.current, inv.contiguous, inv.seen,
        inv.complete⟩
    · contradiction
  | sampleTop =>
    simp only [step] at h
    split at h
    · contradiction
    · rename_i place
      rw [not_not] at place
      have early : Early (see s).place := by
        rw [see]
        split <;> (change Early s.place; rw [place]; trivial)
      split at h
      · cases h
        exact inv.see.move .discard (fun _ => early) trivial true
      · split at h
        · cases h
          exact inv.see.move .flush (fun _ => early) trivial false
        · cases h
          exact inv.see.move .read (fun _ => early) trivial (see s).recStartAligned
  | chunk =>
    simp only [step] at h
    split at h
    · rename_i place
      have early : Early s.place := by
        rw [place]
        trivial
      split at h
      · cases h
        exact inv.move .read (fun _ => early) trivial s.recStartAligned
      · rename_i enough
        cases h
        have apart : s.files = [] := by
          have fine := of_decide_eq_true fine
          exact (fine.resolve_left (not_not.mpr place)).resolve_right enough
        exact inv.leaveOut apart early (by decide) (Nat.le_of_not_lt enough) s.place
          (fun _ => by rw [place]; trivial) s.wasRecording
    · rename_i place
      have early : Early s.place := by
        rw [place]
        trivial
      split at h
      · cases h
        exact inv.move .read (fun _ => early) trivial s.recStartAligned
      · rename_i enough
        cases h
        exact inv.writeOut (Nat.le_of_not_lt enough) (.inl (by decide)) s.place
          (fun _ => ⟨early, by decide⟩) fun _ => by rw [place]; trivial
    · contradiction
  | read =>
    simp only [step] at h
    split at h
    · contradiction
    · rename_i place
      rw [not_not] at place
      cases h
      have early : Early s.place := by
        rw [place]
        trivial
      refine inv.move _ (fun _ => early) ?_ s.recStartAligned
      split
      · trivial
      · rename_i enough
        exact Nat.le_of_not_lt enough
  | idle exits =>
    simp only [step] at h
    split at h
    · contradiction
    · rename_i place
      rw [not_not] at place
      cases h
      have early : Early s.place := by
        rw [place]
        trivial
      refine inv.move _ (fun _ => early) ?_ s.recStartAligned
      split <;> trivial
  | sampleBlock settings =>
    simp only [step] at h
    split at h
    · contradiction
    · rename_i place
      rw [not_not] at place
      have early : Early s.place := by
        rw [place]
        trivial
      have there : readSize ≤ fill s := by
        have held := inv.held
        rwa [place] at held
      split at h
      · rename_i on
        cases h
        exact inv.recordBlock place on (enabled settings)
      · rename_i off
        have apart : s.files = [] := (of_decide_eq_true fine).resolve_left off
        split at h
        · cases h
          have left := inv.leaveOut apart early (by decide) there .top (fun _ => trivial) false
          exact left.close .top (fun now => now) (fun _ => trivial) false
        · cases h
          exact inv.leaveOut apart early (by decide) there .top (fun _ => trivial) s.wasRecording
  | measure =>
    simp only [step] at h
    split at h
    · contradiction
    · rename_i place
      split at h
      · cases h
        exact inv.close .finished False.elim (fun _ => trivial) s.wasRecording
      · cases h
        exact inv.move _ False.elim (Nat.min_le_left _ _) s.recStartAligned
  | drain beyond old =>
    simp only [step] at h
    split at h
    · rename_i len place
      split at h
      · cases h
        exact inv.close .finished False.elim (fun _ => trivial) s.wasRecording
      · rename_i enough
        cases h
        have writable : Writable s.files len := by
          simp only [allowed, place] at fine
          rcases of_decide_eq_true fine with whole | plain
          · exact .inl (Nat.dvd_of_mod_eq_zero whole)
          · exact .inr fun file listed => of_decide_eq_true (List.all_eq_true.mp plain file listed)
        exact inv.writeOut (Nat.le_of_not_lt enough) writable .measure False.elim fun _ => trivial
    · contradiction

structure Sound (stream : Nat → UInt8) (s : State) : Prop where
  files : ∀ file ∈ s.files ++ s.closed, Contiguous stream s.written s.seen file
  complete : s.leftOut = 0

/-- The files of a recording hold one stretch of the captured audio, and nothing that was
taken while they were open is missing. -/
theorem recorded_stretch (stream : Nat → UInt8) (schedule : List Action) (last : State)
    (h : Machine.run (Machine.guarded allowed (step stream)) init schedule = some last) :
    Sound stream last := by
  have inv : Inv stream last := by
    refine Machine.run_invariant (Inv stream) (fun s action next inv taken => ?_) init_inv h
    obtain ⟨fine, moved⟩ := Machine.guarded_eq_some.mp taken
    exact step_inv inv fine moved
  refine ⟨fun file listed => ?_, inv.complete⟩
  rcases List.mem_append.mp listed with current | closed
  · exact (inv.current file current).close inv.bounded
  · exact inv.contiguous file closed

/-- A recording of one block and two frames, the last from the exit drain. -/
def stopped : List Action := [.sampleTop, .record, .read, .idle false, .capture 1152, .sampleTop,
  .chunk, .chunk, .chunk, .capture readSize, .read, .sampleBlock ⟨true, false, true, (·.val = 2)⟩,
  .capture 24, .sampleTop, .stop, .read, .idle false, .sampleTop, .chunk, .read, .idle true,
  .measure, .drain [7] [7], .measure]

theorem recorded_stretch_stopped : ∃ last,
    Machine.run (Machine.guarded allowed (step UInt8.ofNat)) init stopped = some last ∧
      last.closed.length = 3 ∧ Sound UInt8.ofNat last := by
  have runs : ∃ last, Machine.run (Machine.guarded allowed (step UInt8.ofNat)) init stopped =
      some last := Option.isSome_iff_exists.mp (by decide +kernel)
  have files : (Machine.run (Machine.guarded allowed (step UInt8.ofNat)) init stopped).map
      (fun last => last.closed.length) = some 3 := by decide +kernel
  obtain ⟨last, run⟩ := runs
  rw [run] at files
  exact ⟨last, run, Option.some.inj files, recorded_stretch UInt8.ofNat stopped last run⟩

def fourChannels : Settings := ⟨true, false, false, fun _ => false⟩

def seenWithBlock : List Action :=
  [.sampleTop, .capture readSize, .read, .record, .sampleBlock fourChannels]

def seenAtTop : List Action :=
  [.capture chunkBytes, .sampleTop, .chunk, .chunk, .capture readSize, .read,
    .sampleBlock fourChannels]

theorem converted_four (start : Nat) :
    converted .four len (window stream start len) old = window stream start len :=
  List.take_of_length_le (Nat.le_of_eq (length_window _))

theorem seenWithBlock_run (stream : Nat → UInt8) :
    Machine.run (step stream) init seenWithBlock = some
      ⟨readSize, readSize, .on, .top, true, false, [⟨.four, 0, window stream 0 readSize⟩], [],
        some 0, 0⟩ := by
  have waits : Machine.run (step stream) init [.sampleTop, .capture readSize, .read, .record] =
      some ⟨readSize, 0, .on, .block, false, false, [], [], none, 0⟩ := by
    simp [step, init, see, fill]
  have writes : step stream ⟨readSize, 0, .on, .block, false, false, [], [], none, 0⟩
      (.sampleBlock fourChannels) = some ⟨readSize, 0 + readSize, .on, .top, true, false,
        [⟨.four, 0, [] ++ converted .four readSize (window stream 0 readSize ++ []) []⟩], [],
        some 0, 0⟩ := rfl
  have whole : seenWithBlock = [.sampleTop, .capture readSize, .read, .record] ++
      [.sampleBlock fourChannels] := rfl
  rw [whole, Machine.run_append, waits, Option.bind_some, Machine.run_cons, writes,
    List.append_nil, converted_four, Option.bind_some, Machine.run_nil, Nat.zero_add,
    List.nil_append]

theorem seenAtTop_run (stream : Nat → UInt8) (pcm : List UInt8) :
    Machine.run (step stream)
      ⟨readSize, readSize, .on, .top, true, false, [⟨.four, 0, pcm⟩], [], some 0, 0⟩ seenAtTop =
      some ⟨readSize + chunkBytes + readSize, readSize + chunkBytes + readSize, .on, .top, true,
        true, [⟨.four, 0, pcm ++ window stream (readSize + chunkBytes) readSize⟩], [], some 0,
        chunkBytes⟩ := by
  have some : 0 < chunkBytes := by decide
  simp [seenAtTop, step, see, fill, leaveOut, writeOut, write, converted_four, some]

/-- Audio in which the chunk after the first block can be told from the rest. -/
def marked (i : Nat) : UInt8 := if readSize ≤ i ∧ i < readSize + chunkBytes then 1 else 0

/-- The discarded chunk is a gap in the file. -/
theorem discarded_within : ∃ stream schedule last,
    Machine.run (step stream) init schedule = some last ∧ ¬Sound stream last := by
  have run := Machine.run_append (step marked) init seenWithBlock seenAtTop
  rw [seenWithBlock_run, Option.bind_some, seenAtTop_run] at run
  refine ⟨marked, _, _, run, fun sound => ?_⟩
  obtain ⟨start, len, -, -, inside, pcm⟩ := sound.files _ List.mem_cons_self
  have pcm : window marked 0 readSize ++ window marked (readSize + chunkBytes) readSize =
      window marked start len := pcm
  have inside : start + len ≤ readSize + chunkBytes + readSize := inside
  have small : chunkBytes < readSize := by decide
  have length : readSize + readSize = len := by
    have lengths := congrArg List.length pcm
    rwa [List.length_append, length_window, length_window, length_window] at lengths
  have gap : (1 : UInt8) ∈ window marked start len := by
    refine List.mem_map.mpr ⟨readSize - start, List.mem_range.mpr (by omega), ?_⟩
    have place : start + (readSize - start) = readSize := by omega
    have chunk : readSize ≤ readSize ∧ readSize < readSize + chunkBytes :=
      ⟨Nat.le_refl _, Nat.lt_add_of_pos_right (by decide)⟩
    rw [place]
    exact if_pos chunk
  rw [← pcm, List.mem_append] at gap
  rcases gap with first | second
  · obtain ⟨i, listed, shown⟩ := List.mem_map.mp first
    have before : ¬(readSize ≤ 0 + i ∧ 0 + i < readSize + chunkBytes) := by
      have := List.mem_range.mp listed
      omega
    rw [marked, if_neg before] at shown
    exact absurd shown (by decide)
  · obtain ⟨i, listed, shown⟩ := List.mem_map.mp second
    have after : ¬(readSize ≤ readSize + chunkBytes + i ∧
        readSize + chunkBytes + i < readSize + chunkBytes) := by omega
    rw [marked, if_neg after] at shown
    exact absurd shown (by decide)

end MisrcGui.Audio.WavRecording
