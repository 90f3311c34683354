import MisrcGui.Audio.WavFiles

/-! A block of captured audio through the conversions and into the files. -/
namespace MisrcGui.Audio.WavBlocks
open Library
open Library.Terminated (Checked ok_bind)
open Library.CheckedMemory
open Conversion WavFiles
open WavRecording (readSize frameBytes width)

variable {guarded : Bool} {s next : State} {len : Nat} {block : List UInt8}

theorem length_written {two : Channels 2} {one : Channels 4} {file grown : File}
    (whole : frameBytes ∣ len) (ran : appendBlock block two one len file = .ok grown) :
    grown.output = file.output ∧ grown.recording = file.recording ∧
      grown.pcm.length = file.pcm.length + width file.output * (len / frameBytes) := by
  obtain ⟨count, rfl⟩ := whole
  obtain ⟨output, recording, pcm⟩ := file
  have counted : frameBytes * count / frameBytes = count :=
    Nat.mul_div_cancel_left count (by decide)
  have grows {source : List UInt8} {bytes : Nat} (counts : bytes = width output * count)
      (ran : (do
        let more ← readAt source 0 bytes
        return (⟨output, recording, pcm ++ more⟩ : File)) = Except.ok grown) :
      grown.output = output ∧ grown.recording = recording ∧
        grown.pcm.length = pcm.length + width output * count := by
    cases read : readAt source 0 bytes with
    | error fault =>
      rw [read] at ran
      contradiction
    | ok more =>
      rw [read] at ran
      rw [← Except.ok.inj ran, ← counts]
      exact ⟨rfl, rfl, by rw [List.length_append, length_readAt read]⟩
  rw [counted]
  have half : frameBytes * count / 2 = 6 * count := by
    unfold frameBytes
    omega
  have quarter : frameBytes * count / 4 = 3 * count := by
    unfold frameBytes
    omega
  cases output with
  | four => exact grows rfl ran
  | two pair => exact grows half ran
  | one channel => exact grows quarter ran

structure Wrote (s next : State) (len : Nat) : Prop where
  frame : next = { s with
    taken := s.taken + len
    files := next.files
    buffer1ch := next.buffer1ch
    buffer2ch := next.buffer2ch
    totalBytes := (s.totalBytes + len) % 2 ^ 64 }
  files : List.Forall₂ (fun file grown : File => grown.output = file.output ∧
    grown.recording = file.recording ∧
    grown.pcm.length = file.pcm.length + width file.output * (len / frameBytes)) s.files next.files
  buffer1ch : ∃ one : Channels 4, next.buffer1ch = s.buffer1ch.map fun _ => one
  buffer2ch : ∃ two : Channels 2, next.buffer2ch = s.buffer2ch.map fun _ => two
  sized1ch : (∀ out, s.buffer1ch = some out → Sized out) →
    ∀ out, next.buffer1ch = some out → Sized out
  sized2ch : (∀ out, s.buffer2ch = some out → Sized out) →
    ∀ out, next.buffer2ch = some out → Sized out

theorem convert_sized {m size : Nat} {buffer : Option (Channels m)} {on : Bool}
    {out : Channels m} (ran : convert (extract m size) on block len buffer = .ok out)
    (sized : ∀ old, buffer = some old → Sized old) :
    ∀ filled, (buffer.map fun _ => out) = some filled → Sized filled := by
  intro filled here
  cases buffer with
  | none => contradiction
  | some old =>
    rw [← Option.some.inj here]
    cases on with
    | false =>
      rw [← Except.ok.inj ran]
      exact sized old rfl
    | true => exact extract_sized (sized old rfl) ran

theorem writeBlock_wrote (whole : frameBytes ∣ len)
    (groups : ∀ file ∈ s.files, converts s file.output)
    (ran : writeBlock guarded s block len = .ok next) : Wrote s next len := by
  unfold writeBlock at ran
  cases first : convert extractAudio1chC s.convert1ch block len s.buffer1ch with
  | error fault =>
    rw [first] at ran
    contradiction
  | ok one =>
    cases second : convert extractAudio2chC s.convert2ch block len s.buffer2ch with
    | error fault =>
      rw [first, ok_bind, second] at ran
      contradiction
    | ok two =>
      rw [first, ok_bind, second, ok_bind] at ran
      cases third : s.files.mapM fun file =>
          if guarded && !converts s file.output then .ok file
          else appendBlock block two one len file with
      | error fault =>
        rw [third] at ran
        contradiction
      | ok files =>
        rw [third] at ran
        cases Except.ok.inj ran
        refine ⟨rfl, ?_, ⟨one, rfl⟩, ⟨two, rfl⟩, convert_sized first, convert_sized second⟩
        have each := (List.forall₂_and_left _ _).mpr ⟨groups, mapM_each third⟩
        refine each.imp ?_
        rintro file grown ⟨on, ran⟩
        rw [on, Bool.not_true, Bool.and_false] at ran
        exact length_written whole ran

theorem convert_ok {m size : Nat} {buffer : Option (Channels m)} {on : Bool}
    (elements : m * size = 4) (whole : frameBytes ∣ len) (long : len ≤ block.length)
    (room : len ≤ readSize) (ready : on → ∃ out, buffer = some out ∧ Sized out) :
    ∃ out, convert (extract m size) on block len buffer = .ok out ∧ (on → Sized out) := by
  cases on with
  | false => exact ⟨memory buffer, rfl, nofun⟩
  | true =>
    obtain ⟨old, rfl, sized⟩ := ready rfl
    obtain ⟨out, ran, filled⟩ := extract_ok elements whole long room sized
    exact ⟨out, ran, fun _ => filled⟩

theorem writeBlock_ok (guarded : Bool) (whole : frameBytes ∣ len) (long : len ≤ block.length)
    (room : len ≤ readSize)
    (ready1ch : s.convert1ch → ∃ out, s.buffer1ch = some out ∧ Sized out)
    (ready2ch : s.convert2ch → ∃ out, s.buffer2ch = some out ∧ Sized out)
    (groups : ∀ file ∈ s.files, converts s file.output) :
    ∃ next, writeBlock guarded s block len = .ok next := by
  obtain ⟨one, first, sizedOne⟩ := convert_ok (by decide : 4 * 1 = 4) whole long room ready1ch
  obtain ⟨two, second, sizedTwo⟩ := convert_ok (by decide : 2 * 2 = 4) whole long room ready2ch
  have part {m : Nat} {out : Channels m} {bytes : Nat} (sized : Sized out) (ch : Fin m)
      (fits : bytes ≤ readSize / m) (file : File) :
      ∃ grown, (do
        let more ← readAt (out ch) 0 bytes
        return ({ file with pcm := file.pcm ++ more } : File)) = Except.ok grown := by
    rw [readAt_inside (by rw [sized ch]; omega)]
    exact ⟨_, rfl⟩
  obtain ⟨files, third⟩ : ∃ files, (s.files.mapM fun file =>
      if guarded && !converts s file.output then .ok file
      else appendBlock block two one len file) = .ok files := by
    apply mapM_ok
    intro file listed
    have on := groups file listed
    rw [on, Bool.not_true, Bool.and_false]
    obtain ⟨output, recording, pcm⟩ := file
    cases output with
    | four =>
      refine ⟨⟨.four, recording, pcm ++ Layout.field block 0 len⟩, ?_⟩
      have inside : 0 + len ≤ block.length := by omega
      show (do
        let more ← readAt block 0 len
        return (⟨.four, recording, pcm ++ more⟩ : File)) = _
      rw [readAt_inside inside]
      rfl
    | two pair =>
      exact part (sizedTwo on) pair (Nat.div_le_div_right room) ⟨.two pair, recording, pcm⟩
    | one channel =>
      exact part (sizedOne on) channel (Nat.div_le_div_right room) ⟨.one channel, recording, pcm⟩
  refine ⟨{ s with
    taken := s.taken + len
    files := files
    buffer1ch := s.buffer1ch.map fun _ => one
    buffer2ch := s.buffer2ch.map fun _ => two
    totalBytes := (s.totalBytes + len) % 2 ^ 64 }, ?_⟩
  have first : convert extractAudio1chC s.convert1ch block len s.buffer1ch = .ok one := first
  have second : convert extractAudio2chC s.convert2ch block len s.buffer2ch = .ok two := second
  rw [writeBlock, first, ok_bind, second, ok_bind, third]
  rfl

theorem forall_grown {P : File → Prop} {Q : File → Prop} {len : Nat} (wrote : Wrote s next len)
    (kept : ∀ file grown : File, P file → grown.output = file.output →
      grown.recording = file.recording →
      grown.pcm.length = file.pcm.length + width file.output * (len / frameBytes) → Q grown)
    (all : ∀ file ∈ s.files, P file) : ∀ grown ∈ next.files, Q grown := by
  intro grown inside
  obtain ⟨file, listed, output, recording, length⟩ :=
    mem_right wrote.files inside
  exact kept file grown (all file listed) output recording length

end MisrcGui.Audio.WavBlocks
