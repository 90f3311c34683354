import MisrcGui.Audio.WavRecording
import MisrcGui.Library.CheckedMemory
import Mathlib.Tactic.Ring

/-! The loops of `extract.c` that split captured audio into channels, with every access. -/
namespace MisrcGui.Audio.Conversion
open Library
open Library.Layout (field)
open Library.Terminated (Checked ok_bind)
open Library.CheckedMemory
open WavRecording (readSize frameBytes)

abbrev Channels (n : Nat) := Fin n → List UInt8

/-- A sample of three elements of `size` bytes, to the channel's output. `i` is `3 * frame`. -/
def copySample (n size : Nat) (input : List UInt8) (frame : Nat) (out : Channels n) (ch : Fin n) :
    Checked (Channels n) := do
  let sample ← readAt input (size * (3 * frame * n + 3 * ch)) (3 * size)
  let filled ← writeAt (out ch) (size * (3 * frame)) sample
  return Function.update out ch filled

def copyFrame (n size : Nat) (input : List UInt8) (out : Channels n) (frame : Nat) :
    Checked (Channels n) :=
  (List.finRange n).foldlM (copySample n size input frame) out

/-- `for(size_t i = 0; i < len/4; i+=3)`. -/
def extract (n size : Nat) (input : List UInt8) (len : Nat) (out : Channels n) :
    Checked (Channels n) :=
  (List.range ((len / 4 + 2) / 3)).foldlM (copyFrame n size input) out

/-- `extract_audio_2ch_C`, on elements of 16 bits. -/
def extractAudio2chC : List UInt8 → Nat → Channels 2 → Checked (Channels 2) := extract 2 2

/-- `extract_audio_1ch_C`, on bytes. -/
def extractAudio1chC : List UInt8 → Nat → Channels 4 → Checked (Channels 4) := extract 4 1

def Sized {n : Nat} (out : Channels n) : Prop := ∀ ch, (out ch).length = readSize / n

variable {n size len frame : Nat} {input : List UInt8} {out next : Channels n}

theorem sized_update (sized : Sized out) {ch : Fin n} {filled : List UInt8}
    (same : filled.length = (out ch).length) : Sized (Function.update out ch filled) := by
  intro other
  by_cases here : other = ch
  · subst here
    rw [Function.update_self, same]
    exact sized other
  · rw [Function.update_of_ne here]
    exact sized other

theorem copySample_ok (elements : n * size = 4) (block : frameBytes * (frame + 1) ≤ input.length)
    (room : 3 * size * (frame + 1) ≤ readSize / n) (sized : Sized out) (ch : Fin n) :
    ∃ next, copySample n size input frame out ch = .ok next ∧ Sized next := by
  have part : size * (3 * ch) + 3 * size ≤ frameBytes := by
    have below : (ch + 1) * size ≤ n * size := Nat.mul_le_mul_right size ch.isLt
    have same : size * (3 * ch) + 3 * size = 3 * ((ch + 1) * size) := by ring
    rw [same]
    unfold frameBytes
    omega
  have start : size * (3 * frame * n + 3 * ch) = frameBytes * frame + size * (3 * ch) := by
    have whole : size * (3 * frame * n) = 3 * frame * (n * size) := by ring
    rw [Nat.mul_add, whole, elements]
    unfold frameBytes
    omega
  have inside : size * (3 * frame * n + 3 * ch) + 3 * size ≤ input.length := by
    rw [start]
    rw [Nat.mul_succ] at block
    omega
  have sampled : (field input (size * (3 * frame * n + 3 * ch)) (3 * size)).length = 3 * size :=
    Layout.length_field inside
  have fits : size * (3 * frame) +
      (field input (size * (3 * frame * n + 3 * ch)) (3 * size)).length ≤ (out ch).length := by
    have same : size * (3 * frame) + 3 * size = 3 * size * (frame + 1) := by ring
    rw [sampled, sized ch, same]
    exact room
  refine ⟨Function.update out ch _, ?_, sized_update sized (length_writeAt (writeAt_inside fits))⟩
  rw [copySample, readAt_inside inside, ok_bind, writeAt_inside fits]
  rfl

theorem extract_ok (elements : n * size = 4) (whole : frameBytes ∣ len) (block : len ≤ input.length)
    (room : len ≤ readSize) (sized : Sized out) :
    ∃ next, extract n size input len out = .ok next ∧ Sized next := by
  obtain ⟨frames, rfl⟩ := whole
  have rounds : (frameBytes * frames / 4 + 2) / 3 = frames := by
    unfold frameBytes
    omega
  have positive : 0 < n := by
    apply Nat.pos_of_ne_zero
    rintro rfl
    omega
  apply foldlM_ok Sized ?_ sized
  intro out sized frame listed
  rw [rounds] at listed
  have later : frame + 1 ≤ frames := List.mem_range.mp listed
  have inside : frameBytes * (frame + 1) ≤ input.length :=
    le_trans (Nat.mul_le_mul_left _ later) block
  have fits : 3 * size * (frame + 1) ≤ readSize / n := by
    rw [Nat.le_div_iff_mul_le positive]
    calc 3 * size * (frame + 1) * n = n * size * (3 * (frame + 1)) := by ring
      _ = frameBytes * (frame + 1) := by rw [elements, frameBytes]; ring
      _ ≤ frameBytes * frames := Nat.mul_le_mul_left _ later
      _ ≤ readSize := room
  apply foldlM_ok Sized ?_ sized
  intro out sized ch _
  exact copySample_ok elements inside fits sized ch

theorem copySample_sized (sized : Sized out) {ch : Fin n}
    (ran : copySample n size input frame out ch = .ok next) : Sized next := by
  unfold copySample at ran
  cases read : readAt input (size * (3 * frame * n + 3 * ch)) (3 * size) with
  | error fault =>
    rw [read] at ran
    contradiction
  | ok sample =>
    rw [read, ok_bind] at ran
    cases written : writeAt (out ch) (size * (3 * frame)) sample with
    | error fault =>
      rw [written] at ran
      contradiction
    | ok filled =>
      rw [written] at ran
      rw [← Except.ok.inj ran]
      exact sized_update sized (length_writeAt written)

theorem extract_sized (sized : Sized out) (ran : extract n size input len out = .ok next) :
    Sized next := by
  apply foldlM_invariant Sized ?_ sized ran
  intro out frame next sized ran
  apply foldlM_invariant Sized ?_ sized ran
  exact fun out ch next sized ran => copySample_sized sized ran

theorem extract_null (some : 0 < n) (wide : 0 < size) (long : 4 ≤ len) :
    ∃ fault, extract n size input len (fun _ => []) = .error fault := by
  obtain ⟨rounds, count⟩ : ∃ rounds, (len / 4 + 2) / 3 = rounds + 1 :=
    ⟨(len / 4 + 2) / 3 - 1, by omega⟩
  obtain ⟨channels, rfl⟩ : ∃ channels, n = channels + 1 := ⟨n - 1, by omega⟩
  rw [extract, count, List.range_succ_eq_map, List.foldlM_cons, copyFrame, List.finRange_succ,
    List.foldlM_cons, copySample]
  cases read : readAt input (size * (3 * 0 * (channels + 1) + 3 * (0 : Fin (channels + 1))))
      (3 * size) with
  | error fault => exact ⟨fault, rfl⟩
  | ok sample =>
    have length := length_readAt read
    have filled : sample ≠ [] := by
      intro none
      rw [none, List.length_nil] at length
      omega
    refine ⟨.write, ?_⟩
    rw [ok_bind, writeAt_nil filled]
    rfl

end MisrcGui.Audio.Conversion
