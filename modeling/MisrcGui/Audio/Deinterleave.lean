import MisrcGui.Audio.Conversion
import MisrcGui.Library.Channelwise

/-! The loops of `extract.c` exactly: when they stay inside of their memory, and what they leave
in it. -/
namespace MisrcGui.Audio.Deinterleave
open Library
open Library.Layout (field)
open Library.Terminated (Checked)
open Library.CheckedMemory (readAt writeAt)
open Library.Interleave
open Conversion
open WavRecording (frameBytes)

/-- The rounds of the loops, the last of which may not have its frame in full. -/
def rounds (len : Nat) : Nat := (len / 4 + 2) / 3

def copyChannel (n size : Nat) (input : List UInt8) (ch : Fin n) (memory : List UInt8)
    (frame : Nat) : Checked (List UInt8) := do
  let sample ← readAt input (n * (3 * size) * frame + 3 * size * ch) (3 * size)
  writeAt memory (3 * size * frame) sample

variable {n size len frame : Nat} {input : List UInt8} {out last : Channels n}

theorem copySample_eq (ch : Fin n) :
    copySample n size input frame out ch = do
      let filled ← copyChannel n size input ch (out ch) frame
      return Function.update out ch filled := by
  have source : size * (3 * frame * n + 3 * ch) = n * (3 * size) * frame + 3 * size * ch := by ring
  have target : size * (3 * frame) = 3 * size * frame := by ring
  rw [copySample, copyChannel, source, target, bind_assoc]

theorem copyFrame_iff :
    copyFrame n size input out frame = .ok last ↔
      ∀ ch, copyChannel n size input ch (out ch) frame = .ok (last ch) := by
  have bodies : copySample n size input frame = fun out ch => do
      let filled ← copyChannel n size input ch (out ch) frame
      return Function.update out ch filled := by
    funext out ch
    exact copySample_eq ch
  rw [copyFrame, bodies, Channelwise.foldlM_update_iff
    (fun ch memory => copyChannel n size input ch memory frame) (List.nodup_finRange n)]
  simp [List.mem_finRange]

theorem extract_iff :
    extract n size input len out = .ok last ↔ ∀ ch : Fin n,
      (∀ frame < rounds len,
        n * (3 * size) * frame + 3 * size * ch + 3 * size ≤ input.length) ∧
      3 * size * rounds len ≤ (out ch).length ∧
      last ch = ((List.range (rounds len)).flatMap fun frame =>
          field input (n * (3 * size) * frame + 3 * size * ch) (3 * size)) ++
        (out ch).drop (3 * size * rounds len) := by
  rw [extract, Channelwise.foldlM_each (copyChannel n size input) fun _ _ _ => copyFrame_iff]
  apply forall_congr'
  intro ch
  exact Channelwise.foldlM_gather_iff

theorem frame_bytes (elements : n * size = 4) : n * (3 * size) = frameBytes := by
  rw [Nat.mul_left_comm, elements]
  rfl

theorem inside_iff (elements : n * size = 4) :
    (∀ ch : Fin n, ∀ frame < rounds len,
        n * (3 * size) * frame + 3 * size * ch + 3 * size ≤ len) ↔ len % frameBytes < 4 := by
  rw [frame_bytes elements]
  unfold rounds frameBytes
  constructor
  · intro inside
    by_contra above
    have some : n ≠ 0 := by
      rintro rfl
      omega
    have last := inside ⟨n - 1, by omega⟩ ((len / 4 + 2) / 3 - 1) (by omega)
    have channels : 3 * size * (n - 1) + 3 * size = 12 := by
      rw [← Nat.mul_succ, Nat.succ_eq_add_one, Nat.sub_add_cancel (Nat.pos_of_ne_zero some),
        Nat.mul_assoc, Nat.mul_comm size, elements]
    dsimp only at last
    omega
  · intro short ch frame small
    have part : size * (ch + 1) ≤ 4 := by
      rw [← elements, Nat.mul_comm n]
      exact Nat.mul_le_mul_left size ch.isLt
    rw [Nat.add_assoc, ← Nat.mul_succ, Nat.mul_assoc]
    rw [Nat.succ_eq_add_one]
    omega

theorem extract_whole {count : Nat} (elements : n * size = 4)
    (whole : input.length = frameBytes * count)
    (sized : ∀ ch, (out ch).length = 3 * size * count) :
    extract n size input input.length out = .ok fun ch => deal n (3 * size) ch input := by
  have frames : rounds input.length = count := by
    rw [whole]
    unfold rounds frameBytes
    omega
  rw [extract_iff, frames]
  intro ch
  refine ⟨fun frame small => ?_, (sized ch).ge, ?_⟩
  · have short : input.length % frameBytes < 4 := by
      rw [whole, Nat.mul_mod_right]
      decide
    have inside := (inside_iff elements).mpr short ch
    rw [frames] at inside
    exact inside frame small
  · rw [← sized ch, List.drop_length, List.append_nil, deal_whole]
    rw [frame_bytes elements]
    exact whole

def numbered (out : Channels n) (ch : Nat) : List UInt8 :=
  if small : ch < n then out ⟨ch, small⟩ else []

/-- Frames of samples of `w` bytes, from the memory of the channels. -/
def reinterleave (w count : Nat) (out : Channels n) : List UInt8 := merge n w count (numbered out)

structure Deinterleaved (input : List UInt8) : Prop where
  mono : ∀ out : Channels 4, (∀ ch, (out ch).length = input.length / 4) →
    ∃ filled, extractAudio1chC input input.length out = .ok filled
  stereo : ∀ out : Channels 2, (∀ pair, (out pair).length = input.length / 2) →
    ∃ filled, extractAudio2chC input input.length out = .ok filled
  whole : ∀ count, input.length = frameBytes * count → ∀ (four : Channels 4) (two : Channels 2),
    (∀ ch, (four ch).length = input.length / 4) → (∀ pair, (two pair).length = input.length / 2) →
    ∀ mono stereo, extractAudio1chC input input.length four = .ok mono →
    extractAudio2chC input input.length two = .ok stereo →
    reinterleave 3 count mono = input ∧ reinterleave 6 count stereo = input ∧
      ∀ pair : Fin 2, stereo pair = merge 2 3 count fun ch => numbered mono (pair * 2 + ch)

theorem numbered_deal {w ch : Nat} (small : ch < n) :
    numbered (fun ch : Fin n => deal n w ch input) ch = deal n w ch input := dif_pos small

theorem merge_numbered {w count : Nat} (bytes : n * w = frameBytes)
    (whole : input.length = frameBytes * count) :
    reinterleave w count (fun ch : Fin n => deal n w ch input) = input := by
  have same : reinterleave w count (fun ch : Fin n => deal n w ch input) =
      merge n w count fun ch => deal n w ch input := by
    apply List.flatMap_congr
    intro frame _
    apply List.flatMap_congr
    intro ch inside
    rw [numbered_deal (List.mem_range.mp inside)]
  rw [same]
  apply merge_all
  rw [whole, bytes]

/-- A block is in order exactly when less than a group of four bytes is left behind its frames. -/
theorem deinterleaved_iff (input : List UInt8) :
    Deinterleaved input ↔ input.length % frameBytes < 4 := by
  constructor
  · intro deinterleaved
    obtain ⟨filled, ran⟩ := deinterleaved.mono (fun _ => List.replicate (input.length / 4) 0)
      fun _ => List.length_replicate
    apply (inside_iff (by decide : 4 * 1 = 4)).mp
    exact fun ch => ((extract_iff.mp ran) ch).1
  · intro short
    have room : rounds input.length = input.length / 12 := by
      unfold rounds frameBytes at *
      omega
    refine ⟨fun out sized => ⟨_, extract_iff.mpr fun ch => ⟨?_, ?_, rfl⟩⟩,
      fun out sized => ⟨_, extract_iff.mpr fun pair => ⟨?_, ?_, rfl⟩⟩, ?_⟩
    · exact (inside_iff (by decide : 4 * 1 = 4)).mpr short ch
    · rw [sized, room]
      omega
    · exact (inside_iff (by decide : 2 * 2 = 4)).mpr short pair
    · rw [sized, room]
      omega
    · intro count whole four two sizedFour sizedTwo mono stereo ranMono ranStereo
      have length : input.length = 12 * count := whole
      have longFour : ∀ ch, (four ch).length = 3 * 1 * count := by
        intro ch
        rw [sizedFour, length]
        omega
      have longTwo : ∀ pair, (two pair).length = 3 * 2 * count := by
        intro pair
        rw [sizedTwo, length]
        omega
      cases Except.ok.inj (ranMono.symm.trans (extract_whole (by decide) whole longFour))
      cases Except.ok.inj (ranStereo.symm.trans (extract_whole (by decide) whole longTwo))
      refine ⟨merge_numbered (by decide) whole, merge_numbered (by decide) whole, fun pair => ?_⟩
      refine (merge_deal (w := 3) 2 2 pair pair.isLt whole).symm.trans ?_
      apply List.flatMap_congr
      intro frame _
      apply List.flatMap_congr
      intro ch inside
      have small : pair * 2 + ch < 4 := by
        have := List.mem_range.mp inside
        omega
      exact congrArg (field · (3 * frame) 3) (numbered_deal (n := 4) (w := 3) small).symm

theorem extract_reinterleave {count : Nat} (elements : n * size = 4) {channels : Channels n}
    (long : ∀ ch, (channels ch).length = 3 * size * count)
    (sized : ∀ ch, (out ch).length = 3 * size * count) :
    extract n size (reinterleave (3 * size) count channels) (frameBytes * count) out =
      .ok channels := by
  have each : ∀ ch < n, (numbered channels ch).length = 3 * size * count := by
    intro ch small
    rw [numbered, dif_pos small]
    exact long ⟨ch, small⟩
  have whole : (reinterleave (3 * size) count channels).length = frameBytes * count := by
    rw [reinterleave, length_merge each, frame_bytes elements]
  rw [← whole, extract_whole elements whole sized]
  congr 1
  funext ch
  rw [reinterleave, deal_merge each ch.isLt, numbered, dif_pos ch.isLt]

/-- The deinterleavers as a bijection, and the lengths for which they keep to their memory. -/
theorem deinterleaving_exact_iff (input : List UInt8) :
    (Deinterleaved input ↔ input.length % frameBytes < 4) ∧
    (∀ (count : Nat) (out mono : Channels 4), (∀ ch, (mono ch).length = 3 * count) →
      (∀ ch, (out ch).length = 3 * count) →
      extractAudio1chC (reinterleave 3 count mono) (frameBytes * count) out = .ok mono) ∧
    ∀ (count : Nat) (out stereo : Channels 2), (∀ pair, (stereo pair).length = 6 * count) →
      (∀ pair, (out pair).length = 6 * count) →
      extractAudio2chC (reinterleave 6 count stereo) (frameBytes * count) out = .ok stereo :=
  ⟨deinterleaved_iff input, fun _ _ _ long sized => extract_reinterleave (by decide) long sized,
    fun _ _ _ long sized => extract_reinterleave (by decide) long sized⟩

/-- Four bytes have a round of their own, for three bytes of each channel. -/
theorem deinterleaving_four_bytes : ¬Deinterleaved (List.replicate 4 0) := by
  intro deinterleaved
  obtain ⟨filled, ran⟩ := deinterleaved.mono (fun _ => [0]) fun _ => rfl
  have faults : extractAudio1chC (List.replicate 4 0) 4 (fun _ => [0]) = .error .write := rfl
  exact absurd (faults.symm.trans ran) nofun

end MisrcGui.Audio.Deinterleave
