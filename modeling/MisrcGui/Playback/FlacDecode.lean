import MisrcGui.Playback.Reading

/-! The decoders of `gui_playback.c` that are sought and then run: libFLAC calls the write
callback with the rest of the target's frame during `FLAC__stream_decoder_seek_absolute` and with
the next whole frame on each `FLAC__stream_decoder_process_single`. -/
namespace MisrcGui.Playback.FlacDecode

variable {Sample Sink : Type}

/-- The frames that are not delivered, and whether the state is
`FLAC__STREAM_DECODER_END_OF_STREAM`. -/
structure Decoder (Sample : Type) where
  rest : List (List Sample)
  ended : Bool
deriving DecidableEq

/-- `FLAC__stream_decoder_seek_absolute`; no frame holds a target behind the last sample. -/
def seekAbsolute (write : Sink → List Sample → Sink) (frames : List (List Sample)) (target : Nat)
    (sink : Sink) : Option (Decoder Sample × Sink) :=
  (sliceAt frames target).map fun found => (⟨found.2, false⟩, write sink found.1)

/-- `FLAC__stream_decoder_process_single` until the sink is full or no frame is left, which the
call behind the last frame finds out. -/
def process (full : Sink → Bool) (write : Sink → List Sample → Sink) :
    List (List Sample) → Sink → Decoder Sample × Sink
  | [], sink => (⟨[], !full sink⟩, sink)
  | frame :: rest, sink =>
    if full sink then (⟨frame :: rest, false⟩, sink)
    else process full write rest (write sink frame)

/-- The loop of a span: at the end of the stream it stops at once. -/
def decode (full : Sink → Bool) (write : Sink → List Sample → Sink) (decoder : Decoder Sample)
    (sink : Sink) : Decoder Sample × Sink :=
  if decoder.ended then (decoder, sink) else process full write decoder.rest sink

/-- What a run of the loop took of the stream: no more frames than it needed. -/
structure Taken (full : Sink → Bool) (write : Sink → List Sample → Sink)
    (frames : List (List Sample)) (sink : Sink) (result : Decoder Sample × Sink)
    (taken : List (List Sample)) : Prop where
  split : taken ++ result.1.rest = frames
  written : result.2 = taken.foldl write sink
  ended : result.1.ended = !full result.2
  short : result.1.ended → result.1.rest = []
  needed : ∀ before last, taken = before ++ [last] → full (before.foldl write sink) = false

variable {full : Sink → Bool} {write : Sink → List Sample → Sink}

theorem process_taken (full : Sink → Bool) (write : Sink → List Sample → Sink)
    (frames : List (List Sample)) (sink : Sink) :
    ∃ taken, Taken full write frames sink (process full write frames sink) taken := by
  induction frames generalizing sink with
  | nil => exact ⟨[], rfl, rfl, rfl, fun _ => rfl, by simp⟩
  | cons frame rest ih =>
    rw [process]
    split
    · rename_i enough
      exact ⟨[], rfl, rfl, by simp [enough], nofun, by simp⟩
    · rename_i more
      obtain ⟨taken, later⟩ := ih (write sink frame)
      refine ⟨frame :: taken, ?_, later.written, later.ended, later.short, ?_⟩
      · rw [List.cons_append, later.split]
      · intro before last same
        cases before with
        | nil => exact Bool.eq_false_iff.mpr more
        | cons first before =>
          obtain ⟨rfl, tail⟩ := List.cons.inj same
          exact later.needed before last tail

theorem seekAbsolute_inside (write : Sink → List Sample → Sink) {frames : List (List Sample)}
    {target : Nat} (inside : target < frames.flatten.length) (sink : Sink) :
    ∃ slice rest, seekAbsolute write frames target sink = some (⟨rest, false⟩, write sink slice) ∧
      slice ++ rest.flatten = frames.flatten.drop target := by
  cases found : sliceAt frames target with
  | some found' =>
    obtain ⟨slice, rest⟩ := found'
    exact ⟨slice, rest, by rw [seekAbsolute, found]; rfl, (sliceAt_eq found).2⟩
  | none =>
    exfalso
    induction frames generalizing target with
    | nil => simp at inside
    | cons frame frames ih =>
      rw [sliceAt] at found
      split at found
      · cases found
      · rw [List.flatten_cons, List.length_append] at inside
        exact ih (by omega) found

theorem seekAbsolute_outside {frames : List (List Sample)} {target : Nat}
    (outside : frames.flatten.length ≤ target) (sink : Sink) :
    seekAbsolute write frames target sink = none := by
  cases found : sliceAt frames target with
  | none => rw [seekAbsolute, found]; rfl
  | some found' =>
    obtain ⟨slice, rest⟩ := found'
    obtain ⟨some_, same⟩ := sliceAt_eq found
    rw [List.drop_of_length_le outside] at same
    exact absurd (List.append_eq_nil_iff.mp same).1 some_

end MisrcGui.Playback.FlacDecode
