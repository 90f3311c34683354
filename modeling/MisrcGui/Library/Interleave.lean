import Mathlib.Data.List.Range
import Mathlib.Tactic.Ring
import MisrcGui.Library.Layout

/-! Streams of interleaved channels: a frame holds one sample of each of `n` channels, a sample
holds `w` symbols. -/
namespace Library.Interleave
open Library.Layout (field length_field)

variable {Symbol : Type*} {n w : ℕ}

theorem field_add (buffer : List Symbol) (offset first second : ℕ) :
    field buffer offset (first + second) =
      field buffer offset first ++ field buffer (offset + first) second := by
  rw [field, field, field, List.take_add, List.drop_drop]

theorem flatMap_field (buffer : List Symbol) (offset w count : ℕ) :
    ((List.range count).flatMap fun i => field buffer (offset + w * i) w) =
      field buffer offset (w * count) := by
  induction count with
  | zero => simp [field]
  | succ count ih =>
    rw [List.range_succ, List.flatMap_append, ih, List.flatMap_singleton, Nat.mul_succ, field_add]

theorem field_part (buffer : List Symbol) (offset : ℕ) {inner width outer : ℕ}
    (inside : inner + width ≤ outer) :
    field (field buffer offset outer) inner width = field buffer (offset + inner) width := by
  rw [field, field, field, List.drop_take, List.take_take, List.drop_drop, Nat.min_eq_left]
  omega

theorem field_flatMap {part : ℕ → List Symbol} {count i : ℕ}
    (uniform : ∀ i < count, (part i).length = w) (small : i < count) :
    field ((List.range count).flatMap part) (w * i) w = part i := by
  induction i generalizing part count with
  | zero =>
    obtain ⟨count, rfl⟩ : ∃ others, count = others + 1 := ⟨count - 1, by omega⟩
    rw [List.range_succ_eq_map, List.flatMap_cons, Nat.mul_zero, field, List.drop_zero,
      List.take_left' (uniform 0 small)]
  | succ i ih =>
    obtain ⟨count, rfl⟩ : ∃ others, count = others + 1 := ⟨count - 1, by omega⟩
    have first : (part 0).length = w := uniform 0 (by omega)
    have later : field ((List.range count).flatMap fun i => part (i + 1)) (w * i) w =
        part (i + 1) := ih (fun i small => uniform (i + 1) (by omega)) (by omega)
    rw [List.range_succ_eq_map, List.flatMap_cons, List.flatMap_map, Nat.mul_succ, Nat.add_comm,
      ← first, Layout.field_append_right, first]
    exact later

/-- What channel `ch` has of a stream, in its last frame as far as the stream goes. -/
def deal (n w ch : ℕ) (stream : List Symbol) : List Symbol :=
  (List.range ((stream.length + n * w - 1) / (n * w))).flatMap fun frame =>
    field stream (n * w * frame + w * ch) w

/-- The stream of `count` frames of the channels. -/
def merge (n w count : ℕ) (channels : ℕ → List Symbol) : List Symbol :=
  (List.range count).flatMap fun frame =>
    (List.range n).flatMap fun ch => field (channels ch) (w * frame) w

section whole

variable {stream : List Symbol} {count frame ch : ℕ}

theorem sample_inside (small : frame < count) (channel : ch < n) :
    n * w * frame + w * ch + w ≤ n * w * count := by
  have last : w * (ch + 1) ≤ w * n := Nat.mul_le_mul_left w channel
  have later : n * w * (frame + 1) ≤ n * w * count := Nat.mul_le_mul_left (n * w) small
  rw [Nat.mul_succ, Nat.mul_comm w n] at last
  rw [Nat.mul_succ] at later
  omega

theorem deal_whole (whole : stream.length = n * w * count) (ch : ℕ) :
    deal n w ch stream =
      (List.range count).flatMap fun frame => field stream (n * w * frame + w * ch) w := by
  rcases Nat.eq_zero_or_pos (n * w) with none | some
  · rw [none, Nat.zero_mul] at whole
    have nothing (frames : ℕ) :
        ((List.range frames).flatMap fun frame => field stream (n * w * frame + w * ch) w) =
          [] := by
      rw [List.flatMap_eq_nil_iff, List.eq_nil_of_length_eq_zero whole]
      simp [field]
    rw [deal, nothing, nothing]
  have frames : (n * w * count + n * w - 1) / (n * w) = count := by
    rw [Nat.add_sub_assoc some, Nat.mul_add_div some, Nat.div_eq_of_lt (by omega), Nat.add_zero]
  rw [deal, whole, frames]

theorem length_sample (whole : stream.length = n * w * count) (small : frame < count)
    (channel : ch < n) : (field stream (n * w * frame + w * ch) w).length = w := by
  apply length_field
  rw [whole]
  exact sample_inside small channel

theorem length_uniform {part : ℕ → List Symbol} (uniform : ∀ i < count, (part i).length = w) :
    ((List.range count).flatMap part).length = w * count := by
  induction count with
  | zero => rfl
  | succ count ih =>
    rw [List.range_succ, List.flatMap_append, List.length_append, List.flatMap_singleton,
      uniform count (Nat.lt_succ_self count), ih fun i small => uniform i (Nat.lt_succ_of_lt small),
      Nat.mul_succ]

theorem field_deal (whole : stream.length = n * w * count) (small : frame < count)
    (channel : ch < n) :
    field (deal n w ch stream) (w * frame) w = field stream (n * w * frame + w * ch) w := by
  rw [deal_whole whole]
  exact field_flatMap (fun frame small => length_sample whole small channel) small

/-- Channels of `k` samples at once are merged from the channels of single samples. -/
theorem merge_deal (m k p : ℕ) (below : p < m) (whole : stream.length = m * k * w * count) :
    merge k w count (fun j => deal (m * k) w (p * k + j) stream) = deal m (k * w) p stream := by
  rw [merge, deal_whole (by rw [whole, Nat.mul_assoc m k w] : stream.length = m * (k * w) * count)]
  apply List.flatMap_congr
  intro frame small
  have sample : ∀ j ∈ List.range k,
      field (deal (m * k) w (p * k + j) stream) (w * frame) w =
        field stream (m * (k * w) * frame + k * w * p + w * j) w := by
    intro j inside
    have channel : p * k + j < m * k := by
      have next : (p + 1) * k ≤ m * k := Nat.mul_le_mul_right k below
      rw [Nat.add_mul, Nat.one_mul] at next
      have := List.mem_range.mp inside
      omega
    rw [field_deal whole (List.mem_range.mp small) channel]
    congr 1
    ring
  rw [List.flatMap_congr sample, flatMap_field, Nat.mul_comm w k]

theorem merge_all (whole : stream.length = n * w * count) :
    merge n w count (fun ch => deal n w ch stream) = stream := by
  have one := merge_deal 1 n 0 Nat.zero_lt_one (by rw [whole, Nat.one_mul])
  simp only [Nat.one_mul, Nat.zero_mul, Nat.zero_add] at one
  rw [one, deal_whole (by rw [whole, Nat.one_mul] : stream.length = 1 * (n * w) * count)]
  have parts := flatMap_field stream 0 (n * w) count
  simp only [Nat.zero_add] at parts
  simp only [Nat.one_mul, Nat.mul_zero, Nat.add_zero]
  rw [parts, field, List.drop_zero, ← whole, List.take_length]

end whole

section channels

variable {channels : ℕ → List Symbol} {count : ℕ}

theorem length_frame {frame : ℕ} (long : ∀ ch < n, (channels ch).length = w * count)
    (small : frame < count) :
    ((List.range n).flatMap fun ch => field (channels ch) (w * frame) w).length = n * w := by
  rw [length_uniform, Nat.mul_comm]
  intro ch channel
  apply length_field
  rw [long ch channel, ← Nat.mul_succ]
  exact Nat.mul_le_mul_left w small

theorem length_merge (long : ∀ ch < n, (channels ch).length = w * count) :
    (merge n w count channels).length = n * w * count :=
  length_uniform fun _ small => length_frame long small

theorem deal_merge (long : ∀ ch < n, (channels ch).length = w * count) {ch : ℕ}
    (channel : ch < n) : deal n w ch (merge n w count channels) = channels ch := by
  rw [deal_whole (length_merge long)]
  have samples : ∀ frame ∈ List.range count,
      field (merge n w count channels) (n * w * frame + w * ch) w =
        field (channels ch) (0 + w * frame) w := by
    intro frame inside
    have small := List.mem_range.mp inside
    have part : w * ch + w ≤ n * w := by
      rw [← Nat.mul_succ, Nat.mul_comm n w]
      exact Nat.mul_le_mul_left w channel
    rw [← field_part _ _ part, merge, field_flatMap (fun _ small => length_frame long small) small,
      field_flatMap ?_ channel, Nat.zero_add]
    intro ch channel
    apply length_field
    rw [long ch channel, ← Nat.mul_succ]
    exact Nat.mul_le_mul_left w small
  rw [List.flatMap_congr samples, flatMap_field, field, List.drop_zero, ← long ch channel,
    List.take_length]

end channels

theorem deal_append {front : List Symbol} {count : ℕ} (whole : front.length = n * w * count)
    {ch : ℕ} (channel : ch < n) (later : List Symbol) :
    deal n w ch (front ++ later) = deal n w ch front ++ deal n w ch later := by
  rcases Nat.eq_zero_or_pos (n * w) with none | some
  · have narrow : w = 0 := by
      rcases Nat.mul_eq_zero.mp none with rfl | narrow
      · exact absurd channel (Nat.not_lt_zero ch)
      · exact narrow
    subst narrow
    simp [deal, field]
  have frames : ((front ++ later).length + n * w - 1) / (n * w) =
      count + (later.length + n * w - 1) / (n * w) := by
    rw [List.length_append, whole, Nat.add_assoc, Nat.add_sub_assoc (by omega),
      Nat.mul_add_div some]
  rw [deal_whole whole, deal, frames, List.range_add, List.flatMap_append, List.flatMap_map, deal]
  congr 1
  · apply List.flatMap_congr
    intro frame inside
    apply Layout.field_append
    rw [whole]
    exact sample_inside (List.mem_range.mp inside) channel
  · apply List.flatMap_congr
    intro frame _
    have place : n * w * (count + frame) + w * ch =
        front.length + (n * w * frame + w * ch) := by
      rw [whole]
      ring
    rw [place]
    exact Layout.field_append_right later

theorem deal_short {rest : List Symbol} (short : rest.length < n * w) (ch : ℕ) :
    deal n w ch rest = field rest (w * ch) w := by
  rcases Nat.eq_zero_or_pos rest.length with none | some
  · have empty := List.eq_nil_of_length_eq_zero none
    subst empty
    have frames : (0 + n * w - 1) / (n * w) = 0 := Nat.div_eq_of_lt (by omega)
    rw [deal, List.length_nil, frames]
    simp [field]
  · have frames : (rest.length + n * w - 1) / (n * w) = 1 := by
      apply Nat.div_eq_of_lt_le
      · omega
      · omega
    rw [deal, frames, List.range_one, List.flatMap_singleton, Nat.mul_zero, Nat.zero_add]

theorem deal_cut {stream : List Symbol} {count ch : ℕ} (channel : ch < n)
    (below : n * w * count ≤ stream.length) (above : stream.length < n * w * (count + 1)) :
    deal n w ch stream =
      ((List.range count).flatMap fun frame => field stream (n * w * frame + w * ch) w) ++
        field stream (n * w * count + w * ch) w := by
  have front : (stream.take (n * w * count)).length = n * w * count := by
    rw [List.length_take]
    omega
  have rest : (stream.drop (n * w * count)).length < n * w := by
    rw [List.length_drop]
    rw [Nat.mul_succ] at above
    omega
  have split := deal_append front channel (stream.drop (n * w * count))
  rw [List.take_append_drop, deal_whole front, deal_short rest] at split
  rw [split, field, field, List.drop_drop]
  congr 1
  apply List.flatMap_congr
  intro frame inside
  have small := sample_inside (w := w) (List.mem_range.mp inside) channel
  rw [field, field, List.drop_take, List.take_take, Nat.min_eq_left (by omega)]

end Library.Interleave
