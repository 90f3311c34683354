import Mathlib.Algebra.Group.Action.Defs
import Mathlib.Data.Rat.Floor
import Mathlib.Tactic.Positivity

/-! `gui_playback_check_total_samples`: the 36-bit total of a FLAC stream against the length of its
audio, with `long double` read as exact. -/
namespace MisrcGui.Playback.TotalCheck

def fieldMod : Nat := 2 ^ 36

/-- The fields of STREAMINFO that are looked at; a bound of zero is not given. -/
structure StreamInfo where
  minBlock : Nat
  maxBlock : Nat
  minFrame : Nat
  maxFrame : Nat
  channels : Nat
  bps : Nat
deriving DecidableEq

variable (info : StreamInfo)

def bytesPerSample : ℚ :=
  let bytes := info.channels * ((info.bps + 7) / 8)
  if bytes = 0 then 1 else bytes

def declaredMaxBytes (declared : Nat) : ℚ :=
  if 0 < info.minBlock ∧ 0 < info.maxFrame then
    ((declared : ℚ) / info.minBlock + 1) * info.maxFrame
  else (declared : ℚ) * bytesPerSample info * (105 / 100) + 65536

/-- The total with another number in front of its 36 bits, computed in 64. -/
def candidate (declared k : Nat) : Nat := (declared + k * fieldMod) % 2 ^ 64

/-- The loop over the candidates, with the rounds that are left: `unique` and `candidates`. -/
def countCandidates (declared : Nat) (lower upper : ℚ) :
    Nat → Nat → Nat → Nat → Nat × Nat
  | 0, _, unique, candidates => (unique, candidates)
  | rounds + 1, k, unique, candidates =>
    let c := candidate declared k
    if upper < c then (unique, candidates)
    else if lower ≤ c then
      if 1 < candidates + 1 then (c, candidates + 1)
      else countCandidates declared lower upper rounds (k + 1) c (candidates + 1)
    else countCandidates declared lower upper rounds (k + 1) unique candidates

def lowerBound (audioBytes : Nat) : ℚ := (audioBytes : ℚ) / info.maxFrame * info.minBlock

def upperBound (audioBytes : Nat) : ℚ := (audioBytes : ℚ) / info.minFrame * info.maxBlock

/-- `out_corrected` where the declared total is rejected. -/
def correctedTotal (declared audioBytes : Nat) : Nat :=
  if 0 < info.minBlock ∧ 0 < info.maxBlock ∧ 0 < info.minFrame ∧ 0 < info.maxFrame then
    let (unique, candidates) := countCandidates declared (lowerBound info audioBytes)
      (upperBound info audioBytes) 4095 1 0 0
    if candidates = 1 then unique else 0
  else 0

/-- `gui_playback_check_total_samples`: whether the total is accepted, and `out_corrected`. -/
def checkTotalSamples (declared audioBytes : Nat) : Bool × Nat :=
  if audioBytes = 0 then (true, 0)
  else if declared = 0 then (false, 0)
  else if (audioBytes : ℚ) ≤ declaredMaxBytes info declared then (true, 0)
  else (false, correctedTotal info declared audioBytes)

structure Frame where
  block : Nat
  bytes : Nat

def samples (frames : List Frame) : Nat := (frames.map Frame.block).sum

def audioBytes (frames : List Frame) : Nat := (frames.map Frame.bytes).sum

/-- What STREAMINFO says is true of the frames; the last may be shorter than the least block. -/
structure Truthful (frames : List Frame) : Prop where
  least : ∀ frame ∈ frames.dropLast, info.minBlock ≤ frame.block
  some : ∀ frame ∈ frames, 0 < frame.block
  most : ∀ frame ∈ frames, frame.block ≤ info.maxBlock
  shortest : ∀ frame ∈ frames, info.minFrame ≤ frame.bytes
  longest : info.maxFrame = 0 ∨ ∀ frame ∈ frames, frame.bytes ≤ info.maxFrame

/-- For a stream that declares the low bits of its total: the right total is not rejected, and a
correction is the right total. -/
def Sound (frames : List Frame) : Prop :=
  let checked := checkTotalSamples info (samples frames % fieldMod) (audioBytes frames)
  (samples frames % fieldMod = samples frames → checked.1 = true) ∧
    (checked.2 ≠ 0 → checked.2 = samples frames)

/-- The number `k` in front of the declared bits agrees with all bounds. -/
structure Candidate (declared audio k : Nat) : Prop where
  first : 1 ≤ k
  last : k < 4096
  lower : audio * info.minBlock ≤ (declared + k * fieldMod) * info.maxFrame
  upper : (declared + k * fieldMod) * info.minFrame ≤ audio * info.maxBlock

def AllGiven : Prop :=
  0 < info.minBlock ∧ 0 < info.maxBlock ∧ 0 < info.minFrame ∧ 0 < info.maxFrame

/-- The audio is not longer than what the total of the stream stands for at the longest frames. -/
def Reached (total audio : Nat) : Prop := audio * info.minBlock ≤ total * info.maxFrame

structure Settled (total audio : Nat) : Prop where
  whole : ¬ (0 < info.minBlock ∧ 0 < info.maxFrame) → total < fieldMod →
    (audio : ℚ) ≤ declaredMaxBytes info total
  unique : total % fieldMod = 0 ∨ (audio : ℚ) ≤ declaredMaxBytes info (total % fieldMod) ∨
    total < 4096 * fieldMod ∧ Reached info total audio ∨
    ¬ (AllGiven info ∧ ∃! k, Candidate info (total % fieldMod) audio k)

section loop
variable {declared : Nat} {lower upper : ℚ}

def Within (declared : Nat) (lower upper : ℚ) (k : Nat) : Prop :=
  lower ≤ (candidate declared k : ℚ) ∧ (candidate declared k : ℚ) ≤ upper

theorem candidate_eq {k : Nat} (small : declared < fieldMod) (few : k < 4096) :
    candidate declared k = declared + k * fieldMod := by
  unfold candidate
  unfold fieldMod at small ⊢
  exact Nat.mod_eq_of_lt (by omega)

theorem candidate_mono {j k : Nat} (small : declared < fieldMod) (few : k < 4096) (le : j ≤ k) :
    candidate declared j ≤ candidate declared k := by
  rw [candidate_eq small (by omega), candidate_eq small few]
  unfold fieldMod
  omega

theorem not_within {j k : Nat} (small : declared < fieldMod) (few : k < 4096) (le : j ≤ k)
    (beyond : upper < (candidate declared j : ℚ)) : ¬ Within declared lower upper k := by
  intro within
  have larger : (candidate declared j : ℚ) ≤ candidate declared k :=
    Nat.cast_le.mpr (candidate_mono small few le)
  linarith [within.2]

theorem count_second {rounds k unique : Nat} (small : declared < fieldMod)
    (end_eq : k + rounds = 4096) :
    (countCandidates declared lower upper rounds k unique 1).2 = 1 ↔
      ∀ j, k ≤ j → j < 4096 → ¬ Within declared lower upper j := by
  induction rounds generalizing k with
  | zero => exact ⟨fun _ j least most => by omega, fun _ => rfl⟩
  | succ rounds ih =>
    rw [countCandidates]
    split
    · rename_i beyond
      exact ⟨fun _ j least most => not_within small most least beyond, fun _ => rfl⟩
    rename_i below
    split
    · rename_i above
      rw [if_pos (by decide)]
      refine ⟨nofun, fun none => ?_⟩
      exact absurd ⟨above, not_lt.mp below⟩ (none k le_rfl (by omega))
    rename_i short
    rw [ih (by omega)]
    constructor
    · intro none j least most
      rcases least.eq_or_lt with rfl | later
      · exact fun within => short within.1
      · exact none j later most
    · exact fun none j least most => none j (by omega) most

theorem count_unique {rounds k unique : Nat} (end_eq : k + rounds = 4096)
    (one : (countCandidates declared lower upper rounds k unique 1).2 = 1) :
    (countCandidates declared lower upper rounds k unique 1).1 = unique := by
  induction rounds generalizing k with
  | zero => rfl
  | succ rounds ih =>
    rw [countCandidates] at one ⊢
    split
    · rfl
    rename_i below
    rw [if_neg below] at one
    split
    · rename_i above
      rw [if_pos above, if_pos (by decide)] at one
      cases one
    · rename_i short
      rw [if_neg short] at one
      exact ih (by omega) one

/-- The loop ends with one candidate if there is one only, and this is what it ends with. -/
theorem count_first {rounds k unique c : Nat} (small : declared < fieldMod)
    (end_eq : k + rounds = 4096) :
    (countCandidates declared lower upper rounds k unique 0).2 = 1 ∧
        (countCandidates declared lower upper rounds k unique 0).1 = c ↔
      ∃ j, k ≤ j ∧ j < 4096 ∧ Within declared lower upper j ∧ c = candidate declared j ∧
        ∀ i, k ≤ i → i < 4096 → Within declared lower upper i → i = j := by
  induction rounds generalizing k with
  | zero => exact ⟨nofun, fun ⟨j, least, most, _⟩ => by omega⟩
  | succ rounds ih =>
    rw [countCandidates]
    split
    · rename_i beyond
      refine ⟨nofun, fun ⟨j, least, most, within, _⟩ => ?_⟩
      exact absurd within (not_within small most least beyond)
    rename_i below
    split
    · rename_i above
      have here : Within declared lower upper k := ⟨above, not_lt.mp below⟩
      rw [if_neg (by decide)]
      constructor
      · rintro ⟨one, same⟩
        have none := (count_second small (by omega)).mp one
        rw [count_unique (by omega) one] at same
        refine ⟨k, le_rfl, by omega, here, same.symm, ?_⟩
        intro i least most within
        rcases least.eq_or_lt with rfl | later
        · rfl
        · exact absurd within (none i later most)
      · rintro ⟨j, least, most, within, rfl, only⟩
        cases only k le_rfl (by omega) here
        have one : (countCandidates declared lower upper rounds (k + 1)
            (candidate declared k) 1).2 = 1 := by
          rw [count_second small (by omega)]
          intro i later most within
          have := only i (by omega) most within
          omega
        exact ⟨one, count_unique (by omega) one⟩
    · rename_i short
      rw [ih (by omega)]
      have miss : ¬ Within declared lower upper k := fun within => short within.1
      constructor
      · rintro ⟨j, least, most, within, same, only⟩
        refine ⟨j, by omega, most, within, same, ?_⟩
        intro i low high inside
        rcases low.eq_or_lt with rfl | later
        · exact absurd inside miss
        · exact only i later high inside
      · rintro ⟨j, least, most, within, same, only⟩
        rcases least.eq_or_lt with rfl | later
        · exact absurd within miss
        · exact ⟨j, later, most, within, same, fun i low high => only i (by omega) high⟩

end loop

section stream
variable {info} {frames : List Frame}

theorem sum_le {size : Frame → Nat} {bound : Nat} (most : ∀ frame ∈ frames, size frame ≤ bound) :
    (frames.map size).sum ≤ frames.length * bound := by
  have sum := List.sum_le_card_nsmul (frames.map size) bound (List.forall_mem_map.mpr most)
  rwa [List.length_map, smul_eq_mul] at sum

theorem sum_ge {size : Frame → Nat} {bound : Nat} (least : ∀ frame ∈ frames, bound ≤ size frame) :
    frames.length * bound ≤ (frames.map size).sum := by
  have sum := List.card_nsmul_le_sum (frames.map size) bound (List.forall_mem_map.mpr least)
  rwa [List.length_map, smul_eq_mul] at sum

theorem samples_ge (truthful : Truthful info frames) :
    (frames.length - 1) * info.minBlock ≤ samples frames := by
  have front := sum_ge truthful.least
  rw [List.length_dropLast] at front
  apply front.trans
  cases frames using List.reverseRecOn with
  | nil => exact Nat.le_refl 0
  | append_singleton front last =>
    unfold samples
    rw [List.dropLast_concat, List.map_append, List.sum_append]
    exact Nat.le_add_right _ _

theorem samples_pos (truthful : Truthful info frames) (some : frames ≠ []) :
    0 < samples frames := by
  cases frames with
  | nil => exact absurd rfl some
  | cons frame rest =>
    have first := truthful.some frame List.mem_cons_self
    unfold samples
    rw [List.map_cons, List.sum_cons]
    omega

theorem declaredMaxBytes_ge (given : 0 < info.minBlock ∧ 0 < info.maxFrame)
    (truthful : Truthful info frames) :
    (audioBytes frames : ℚ) ≤ declaredMaxBytes info (samples frames) := by
  have bytes : (audioBytes frames : ℚ) ≤ frames.length * info.maxFrame := by
    exact_mod_cast sum_le (truthful.longest.resolve_left given.2.ne')
  have blocks : ((frames.length - 1 : Nat) : ℚ) * info.minBlock ≤ samples frames := by
    exact_mod_cast samples_ge truthful
  have positive : (0 : ℚ) < info.minBlock := by exact_mod_cast given.1
  have count : (frames.length : ℚ) ≤ (samples frames : ℚ) / info.minBlock + 1 := by
    have fewer : (frames.length : ℚ) ≤ ((frames.length - 1 : Nat) : ℚ) + 1 := by
      exact_mod_cast Nat.le_add_of_sub_le le_rfl
    have quotient := (le_div_iff₀ positive).mpr blocks
    linarith
  rw [declaredMaxBytes, if_pos given]
  exact bytes.trans (mul_le_mul_of_nonneg_right count (Nat.cast_nonneg _))

theorem declaredMaxBytes_nonneg (declared : Nat) : 0 ≤ declaredMaxBytes info declared := by
  unfold declaredMaxBytes bytesPerSample
  dsimp only
  split
  · positivity
  · split <;> positivity

theorem within_iff (given : AllGiven info) {declared audio k : Nat} (small : declared < fieldMod)
    (few : k < 4096) :
    Within declared (lowerBound info audio) (upperBound info audio) k ↔
      audio * info.minBlock ≤ (declared + k * fieldMod) * info.maxFrame ∧
        (declared + k * fieldMod) * info.minFrame ≤ audio * info.maxBlock := by
  obtain ⟨-, -, minFrame, maxFrame⟩ := given
  have long : (0 : ℚ) < info.maxFrame := by exact_mod_cast maxFrame
  have short : (0 : ℚ) < info.minFrame := by exact_mod_cast minFrame
  unfold Within lowerBound upperBound
  rw [candidate_eq small few, div_mul_eq_mul_div, div_mul_eq_mul_div, div_le_iff₀ long,
    le_div_iff₀ short]
  norm_cast

theorem correctedTotal_iff (given : AllGiven info) {declared audio c : Nat}
    (small : declared < fieldMod) (nonzero : c ≠ 0) :
    correctedTotal info declared audio = c ↔
      ∃ k, Candidate info declared audio k ∧ c = declared + k * fieldMod ∧
        ∀ i, Candidate info declared audio i → i = k := by
  have counted : (countCandidates declared (lowerBound info audio) (upperBound info audio)
      4095 1 0 0).2 = 1 ∧ (countCandidates declared (lowerBound info audio)
        (upperBound info audio) 4095 1 0 0).1 = c ↔ _ := count_first small (by decide)
  have bounds : 0 < info.minBlock ∧ 0 < info.maxBlock ∧ 0 < info.minFrame ∧ 0 < info.maxFrame :=
    given
  rw [correctedTotal, if_pos bounds]
  dsimp only
  constructor
  · intro same
    split at same
    · rename_i one
      obtain ⟨k, first, last, within, eq, only⟩ := counted.mp ⟨one, same⟩
      obtain ⟨lower, upper⟩ := (within_iff given small last).mp within
      refine ⟨k, ⟨first, last, lower, upper⟩, eq.trans (candidate_eq small last), ?_⟩
      intro i other
      exact only i other.first other.last
        ((within_iff given small other.last).mpr ⟨other.lower, other.upper⟩)
    · exact absurd same.symm nonzero
  · rintro ⟨k, here, eq, only⟩
    have found := counted.mpr ⟨k, here.first, here.last,
      (within_iff given small here.last).mpr ⟨here.lower, here.upper⟩,
      eq.trans (candidate_eq small here.last).symm, ?_⟩
    · rw [if_pos found.1]
      exact found.2
    · intro i least most within
      obtain ⟨lower, upper⟩ := (within_iff given small most).mp within
      exact only i ⟨least, most, lower, upper⟩

/-- The right total is a candidate if it has one of the numbers that are tried and is not too
small for the audio. -/
theorem candidate_of_reached (truthful : Truthful info frames)
    (large : fieldMod ≤ samples frames) (few : samples frames < 4096 * fieldMod)
    (reached : Reached info (samples frames) (audioBytes frames)) :
    Candidate info (samples frames % fieldMod) (audioBytes frames)
      (samples frames / fieldMod) := by
  have whole : samples frames % fieldMod + samples frames / fieldMod * fieldMod =
      samples frames := Nat.mod_add_div' _ _
  refine ⟨?_, ?_, ?_, ?_⟩
  · exact (Nat.one_le_div_iff (by decide)).mpr large
  · exact Nat.div_lt_of_lt_mul (Nat.mul_comm 4096 fieldMod ▸ few)
  · rw [whole]
    exact reached
  · rw [whole]
    calc samples frames * info.minFrame
        ≤ frames.length * info.maxBlock * info.minFrame :=
          Nat.mul_le_mul_right _ (sum_le truthful.most)
      _ = frames.length * info.minFrame * info.maxBlock := by ring
      _ ≤ audioBytes frames * info.maxBlock := Nat.mul_le_mul_right _ (sum_ge truthful.shortest)

end stream

/-- Where the check is right; where it is not, a short last frame lets the right total fall below
the lower bound and another one remains, or the right total has a number that is not tried. -/
theorem total_sound_iff {info : StreamInfo} {frames : List Frame}
    (truthful : Truthful info frames) :
    Sound info frames ↔ Settled info (samples frames) (audioBytes frames) := by
  have small : samples frames % fieldMod < fieldMod := Nat.mod_lt _ (by decide)
  have own : samples frames < fieldMod ↔ samples frames % fieldMod = samples frames :=
    (Nat.mod_eq_iff_lt (by decide)).symm
  by_cases silent : audioBytes frames = 0
  · have checked : checkTotalSamples info (samples frames % fieldMod) (audioBytes frames) =
        (true, 0) := if_pos silent
    have fits (declared : Nat) : (audioBytes frames : ℚ) ≤ declaredMaxBytes info declared := by
      rw [silent, Nat.cast_zero]
      exact declaredMaxBytes_nonneg declared
    unfold Sound
    rw [checked]
    exact ⟨fun _ => ⟨fun _ _ => fits _, .inr (.inl (fits _))⟩, fun _ => ⟨fun _ => rfl, nofun⟩⟩
  have some : frames ≠ [] := fun none => silent (none ▸ rfl)
  have positive := samples_pos truthful some
  by_cases zero : samples frames % fieldMod = 0
  · have checked : checkTotalSamples info (samples frames % fieldMod) (audioBytes frames) =
        (false, 0) := by rw [checkTotalSamples, if_neg silent, if_pos zero]
    unfold Sound
    rw [checked]
    refine ⟨fun _ => ⟨fun _ low => ?_, .inl zero⟩, fun _ => ⟨fun same => ?_, nofun⟩⟩
    · have := own.mp low
      omega
    · omega
  by_cases fits : (audioBytes frames : ℚ) ≤ declaredMaxBytes info (samples frames % fieldMod)
  · have checked : checkTotalSamples info (samples frames % fieldMod) (audioBytes frames) =
        (true, 0) := by rw [checkTotalSamples, if_neg silent, if_neg zero, if_pos fits]
    unfold Sound
    rw [checked]
    refine ⟨fun _ => ⟨fun _ low => ?_, .inr (.inl fits)⟩, fun _ => ⟨fun _ => rfl, nofun⟩⟩
    rwa [own.mp low] at fits
  have checked : checkTotalSamples info (samples frames % fieldMod) (audioBytes frames) =
      (false, correctedTotal info (samples frames % fieldMod) (audioBytes frames)) := by
    rw [checkTotalSamples, if_neg silent, if_neg zero, if_neg fits]
  unfold Sound
  rw [checked]
  dsimp only
  constructor
  · rintro ⟨whole, corrected⟩
    have large : fieldMod ≤ samples frames := by
      by_contra low
      cases whole (own.mp (Nat.not_le.mp low))
    refine ⟨fun _ low => absurd low (Nat.not_lt.mpr large), ?_⟩
    by_cases unique : AllGiven info ∧
        ∃! k, Candidate info (samples frames % fieldMod) (audioBytes frames) k
    · obtain ⟨given, k, here, only⟩ := unique
      have nonzero : samples frames % fieldMod + k * fieldMod ≠ 0 := by omega
      have reported := (correctedTotal_iff given small nonzero).mpr ⟨k, here, rfl, only⟩
      have right := corrected (reported ▸ nonzero)
      rw [reported] at right
      refine .inr (.inr (.inl ⟨?_, ?_⟩))
      · have few := here.last
        unfold fieldMod at small right ⊢
        omega
      · have lower := here.lower
        rwa [right] at lower
    · exact .inr (.inr (.inr unique))
  · rintro ⟨whole, unique⟩
    have large : fieldMod ≤ samples frames := by
      by_contra low
      have low := Nat.not_le.mp low
      rw [own.mp low] at fits
      by_cases given : 0 < info.minBlock ∧ 0 < info.maxFrame
      · exact fits (declaredMaxBytes_ge given truthful)
      · exact fits (whole given low)
    refine ⟨fun same => ?_, fun nonzero => ?_⟩
    · omega
    by_cases given : AllGiven info
    · obtain ⟨k, here, eq, only⟩ := (correctedTotal_iff given small nonzero).mp rfl
      rcases unique with none | fit | ⟨few, reached⟩ | no
      · exact absurd none zero
      · exact absurd fit fits
      · have right := only _ (candidate_of_reached truthful large few reached)
        rw [eq, ← right, Nat.mod_add_div']
      · exact absurd ⟨given, k, here, only⟩ no
    · exact absurd (if_neg given) nonzero

/-- Verbatim frames of 16 bits with twenty bytes around the samples. -/
def verbatimInfo : StreamInfo := ⟨4096, 4096, 3500, 8212, 1, 16⟩

/-- Some frames of 4096 samples and a last one of 1740. -/
def verbatimFrames (count : Nat) : List Frame :=
  List.replicate count ⟨4096, 8212⟩ ++ [⟨1740, 3500⟩]

theorem verbatim_truthful (count : Nat) : Truthful verbatimInfo (verbatimFrames count) := by
  have one : ∀ frame ∈ verbatimFrames count, frame = ⟨4096, 8212⟩ ∨ frame = ⟨1740, 3500⟩ := by
    intro frame member
    rcases List.mem_append.mp member with front | last
    · exact .inl (List.mem_replicate.mp front).2
    · exact .inr (List.mem_singleton.mp last)
  refine ⟨?_, ?_, ?_, ?_, .inr ?_⟩
  · intro frame member
    rw [verbatimFrames, List.dropLast_concat] at member
    rw [(List.mem_replicate.mp member).2]
    decide
  all_goals
    intro frame member
    rcases one frame member with rfl | rfl <;> decide

theorem verbatim_samples (count : Nat) : samples (verbatimFrames count) = count * 4096 + 1740 := by
  unfold samples verbatimFrames
  simp

theorem verbatim_audioBytes (count : Nat) :
    audioBytes (verbatimFrames count) = count * 8212 + 3500 := by
  unfold audioBytes verbatimFrames
  simp

theorem total_sound_verbatim : Sound verbatimInfo (verbatimFrames 2) := by
  rw [total_sound_iff (verbatim_truthful 2)]
  have given : 0 < verbatimInfo.minBlock ∧ 0 < verbatimInfo.maxFrame := by decide
  refine ⟨fun unknown => absurd given unknown, .inr (.inl ?_)⟩
  rw [verbatim_samples, verbatim_audioBytes]
  decide +kernel

/-- A stream of 2 ^ 36 + 1740 samples is said to have 2 ^ 37 + 1740. -/
theorem short_last_frame : Truthful verbatimInfo (verbatimFrames (2 ^ 24)) ∧
    ¬ Sound verbatimInfo (verbatimFrames (2 ^ 24)) := by
  refine ⟨verbatim_truthful _, fun sound => ?_⟩
  have checked : checkTotalSamples verbatimInfo ((2 ^ 24 * 4096 + 1740) % fieldMod)
      (2 ^ 24 * 8212 + 3500) = (false, 2 ^ 37 + 1740) := by
    decide +kernel
  have right := sound.2
  rw [verbatim_samples, verbatim_audioBytes, checked] at right
  exact absurd (right (by decide)) (by decide)

end MisrcGui.Playback.TotalCheck
