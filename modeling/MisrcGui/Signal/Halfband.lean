import MisrcGui.Library.Decimation
import Mathlib.Tactic.NormNum

/-! The RF decimator of the previews (`gui_rf_resampler.c`) at its exact ratios, with its float
arithmetic read as arithmetic of rational numbers. -/
namespace MisrcGui.Signal.Halfband
open Library.Decimation

/-- `RF_OUTPUT_RATE_HZ` and `RF_WIDE_OUTPUT_RATE_HZ`. -/
def outputRateHz : ℕ := 20000000

def wideOutputRateHz : ℕ := 40000000

def minInputRateHz : ℕ := 16000000

def maxInputRateHz : ℕ := 200000000

def coefficients : List ℚ :=
  [0.5000046374907835, 0.3126333216205309, -0.09010692207961689, 0.040107417651266825,
    -0.017917030421899405, 0.007100857132041433, -0.0022302855185240434, 0.00041032287080936366]

def coefficient (tap : ℕ) : ℚ := coefficients.getD tap 0

/-- `rf_halfband_t`. -/
structure Stage where
  history : ℕ → ℚ
  writeIndex : ℕ
  phase : ℕ

def Stage.zero : Stage := ⟨fun _ => 0, 0, 0⟩

/-- The sum over the history, with `newest` the index of its newest sample. -/
def Stage.value (stage : Stage) (newest : ℕ) : ℚ :=
  (List.range' 1 7).foldl
    (fun value tap =>
      let offset := 2 * tap - 1
      value + coefficient tap * (stage.history ((newest + 32 - (15 - offset)) % 32) +
        stage.history ((newest + 32 - (15 + offset)) % 32)))
    (coefficient 0 * stage.history ((newest + 32 - 15) % 32))

def Stage.push (stage : Stage) (sample : ℚ) : Option ℚ × Stage :=
  let newest := stage.writeIndex
  let written : Stage :=
    { history := Function.update stage.history newest sample
      writeIndex := (newest + 1) % 32
      phase := stage.phase ^^^ 1 }
  if stage.phase = 0 then (some (written.value newest), written) else (none, written)

structure Resampler where
  inputRate : ℕ
  outputRate : ℕ
  factor : ℕ
  edBeta : Bool
  stages : Stage × Stage

def inputRateValid (rate : ℕ) : Bool := minInputRateHz ≤ rate && rate ≤ maxInputRateHz

def outputRateValid (rate : ℕ) : Bool := rate = outputRateHz || rate = wideOutputRateHz

/-- `rf_resampler_create` without libsoxr, which takes the other ratios. -/
def create (inputRate outputRate : ℕ) (edBeta : Bool) : Option Resampler :=
  if !inputRateValid inputRate || !outputRateValid outputRate ||
      (edBeta && inputRate < outputRateHz) then none
  else if inputRate = outputRate then
    some ⟨inputRate, outputRate, 1, edBeta, .zero, .zero⟩
  else if !edBeta && inputRate = outputRate * 2 then
    some ⟨inputRate, outputRate, 2, edBeta, .zero, .zero⟩
  else if !edBeta && inputRate = outputRate * 4 then
    some ⟨inputRate, outputRate, 4, edBeta, .zero, .zero⟩
  else none

def reset (resampler : Resampler) : Resampler := { resampler with stages := (.zero, .zero) }

/-- `rf_output_capacity` without libsoxr. -/
def outputCapacity (inputRate outputRate inputCount : ℕ) (edBeta : Bool) : ℕ :=
  if !inputRateValid inputRate || !outputRateValid outputRate || inputCount = 0 ||
      (edBeta && inputRate < outputRateHz) then 0
  else if inputRate = outputRate then inputCount
  else if !edBeta && inputRate = outputRate * 2 then
    inputCount / 2 + (if inputCount % 2 ≠ 0 then 1 else 0)
  else if !edBeta && inputRate = outputRate * 4 then
    inputCount / 4 + (if inputCount % 4 ≠ 0 then 1 else 0)
  else 0

def normalized (sample : Int16) : ℚ := sample.toInt * (1 / 32768)

/-- One turn of the loop: the value that is written, if a stage does not keep it. -/
def pushSample (factor : ℕ) (stages : Stage × Stage) (value : ℚ) :
    Option ℚ × (Stage × Stage) :=
  if 2 ≤ factor then
    match stages.1.push value with
    | (none, first) => (none, first, stages.2)
    | (some value, first) =>
      if factor = 4 then
        let (output, second) := stages.2.push value
        (output, first, second)
      else (some value, first, stages.2)
  else (some value, stages)

def loop (factor : ℕ) (stages : Stage × Stage) : List Int16 → List ℚ × (Stage × Stage)
  | [] => ([], stages)
  | sample :: rest =>
    let (value, stages) := pushSample factor stages (normalized sample)
    let (output, stages) := loop factor stages rest
    (value.toList ++ output, stages)

/-- `gui_rf_resampler_process`: what it writes, or nothing when it fails. -/
def process (resampler : Resampler) (input : List Int16) (capacity : ℕ) :
    Option (List ℚ) × Resampler :=
  if input.length = 0 then (some [], resampler)
  else
    let needed := outputCapacity resampler.inputRate resampler.outputRate input.length
      resampler.edBeta
    if needed = 0 ∨ capacity < needed then (none, resampler)
    else if resampler.factor ≠ 0 then
      let (output, stages) := loop resampler.factor resampler.stages input
      (some output, { resampler with stages })
    else (none, resampler)

def Resampler.capacity (resampler : Resampler) (input : List Int16) : ℕ :=
  outputCapacity resampler.inputRate resampler.outputRate input.length resampler.edBeta

def run (resampler : Resampler) : List (List Int16) → List (Option (List ℚ))
  | [] => []
  | input :: rest =>
    let (output, resampler) := process resampler input (resampler.capacity input)
    output :: run resampler rest

inductive Reached : Resampler → Prop
  | created {inputRate outputRate : ℕ} {edBeta : Bool} {resampler : Resampler}
      (made : create inputRate outputRate edBeta = some resampler) : Reached resampler
  | processed {resampler : Resampler} (reached : Reached resampler) (input : List Int16)
      (capacity : ℕ) : Reached (process resampler input capacity).2
  | cleared {resampler : Resampler} (reached : Reached resampler) : Reached (reset resampler)

def Fresh (start : Resampler) : Prop :=
  (∃ inputRate outputRate edBeta, create inputRate outputRate edBeta = some start) ∨
    ∃ resampler, Reached resampler ∧ start = reset resampler

/-- The symmetric halfband response of 31 taps: the centre, and every odd distance from it. -/
def tap (age : ℕ) : ℚ :=
  let distance := (age - 15) + (15 - age)
  if distance = 0 then coefficient 0
  else if distance % 2 = 1 then coefficient ((distance + 1) / 2)
  else 0

def filtered (signal : List ℚ) : List ℚ := halved tap 31 signal

def decimated (factor : ℕ) (signal : List ℚ) : List ℚ :=
  if factor = 4 then filtered (filtered signal) else filtered signal

theorem fir_tap (signal : ℤ → ℚ) (time : ℤ) : fir tap 31 signal time =
    coefficient 0 * signal (time - 15) +
      ((List.range' 1 7).map fun index : ℕ =>
        coefficient index * (signal (time - (15 - (2 * index - 1) : ℕ)) +
          signal (time - (15 + (2 * index - 1) : ℕ)))).sum := by
  have outer : coefficient 8 = 0 := by rfl
  simp [fir, Finset.sum_range_succ, tap, List.range', outer]
  ring

variable {stage : Stage} {signal : List ℚ}

structure After (signal : List ℚ) (stage : Stage) : Prop where
  history : Holds 32 stage.history signal
  writeIndex : stage.writeIndex = signal.length % 32
  phase : stage.phase = signal.length % 2

theorem after_nil : After [] .zero where
  history := holds_nil fun _ => rfl
  writeIndex := rfl
  phase := rfl

theorem foldl_add (terms : List ℕ) (term : ℕ → ℚ) (start : ℚ) :
    terms.foldl (fun value tap => value + term tap) start = start + (terms.map term).sum := by
  induction terms generalizing start with
  | nil => simp
  | cons tap rest ih => rw [List.foldl_cons, ih, List.map_cons, List.sum_cons, add_assoc]

theorem value_fir {sample : ℚ} (holds : Holds 32 stage.history (signal ++ [sample])) :
    stage.value (signal.length % 32) =
      fir tap 31 (extended (signal ++ [sample])) signal.length := by
  rw [Stage.value, foldl_add, fir_tap]
  congr 1
  · rw [holds.read (by decide)]
    rfl
  · congr 1
    apply List.map_congr_left
    intro index inside
    have := List.mem_range'_1.mp inside
    rw [holds.read (by omega), holds.read (by omega)]

theorem flip_phase (length : ℕ) : (length % 2) ^^^ 1 = (length + 1) % 2 := by
  rcases Nat.mod_two_eq_zero_or_one length with even | odd
  · rw [even, Nat.add_mod, even]
    decide
  · rw [odd, Nat.add_mod, odd]
    decide

theorem push_after (after : After signal stage) (sample : ℚ) :
    After (signal ++ [sample]) (stage.push sample).2 ∧
      filtered (signal ++ [sample]) = filtered signal ++ (stage.push sample).1.toList := by
  have holds : Holds 32 (Function.update stage.history stage.writeIndex sample)
      (signal ++ [sample]) := by
    rw [after.writeIndex]
    exact after.history.push sample
  have written : After (signal ++ [sample])
      ⟨Function.update stage.history stage.writeIndex sample, (stage.writeIndex + 1) % 32,
        stage.phase ^^^ 1⟩ := by
    refine ⟨holds, ?_, ?_⟩
    · rw [after.writeIndex, List.length_append, List.length_singleton, Nat.mod_add_mod]
    · rw [after.phase, List.length_append, List.length_singleton, flip_phase]
  unfold Stage.push
  by_cases emit : stage.phase = 0
  · have even : signal.length % 2 = 0 := after.phase.symm.trans emit
    simp only [if_pos emit]
    refine ⟨written, ?_⟩
    rw [filtered, halved_concat_even even, Option.toList_some,
      ← value_fir written.history, after.writeIndex]
    rfl
  · have odd : signal.length % 2 = 1 := by
      have := after.phase
      omega
    simp only [if_neg emit]
    refine ⟨written, ?_⟩
    rw [filtered, halved_concat_odd odd, Option.toList_none, List.append_nil]
    rfl

variable {stages : Stage × Stage} {factor : ℕ}

/-- The first stage runs on the signal; with factor 4 the second runs on what the first writes. -/
def Follows (factor : ℕ) (signal : List ℚ) (stages : Stage × Stage) : Prop :=
  After signal stages.1 ∧ (factor = 4 → After (filtered signal) stages.2)

theorem pushSample_follows (fixed : factor = 2 ∨ factor = 4)
    (follows : Follows factor signal stages) (value : ℚ) :
    Follows factor (signal ++ [value]) (pushSample factor stages value).2 ∧
      decimated factor (signal ++ [value]) =
        decimated factor signal ++ (pushSample factor stages value).1.toList := by
  obtain ⟨first, second⟩ := follows
  obtain ⟨after, written⟩ := push_after first value
  have stageOne : 2 ≤ factor := by omega
  unfold pushSample
  rw [if_pos stageOne]
  rcases pushed : stages.1.push value with ⟨output | output, stage⟩
  · rw [pushed] at after written
    rw [Option.toList_none, List.append_nil] at written
    refine ⟨⟨after, ?_⟩, ?_⟩
    · rw [written]
      exact second
    · rw [decimated, written, Option.toList_none, List.append_nil]
      rfl
  · rw [pushed] at after written
    rw [Option.toList_some] at written
    by_cases four : factor = 4
    · obtain ⟨afterSecond, writtenSecond⟩ := push_after (second four) output
      simp only [if_pos four]
      refine ⟨⟨after, ?_⟩, ?_⟩
      · rw [written]
        exact fun _ => afterSecond
      · rw [decimated, decimated, if_pos four, if_pos four, written, writtenSecond]
    · simp only [if_neg four]
      refine ⟨⟨after, fun four' => absurd four' four⟩, ?_⟩
      rw [decimated, decimated, if_neg four, if_neg four, written, Option.toList_some]

theorem loop_follows (fixed : factor = 2 ∨ factor = 4) (follows : Follows factor signal stages)
    (input : List Int16) :
    Follows factor (signal ++ input.map normalized) (loop factor stages input).2 ∧
      decimated factor (signal ++ input.map normalized) =
        decimated factor signal ++ (loop factor stages input).1 := by
  induction input generalizing signal stages with
  | nil =>
    rw [List.map_nil, List.append_nil, loop, List.append_nil]
    exact ⟨follows, rfl⟩
  | cons sample rest ih =>
    obtain ⟨after, written⟩ := pushSample_follows fixed follows (normalized sample)
    obtain ⟨last, more⟩ := ih after
    rw [List.append_assoc, List.singleton_append] at last more
    refine ⟨last, ?_⟩
    rw [List.map_cons, more, written, List.append_assoc]
    rfl

theorem length_decimated (fixed : factor = 2 ∨ factor = 4) (signal : List ℚ) :
    (decimated factor signal).length = (signal.length + (factor - 1)) / factor := by
  unfold decimated filtered
  rcases fixed with rfl | rfl
  · rw [if_neg (by decide), length_halved]
  · rw [if_pos rfl, length_halved, length_halved]
    omega

variable {resampler : Resampler}

theorem create_rates {inputRate outputRate : ℕ} {edBeta : Bool}
    (made : create inputRate outputRate edBeta = some resampler) :
    resampler.inputRate = inputRate ∧ resampler.outputRate = outputRate ∧
      resampler.edBeta = edBeta ∧ resampler = reset resampler := by
  unfold create at made
  split at made
  · cases made
  split at made
  · cases made
    exact ⟨rfl, rfl, rfl, rfl⟩
  split at made
  · cases made
    exact ⟨rfl, rfl, rfl, rfl⟩
  split at made
  · cases made
    exact ⟨rfl, rfl, rfl, rfl⟩
  · cases made

def Made (resampler : Resampler) : Prop :=
  create resampler.inputRate resampler.outputRate resampler.edBeta = some (reset resampler)

theorem create_made {inputRate outputRate : ℕ} {edBeta : Bool}
    (made : create inputRate outputRate edBeta = some resampler) : Made resampler := by
  obtain ⟨sameInput, sameOutput, sameBeta, zero⟩ := create_rates made
  rw [Made, sameInput, sameOutput, sameBeta, ← zero, made]

theorem reset_process (resampler : Resampler) (input : List Int16) (capacity : ℕ) :
    reset (process resampler input capacity).2 = reset resampler := by
  simp only [process]
  split
  · rfl
  · split
    · rfl
    · split <;> rfl

theorem Made.of_reset {other : Resampler} (made : Made resampler)
    (same : reset other = reset resampler) : Made other := by
  have inputRate : other.inputRate = resampler.inputRate := (congrArg Resampler.inputRate same :)
  have outputRate : other.outputRate = resampler.outputRate :=
    (congrArg Resampler.outputRate same :)
  have edBeta : other.edBeta = resampler.edBeta := (congrArg Resampler.edBeta same :)
  rw [Made, inputRate, outputRate, edBeta, same]
  exact made

theorem Reached.made (reached : Reached resampler) : Made resampler := by
  induction reached with
  | created made => exact create_made made
  | processed _ input capacity ih => exact ih.of_reset (reset_process _ input capacity)
  | cleared _ ih => exact ih.of_reset rfl

theorem Fresh.made (fresh : Fresh resampler) :
    Made resampler ∧ resampler.stages = (.zero, .zero) := by
  rcases fresh with ⟨inputRate, outputRate, edBeta, made⟩ | ⟨earlier, reached, rfl⟩
  · exact ⟨create_made made, congrArg Resampler.stages (create_rates made).2.2.2⟩
  · exact ⟨reached.made.of_reset rfl, rfl⟩

/-- With an exact ratio the capacity of a call is its length divided by the factor, rounded up. -/
theorem Made.capacity (made : Made resampler)
    (fixed : resampler.factor = 2 ∨ resampler.factor = 4) {input : List Int16}
    (more : input.length ≠ 0) :
    resampler.capacity input = (input.length + (resampler.factor - 1)) / resampler.factor := by
  unfold Made create at made
  unfold Resampler.capacity outputCapacity
  split at made
  · cases made
  rename_i valid
  have accepted : ¬ (!inputRateValid resampler.inputRate || !outputRateValid resampler.outputRate ||
      input.length = 0 || (resampler.edBeta && resampler.inputRate < outputRateHz)) = true := by
    simpa [more] using valid
  rw [if_neg accepted]
  split at made
  · have one : 1 = resampler.factor := congrArg Resampler.factor (Option.some.inj made)
    omega
  rename_i unequal
  rw [if_neg unequal]
  split at made
  · rename_i double
    have two : 2 = resampler.factor := congrArg Resampler.factor (Option.some.inj made)
    rw [if_pos double, ← two]
    split <;> omega
  rename_i single
  rw [if_neg single]
  split at made
  · rename_i fourfold
    have four : 4 = resampler.factor := congrArg Resampler.factor (Option.some.inj made)
    rw [if_pos fourfold, ← four]
    split <;> omega
  · cases made

theorem process_spec (made : Made resampler)
    (fixed : resampler.factor = 2 ∨ resampler.factor = 4)
    (follows : Follows resampler.factor signal resampler.stages) (input : List Int16) :
    ∃ output, (process resampler input (resampler.capacity input)).1 = some output ∧
      Follows resampler.factor (signal ++ input.map normalized)
        (process resampler input (resampler.capacity input)).2.stages ∧
      decimated resampler.factor (signal ++ input.map normalized) =
        decimated resampler.factor signal ++ output ∧
      output.length ≤ resampler.capacity input := by
  by_cases empty : input = []
  · subst empty
    refine ⟨[], rfl, ?_, ?_, Nat.zero_le _⟩
    · rw [List.map_nil, List.append_nil]
      exact follows
    · rw [List.map_nil, List.append_nil, List.append_nil]
  have more : input.length ≠ 0 := fun none => empty (List.eq_nil_of_length_eq_zero none)
  have capacity := made.capacity fixed more
  obtain ⟨after, written⟩ := loop_follows fixed follows input
  have runs : process resampler input (resampler.capacity input) =
      (some (loop resampler.factor resampler.stages input).1,
        { resampler with stages := (loop resampler.factor resampler.stages input).2 }) := by
    have room : ¬ (resampler.capacity input = 0 ∨
        resampler.capacity input < resampler.capacity input) := by
      rw [capacity]
      rcases fixed with two | four
      · rw [two]
        omega
      · rw [four]
        omega
    have decimates : resampler.factor ≠ 0 := by omega
    unfold process
    rw [if_neg more]
    exact (if_neg room).trans (if_pos decimates)
  rw [runs]
  refine ⟨_, rfl, after, written, ?_⟩
  have lengths := congrArg List.length written
  rw [List.length_append, length_decimated fixed, length_decimated fixed, List.length_append,
    List.length_map] at lengths
  rw [capacity]
  rcases fixed with two | four
  · rw [two] at lengths ⊢
    omega
  · rw [four] at lengths ⊢
    omega

theorem run_spec (made : Made resampler) (fixed : resampler.factor = 2 ∨ resampler.factor = 4)
    (follows : Follows resampler.factor signal resampler.stages) (calls : List (List Int16)) :
    ∃ outputs, run resampler calls = outputs.map some ∧
      decimated resampler.factor (signal ++ calls.flatten.map normalized) =
        decimated resampler.factor signal ++ outputs.flatten ∧
      List.Forall₂ (fun input output => output.length ≤ resampler.capacity input)
        calls outputs := by
  induction calls generalizing resampler signal with
  | nil =>
    refine ⟨[], rfl, ?_, .nil⟩
    rw [List.flatten_nil, List.map_nil, List.append_nil, List.flatten_nil, List.append_nil]
  | cons input rest ih =>
    obtain ⟨output, returned, after, written, bounded⟩ := process_spec made fixed follows input
    have same := reset_process resampler input (resampler.capacity input)
    rw [run]
    generalize process resampler input (resampler.capacity input) = result at *
    have factor : result.2.factor = resampler.factor := (congrArg Resampler.factor same :)
    have capacities : result.2.capacity = resampler.capacity := by
      funext input
      have inputRate : result.2.inputRate = resampler.inputRate :=
        (congrArg Resampler.inputRate same :)
      have outputRate : result.2.outputRate = resampler.outputRate :=
        (congrArg Resampler.outputRate same :)
      have edBeta : result.2.edBeta = resampler.edBeta := (congrArg Resampler.edBeta same :)
      rw [Resampler.capacity, Resampler.capacity, inputRate, outputRate, edBeta]
    obtain ⟨outputs, more, total, all⟩ :=
      ih (made.of_reset same) (by rwa [factor]) (by rwa [factor])
    rw [factor] at total
    rw [capacities] at all
    refine ⟨output :: outputs, ?_, ?_, .cons bounded all⟩
    · change result.1 :: run result.2 rest = _
      rw [returned, more, List.map_cons]
    · rw [List.flatten_cons, List.map_append, ← List.append_assoc, total, written,
        List.flatten_cons, List.append_assoc]

/-- Whatever the calls, together they write the decimated signal. -/
theorem run_decimated (start : Resampler) (fresh : Fresh start)
    (fixed : start.factor = 2 ∨ start.factor = 4) (calls : List (List Int16)) :
    ∃ outputs, run start calls = outputs.map some ∧
      outputs.flatten = decimated start.factor (calls.flatten.map normalized) ∧
      List.Forall₂ (fun input output => output.length ≤ start.capacity input) calls outputs ∧
      outputs.flatten.length = (calls.flatten.length + (start.factor - 1)) / start.factor := by
  obtain ⟨made, zero⟩ := fresh.made
  have follows : Follows start.factor [] start.stages := by
    rw [zero]
    exact ⟨after_nil, fun _ => after_nil⟩
  obtain ⟨outputs, all, total, bounded⟩ := run_spec made fixed follows calls
  have nothing : decimated start.factor [] = [] := by
    unfold decimated filtered
    simp
  rw [List.nil_append, nothing, List.nil_append] at total
  refine ⟨outputs, all, total.symm, bounded, ?_⟩
  rw [← total, length_decimated fixed, List.length_map]

/-- 80 to 20 MSPS. -/
def fourfold : Resampler := ⟨80000000, 20000000, 4, false, .zero, .zero⟩

theorem run_decimated_fourfold :
    ∃ outputs, run fourfold [[100, -3], [], [7, 7, 7], [1]] = outputs.map some ∧
      outputs.flatten = decimated 4 ([100, -3, 7, 7, 7, 1].map normalized) ∧
      List.Forall₂ (fun input output => output.length ≤ fourfold.capacity input)
        [[100, -3], [], [7, 7, 7], [1]] outputs ∧
      outputs.flatten.length = (6 + (4 - 1)) / 4 :=
  run_decimated fourfold (.inl ⟨80000000, 20000000, false, rfl⟩) (.inr rfl) _

end MisrcGui.Signal.Halfband
