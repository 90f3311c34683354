import Mathlib.Data.List.Basic

/-! The conventions of 16-bit captures (`gui_playback_decide_conv16`): shifted from the 12-bit
container, or stored in it directly. The first block that is not silent decides. -/
namespace MisrcGui.Playback.Conv16

def decideFloor : Nat := 16

def directMax : Nat := 4096

inductive State where
  | pending
  | shift4
  | pass
deriving DecidableEq

def survey (block : List Int) : Nat × Bool :=
  block.foldl (fun seen v => (max seen.1 v.natAbs, seen.2 && v % 16 == 0)) (0, true)

def decideConv16 (state : State) (block : List Int) : State :=
  if state ≠ .pending ∨ block = [] then state
  else
    let (peak, allMod16) := survey block
    if peak < decideFloor then state
    else if allMod16 || directMax < peak then .shift4 else .pass

def applyConv16 (state : State) (v : Int) : Int16 :=
  if state = .pass then
    let v := if 2047 < v then 2047 else v
    let v := if v < -2048 then -2048 else v
    Int16.ofInt v
  else Int16.ofInt (v / 16)

def convertBlock (state : State) (block : List Int) : State × List Int16 :=
  let state := decideConv16 state block
  (state, block.map (applyConv16 state))

def convert (state : State) : List (List Int) → State × List Int16
  | [] => (state, [])
  | block :: rest =>
    let (state, first) := convertBlock state block
    let (state, later) := convert state rest
    (state, first ++ later)

def decision (block : List Int) : State := decideConv16 .pending block

def lead : List (List Int) → Nat
  | [] => 0
  | block :: rest => if decision block = .pending then block.length + lead rest else 0

def decided : List (List Int) → State
  | [] => .pending
  | block :: rest => if decision block = .pending then decided rest else decision block

def stateAt (blocks : List (List Int)) (i : Nat) : State :=
  if i < lead blocks then .pending else decided blocks

theorem decideConv16_sticky {state : State} (sure : state ≠ .pending) (block : List Int) :
    decideConv16 state block = state :=
  if_pos (Or.inl sure)

theorem convert_cons (state : State) (block : List Int) (rest : List (List Int)) :
    convert state (block :: rest) =
      ((convert (decideConv16 state block) rest).1,
        block.map (applyConv16 (decideConv16 state block)) ++
          (convert (decideConv16 state block) rest).2) := rfl

theorem convert_sticky {state : State} (sure : state ≠ .pending) (blocks : List (List Int)) :
    convert state blocks = (state, blocks.flatten.map (applyConv16 state)) := by
  induction blocks with
  | nil => rfl
  | cons block rest ih =>
    rw [convert_cons, decideConv16_sticky sure, ih, List.flatten_cons, List.map_append]

theorem convert_pending (blocks : List (List Int)) :
    convert .pending blocks = (decided blocks,
      (blocks.flatten.take (lead blocks)).map (applyConv16 .pending) ++
        (blocks.flatten.drop (lead blocks)).map (applyConv16 (decided blocks))) := by
  induction blocks with
  | nil => rfl
  | cons block rest ih =>
    have state : decideConv16 .pending block = decision block := rfl
    rw [convert_cons, state, decided, lead, List.flatten_cons]
    by_cases silent : decision block = .pending
    · rw [if_pos silent, if_pos silent, silent, ih, List.take_length_add_append,
        List.drop_length_add_append, List.map_append, List.append_assoc]
    · rw [if_neg silent, if_neg silent, convert_sticky silent, List.take_zero, List.drop_zero,
        List.map_append, List.map_nil, List.nil_append]

theorem shared_getElem? {A B : Type} (early late : A → B) (items : List A) (place i : Nat) :
    ((items.take place).map early ++ (items.drop place).map late)[i]? =
      items[i]?.map (if i < place then early else late) := by
  induction items generalizing place i with
  | nil => simp
  | cons item items ih =>
    cases place with
    | zero =>
      rw [List.take_zero, List.drop_zero, List.map_nil, List.nil_append, List.getElem?_map,
        if_neg (Nat.not_lt_zero i)]
    | succ place =>
      cases i with
      | zero => simp
      | succ i =>
        have later := ih place i
        simp only [List.take_succ_cons, List.drop_succ_cons, List.map_cons, List.cons_append,
          List.getElem?_cons_succ, later, Nat.succ_lt_succ_iff]

theorem convert_getElem? (blocks : List (List Int)) (i : Nat) :
    (convert .pending blocks).2[i]? =
      blocks.flatten[i]?.map (applyConv16 (stateAt blocks i)) := by
  rw [convert_pending, shared_getElem?, stateAt]
  split <;> rfl

def Alike (v : Int) : Prop := v = 0 ∨ v = -1 ∨ 32752 ≤ v ∨ v < -32752

theorem toInt_bounds (sample : Int16) : -32768 ≤ sample.toInt ∧ sample.toInt ≤ 32767 := by
  have low := sample.le_toInt
  have high := sample.toInt_lt
  omega

theorem applyConv16_pass (v : Int) :
    (applyConv16 .pass v).toInt = max (-2048) (min v 2047) := by
  unfold applyConv16
  rw [if_pos rfl, Int16.toInt_ofInt_of_le]
  · split <;> split <;> omega
  · split <;> split <;> omega
  · split <;> split <;> omega

theorem applyConv16_shift (sample : Int16) {state : State} (shifts : state ≠ .pass) :
    (applyConv16 state sample.toInt).toInt = sample.toInt / 16 := by
  obtain ⟨low, high⟩ := toInt_bounds sample
  rw [applyConv16, if_neg shifts, Int16.toInt_ofInt_of_le (by omega) (by omega)]

theorem applyConv16_bounds (state : State) (sample : Int16) :
    -2048 ≤ (applyConv16 state sample.toInt).toInt ∧
      (applyConv16 state sample.toInt).toInt ≤ 2047 := by
  by_cases passes : state = .pass
  · rw [passes, applyConv16_pass]
    omega
  · obtain ⟨low, high⟩ := toInt_bounds sample
    rw [applyConv16_shift sample passes]
    omega

theorem applyConv16_eq_iff (sample : Int16) (first second : State) :
    applyConv16 first sample.toInt = applyConv16 second sample.toInt ↔
      (first = .pass ↔ second = .pass) ∨ Alike sample.toInt := by
  obtain ⟨low, high⟩ := toInt_bounds sample
  rw [← Int16.toInt_inj]
  unfold Alike
  by_cases one : first = .pass <;> by_cases two : second = .pass
  · simp [one, two]
  · rw [applyConv16_shift sample two, one, applyConv16_pass]
    simp only [two, iff_false, not_true, false_or]
    omega
  · rw [applyConv16_shift sample one, two, applyConv16_pass]
    simp only [one, iff_true, false_or]
    omega
  · rw [applyConv16_shift sample one, applyConv16_shift sample two]
    simp [one, two]

/-- A file of 16-bit samples, cut into blocks. -/
structure Cutting (samples : List Int16) where
  blocks : List (List Int16)
  whole : blocks.flatten = samples
  filled : ∀ block ∈ blocks, block ≠ []

namespace Cutting
variable {samples : List Int16} (cutting : Cutting samples)

def wide : List (List Int) := cutting.blocks.map fun block => block.map Int16.toInt

theorem flatten_wide : cutting.wide.flatten = samples.map Int16.toInt := by
  have whole := congrArg (List.map Int16.toInt) cutting.whole
  rwa [List.map_flatten] at whole

def output : List Int16 := (convert .pending cutting.wide).2

def mode (i : Nat) : State := stateAt cutting.wide i

theorem output_getElem? (i : Nat) :
    cutting.output[i]? =
      samples[i]?.map fun sample => applyConv16 (cutting.mode i) sample.toInt := by
  rw [output, convert_getElem?, flatten_wide, List.getElem?_map, Option.map_map]
  rfl

end Cutting

/-- A quiet block behind which a loud one comes, and both at once. -/
theorem cuttings_differ : ∃ first second : Cutting [5, 100], first.output ≠ second.output := by
  refine ⟨⟨[[5], [100]], rfl, by decide⟩, ⟨[[5, 100]], rfl, by decide⟩, ?_⟩
  decide

/-- A sample is shifted before the block that decides, and converted as that block says from it
on; two cuttings give the same except where one passes and the other shifts; and every result fits
in 12 bits. -/
theorem output_eq_iff (samples : List Int16) (first second : Cutting samples) :
    (∀ i : Nat, first.output[i]? =
        samples[i]?.map fun sample => applyConv16 (first.mode i) sample.toInt) ∧
      (first.output = second.output ↔ ∀ (i : Nat) sample, samples[i]? = some sample →
        (first.mode i = .pass ↔ second.mode i = .pass) ∨ Alike sample.toInt) ∧
      ∀ result ∈ first.output, -2048 ≤ result.toInt ∧ result.toInt ≤ 2047 := by
  refine ⟨first.output_getElem?, ?_, ?_⟩
  · rw [List.ext_getElem?_iff]
    refine forall_congr' fun i => ?_
    rw [first.output_getElem?, second.output_getElem?]
    cases samples[i]? with
    | none => simp
    | some sample => simp [applyConv16_eq_iff]
  · intro result member
    obtain ⟨i, shown⟩ := List.mem_iff_getElem?.mp member
    rw [first.output_getElem?, Option.map_eq_some_iff] at shown
    obtain ⟨sample, _, rfl⟩ := shown
    exact applyConv16_bounds _ sample

end MisrcGui.Playback.Conv16
