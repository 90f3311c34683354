import Mathlib.Data.Nat.ModEq
import MisrcGui.Library.Scanner
import MisrcGui.Library.Window

/-! The test-ramp validator of `ddd_protocol.c`. Two hardware counters exist, and they
agree until the first one wraps. -/
namespace MisrcGui.Ddd
open Library Library.Window

inductive ValidationResult where
  | ok
  | mismatch
deriving DecidableEq

def verdict (good : Bool) : ValidationResult := if good then .ok else .mismatch

@[simp] theorem verdict_eq_ok {good : Bool} : verdict good = .ok ↔ good = true := by
  cases good <;> simp [verdict]

def testRampNewWrap : Nat := 1021
def testRampLegacyWrap : Nat := 1024

structure TestRampValidator where
  armed : Bool
  failed : Bool
  wrapDetected : Bool
  expectedNext : Nat
  wrapValue : Nat
  samplesSeen : Nat
  errorSampleIndex : Nat
  expectedValue : Nat
  actualValue : Nat
deriving DecidableEq

def testRampValidatorInit : TestRampValidator := ⟨false, false, false, 0, 0, 0, 0, 0, 0⟩

def testRampFail (state : TestRampValidator) (expected actual : Nat) : TestRampValidator :=
  { state with
    failed := true
    errorSampleIndex := state.samplesSeen
    expectedValue := expected
    actualValue := actual }

def rampValue (word : UInt16) : Nat := (word &&& 0x03FF).toNat

/-- The loop body of `ddd_test_ramp_validator_feed`. -/
def testRampSample (state : TestRampValidator) (word : UInt16) :
    Except TestRampValidator TestRampValidator :=
  let actual := rampValue word
  if !state.armed then
    .ok { state with
      armed := true
      expectedNext := actual + 1
      samplesSeen := state.samplesSeen + 1 }
  else if !state.wrapDetected && actual == 0 &&
      (state.expectedNext == testRampNewWrap || state.expectedNext == testRampLegacyWrap) then
    .ok { state with
      wrapDetected := true
      wrapValue := state.expectedNext
      expectedNext := 1
      samplesSeen := state.samplesSeen + 1 }
  else if actual != state.expectedNext then
    .error (testRampFail state state.expectedNext actual)
  else
    let next := state.expectedNext + 1
    .ok { state with
      expectedNext := if state.wrapDetected && next == state.wrapValue then 0 else next
      samplesSeen := state.samplesSeen + 1 }

def testRampValidatorFeed (state : TestRampValidator) (words : List UInt16) :
    TestRampValidator × ValidationResult :=
  (Scanner.feed testRampSample (·.failed) state words).map id verdict

def testRampValidatorFeedChunks (chunks : List (List UInt16)) :
    TestRampValidator × ValidationResult :=
  Scanner.feedChunks testRampValidatorFeed (testRampValidatorInit, .ok) chunks

/-- The counter modulo `wrap`. -/
def ramp (wrap position : Nat) : Nat := position % wrap

theorem rampValue_lt (word : UInt16) : rampValue word < 1024 := by
  unfold rampValue
  rw [UInt16.toNat_and]
  exact Nat.lt_of_le_of_lt Nat.and_le_right (by decide)

theorem ramp_add (wrap position shift : Nat) :
    ramp wrap (position + shift) = ramp wrap (position % wrap + shift) := by
  unfold ramp
  rw [Nat.mod_add_mod]

theorem window_ramp {wrap start value : Nat} (h : value = ramp wrap start)
    (values : List Nat) :
    IsWindow (ramp wrap) (start + 1) values ↔ IsWindow (ramp wrap) (value + 1) values := by
  apply IsWindow.congr
  intro index
  rw [Nat.add_assoc, ramp_add, h, Nat.add_assoc]
  rfl

theorem window_ramp_wrap (wrap : Nat) (values : List Nat) :
    IsWindow (ramp wrap) wrap values ↔ IsWindow (ramp wrap) 0 values := by
  apply IsWindow.congr
  intro index
  rw [ramp_add, Nat.mod_self]

/-! What may follow in each phase. Before the first wrap, 1021 is still possible while
no value has passed it. -/

def Unarmed (values : List Nat) : Prop :=
  ∃ start, IsWindow (ramp testRampNewWrap) start values ∨
    IsWindow (ramp testRampLegacyWrap) start values

def Counting (next : Nat) (values : List Nat) : Prop :=
  (next ≤ testRampNewWrap ∧ IsWindow (ramp testRampNewWrap) next values) ∨
    IsWindow (ramp testRampLegacyWrap) next values

theorem unarmed_cons {value : Nat} {rest : List Nat} (h : value < 1024) :
    Unarmed (value :: rest) ↔ Counting (value + 1) rest := by
  unfold Unarmed Counting
  simp only [isWindow_cons]
  constructor
  · rintro ⟨start, ⟨first, later⟩ | ⟨first, later⟩⟩
    · have below : value < testRampNewWrap := by
        rw [first]
        exact Nat.mod_lt _ (by decide)
      exact .inl ⟨below, (window_ramp first rest).mp later⟩
    · exact .inr ((window_ramp first rest).mp later)
  · rintro (⟨below, later⟩ | later)
    · exact ⟨value, .inl ⟨(Nat.mod_eq_of_lt below).symm, later⟩⟩
    · exact ⟨value, .inr ⟨(Nat.mod_eq_of_lt h).symm, later⟩⟩

theorem counting_wrap {next : Nat} {rest : List Nat}
    (h : next = testRampNewWrap ∨ next = testRampLegacyWrap) :
    Counting next (0 :: rest) ↔ IsWindow (ramp next) 1 rest := by
  unfold Counting
  rcases h with rfl | rfl
  · rw [window_ramp_wrap]
    simp [ramp, testRampNewWrap, testRampLegacyWrap]
  · rw [window_ramp_wrap testRampLegacyWrap]
    simp [ramp, testRampNewWrap, testRampLegacyWrap]

theorem counting_cons {next value : Nat} (rest : List Nat) (h : next ≤ testRampLegacyWrap)
    (noWrap : ¬(value = 0 ∧ (next = testRampNewWrap ∨ next = testRampLegacyWrap)))
    (positive : 0 < next) (small : value < 1024) :
    Counting next (value :: rest) ↔ value = next ∧ Counting (next + 1) rest := by
  unfold Counting
  simp only [isWindow_cons]
  simp only [testRampNewWrap, testRampLegacyWrap, ramp] at *
  by_cases same : value = next
  · have new : value = next % 1021 ↔ next < 1021 := by omega
    have legacy : value = next % 1024 := by omega
    simp only [same, true_and] at *
    rw [new]
    simp only [← legacy, true_and]
    rw [← and_assoc]
    apply or_congr_left
    apply and_congr_left'
    omega
  · have new : ¬(next ≤ 1021 ∧ value = next % 1021) := by omega
    have legacy : value ≠ next % 1024 := by omega
    simp only [same, false_and, legacy, or_false, ← and_assoc, new]

structure ValidRamp (state : TestRampValidator) : Prop where
  unarmed : state.armed = false → state.wrapDetected = false
  counting : state.armed = true → state.wrapDetected = false →
    0 < state.expectedNext ∧ state.expectedNext ≤ testRampLegacyWrap
  wrapped : state.wrapDetected = true →
    (state.wrapValue = testRampNewWrap ∨ state.wrapValue = testRampLegacyWrap) ∧
      state.expectedNext < state.wrapValue

def rampLanguage (state : TestRampValidator) (words : List UInt16) : Prop :=
  if state.armed = false then Unarmed (words.map rampValue)
  else if state.wrapDetected = false then Counting state.expectedNext (words.map rampValue)
  else IsWindow (ramp state.wrapValue) state.expectedNext (words.map rampValue)

theorem rampLanguage_nil (state : TestRampValidator) : rampLanguage state [] := by
  unfold rampLanguage
  split_ifs
  · exact ⟨0, .inl isWindow_nil⟩
  · exact .inr isWindow_nil
  · exact isWindow_nil

theorem testRampSample_residual {state : TestRampValidator} (valid : ValidRamp state)
    (word : UInt16) (rest : List UInt16) :
    rampLanguage state (word :: rest) ↔
      ∃ next, testRampSample state word = .ok next ∧ rampLanguage next rest := by
  have small := rampValue_lt word
  unfold rampLanguage
  rw [List.map_cons]
  cases armed : state.armed with
  | false =>
    have unwrapped := valid.unarmed armed
    simp [testRampSample, armed, unwrapped, unarmed_cons small]
  | true =>
    cases detected : state.wrapDetected with
    | false =>
      have bounds := valid.counting armed detected
      by_cases wraps : rampValue word = 0 ∧
          (state.expectedNext = testRampNewWrap ∨ state.expectedNext = testRampLegacyWrap)
      · simp [testRampSample, armed, detected, wraps, counting_wrap wraps.2]
      · have goes := counting_cons (rest.map rampValue) bounds.2 wraps bounds.1 small
        simp only [Bool.true_eq_false, if_false, if_true, goes]
        by_cases same : rampValue word = state.expectedNext
        · rw [same] at wraps
          simp [testRampSample, armed, detected, wraps, same]
        · simp [testRampSample, armed, detected, wraps, same]
    | true =>
      have bounds := valid.wrapped detected
      have here : ramp state.wrapValue state.expectedNext = state.expectedNext :=
        Nat.mod_eq_of_lt bounds.2
      simp only [Bool.true_eq_false, if_false, isWindow_cons, here]
      by_cases same : rampValue word = state.expectedNext
      · by_cases last : state.expectedNext + 1 = state.wrapValue
        · simp [testRampSample, armed, detected, same, last, window_ramp_wrap]
        · simp [testRampSample, armed, detected, same, last]
      · simp [testRampSample, armed, detected, same]

theorem testRampSample_valid {state next : TestRampValidator} (valid : ValidRamp state)
    {word : UInt16} (step : testRampSample state word = .ok next) : ValidRamp next := by
  have small := rampValue_lt word
  simp only [testRampSample, Bool.not_eq_true', Bool.and_eq_true, beq_iff_eq,
    Bool.or_eq_true, bne_iff_ne] at step
  split_ifs at step with idle wraps differs last
  · cases step
    refine ⟨nofun, fun _ _ => ⟨Nat.zero_lt_succ _, small⟩, fun detected => ?_⟩
    exact absurd ((valid.unarmed idle).symm.trans detected) Bool.false_ne_true
  · cases step
    refine ⟨fun off => absurd off idle, nofun, fun _ => ⟨wraps.2, ?_⟩⟩
    rcases wraps.2 with wrap | wrap <;> simp [wrap, testRampNewWrap, testRampLegacyWrap]
  · cases step
    have bounds := valid.wrapped last.1
    refine ⟨fun off => absurd off idle, fun _ undetected => ?_, fun _ => ⟨bounds.1, ?_⟩⟩
    · exact absurd (undetected.symm.trans last.1) Bool.false_ne_true
    · exact Nat.zero_lt_of_lt bounds.2
  · cases step
    have same : rampValue word = state.expectedNext := not_not.mp differs
    rw [same] at small
    refine ⟨fun off => absurd off idle, fun _ _ => ⟨Nat.zero_lt_succ _, small⟩, ?_⟩
    intro detected
    have bounds := valid.wrapped detected
    have inside : state.expectedNext + 1 ≠ state.wrapValue := fun ends => last ⟨detected, ends⟩
    exact ⟨bounds.1, Nat.lt_of_le_of_ne bounds.2 inside⟩

theorem testRampSample_sticky :
    Scanner.Sticky testRampSample TestRampValidator.failed := by
  intro state word running
  unfold testRampSample
  dsimp only
  split_ifs <;> simp [testRampFail, running]

theorem testRampValidatorFeed_append (state : TestRampValidator) (front rest : List UInt16) :
    testRampValidatorFeed (testRampValidatorFeed state front).1 rest =
      testRampValidatorFeed state (front ++ rest) := by
  unfold testRampValidatorFeed
  rw [Prod.map_fst, id, Scanner.feed_append testRampSample_sticky]

/-- Every chunking ends in the state and verdict of the whole list, and the verdict is OK
exactly for a window of the counter modulo 1021 or of the counter modulo 1024. -/
theorem test_ramp_accepts (chunks : List (List UInt16)) :
    testRampValidatorFeedChunks chunks =
        testRampValidatorFeed testRampValidatorInit chunks.flatten ∧
      ((testRampValidatorFeedChunks chunks).2 = .ok ↔
        ∃ wrap ∈ [testRampNewWrap, testRampLegacyWrap], ∃ start,
          IsWindow (ramp wrap) start (chunks.flatten.map rampValue)) := by
  have whole : testRampValidatorFeedChunks chunks =
      testRampValidatorFeed testRampValidatorInit chunks.flatten :=
    Scanner.feedChunks_eq testRampValidatorFeed_append testRampValidatorInit chunks
  have start : ValidRamp testRampValidatorInit := ⟨fun _ => rfl, nofun, nofun⟩
  have accepts := Scanner.scan_accepts (fun state _ => rampLanguage_nil state)
    (fun _ valid => testRampSample_residual valid)
    (fun _ valid _ _ => testRampSample_valid valid) chunks.flatten start
  refine ⟨whole, ?_⟩
  rw [whole, testRampValidatorFeed, Prod.map_snd, verdict_eq_ok]
  refine accepts.trans ?_
  simp [rampLanguage, testRampValidatorInit, Unarmed, exists_or]

end MisrcGui.Ddd
