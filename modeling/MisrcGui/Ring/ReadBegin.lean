import MisrcGui.Ring.RingBuffer
import Mathlib.Algebra.Order.Floor.Div

/-! `bufmgr_read_begin` of `buffer_manager.c`, on what it sees of the ring each time it looks:
once at its start, and once behind every wait, whatever ended the wait. -/
namespace MisrcGui.Ring.ReadBegin

variable {Cell : Type} {geometry : Geometry}

/-- What the consumer sees of the ring. A `bufmgr_reset` clears the head before the tail, so
the distance of the two may pass the size. -/
structure Seen (geometry : Geometry) (ring : RingBuffer Cell) : Prop where
  head_lt : ring.head < geometry.size
  head_le : ring.head ≤ ring.tail
  tail_le : ring.tail ≤ geometry.mapSize

/-- A look is number zero in front of all waits, and number `n` behind the `n`-th. -/
def Looks (Cell : Type) (geometry : Geometry) : Type :=
  Nat → { ring : RingBuffer Cell // Seen geometry ring }

def intMax : Nat := 2 ^ 31 - 1

inductive Outcome
  | granted (pointer : Nat)
  | null
  /-- `elapsed` leaves the range of `int`, where C gives it no value. -/
  | overflow
deriving DecidableEq

/-- With what the call adds to `read_waits` and `read_timeouts`; the waits are also the
number of the last look. -/
structure Return where
  outcome : Outcome
  waits : Nat
  timeouts : Nat
deriving DecidableEq

def waitChunk (timeout : Int) : Nat :=
  if 0 < timeout ∧ timeout < 20 then timeout.toNat else 20

/-- `while (ptr == NULL)`. -/
def waitLoop (looks : Looks Cell geometry) (bytes : Nat) (timeout : Int) :
    Nat → Option Nat → Nat → Nat → Option Return
  | 0, _, _, _ => none
  | _ + 1, some pointer, _, waits => some ⟨.granted pointer, waits, 0⟩
  | fuel + 1, none, elapsed, waits =>
    let pointer := rbReadPtr geometry (looks (waits + 1)).1 bytes
    if 0 < timeout then
      if elapsed + waitChunk timeout > intMax then some ⟨.overflow, waits + 1, 0⟩
      else if timeout ≤ (elapsed + waitChunk timeout : Nat) then some ⟨.null, waits + 1, 1⟩
      else waitLoop looks bytes timeout fuel pointer (elapsed + waitChunk timeout) (waits + 1)
    else waitLoop looks bytes timeout fuel pointer elapsed (waits + 1)

/-- `bufmgr_read_begin` on a buffer that is initialized. -/
def bufmgrReadBegin (looks : Looks Cell geometry) (bytes : Nat) (timeout : Int) (fuel : Nat) :
    Option Return :=
  match rbReadPtr geometry (looks 0).1 bytes with
  | some pointer => some ⟨.granted pointer, 0, 0⟩
  | none => if timeout = 0 then some ⟨.null, 0, 0⟩ else waitLoop looks bytes timeout fuel none 0 0

def Lacks (looks : Looks Cell geometry) (bytes look : Nat) : Prop :=
  fillLevel (looks look).1 < bytes

/-- The number of the look behind which a call with a positive timeout gives up. -/
def lastLook (timeout : Int) : Nat := timeout.toNat ⌈/⌉ waitChunk timeout

/-- The bytes are there at the look of the last wait, and at none before. -/
structure ArrivesLast (looks : Looks Cell geometry) (bytes : Nat) (timeout : Int) : Prop where
  positive : 0 < timeout
  counted : lastLook timeout * waitChunk timeout ≤ intMax
  before : ∀ look < lastLook timeout, Lacks looks bytes look
  arrived : ¬Lacks looks bytes (lastLook timeout)

/-- `NULL` is returned only if the last look found too few bytes. -/
def NullOnlyIfLacking (looks : Looks Cell geometry) (bytes : Nat) (timeout : Int) : Prop :=
  ∀ fuel result, bufmgrReadBegin looks bytes timeout fuel = some result →
    result.outcome = .null → Lacks looks bytes result.waits

section looks
variable {looks : Looks Cell geometry} {bytes : Nat} {timeout : Int}

theorem readPtr_eq_none_iff (look : Nat) :
    rbReadPtr geometry (looks look).1 bytes = none ↔ Lacks looks bytes look := by
  obtain ⟨head_lt, head_le, tail_le⟩ := (looks look).2
  have mapped := geometry.mapped
  have span : geometry.mapSize = geometry.size * 2 := rfl
  unfold rbReadPtr Lacks fillLevel
  rw [wordSub_of_le head_le (by omega)]
  simp only [Ring.admitsRead_iff head_lt head_le tail_le, ite_eq_right_iff, reduceCtorEq, imp_false]
  omega

theorem waitChunk_pos (timeout : Int) : 0 < waitChunk timeout := by
  unfold waitChunk
  split <;> omega

theorem elapsed_iff (positive : 0 < timeout) (look : Nat) :
    timeout ≤ (look * waitChunk timeout : Nat) ↔ lastLook timeout ≤ look := by
  rw [lastLook, ceilDiv_le_iff_le_mul (waitChunk_pos timeout), Nat.mul_comm]
  omega

theorem lastLook_pos (positive : 0 < timeout) : 0 < lastLook timeout := by
  have none : ¬lastLook timeout ≤ 0 := by
    rw [← elapsed_iff positive]
    simpa using positive
  omega

/-- From a wait in front of the last look on, a call can give up there only, and only if it found
nothing before. -/
theorem waitLoop_null {fuel waits : Nat} {result : Return} (positive : 0 < timeout)
    (early : waits < lastLook timeout) (before : ∀ look ≤ waits, Lacks looks bytes look)
    (h : waitLoop looks bytes timeout fuel none (waits * waitChunk timeout) waits = some result)
    (null : result.outcome = .null) :
    result.waits = lastLook timeout ∧ lastLook timeout * waitChunk timeout ≤ intMax ∧
      ∀ look < lastLook timeout, Lacks looks bytes look := by
  induction fuel generalizing waits with
  | zero => cases h
  | succ fuel ih =>
    rw [waitLoop, if_pos positive, ← Nat.add_one_mul] at h
    by_cases above : (waits + 1) * waitChunk timeout > intMax
    · rw [if_pos above] at h
      cases h
      cases null
    rw [if_neg above] at h
    by_cases done : lastLook timeout ≤ waits + 1
    · rw [if_pos ((elapsed_iff positive _).mpr done)] at h
      cases h
      have last : lastLook timeout = waits + 1 := by omega
      rw [last]
      refine ⟨rfl, Nat.le_of_not_lt above, fun look low => before look (by omega)⟩
    · rw [if_neg ((elapsed_iff positive _).not.mpr done)] at h
      cases found : rbReadPtr geometry (looks (waits + 1)).1 bytes with
      | some pointer =>
        rw [found] at h
        cases fuel with
        | zero => cases h
        | succ fuel =>
          cases h
          cases null
      | none =>
        rw [found] at h
        refine ih (by omega) (fun look low => ?_) h
        rcases Nat.lt_or_eq_of_le low with lower | rfl
        · exact before look (by omega)
        · exact (readPtr_eq_none_iff _).mp found

theorem waitLoop_gives_up (positive : 0 < timeout)
    (counted : lastLook timeout * waitChunk timeout ≤ intMax)
    (before : ∀ look < lastLook timeout, Lacks looks bytes look) {rest waits : Nat}
    (left : waits + rest + 1 = lastLook timeout) :
    waitLoop looks bytes timeout (rest + 1) none (waits * waitChunk timeout) waits =
      some ⟨.null, lastLook timeout, 1⟩ := by
  induction rest generalizing waits with
  | zero =>
    have last : waits + 1 = lastLook timeout := by omega
    rw [waitLoop, if_pos positive, ← Nat.add_one_mul, if_neg (by rw [last]; omega),
      if_pos ((elapsed_iff positive _).mpr last.ge), last]
  | succ rest ih =>
    have inside : (waits + 1) * waitChunk timeout ≤ intMax :=
      (Nat.mul_le_mul_right _ (by omega)).trans counted
    have early : ¬timeout ≤ ((waits + 1) * waitChunk timeout : Nat) := by
      rw [elapsed_iff positive]
      omega
    rw [waitLoop, if_pos positive, ← Nat.add_one_mul, if_neg (Nat.not_lt.mpr inside), if_neg early,
      (readPtr_eq_none_iff _).mpr (before _ (by omega))]
    exact ih (by omega)

theorem waitLoop_total (looks : Looks Cell geometry) (bytes : Nat) (positive : 0 < timeout)
    (pointer : Option Nat) {rest waits : Nat} (left : waits + rest = lastLook timeout) :
    ∃ result, waitLoop looks bytes timeout (rest + 1) pointer (waits * waitChunk timeout) waits =
      some result := by
  induction rest generalizing pointer waits with
  | zero =>
    cases pointer with
    | some pointer => exact ⟨_, rfl⟩
    | none =>
      rw [waitLoop, if_pos positive, ← Nat.add_one_mul]
      by_cases above : (waits + 1) * waitChunk timeout > intMax
      · exact ⟨_, if_pos above⟩
      · exact ⟨_, (if_neg above).trans (if_pos ((elapsed_iff positive _).mpr (by omega)))⟩
  | succ rest ih =>
    cases pointer with
    | some pointer => exact ⟨_, rfl⟩
    | none =>
      rw [waitLoop, if_pos positive, ← Nat.add_one_mul]
      by_cases above : (waits + 1) * waitChunk timeout > intMax
      · exact ⟨_, if_pos above⟩
      rw [if_neg above]
      by_cases done : timeout ≤ ((waits + 1) * waitChunk timeout : Nat)
      · exact ⟨_, if_pos done⟩
      · rw [if_neg done]
        exact ih _ (by omega)

theorem bufmgrReadBegin_total (looks : Looks Cell geometry) (bytes : Nat) (bounded : 0 ≤ timeout) :
    ∃ result, bufmgrReadBegin looks bytes timeout (lastLook timeout + 1) = some result := by
  unfold bufmgrReadBegin
  cases rbReadPtr geometry (looks 0).1 bytes with
  | some pointer => exact ⟨_, rfl⟩
  | none =>
    dsimp only
    by_cases zero : timeout = 0
    · exact ⟨_, if_pos zero⟩
    · have positive : 0 < timeout := lt_of_le_of_ne bounded (Ne.symm zero)
      have loop := waitLoop_total looks bytes positive none (Nat.zero_add (lastLook timeout))
      rw [Nat.zero_mul] at loop
      rwa [if_neg zero]

theorem waitLoop_patient {fuel elapsed waits : Nat} {pointer : Option Nat} {result : Return}
    (patient : ¬0 < timeout)
    (h : waitLoop looks bytes timeout fuel pointer elapsed waits = some result) :
    result.outcome ≠ .null := by
  induction fuel generalizing pointer elapsed waits with
  | zero => cases h
  | succ fuel ih =>
    cases pointer with
    | some pointer =>
      cases h
      exact nofun
    | none =>
      rw [waitLoop, if_neg patient] at h
      exact ih h

theorem nullOnlyIfLacking_iff :
    NullOnlyIfLacking looks bytes timeout ↔ ¬ArrivesLast looks bytes timeout := by
  constructor
  · rintro only ⟨positive, counted, before, arrived⟩
    have first := lastLook_pos positive
    have lacking := (readPtr_eq_none_iff 0).mpr (before 0 first)
    have left : 0 + (lastLook timeout - 1) + 1 = lastLook timeout := by omega
    have given := waitLoop_gives_up positive counted before left
    refine arrived (only (lastLook timeout - 1 + 1) ⟨.null, lastLook timeout, 1⟩ ?_ rfl)
    rw [bufmgrReadBegin, lacking]
    dsimp only
    rw [if_neg positive.ne', ← given, Nat.zero_mul]
  · intro late fuel result h null
    unfold bufmgrReadBegin at h
    cases found : rbReadPtr geometry (looks 0).1 bytes with
    | some pointer =>
      rw [found] at h
      cases h
      cases null
    | none =>
      rw [found] at h
      have lacking := (readPtr_eq_none_iff 0).mp found
      dsimp only at h
      by_cases zero : timeout = 0
      · rw [if_pos zero] at h
        cases h
        exact lacking
      rw [if_neg zero] at h
      by_cases positive : 0 < timeout
      · have start : ∀ look ≤ 0, Lacks looks bytes look := fun look low => by
          rwa [Nat.le_zero.mp low]
        obtain ⟨last, counted, before⟩ := waitLoop_null positive (lastLook_pos positive) start
          (by rwa [Nat.zero_mul]) null
        rw [last]
        by_contra arrived
        exact late ⟨positive, counted, before, arrived⟩
      · exact absurd null (waitLoop_patient positive h)

end looks

end MisrcGui.Ring.ReadBegin
