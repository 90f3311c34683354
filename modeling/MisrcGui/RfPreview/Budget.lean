import MisrcGui.Library.NumberText

/-! The CPU budget of the RF preview (`gui_rf_preview_policy.c`), one call at a time, as its
lock makes them. Times and costs are microseconds, owners are nonzero identifiers. -/
namespace MisrcGui.RfPreview.Budget
open Library.NumberText (toDouble)

def maxActive : Nat := 8

def reserveCpuUs : Nat := 1000

def maxCounters : Nat := 64

/-- The room in `waiters`. -/
def maxWaiters : Nat := 64

def uint64Max : Nat := 2 ^ 64 - 1

def int64Max : Nat := 2 ^ 63 - 1

def int64Min : Int := -2 ^ 63

/-- `gui_rf_preview_policy_t`; `active` has the start of each owner beside it. -/
structure Policy where
  coresMillionths : Nat
  accountingQuantumCpuUs : Nat
  counters : List Nat
  updatedUs : Nat
  deadlineUs : Nat
  creditCpuUs : Int
  initialized : Bool
  active : List (Nat × Nat)
  waiters : List Nat
deriving DecidableEq

def addSat (a b : Nat) : Nat := min (a + b) uint64Max

def capacity (p : Policy) : Nat :=
  max (p.coresMillionths * 4000 / 1000000) reserveCpuUs +
    p.counters.length * p.accountingQuantumCpuUs

def concurrency (p : Policy) : Nat :=
  if p.coresMillionths = 0 then maxActive else (p.coresMillionths + 999999) / 1000000

def unsettledCapacity (p : Policy) (now : Nat) : Nat :=
  min (p.active.foldl (fun limit owner => addSat limit (now - owner.2)) (capacity p)) int64Max

def clamp (p : Policy) (now : Nat) : Nat :=
  if p.initialized ∧ now < p.updatedUs then p.updatedUs else now

def refill (cores elapsed : Nat) : Nat :=
  let whole := elapsed / 1000000
  addSat (if uint64Max / cores < whole then uint64Max else whole * cores)
    (elapsed % 1000000 * cores / 1000000)

/-- The wait in `deadline_us`, by doubles. -/
def waitFor (cores : Nat) (credit : Int) : Nat :=
  let magnitude := toDouble credit.natAbs
  let missing :=
    toDouble (if credit < 0 then reserveCpuUs + magnitude else reserveCpuUs - magnitude)
  if credit < reserveCpuUs then
    min ⌊toDouble (toDouble (toDouble (missing * 1000000) / cores) +
      toDouble (999999 / 1000000))⌋.toNat uint64Max
  else 0

/-- The first part of `refresh`. -/
def start (p : Policy) (now : Nat) : Policy :=
  if p.initialized then p
  else { p with creditCpuUs := capacity p, updatedUs := now, initialized := true }

def earn (p : Policy) (now : Nat) : Int :=
  let earned := refill p.coresMillionths (now - p.updatedUs)
  let ceiling : Int := unsettledCapacity p now
  if int64Max < earned ∨ int64Max - earned < p.creditCpuUs then ceiling
  else min (p.creditCpuUs + earned) ceiling

def refresh (p : Policy) (now : Nat) : Policy :=
  let now := clamp p now
  let p := start p now
  if p.coresMillionths = 0 then
    { p with updatedUs := now, creditCpuUs := capacity p, deadlineUs := now }
  else
    { p with
      updatedUs := now
      creditCpuUs := earn p now
      deadlineUs := addSat now (waitFor p.coresMillionths (earn p now)) }

def registerCounter (p : Policy) (owner : Nat) : Policy × Bool :=
  if owner = 0 then (p, false)
  else if owner ∈ p.counters then (p, true)
  else if p.counters.length = maxCounters then (p, false)
  else ({ p with counters := p.counters ++ [owner] }, true)

def unregisterCounter (p : Policy) (owner : Nat) : Policy :=
  if owner ∈ p.counters then
    let p := { p with counters := p.counters.erase owner }
    if p.initialized ∧ (unsettledCapacity p p.updatedUs : Int) < p.creditCpuUs then
      { p with creditCpuUs := unsettledCapacity p p.updatedUs }
    else p
  else p

/-- A debit that stays inside 64 bits, or all that fits. -/
def debit (credit : Int) (charge : Nat) : Int :=
  if int64Max < charge ∨ credit < int64Min + charge then int64Min else credit - charge

/-- What `gui_rf_preview_policy_retire_counter` charges. -/
def retirement (p : Policy) (measured residual : Nat) : Nat :=
  addSat measured (min residual p.accountingQuantumCpuUs)

def retireCounter (p : Policy) (owner measured residual : Nat) : Policy :=
  if owner ∈ p.counters then
    let charge := retirement p measured residual
    let p :=
      if p.initialized ∧ p.coresMillionths ≠ 0 ∧ charge ≠ 0 then
        { p with creditCpuUs := debit p.creditCpuUs charge }
      else p
    unregisterCounter p owner
  else p

def cancel (p : Policy) (owner : Nat) : Policy := { p with waiters := p.waiters.erase owner }

def enqueue (p : Policy) (owner : Nat) : Policy :=
  if owner ∈ p.waiters then p else { p with waiters := p.waiters ++ [owner] }

def activate (p : Policy) (owner now : Nat) : Policy :=
  let p := cancel p owner
  let p := { p with active := p.active ++ [(owner, now)] }
  if p.coresMillionths ≠ 0 then { p with creditCpuUs := p.creditCpuUs - reserveCpuUs } else p

/-- What `gui_rf_preview_policy_acquire` does after the refresh. -/
def resolve (p : Policy) (owner now : Nat) : Policy × Bool × Nat :=
  if owner ∈ p.active.map Prod.fst then (p, false, 1000)
  else if owner ∉ p.waiters ∧ p.waiters.length = maxWaiters then (p, false, 1000)
  else
    let p := enqueue p owner
    if concurrency p ≤ p.active.length ∨ p.waiters.head? ≠ some owner then (p, false, 1000)
    else if p.coresMillionths ≠ 0 ∧ p.creditCpuUs < reserveCpuUs then
      (p, false, if now < p.deadlineUs then p.deadlineUs - now else 1)
    else (activate p owner now, true, 0)

/-- `gui_rf_preview_policy_acquire`: the policy, whether it admits, and the wait. -/
def acquire (p : Policy) (owner now : Nat) : Policy × Bool × Nat :=
  let (p, registered) := registerCounter p owner
  if !registered then (p, false, 1000)
  else
    let now := clamp p now
    resolve (refresh p now) owner now

/-- What a finished block costs beyond its reservation, or gives back. -/
def settle (credit : Int) (cpu : Nat) : Int :=
  if reserveCpuUs < cpu then debit credit (cpu - reserveCpuUs)
  else min (credit + (reserveCpuUs - cpu)) int64Max

def release (p : Policy) (owner cpu : Nat) : Policy :=
  let p := { p with active := p.active.eraseP fun entry => entry.1 = owner }
  if p.coresMillionths ≠ 0 then { p with creditCpuUs := settle p.creditCpuUs cpu } else p

def finish (p : Policy) (owner now cpu : Nat) : Policy :=
  if owner ∈ p.active.map Prod.fst then
    let now := clamp p now
    refresh (release (refresh p now) owner cpu) now
  else p

variable {p : Policy} {now owner : Nat}

theorem addSat_le (a b : Nat) : addSat a b ≤ a + b := Nat.min_le_left (a + b) uint64Max

theorem refill_le {cores : Nat} (budget : 0 < cores) (elapsed : Nat) :
    refill cores elapsed * 1000000 ≤ cores * elapsed := by
  have whole : (if uint64Max / cores < elapsed / 1000000 then uint64Max
      else elapsed / 1000000 * cores) ≤ elapsed / 1000000 * cores := by
    split
    · next beyond => exact ((Nat.div_lt_iff_lt_mul budget).mp beyond).le
    · exact le_rfl
  have part : elapsed % 1000000 * cores / 1000000 * 1000000 ≤ elapsed % 1000000 * cores :=
    Nat.div_mul_le_self _ _
  calc refill cores elapsed * 1000000
      ≤ (elapsed / 1000000 * cores + elapsed % 1000000 * cores / 1000000) * 1000000 :=
        Nat.mul_le_mul_right _ ((addSat_le _ _).trans (Nat.add_le_add_right whole _))
    _ ≤ elapsed / 1000000 * cores * 1000000 + elapsed % 1000000 * cores := by
        rw [Nat.add_mul]
        exact Nat.add_le_add_left part _
    _ = cores * (1000000 * (elapsed / 1000000) + elapsed % 1000000) := by ring
    _ = cores * elapsed := by rw [Nat.div_add_mod]

theorem clamp_clamp (p : Policy) (now : Nat) : clamp p (clamp p now) = clamp p now := by
  by_cases late : p.initialized ∧ now < p.updatedUs
  · have same : clamp p now = p.updatedUs := if_pos late
    rw [same]
    exact if_neg fun again => Nat.lt_irrefl _ again.2
  · have same : clamp p now = now := if_neg late
    rw [same, same]

theorem refresh_clamp (p : Policy) (now : Nat) : refresh p (clamp p now) = refresh p now := by
  rw [refresh, clamp_clamp, refresh]

theorem start_initialized (p : Policy) (now : Nat) : (start p now).initialized = true := by
  rw [start]
  split
  · assumption
  · rfl

theorem refresh_frame (p : Policy) (now : Nat) :
    (refresh p now).coresMillionths = p.coresMillionths ∧
      (refresh p now).accountingQuantumCpuUs = p.accountingQuantumCpuUs ∧
      (refresh p now).counters = p.counters ∧ (refresh p now).active = p.active ∧
      (refresh p now).waiters = p.waiters ∧ (refresh p now).initialized = true ∧
      (refresh p now).updatedUs = clamp p now := by
  have begun := start_initialized p (clamp p now)
  have kept : (start p (clamp p now)).coresMillionths = p.coresMillionths ∧
      (start p (clamp p now)).accountingQuantumCpuUs = p.accountingQuantumCpuUs ∧
      (start p (clamp p now)).counters = p.counters ∧
      (start p (clamp p now)).active = p.active ∧ (start p (clamp p now)).waiters = p.waiters := by
    rw [start]
    split <;> exact ⟨rfl, rfl, rfl, rfl, rfl⟩
  obtain ⟨cores, quantum, counters, active, waiters⟩ := kept
  rw [refresh]
  split <;> exact ⟨cores, quantum, counters, active, waiters, begun, rfl⟩

theorem refresh_credit (budget : 0 < p.coresMillionths)
    (fits : refill p.coresMillionths (clamp p now - (start p (clamp p now)).updatedUs) ≤ int64Max) :
    (refresh p now).creditCpuUs ≤ (start p (clamp p now)).creditCpuUs +
      refill p.coresMillionths (clamp p now - (start p (clamp p now)).updatedUs) := by
  have cores : (start p (clamp p now)).coresMillionths = p.coresMillionths := by
    rw [start]
    split <;> rfl
  have ceiling : unsettledCapacity (start p (clamp p now)) (clamp p now) ≤ int64Max :=
    min_le_right _ _
  rw [refresh, if_neg (by omega)]
  dsimp only
  rw [earn, cores]
  generalize unsettledCapacity (start p (clamp p now)) (clamp p now) = limit at *
  split
  · omega
  · exact min_le_left _ _

theorem registerCounter_frame (p : Policy) (owner : Nat) :
    ∃ counters, (registerCounter p owner).1 = { p with counters } := by
  rw [registerCounter]
  split
  · exact ⟨_, rfl⟩
  · split
    · exact ⟨_, rfl⟩
    · split <;> exact ⟨_, rfl⟩

def refreshed (p : Policy) (owner now : Nat) : Policy := refresh (registerCounter p owner).1 now

theorem refreshed_frame (p : Policy) (owner now : Nat) :
    (refreshed p owner now).coresMillionths = p.coresMillionths ∧
      (refreshed p owner now).active = p.active ∧ (refreshed p owner now).waiters = p.waiters ∧
      (refreshed p owner now).initialized = true ∧
      (refreshed p owner now).updatedUs = clamp p now := by
  obtain ⟨counters, registered⟩ := registerCounter_frame p owner
  rw [refreshed, registered]
  obtain ⟨cores, -, -, active, waiters, begun, updated⟩ := refresh_frame { p with counters } now
  exact ⟨cores, active, waiters, begun, updated⟩

theorem registerCounter_refused (refused : (registerCounter p owner).2 = false) :
    (registerCounter p owner).1 = p := by
  rw [registerCounter] at refused ⊢
  split
  · rfl
  · split
    · rfl
    · next none new =>
      rw [if_neg none, if_neg new] at refused
      split
      · rfl
      · next room =>
        rw [if_neg room] at refused
        contradiction

theorem acquire_cases (p : Policy) (owner now : Nat) :
    acquire p owner now = (p, false, 1000) ∨ (registerCounter p owner).2 = true ∧
      acquire p owner now = resolve (refreshed p owner now) owner (clamp p now) := by
  obtain ⟨counters, shape⟩ := registerCounter_frame p owner
  have refused : (registerCounter p owner).2 = false → (registerCounter p owner).1 = p :=
    registerCounter_refused
  have clock : clamp (registerCounter p owner).1 now = clamp p now := by
    rw [shape]
    rfl
  rw [refreshed, ← clock, ← refresh_clamp, acquire]
  clear clock shape
  generalize registerCounter p owner = result at *
  obtain ⟨q, registered⟩ := result
  cases registered with
  | false =>
    left
    rw [← refused rfl]
    rfl
  | true => exact .inr ⟨rfl, rfl⟩

theorem enqueue_frame (p : Policy) (owner : Nat) :
    enqueue p owner = { p with waiters := (enqueue p owner).waiters } := by
  rw [enqueue]
  split <;> rfl

theorem resolve_refused (refused : (resolve p owner now).2.1 = false) :
    (resolve p owner now).1 = p ∨ (resolve p owner now).1 = enqueue p owner := by
  rw [resolve] at refused ⊢
  split
  · exact .inl rfl
  · split
    · exact .inl rfl
    · next idle room =>
      rw [if_neg idle, if_neg room] at refused
      dsimp only at refused ⊢
      split
      · exact .inr rfl
      · split
        · exact .inr rfl
        · next busy unfunded =>
          rw [if_neg busy, if_neg unfunded] at refused
          contradiction

structure Admits (p : Policy) (owner : Nat) : Prop where
  idle : owner ∉ p.active.map Prod.fst
  free : p.active.length < concurrency p
  first : (enqueue p owner).waiters.head? = some owner
  funded : p.coresMillionths ≠ 0 → reserveCpuUs ≤ p.creditCpuUs

theorem resolve_admitted (admitted : (resolve p owner now).2.1 = true) :
    Admits p owner ∧ (resolve p owner now).1 = activate (enqueue p owner) owner now := by
  rw [resolve] at admitted ⊢
  split at admitted
  · contradiction
  · split at admitted
    · contradiction
    · next idle room =>
      rw [if_neg idle, if_neg room]
      dsimp only at admitted ⊢
      split at admitted
      · contradiction
      · split at admitted
        · contradiction
        · next busy unfunded =>
          rw [if_neg busy, if_neg unfunded]
          rw [not_or, not_not, Nat.not_le] at busy
          rw [not_and, Int.not_lt] at unfunded
          obtain ⟨free, first⟩ := busy
          have frame := enqueue_frame p owner
          rw [frame] at free unfunded
          exact ⟨⟨idle, free, first, unfunded⟩, rfl⟩

end MisrcGui.RfPreview.Budget
