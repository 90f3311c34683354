import MisrcGui.Library.Machine
import MisrcGui.RfPreview.Budget

/-! Whole runs of the CPU budget: who is admitted, and what the admitted have cost. -/
namespace MisrcGui.RfPreview.BudgetRuns
open Library Budget

inductive Operation where
  | acquire (owner now : Nat)
  | finish (owner now cpu : Nat)
  | cancel (owner : Nat)
  | register (owner : Nat)
  | unregister (owner : Nat)
  | retire (owner measured residual : Nat)
deriving DecidableEq

/-- All but the policy is ghost: the clock and the capacity of the first refresh, the CPU time
charged, the turn at which each waiting owner began to wait, and the number of turns. -/
structure State where
  policy : Policy
  firstUs : Nat
  initialCapacity : Nat
  charged : Nat
  asked : Nat → Option Nat
  turn : Nat

def initial (cores quantum : Nat) : State where
  policy := ⟨cores, quantum, [], 0, 0, 0, false, [], []⟩
  firstUs := 0
  initialCapacity := 0
  charged := 0
  asked := fun _ => none
  turn := 0

def perform (p : Policy) : Operation → Policy × Bool
  | .acquire owner now => ((acquire p owner now).1, (acquire p owner now).2.1)
  | .finish owner now cpu => (finish p owner now cpu, false)
  | .cancel owner => (cancel p owner, false)
  | .register owner => ((registerCounter p owner).1, false)
  | .unregister owner => (unregisterCounter p owner, false)
  | .retire owner measured residual => (retireCounter p owner measured residual, false)

/-- The CPU time an operation charges, from the first refresh on. -/
def charge (p : Policy) : Operation → Nat
  | .finish owner _ cpu => if owner ∈ p.active.map Prod.fst then cpu else 0
  | .retire owner measured residual =>
    if owner ∈ p.counters ∧ p.initialized then
      measured + min residual p.accountingQuantumCpuUs else 0
  | _ => 0

/-- An owner waits from its first refusal with a place in the queue until it is admitted or
cancels. -/
def askedAfter (s : State) (after : Policy) (admitted : Bool) : Operation → Nat → Option Nat
  | .acquire owner _ =>
    if admitted then Function.update s.asked owner none
    else if owner ∈ after.waiters then
      Function.update s.asked owner (some ((s.asked owner).getD s.turn))
    else s.asked
  | .cancel owner => Function.update s.asked owner none
  | _ => s.asked

def step (s : State) (operation : Operation) : Option State :=
  let (after, admitted) := perform s.policy operation
  let fresh := !s.policy.initialized && after.initialized
  some {
    policy := after
    firstUs := if fresh then after.updatedUs else s.firstUs
    initialCapacity := if fresh then capacity after else s.initialCapacity
    charged := s.charged + charge s.policy operation
    asked := askedAfter s after admitted operation
    turn := s.turn + 1 }

/-- A refill inside 64 bits. -/
def refillFits (p : Policy) (now : Nat) : Bool :=
  refill p.coresMillionths (clamp p now - (start p (clamp p now)).updatedUs) ≤ int64Max

/-- A debit inside 64 bits. -/
def debitFits (credit : Int) (charge : Nat) : Bool :=
  charge ≤ int64Max ∧ int64Min + charge ≤ credit

def unsaturated (s : State) : Operation → Bool
  | .acquire owner now => !(registerCounter s.policy owner).2 || refillFits s.policy now
  | .finish owner now cpu =>
    owner ∉ s.policy.active.map Prod.fst ||
      refillFits s.policy now && debitFits (refresh s.policy now).creditCpuUs (cpu - reserveCpuUs)
  | .retire owner measured residual =>
    owner ∉ s.policy.counters || !s.policy.initialized ||
      debitFits s.policy.creditCpuUs (measured + min residual s.policy.accountingQuantumCpuUs)
  | _ => true

/-! The account. -/

/-- The credit, the charges and the reservations are covered by the budget. -/
def Covered (initialCapacity firstUs charged : Nat) (p : Policy) : Prop :=
  (p.creditCpuUs + charged + reserveCpuUs * p.active.length) * 1000000 ≤
    initialCapacity * 1000000 + p.coresMillionths * (p.updatedUs - firstUs : Int)

variable {p : Policy} {owner now capacityUs firstUs charged cores : Nat}

theorem clamp_le (running : p.initialized) : p.updatedUs ≤ clamp p now := by
  rw [clamp]
  split
  · exact le_rfl
  · next early =>
    rw [not_and, Nat.not_lt] at early
    exact early running

theorem Covered.refresh (covered : Covered capacityUs firstUs charged p)
    (running : p.initialized) (budget : 0 < p.coresMillionths) (fits : refillFits p now) :
    Covered capacityUs firstUs charged (refresh p now) := by
  obtain ⟨sameCores, -, -, active, -, -, updated⟩ := refresh_frame p now
  have same : start p (clamp p now) = p := if_pos running
  have earned := refresh_credit budget (of_decide_eq_true fits)
  have rate := refill_le budget (clamp p now - p.updatedUs)
  have later : p.updatedUs ≤ clamp p now := clamp_le running
  rw [same] at earned
  rw [Covered] at covered ⊢
  rw [sameCores, active, updated]
  have exact : (refill p.coresMillionths (clamp p now - p.updatedUs) : Int) * 1000000 ≤
      p.coresMillionths * (clamp p now - p.updatedUs : Int) := by
    have cast : ((clamp p now - p.updatedUs : Nat) : Int) = clamp p now - p.updatedUs := by omega
    rw [← cast]
    exact_mod_cast rate
  have split : (p.coresMillionths : Int) * (clamp p now - firstUs : Int) =
      p.coresMillionths * (p.updatedUs - firstUs : Int) +
        p.coresMillionths * (clamp p now - p.updatedUs : Int) := by ring
  rw [split]
  linarith

theorem capacity_congr {q : Policy} (cores : q.coresMillionths = p.coresMillionths)
    (quantum : q.accountingQuantumCpuUs = p.accountingQuantumCpuUs)
    (counters : q.counters = p.counters) : capacity q = capacity p := by
  rw [capacity, capacity, cores, quantum, counters]

theorem Covered.begin (fresh : p.initialized = false) (idle : p.active = [])
    (budget : 0 < p.coresMillionths) :
    Covered (capacity (Budget.refresh p now)) (Budget.refresh p now).updatedUs 0
      (Budget.refresh p now) := by
  obtain ⟨cores, quantum, counters, active, -, -, updated⟩ := refresh_frame p now
  have still : clamp p now = now := if_neg fun late => by
    rw [fresh] at late
    exact absurd late.1 (by simp)
  have begun : start p (clamp p now) =
      { p with creditCpuUs := capacity p, updatedUs := now, initialized := true } := by
    rw [still]
    exact if_neg (by rw [fresh]; simp)
  have none : refill p.coresMillionths 0 = 0 := by
    have rate := refill_le budget 0
    omega
  have fits : refill p.coresMillionths (clamp p now - (start p (clamp p now)).updatedUs) ≤
      int64Max := by
    rw [begun, still, Nat.sub_self, none]
    exact Nat.zero_le _
  have credit := refresh_credit budget fits
  rw [begun, still] at credit
  dsimp only at credit
  rw [Nat.sub_self, none, Nat.cast_zero, add_zero] at credit
  rw [Covered, active, idle, sub_self, capacity_congr cores quantum counters]
  simp only [List.length_nil, Nat.cast_zero, mul_zero, add_zero]
  exact mul_le_mul_of_nonneg_right credit (by norm_num)

theorem Covered.enqueue (covered : Covered capacityUs firstUs charged p) :
    Covered capacityUs firstUs charged (enqueue p owner) := by
  rw [enqueue_frame]
  exact covered

theorem Covered.activate (covered : Covered capacityUs firstUs charged p)
    (budget : 0 < p.coresMillionths) :
    Covered capacityUs firstUs charged (activate p owner now) := by
  have limited : p.coresMillionths ≠ 0 := budget.ne'
  rw [Covered] at covered ⊢
  rw [Budget.activate]
  simp only [cancel, limited, ne_eq, not_false_eq_true, if_true, List.length_append,
    List.length_singleton]
  push_cast
  linarith

theorem debit_eq {credit : Int} {charge : Nat} (fits : debitFits credit charge) :
    debit credit charge = credit - charge := by
  obtain ⟨small, room⟩ := of_decide_eq_true fits
  rw [debit, if_neg]
  rintro (large | low)
  · omega
  · omega

theorem settle_le {credit : Int} {cpu : Nat} (fits : debitFits credit (cpu - reserveCpuUs)) :
    settle credit cpu ≤ credit + reserveCpuUs - cpu := by
  rw [settle]
  split
  · next beyond =>
    rw [debit_eq fits]
    omega
  · have := min_le_left (credit + ((reserveCpuUs : Int) - cpu)) int64Max
    omega

theorem unregisterCounter_frame (p : Policy) (owner : Nat) :
    (unregisterCounter p owner).coresMillionths = p.coresMillionths ∧
      (unregisterCounter p owner).active = p.active ∧
      (unregisterCounter p owner).waiters = p.waiters ∧
      (unregisterCounter p owner).initialized = p.initialized ∧
      (unregisterCounter p owner).updatedUs = p.updatedUs ∧
      (unregisterCounter p owner).creditCpuUs ≤ p.creditCpuUs := by
  rw [unregisterCounter]
  split
  · dsimp only
    split
    · next above => exact ⟨rfl, rfl, rfl, rfl, rfl, above.2.le⟩
    · exact ⟨rfl, rfl, rfl, rfl, rfl, le_rfl⟩
  · exact ⟨rfl, rfl, rfl, rfl, rfl, le_rfl⟩

theorem Covered.unregister (covered : Covered capacityUs firstUs charged p) :
    Covered capacityUs firstUs charged (unregisterCounter p owner) := by
  obtain ⟨cores, active, -, -, updated, credit⟩ := unregisterCounter_frame p owner
  rw [Covered] at covered ⊢
  rw [cores, active, updated]
  linarith

theorem length_eraseP_owner (member : owner ∈ p.active.map Prod.fst) :
    (p.active.eraseP fun entry => entry.1 = owner).length + 1 = p.active.length := by
  obtain ⟨entry, inside, same⟩ := List.mem_map.mp member
  have erased := List.length_eraseP_of_mem (p := fun entry => decide (entry.1 = owner)) inside
    (decide_eq_true same)
  have some := List.length_pos_of_mem inside
  omega

theorem release_frame (p : Policy) (owner cpu : Nat) :
    (release p owner cpu).coresMillionths = p.coresMillionths ∧
      (release p owner cpu).waiters = p.waiters ∧
      (release p owner cpu).initialized = p.initialized ∧
      (release p owner cpu).updatedUs = p.updatedUs ∧
      (release p owner cpu).active = p.active.eraseP fun entry => entry.1 = owner := by
  rw [release]
  split <;> exact ⟨rfl, rfl, rfl, rfl, rfl⟩

theorem Covered.release {cpu : Nat} (covered : Covered capacityUs firstUs charged p)
    (budget : 0 < p.coresMillionths) (member : owner ∈ p.active.map Prod.fst)
    (room : debitFits p.creditCpuUs (cpu - reserveCpuUs)) :
    Covered capacityUs firstUs (charged + cpu) (release p owner cpu) := by
  obtain ⟨cores, -, -, updated, active⟩ := release_frame p owner cpu
  have fewer := length_eraseP_owner member
  have cost := settle_le room
  have credit : (Budget.release p owner cpu).creditCpuUs = settle p.creditCpuUs cpu := by
    rw [Budget.release]
    dsimp only
    rw [if_pos budget.ne']
  rw [Covered] at covered ⊢
  rw [← fewer] at covered
  rw [cores, updated, active, credit]
  push_cast at covered ⊢
  linarith

theorem refillFits_still (running : p.initialized) (budget : 0 < p.coresMillionths)
    (still : now ≤ p.updatedUs) : refillFits p now := by
  have none : refill p.coresMillionths 0 = 0 := by
    have rate := refill_le budget 0
    omega
  have same : clamp p now = p.updatedUs := by
    rw [clamp]
    split
    · rfl
    · next early =>
      rw [not_and, Nat.not_lt] at early
      exact Nat.le_antisymm still (early running)
  have begun : start p (clamp p now) = p := if_pos running
  rw [refillFits, begun, same, Nat.sub_self, none]
  exact decide_eq_true (Nat.zero_le _)

theorem Covered.finish {cpu : Nat} (covered : Covered capacityUs firstUs charged p)
    (running : p.initialized) (budget : 0 < p.coresMillionths)
    (member : owner ∈ p.active.map Prod.fst) (fits : refillFits p now)
    (room : debitFits (Budget.refresh p now).creditCpuUs (cpu - reserveCpuUs)) :
    Covered capacityUs firstUs (charged + cpu) (finish p owner now cpu) := by
  obtain ⟨cores, -, -, active, -, begun, updated⟩ := refresh_frame p now
  obtain ⟨cores', -, begun', updated', -⟩ := release_frame (Budget.refresh p now) owner cpu
  have once := covered.refresh running budget fits
  have released := once.release (by rw [cores]; exact budget) (by rw [active]; exact member) room
  rw [Budget.finish, if_pos member]
  dsimp only
  rw [refresh_clamp]
  have limited : 0 < (Budget.release (Budget.refresh p now) owner cpu).coresMillionths := by
    rw [cores', cores]
    exact budget
  have running' := begun'.trans begun
  refine released.refresh running' limited (refillFits_still running' limited ?_)
  rw [updated', updated]

theorem resolve_shape (p : Policy) (owner now : Nat) :
    ∃ waiters active credit,
      (resolve p owner now).1 = { p with waiters, active, creditCpuUs := credit } := by
  cases admitted : (resolve p owner now).2.1 with
  | false =>
    rcases resolve_refused admitted with same | same
    · exact ⟨_, _, _, same⟩
    · rw [same, enqueue_frame]
      exact ⟨_, _, _, rfl⟩
  | true =>
    rw [(resolve_admitted admitted).2, enqueue_frame, Budget.activate]
    dsimp only
    split <;> exact ⟨_, _, _, rfl⟩

theorem Covered.resolve (covered : Covered capacityUs firstUs charged p)
    (budget : 0 < p.coresMillionths) :
    Covered capacityUs firstUs charged (resolve p owner now).1 := by
  cases admitted : (Budget.resolve p owner now).2.1 with
  | false =>
    rcases resolve_refused admitted with same | same
    · rwa [same]
    · rw [same]
      exact covered.enqueue
  | true =>
    rw [(resolve_admitted admitted).2]
    have cores : (Budget.enqueue p owner).coresMillionths = p.coresMillionths := by
      rw [enqueue_frame]
    exact covered.enqueue.activate (by rw [cores]; exact budget)

theorem resolve_bounded (bounded : p.active.length ≤ concurrency p) :
    (resolve p owner now).1.active.length ≤ concurrency p := by
  cases admitted : (resolve p owner now).2.1 with
  | false =>
    rcases resolve_refused admitted with same | same
    · rwa [same]
    · rwa [same, enqueue_frame]
  | true =>
    obtain ⟨admits, same⟩ := resolve_admitted admitted
    have more : (Budget.activate (enqueue p owner) owner now).active.length =
        p.active.length + 1 := by
      rw [enqueue_frame, Budget.activate]
      dsimp only
      split <;> exact List.length_append
    rw [same, more]
    exact admits.free

structure Account (cores : Nat) (s : State) : Prop where
  budget : s.policy.coresMillionths = cores
  bounded : s.policy.active.length ≤ concurrency s.policy
  began : s.policy.initialized = false → s.policy.active = [] ∧ s.charged = 0
  covered : s.policy.initialized → Covered s.initialCapacity s.firstUs s.charged s.policy

variable {s next : State} {operation : Operation}

theorem step_eq (taken : step s operation = some next) :
    next.policy = (perform s.policy operation).1 ∧
      next.charged = s.charged + charge s.policy operation ∧
      next.asked = askedAfter s (perform s.policy operation).1 (perform s.policy operation).2
        operation ∧
      next.turn = s.turn + 1 := by
  rw [step, Option.some_inj] at taken
  rw [← taken]
  exact ⟨rfl, rfl, rfl, rfl⟩

/-- The account keeps its opening values when the first refresh is over, or not yet there. -/
theorem step_old (taken : step s operation = some next)
    (old : (perform s.policy operation).1.initialized = s.policy.initialized) :
    next.firstUs = s.firstUs ∧ next.initialCapacity = s.initialCapacity := by
  have same : (!s.policy.initialized && (perform s.policy operation).1.initialized) = false := by
    rw [old, Bool.not_and_self]
  rw [step, Option.some_inj] at taken
  rw [← taken]
  exact ⟨if_neg (ne_true_of_eq_false same), if_neg (ne_true_of_eq_false same)⟩

theorem step_fresh (taken : step s operation = some next)
    (before : s.policy.initialized = false)
    (after : (perform s.policy operation).1.initialized = true) :
    next.firstUs = next.policy.updatedUs ∧ next.initialCapacity = capacity next.policy := by
  have same : (!s.policy.initialized && (perform s.policy operation).1.initialized) = true := by
    rw [before, after]
    rfl
  rw [step, Option.some_inj] at taken
  rw [← taken]
  exact ⟨if_pos same, if_pos same⟩

theorem Account.keep (account : Account cores s) (taken : step s operation = some next)
    (old : (perform s.policy operation).1.initialized = s.policy.initialized)
    (budget : (perform s.policy operation).1.coresMillionths = s.policy.coresMillionths)
    (fewer : (perform s.policy operation).1.active.length ≤ s.policy.active.length)
    (began : s.policy.initialized = false → charge s.policy operation = 0)
    (covered : s.policy.initialized → Covered s.initialCapacity s.firstUs s.charged s.policy →
      Covered s.initialCapacity s.firstUs (s.charged + charge s.policy operation)
        (perform s.policy operation).1) : Account cores next := by
  obtain ⟨policy, charged, -, -⟩ := step_eq taken
  obtain ⟨first, capacity⟩ := step_old taken old
  have level : concurrency next.policy = concurrency s.policy := by
    rw [concurrency, concurrency, policy, budget]
  refine ⟨?_, ?_, ?_, ?_⟩
  · rw [policy, budget, account.budget]
  · rw [level, policy]
    exact fewer.trans account.bounded
  · intro fresh
    rw [policy, old] at fresh
    obtain ⟨idle, none⟩ := account.began fresh
    rw [idle] at fewer
    rw [policy, charged, none, began fresh]
    exact ⟨List.eq_nil_of_length_eq_zero (Nat.le_zero.mp fewer), rfl⟩
  · intro running
    rw [policy, old] at running
    rw [first, capacity, charged, policy]
    exact covered running (account.covered running)

theorem Account.acquire (account : Account cores s) (positive : 0 < cores)
    (fits : unsaturated s (.acquire owner now))
    (taken : step s (.acquire owner now) = some next) : Account cores next := by
  rcases acquire_cases s.policy owner now with refused | ⟨registered, resolved⟩
  · have same : (perform s.policy (.acquire owner now)).1 = s.policy := by rw [perform, refused]
    exact account.keep taken (by rw [same]) (by rw [same]) (by rw [same]) (fun _ => rfl)
      (fun _ covered => by rw [same]; exact covered)
  · obtain ⟨policy, charged, -, -⟩ := step_eq taken
    obtain ⟨sameCores, active, -, begun, updated⟩ := refreshed_frame s.policy owner now
    have budget : 0 < s.policy.coresMillionths := by rw [account.budget]; exact positive
    have after : (perform s.policy (.acquire owner now)).1 =
        (resolve (refreshed s.policy owner now) owner (clamp s.policy now)).1 := by
      rw [perform, resolved]
    have limited : 0 < (refreshed s.policy owner now).coresMillionths := by
      rw [sameCores]
      exact budget
    obtain ⟨counters, shape⟩ := registerCounter_frame s.policy owner
    obtain ⟨waiters, entries, credit, frame⟩ :=
      resolve_shape (refreshed s.policy owner now) owner (clamp s.policy now)
    have level : concurrency next.policy = concurrency (refreshed s.policy owner now) := by
      rw [policy, after, frame]
      rfl
    have sameLevel : concurrency (refreshed s.policy owner now) = concurrency s.policy := by
      rw [concurrency, concurrency, sameCores]
    have running : next.policy.initialized = true := by
      rw [policy, after, frame]
      exact begun
    have covered : Covered next.initialCapacity next.firstUs s.charged
        (refreshed s.policy owner now) := by
      cases fresh : s.policy.initialized with
      | true =>
        have old : (perform s.policy (.acquire owner now)).1.initialized =
            s.policy.initialized := by rw [← policy, running, fresh]
        obtain ⟨first, capacity⟩ := step_old taken old
        rw [first, capacity, refreshed, shape]
        have covered := account.covered fresh
        refine Covered.refresh ?_ fresh budget ?_
        · exact covered
        · have inside : refillFits s.policy now := by
            rw [unsaturated, registered] at fits
            exact fits
          rw [refillFits, start, if_pos fresh] at inside ⊢
          exact inside
      | false =>
        obtain ⟨idle, none⟩ := account.began fresh
        obtain ⟨first, opening⟩ := step_fresh taken fresh (by rw [← policy, running])
        have same : capacity next.policy = capacity (refreshed s.policy owner now) := by
          rw [policy, after, frame]
          rfl
        have time : next.policy.updatedUs = (refreshed s.policy owner now).updatedUs := by
          rw [policy, after, frame]
        rw [first, opening, same, time, none, refreshed, shape]
        exact Covered.begin fresh idle budget
    refine ⟨?_, ?_, ?_, ?_⟩
    · rw [policy, after, frame]
      exact sameCores.trans account.budget
    · rw [level, policy, after]
      refine resolve_bounded ?_
      rw [sameLevel, active]
      exact account.bounded
    · intro fresh
      rw [running] at fresh
      contradiction
    · intro _
      have none : charge s.policy (.acquire owner now) = 0 := rfl
      rw [charged, none, Nat.add_zero, policy, after]
      exact covered.resolve limited

theorem finish_inactive {cpu : Nat} (absent : owner ∉ p.active.map Prod.fst) :
    finish p owner now cpu = p := if_neg absent

theorem finish_frame (p : Policy) (owner now cpu : Nat) :
    (finish p owner now cpu).coresMillionths = p.coresMillionths ∧
      (finish p owner now cpu).waiters = p.waiters ∧
      (finish p owner now cpu).active.length ≤ p.active.length := by
  by_cases member : owner ∈ p.active.map Prod.fst
  · obtain ⟨cores, -, -, active, waiters, -, -⟩ := refresh_frame p now
    obtain ⟨cores', waiters', -, -, active'⟩ := release_frame (refresh p now) owner cpu
    obtain ⟨cores'', -, -, active'', waiters'', -, -⟩ :=
      refresh_frame (release (refresh p now) owner cpu) (clamp p now)
    rw [finish, if_pos member]
    dsimp only
    rw [refresh_clamp]
    refine ⟨by rw [cores'', cores', cores], by rw [waiters'', waiters', waiters], ?_⟩
    rw [active'', active', active]
    exact (List.eraseP_sublist).length_le
  · rw [finish_inactive member]
    exact ⟨rfl, rfl, le_rfl⟩

theorem Account.finish {cpu : Nat} (account : Account cores s) (positive : 0 < cores)
    (fits : unsaturated s (.finish owner now cpu))
    (taken : step s (.finish owner now cpu) = some next) : Account cores next := by
  obtain ⟨sameCores, -, fewer⟩ := finish_frame s.policy owner now cpu
  by_cases member : owner ∈ s.policy.active.map Prod.fst
  · have budget : 0 < s.policy.coresMillionths := by rw [account.budget]; exact positive
    have running : s.policy.initialized = true := by
      by_contra fresh
      rw [(account.began (Bool.eq_false_iff.mpr fresh)).1] at member
      contradiction
    have begun : (Budget.finish s.policy owner now cpu).initialized = true := by
      rw [Budget.finish, if_pos member]
      exact (refresh_frame _ _).2.2.2.2.2.1
    rw [unsaturated, decide_eq_false (not_not.mpr member), Bool.false_or, Bool.and_eq_true] at fits
    refine account.keep taken (begun.trans running.symm) sameCores fewer ?_ ?_
    · intro fresh
      rw [running] at fresh
      contradiction
    · intro _ covered
      rw [charge, if_pos member]
      exact covered.finish running budget member fits.1 fits.2
  · have same : (perform s.policy (.finish owner now cpu)).1 = s.policy := finish_inactive member
    have free : charge s.policy (.finish owner now cpu) = 0 := if_neg member
    refine account.keep taken (by rw [same]) (by rw [same]) (by rw [same]) (fun _ => free) ?_
    intro _ covered
    rw [same, free]
    exact covered

theorem retire_shape (p : Policy) (owner measured residual : Nat) :
    ∃ credit, retireCounter p owner measured residual =
      unregisterCounter { p with creditCpuUs := credit } owner := by
  rw [retireCounter]
  split
  · dsimp only
    split <;> exact ⟨_, rfl⟩
  · next absent =>
    refine ⟨p.creditCpuUs, ?_⟩
    rw [unregisterCounter, if_neg absent]

theorem Account.retire {measured residual : Nat} (account : Account cores s) (positive : 0 < cores)
    (fits : unsaturated s (.retire owner measured residual))
    (taken : step s (.retire owner measured residual) = some next) : Account cores next := by
  obtain ⟨credit, shape⟩ := retire_shape s.policy owner measured residual
  obtain ⟨sameCores, active, -, begun, -, -⟩ :=
    unregisterCounter_frame { s.policy with creditCpuUs := credit } owner
  rw [← shape] at sameCores active begun
  refine account.keep taken begun sameCores (by rw [← active]; exact le_rfl) ?_ ?_
  · intro fresh
    exact if_neg fun both => by rw [fresh] at both; exact absurd both.2 (by simp)
  · intro running covered
    change Covered _ _ _ (retireCounter s.policy owner measured residual)
    rw [charge]
    by_cases member : owner ∈ s.policy.counters
    · rw [unsaturated, decide_eq_false (not_not.mpr member), running] at fits
      have inside : debitFits s.policy.creditCpuUs
          (measured + min residual s.policy.accountingQuantumCpuUs) := fits
      have whole : retirement s.policy measured residual =
          measured + min residual s.policy.accountingQuantumCpuUs := by
        have small : measured + min residual s.policy.accountingQuantumCpuUs ≤ int64Max :=
          (of_decide_eq_true inside).1
        exact Nat.min_eq_left (small.trans (by decide))
      have limited : s.policy.coresMillionths ≠ 0 := by rw [account.budget]; exact positive.ne'
      rw [if_pos ⟨member, running⟩, retireCounter, if_pos member, whole]
      generalize measured + min residual s.policy.accountingQuantumCpuUs = cost at inside ⊢
      apply Covered.unregister
      by_cases free : cost = 0
      · rw [if_neg fun all => all.2.2 free, free]
        exact covered
      · rw [if_pos ⟨running, limited, free⟩, debit_eq inside]
        rw [Covered] at covered ⊢
        dsimp only
        push_cast
        linarith
    · rw [if_neg fun both => member both.1, retireCounter, if_neg member]
      exact covered

theorem Account.step (account : Account cores s) (positive : 0 < cores)
    (fits : unsaturated s operation) (taken : step s operation = some next) :
    Account cores next := by
  cases operation with
  | acquire owner now => exact account.acquire positive fits taken
  | finish owner now cpu => exact account.finish positive fits taken
  | retire owner measured residual => exact account.retire positive fits taken
  | cancel owner =>
    exact account.keep taken rfl rfl le_rfl (fun _ => rfl) fun _ covered => covered
  | register owner =>
    obtain ⟨counters, shape⟩ := registerCounter_frame s.policy owner
    have same : (perform s.policy (.register owner)).1 = { s.policy with counters } := shape
    exact account.keep taken (by rw [same]) (by rw [same]) (by rw [same]) (fun _ => rfl)
      fun _ covered => by rw [same]; exact covered
  | unregister owner =>
    obtain ⟨sameCores, active, -, begun, -, -⟩ := unregisterCounter_frame s.policy owner
    exact account.keep taken begun sameCores (congrArg List.length active).le (fun _ => rfl)
      fun _ covered => covered.unregister

/-! The queue. -/

def since (s : State) (owner : Nat) : Nat := (s.asked owner).getD 0

/-- The queue holds those who wait, by the turn at which they began. -/
structure Queue (s : State) : Prop where
  waits : ∀ owner, owner ∈ s.policy.waiters ↔ (s.asked owner).isSome
  before : ∀ owner ∈ s.policy.waiters, since s owner < s.turn
  ordered : s.policy.waiters.Pairwise fun a b => since s a < since s b

theorem Queue.nodup (queue : Queue s) : s.policy.waiters.Nodup := by
  refine queue.ordered.imp fun {a b} (earlier : since s a < since s b) => ?_
  rintro rfl
  exact Nat.lt_irrefl _ earlier

theorem Queue.keep (queue : Queue s) (waiters : next.policy.waiters = s.policy.waiters)
    (asked : next.asked = s.asked) (turn : next.turn = s.turn + 1) : Queue next := by
  have same : since next = since s := by
    funext owner
    rw [since, since, asked]
  refine ⟨?_, ?_, ?_⟩
  · rw [waiters, asked]
    exact queue.waits
  · rw [waiters, same, turn]
    exact fun owner member => Nat.lt_succ_of_lt (queue.before owner member)
  · rw [waiters, same]
    exact queue.ordered

theorem Queue.leave (queue : Queue s)
    (waiters : next.policy.waiters = s.policy.waiters.erase owner)
    (asked : next.asked = Function.update s.asked owner none) (turn : next.turn = s.turn + 1) :
    Queue next := by
  have member (other : Nat) : other ∈ s.policy.waiters.erase owner ↔
      other ≠ owner ∧ other ∈ s.policy.waiters := queue.nodup.mem_erase_iff
  have same {other : Nat} (else' : other ≠ owner) : since next other = since s other := by
    rw [since, since, asked, Function.update_of_ne else']
  refine ⟨?_, ?_, ?_⟩
  · intro other
    rw [waiters, asked, member]
    by_cases leaving : other = owner
    · rw [leaving, Function.update_self]
      simp
    · rw [Function.update_of_ne leaving, and_iff_right leaving]
      exact queue.waits other
  · intro other inside
    rw [waiters, member] at inside
    rw [same inside.1, turn]
    exact Nat.lt_succ_of_lt (queue.before other inside.2)
  · rw [waiters]
    refine (queue.ordered.sublist List.erase_sublist).imp_of_mem fun first second earlier => ?_
    rw [same ((member _).mp first).1, same ((member _).mp second).1]
    exact earlier

theorem Queue.join (queue : Queue s) (new : owner ∉ s.policy.waiters)
    (waiters : next.policy.waiters = s.policy.waiters ++ [owner])
    (asked : next.asked = Function.update s.asked owner (some s.turn))
    (turn : next.turn = s.turn + 1) : Queue next := by
  have same {other : Nat} (inside : other ∈ s.policy.waiters) :
      since next other = since s other := by
    have away : other ≠ owner := fun equal => new (equal ▸ inside)
    rw [since, since, asked, Function.update_of_ne away]
  have last : since next owner = s.turn := by
    rw [since, asked, Function.update_self, Option.getD_some]
  refine ⟨?_, ?_, ?_⟩
  · intro other
    rw [waiters, asked, List.mem_append, List.mem_singleton]
    by_cases joining : other = owner
    · rw [joining, Function.update_self]
      simp
    · rw [Function.update_of_ne joining, or_iff_left joining]
      exact queue.waits other
  · intro other inside
    rw [waiters, List.mem_append, List.mem_singleton] at inside
    rw [turn]
    rcases inside with old | rfl
    · rw [same old]
      exact Nat.lt_succ_of_lt (queue.before other old)
    · rw [last]
      exact Nat.lt_succ_self _
  · rw [waiters, List.pairwise_append]
    refine ⟨?_, List.pairwise_singleton _ _, ?_⟩
    · refine queue.ordered.imp_of_mem fun first second earlier => ?_
      rw [same first, same second]
      exact earlier
    · intro first inside second joining
      rw [List.mem_singleton.mp joining, last, same inside]
      exact queue.before first inside

theorem enqueue_waiters (p : Policy) (owner : Nat) :
    (enqueue p owner).waiters = if owner ∈ p.waiters then p.waiters else p.waiters ++ [owner] := by
  rw [enqueue]
  split <;> rfl

theorem enqueue_erase (p : Policy) (owner : Nat) :
    (enqueue p owner).waiters.erase owner = p.waiters.erase owner := by
  rw [enqueue_waiters]
  split
  · rfl
  · next new =>
    rw [List.erase_append_right _ new, List.erase_of_not_mem new, List.erase_cons_head,
      List.append_nil]

theorem Queue.refuse (queue : Queue s) (taken : step s (.acquire owner now) = some next)
    (refused : (acquire s.policy owner now).2.1 = false)
    (waiters : (acquire s.policy owner now).1.waiters = s.policy.waiters ∨
      (acquire s.policy owner now).1.waiters = (enqueue s.policy owner).waiters) : Queue next := by
  obtain ⟨policy, -, asked, turn⟩ := step_eq taken
  have after : next.policy.waiters = (acquire s.policy owner now).1.waiters :=
    congrArg Policy.waiters policy
  have wants : next.asked =
      if owner ∈ next.policy.waiters then
        Function.update s.asked owner (some ((s.asked owner).getD s.turn))
      else s.asked := by
    rw [asked, after]
    simp only [askedAfter, perform, refused, Bool.false_eq_true, if_false]
  by_cases old : owner ∈ s.policy.waiters
  · have same : next.policy.waiters = s.policy.waiters := by
      rw [enqueue_waiters, if_pos old, or_self] at waiters
      rw [after, waiters]
    refine queue.keep same ?_ turn
    obtain ⟨time, began⟩ := Option.isSome_iff_exists.mp ((queue.waits owner).mp old)
    rw [wants, same, if_pos old, began, Option.getD_some, ← began, Function.update_eq_self]
  · rcases waiters with same | joined
    · rw [← after] at same
      refine queue.keep same ?_ turn
      rw [wants, same, if_neg old]
    · rw [← after, enqueue_waiters, if_neg old] at joined
      refine queue.join old joined ?_ turn
      have none : s.asked owner = none := by
        rw [← Option.not_isSome_iff_eq_none, ← queue.waits]
        exact old
      rw [wants, joined, if_pos (by simp), none, Option.getD_none]

theorem Queue.acquire (queue : Queue s) (taken : step s (.acquire owner now) = some next) :
    Queue next := by
  obtain ⟨policy, -, asked, turn⟩ := step_eq taken
  obtain ⟨-, -, waiters, -, -⟩ := refreshed_frame s.policy owner now
  have queued : (enqueue (refreshed s.policy owner now) owner).waiters =
      (enqueue s.policy owner).waiters := by
    rw [enqueue_waiters, enqueue_waiters, waiters]
  rcases acquire_cases s.policy owner now with refused | ⟨-, resolved⟩
  · exact queue.refuse taken (by rw [refused]) (.inl (by rw [refused]))
  · cases admitted : (resolve (refreshed s.policy owner now) owner (clamp s.policy now)).2.1 with
    | false =>
      refine queue.refuse taken (by rw [resolved, admitted]) ?_
      rw [resolved]
      rcases resolve_refused admitted with same | same
      · rw [same, waiters]
        exact .inl rfl
      · rw [same, queued]
        exact .inr rfl
    | true =>
      have left : next.policy.waiters = s.policy.waiters.erase owner := by
        rw [policy, perform, resolved, (resolve_admitted admitted).2, ← waiters,
          ← enqueue_erase, Budget.activate]
        dsimp only
        split <;> rfl
      refine queue.leave left ?_ turn
      rw [asked]
      simp only [askedAfter, perform, resolved, admitted, if_true]

theorem Queue.step (queue : Queue s) (taken : step s operation = some next) : Queue next := by
  obtain ⟨policy, -, asked, turn⟩ := step_eq taken
  cases operation with
  | acquire owner now => exact queue.acquire taken
  | cancel owner => exact queue.leave (by rw [policy]; rfl) asked turn
  | finish owner now cpu =>
    exact queue.keep ((congrArg Policy.waiters policy).trans (finish_frame ..).2.1) asked turn
  | register owner =>
    obtain ⟨counters, shape⟩ := registerCounter_frame s.policy owner
    have same : next.policy = { s.policy with counters } := policy.trans shape
    exact queue.keep (by rw [same]) asked turn
  | unregister owner =>
    exact queue.keep ((congrArg Policy.waiters policy).trans (unregisterCounter_frame ..).2.2.1)
      asked turn
  | retire owner measured residual =>
    obtain ⟨credit, shape⟩ := retire_shape s.policy owner measured residual
    have same : next.policy = unregisterCounter { s.policy with creditCpuUs := credit } owner :=
      policy.trans shape
    exact queue.keep ((congrArg Policy.waiters same).trans (unregisterCounter_frame ..).2.2.1)
      asked turn

/-! What an admission says. -/

/-- The budget as it is promised: whoever is admitted waited longest, was not active, shares the
cores with at most so many, and all that was charged and reserved is earned. -/
structure Admission (cores : Nat) (before after : State) (owner : Nat) : Prop where
  longest : ∀ other ≠ owner, (before.asked other).isSome →
    (before.asked owner).isSome ∧ since before owner < since before other
  idle : owner ∉ before.policy.active.map Prod.fst
  bounded : after.policy.active.length ≤ ⌈(cores : ℚ) / 1000000⌉₊
  paid : (after.charged + reserveCpuUs * after.policy.active.length : ℚ) ≤
    cores / 1000000 * (after.policy.updatedUs - after.firstUs) + after.initialCapacity

theorem initial_account (cores quantum : Nat) : Account cores (initial cores quantum) where
  budget := rfl
  bounded := Nat.zero_le _
  began := fun _ => ⟨rfl, rfl⟩
  covered := nofun

theorem initial_queue (cores quantum : Nat) : Queue (initial cores quantum) where
  waits := fun owner => by simp [initial]
  before := nofun
  ordered := .nil

theorem concurrency_le {cores : Nat} (budget : p.coresMillionths = cores) (positive : 0 < cores) :
    concurrency p ≤ ⌈(cores : ℚ) / 1000000⌉₊ := by
  have above := Nat.le_ceil ((cores : ℚ) / 1000000)
  rw [div_le_iff₀ (by norm_num)] at above
  have whole : cores ≤ ⌈(cores : ℚ) / 1000000⌉₊ * 1000000 := by exact_mod_cast above
  rw [concurrency, budget, if_neg positive.ne']
  omega

theorem admission_of (account : Account cores s) (queue : Queue s) (positive : 0 < cores)
    (fits : unsaturated s (.acquire owner now))
    (taken : step s (.acquire owner now) = some next)
    (admitted : (acquire s.policy owner now).2.1 = true) : Admission cores s next owner := by
  have later := account.acquire positive fits taken
  obtain ⟨policy, -, -, -⟩ := step_eq taken
  obtain ⟨sameCores, active, waiters, begun, -⟩ := refreshed_frame s.policy owner now
  rcases acquire_cases s.policy owner now with refused | ⟨-, resolved⟩
  · rw [refused] at admitted
    contradiction
  rw [resolved] at admitted
  obtain ⟨admits, shape⟩ := resolve_admitted admitted
  have after : next.policy =
      activate (enqueue (refreshed s.policy owner now) owner) owner (clamp s.policy now) := by
    rw [policy, perform, resolved, shape]
  have limited : (refreshed s.policy owner now).coresMillionths ≠ 0 := by
    rw [sameCores, account.budget]
    exact positive.ne'
  have credit : 0 ≤ next.policy.creditCpuUs := by
    have funded := admits.funded limited
    rw [after, enqueue_frame, Budget.activate]
    simp only [cancel, limited, ne_eq, not_false_eq_true, if_true]
    omega
  have running : next.policy.initialized = true := by
    rw [after, enqueue_frame, Budget.activate]
    dsimp only
    split <;> exact begun
  refine ⟨?_, ?_, ?_, ?_⟩
  · intro other different waiting
    have first := admits.first
    have member := (queue.waits other).mpr waiting
    have ordered := queue.ordered
    rw [enqueue_waiters, waiters] at first
    cases line : s.policy.waiters with
    | nil =>
      rw [line] at member
      contradiction
    | cons head rest =>
      have there : head = owner := by
        rw [line] at first
        split at first <;> exact Option.some.inj first
      rw [line, there] at member ordered
      refine ⟨(queue.waits owner).mp (by rw [line, there]; exact List.mem_cons_self), ?_⟩
      exact (List.pairwise_cons.mp ordered).1 other
        ((List.mem_cons.mp member).resolve_left different)
  · rw [← active]
    exact admits.idle
  · exact later.bounded.trans (concurrency_le later.budget positive)
  · have covered := later.covered running
    rw [Covered, later.budget] at covered
    have exact : ((next.policy.creditCpuUs + next.charged +
        reserveCpuUs * next.policy.active.length : Int) : ℚ) * 1000000 ≤
          next.initialCapacity * 1000000 + cores * (next.policy.updatedUs - next.firstUs) := by
      exact_mod_cast covered
    have some : (0 : ℚ) ≤ next.policy.creditCpuUs := by exact_mod_cast credit
    push_cast at exact
    rw [div_mul_eq_mul_div, ← sub_le_iff_le_add, le_div_iff₀ (by norm_num)]
    linarith

/-- In every run without saturation the queue has no duplicates, and every acquire that admits
keeps the promise. -/
theorem budget_enforced (cores quantum : Nat) (positive : 0 < cores) (operations : List Operation)
    (s : State)
    (ran : Machine.run (Machine.guarded unsaturated step) (initial cores quantum) operations =
      some s) :
    s.policy.waiters.Nodup ∧ ∀ owner now next, unsaturated s (.acquire owner now) →
      step s (.acquire owner now) = some next → (acquire s.policy owner now).2.1 = true →
        Admission cores s next owner := by
  have invariant := Machine.run_invariant (fun s => Account cores s ∧ Queue s)
    (fun _ _ _ inv taken => by
      obtain ⟨fits, taken⟩ := Machine.guarded_eq_some.mp taken
      exact ⟨inv.1.step positive fits taken, inv.2.step taken⟩)
    ⟨initial_account cores quantum, initial_queue cores quantum⟩ ran
  exact ⟨invariant.2.nodup, fun owner now next fits taken admitted =>
    admission_of invariant.1 invariant.2 positive fits taken admitted⟩

/-- An overlong block of the first owner; the second is admitted when it is paid back. -/
def overrun : List Operation := [.acquire 1 0, .acquire 2 0, .finish 1 1000 8000, .acquire 1 4000]

theorem budget_enforced_overrun :
    ∃ s next, Machine.run step (initial 1000000 0) overrun = some s ∧
      step s (.acquire 2 5000) = some next ∧ Admission 1000000 s next 2 := by
  have ran : (Machine.run (Machine.guarded unsaturated step) (initial 1000000 0) overrun).map
      (fun s => (unsaturated s (.acquire 2 5000), (acquire s.policy 2 5000).2.1)) =
        some (true, true) := by decide +kernel
  obtain ⟨s, ran, seen⟩ := Option.map_eq_some_iff.mp ran
  rw [Prod.mk.injEq] at seen
  obtain ⟨next, taken⟩ : ∃ next, step s (.acquire 2 5000) = some next := ⟨_, rfl⟩
  exact ⟨s, next, Machine.run_of_guarded ran, taken,
    (budget_enforced 1000000 0 (by decide) overrun s ran).2 2 5000 next seen.1 taken seen.2⟩

end MisrcGui.RfPreview.BudgetRuns
