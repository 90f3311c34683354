import Mathlib.Algebra.Order.BigOperators.Group.List
import MisrcGui.RfPreview.BudgetRuns

/-! What asking for CPU budget costs: the credit that an attempt finds after others have failed. -/
namespace MisrcGui.RfPreview.Polling
open Budget BudgetRuns

/-- `gui_rf_preview_policy_set_budget` with a budget it accepts. -/
def setBudget (p : Policy) (cores : Nat) : Policy :=
  { p with coresMillionths := cores, initialized := false, deadlineUs := 0 }

def sample : Operation → Option Nat
  | .acquire _ now => some now
  | .finish _ now _ => some now
  | _ => none

def Current (p : Policy) (now : Nat) : Prop := ∀ entry ∈ p.active, entry.2 ≤ clamp p now

instance (p : Policy) (now : Nat) : Decidable (Current p now) :=
  inferInstanceAs (Decidable (∀ entry ∈ p.active, entry.2 ≤ clamp p now))

inductive Reached : Policy → Prop
  | initial (cores quantum : Nat) : Reached (initial cores quantum).policy
  | performed {p : Policy} (reached : Reached p) (operation : Operation)
      (current : ∀ now ∈ sample operation, Current p now) : Reached (perform p operation).1
  | budget {p : Policy} (reached : Reached p) (cores : Nat) : Reached (setBudget p cores)

/-- Attempts in turn; each is an owner and its sample of the clock. -/
def polled (p : Policy) (polls : List (Nat × Nat)) : Policy :=
  polls.foldl (fun p poll => (acquire p poll.1 poll.2).1) p

def Failing : Policy → List (Nat × Nat) → Prop
  | _, [] => True
  | p, poll :: rest =>
    (acquire p poll.1 poll.2).2.1 = false ∧ Failing (acquire p poll.1 poll.2).1 rest

/-! The arithmetic of a refresh. -/

def earned (cores gap : Nat) : Nat := gap * cores / 1000000

def room (p : Policy) (now : Nat) : Nat :=
  capacity p + (p.active.map fun entry => now - entry.2).sum

def ceiling (p : Policy) (now : Nat) : Nat := min (room p now) int64Max

variable {p q : Policy} {owner now cores : Nat}

theorem foldl_addSat (active : List (Nat × Nat)) (limit : Nat) :
    min (active.foldl (fun limit entry => addSat limit (now - entry.2)) limit) int64Max =
      min (limit + (active.map fun entry => now - entry.2).sum) int64Max := by
  induction active generalizing limit with
  | nil => rfl
  | cons entry rest ih =>
    have beyond : int64Max ≤ uint64Max := by decide
    rw [List.foldl_cons, ih, List.map_cons, List.sum_cons, addSat]
    omega

theorem unsettledCapacity_eq (p : Policy) (now : Nat) :
    unsettledCapacity p now = ceiling p now := foldl_addSat p.active (capacity p)

theorem refill_eq (budget : 0 < cores) (elapsed : Nat) :
    refill cores elapsed = min (earned cores elapsed) uint64Max := by
  have whole : (if uint64Max / cores < elapsed / 1000000 then uint64Max
      else elapsed / 1000000 * cores) = min (elapsed / 1000000 * cores) uint64Max := by
    split
    · next beyond =>
      have := (Nat.div_lt_iff_lt_mul budget).mp beyond
      omega
    · next inside =>
      have := Nat.not_lt.mp fun above => inside ((Nat.div_lt_iff_lt_mul budget).mpr above)
      omega
  have pieces : earned cores elapsed =
      elapsed / 1000000 * cores + elapsed % 1000000 * cores / 1000000 := by
    have split : elapsed * cores =
        elapsed % 1000000 * cores + 1000000 * (elapsed / 1000000 * cores) := by
      conv_lhs => rw [← Nat.mod_add_div elapsed 1000000]
      ring
    rw [earned, split, Nat.add_mul_div_left _ _ (by decide), Nat.add_comm]
  simp only [refill, whole, pieces, addSat]
  omega

/-- A gain that does not fit in 64 bits fills the credit. -/
def raise (level : Int) (gain : Nat) : Int :=
  if int64Max < gain then int64Max else level + gain

theorem earn_eq (budget : 0 < p.coresMillionths) :
    earn p now = min (raise p.creditCpuUs (earned p.coresMillionths (now - p.updatedUs)))
      (ceiling p now) := by
  have limit : ceiling p now ≤ int64Max := min_le_right _ _
  have beyond : int64Max < uint64Max := by decide
  simp only [earn, refill_eq budget, unsettledCapacity_eq, raise]
  generalize earned p.coresMillionths (now - p.updatedUs) = gain
  generalize ceiling p now = limit at *
  split <;> split <;> omega

theorem room_congr (cores : q.coresMillionths = p.coresMillionths)
    (quantum : q.accountingQuantumCpuUs = p.accountingQuantumCpuUs)
    (counters : q.counters = p.counters) (active : q.active = p.active) :
    room q now = room p now := by
  rw [room, room, capacity_congr cores quantum counters, active]

theorem room_later {earlier later : Nat} (current : ∀ entry ∈ p.active, entry.2 ≤ earlier)
    (order : earlier ≤ later) :
    room p later = room p earlier + p.active.length * (later - earlier) := by
  unfold room
  generalize p.active = active at *
  have total : (active.map fun entry => later - entry.2).sum =
      (active.map fun entry => earlier - entry.2).sum + active.length * (later - earlier) := by
    induction active with
    | nil => simp
    | cons entry rest ih =>
      have first := current entry List.mem_cons_self
      have others := ih fun entry inside => current entry (List.mem_cons_of_mem _ inside)
      rw [List.map_cons, List.map_cons, List.sum_cons, List.sum_cons, List.length_cons,
        Nat.succ_mul, others]
      omega
  rw [total, Nat.add_assoc]

/-- Before its limit the credit was cut nowhere, or it stays cut: the budget outruns the room. -/
def Uncut (active cores : Nat) (level : Int) (room : Nat) : Prop :=
  active * 1000000 ≤ cores ∨ level ≤ room ∨ int64Max ≤ room

theorem Uncut.later {active gap level before} (uncut : Uncut active cores level before) :
    Uncut active cores (raise level (earned cores gap)) (before + active * gap) := by
  by_cases fast : active * 1000000 ≤ cores
  · exact .inl fast
  have slow : earned cores gap ≤ active * gap := by
    have rate : gap * cores ≤ active * gap * 1000000 := by
      have := Nat.mul_le_mul_left gap (Nat.le_of_not_le fast)
      linarith
    exact Nat.div_le_of_le_mul (by linarith)
  rcases uncut with fast' | below | full
  · exact absurd fast' fast
  · unfold raise
    split
    · right
      right
      omega
    · right
      left
      omega
  · right
    right
    omega

theorem Uncut.cut {active gap level before} (uncut : Uncut active cores level before) :
    min (raise (min level (min before int64Max : Nat)) (earned cores gap))
        (min (before + active * gap) int64Max : Nat) =
      min (raise level (earned cores gap)) (min (before + active * gap) int64Max : Nat) := by
  unfold raise
  split
  · rfl
  rcases uncut with fast | below | full
  · have quick : active * gap ≤ earned cores gap := by
      rw [earned, Nat.le_div_iff_mul_le (by decide)]
      have := Nat.mul_le_mul_left gap fast
      linarith
    omega
  · omega
  · omega

/-! One refresh, and one failed attempt. -/

theorem start_running (running : p.initialized = true) : start p now = p := if_pos running

theorem refresh_credit_eq (running : p.initialized = true) (budget : 0 < p.coresMillionths) :
    (refresh p now).creditCpuUs =
      min (raise p.creditCpuUs (earned p.coresMillionths (clamp p now - p.updatedUs)))
        (ceiling p (clamp p now)) := by
  rw [← earn_eq budget, refresh, start_running running, if_neg budget.ne']

theorem clamp_fresh (fresh : p.initialized = false) : clamp p now = now :=
  if_neg fun late => by
    rw [fresh] at late
    exact absurd late.1 (by simp)

theorem start_fresh (fresh : p.initialized = false) :
    start p now =
      { p with creditCpuUs := capacity p, updatedUs := now, initialized := true } :=
  if_neg (by rw [fresh]; simp)

theorem clamp_start (fresh : p.initialized = false) : clamp (start p now) now = now := by
  rw [start_fresh fresh]
  exact if_neg fun late => Nat.lt_irrefl _ late.2

theorem refresh_start (fresh : p.initialized = false) :
    refresh p now = refresh (start p now) now := by
  rw [refresh, refresh, clamp_fresh fresh, clamp_start fresh,
    start_running (start_initialized p now)]

structure Kept (p q : Policy) : Prop where
  cores : q.coresMillionths = p.coresMillionths
  quantum : q.accountingQuantumCpuUs = p.accountingQuantumCpuUs
  counters : q.counters = p.counters
  active : q.active = p.active
  waiters : p.waiters <+: q.waiters

theorem kept_self (p : Policy) : Kept p p := ⟨rfl, rfl, rfl, rfl, List.prefix_rfl⟩

/-- The last refresh was at `time`, and without its limit the credit would be at `level`. -/
structure Polled (p q : Policy) (level : Int) (time : Nat) : Prop extends Kept p q where
  running : q.initialized = true
  updated : q.updatedUs = time
  current : ∀ entry ∈ p.active, entry.2 ≤ time
  credit : q.creditCpuUs = min level (ceiling p time)
  uncut : Uncut p.active.length p.coresMillionths level (room p time)

theorem registerCounter_member (known : owner ∈ p.counters) (proper : owner ≠ 0) :
    registerCounter p owner = (p, true) := by
  rw [registerCounter, if_neg proper, if_pos known]

theorem acquire_known (known : owner ∈ p.counters) (proper : owner ≠ 0) :
    acquire p owner now = resolve (refresh p now) owner (clamp p now) := by
  rw [acquire, registerCounter_member known proper]
  dsimp only
  rw [Bool.not_true, if_neg (by simp), refresh_clamp]

theorem Polled.refresh {level : Int} {time : Nat} (at_time : Polled p q level time)
    (budget : 0 < p.coresMillionths) :
    Polled p (Budget.refresh q now) (raise level (earned p.coresMillionths (now - time)))
      (max time now) := by
  obtain ⟨cores, quantum, counters, active, waiters, running, updated⟩ := refresh_frame q now
  have clock : clamp q now = max time now := by
    rw [clamp, at_time.updated]
    split
    · omega
    · next late =>
      rw [not_and, Nat.not_lt] at late
      have := late at_time.running
      omega
  have gap : max time now - time = now - time := by omega
  have later := room_later at_time.current (Nat.le_max_left time now)
  rw [gap] at later
  refine ⟨⟨cores.trans at_time.cores, quantum.trans at_time.quantum,
    counters.trans at_time.counters, active.trans at_time.active, ?_⟩, running,
    updated.trans clock, ?_, ?_, ?_⟩
  · rw [waiters]
    exact at_time.waiters
  · intro entry inside
    exact (at_time.current entry inside).trans (Nat.le_max_left _ _)
  · have sameRoom : room q (max time now) = room p (max time now) :=
      room_congr at_time.cores at_time.quantum at_time.counters at_time.active
    rw [refresh_credit_eq at_time.running (by rw [at_time.cores]; exact budget), clock,
      at_time.updated, at_time.cores, at_time.credit, ceiling, ceiling, ceiling, sameRoom, later,
      gap]
    exact at_time.uncut.cut
  · rw [later]
    exact at_time.uncut.later

theorem Polled.refused {level : Int} {time : Nat}
    (after : Polled p (Budget.refresh q now) level time) (known : owner ∈ p.counters)
    (proper : owner ≠ 0) (failed : (acquire q owner now).2.1 = false) :
    Polled p (acquire q owner now).1 level time := by
  have member : owner ∈ q.counters := by
    rwa [← (refresh_frame q now).2.2.1, after.counters]
  rw [acquire_known member proper] at failed ⊢
  rcases resolve_refused failed with same | queued
  · rwa [same]
  · rw [queued, enqueue_frame]
    refine { after with waiters := after.waiters.trans ?_ }
    rw [enqueue_waiters]
    split
    · exact List.prefix_rfl
    · exact List.prefix_append _ _

/-! What holds of every policy. -/

def Capped (p : Policy) : Prop :=
  p.initialized = true → 0 < p.coresMillionths → p.creditCpuUs ≤ ceiling p p.updatedUs

structure Sound (p : Policy) : Prop where
  proper : 0 ∉ p.counters
  started : p.initialized = true → ∀ entry ∈ p.active, entry.2 ≤ p.updatedUs
  capped : Capped p

theorem refresh_capped (p : Policy) (now : Nat) : Capped (refresh p now) := by
  obtain ⟨cores, quantum, counters, active, -, -, updated⟩ := refresh_frame p now
  intro _ budget
  rw [cores] at budget
  have sameRoom : ceiling (refresh p now) (clamp p now) = ceiling p (clamp p now) := by
    rw [ceiling, ceiling, room_congr cores quantum counters active]
  rw [updated, sameRoom]
  cases running : p.initialized with
  | true =>
    rw [refresh_credit_eq running budget]
    exact min_le_right _ _
  | false =>
    have kept : ceiling (start p now) now = ceiling p now := by
      rw [start_fresh running]
      rfl
    have limited : 0 < (start p now).coresMillionths := by
      rw [start_fresh running]
      exact budget
    rw [refresh_start running, clamp_fresh running,
      refresh_credit_eq (start_initialized p now) limited, clamp_start running, kept]
    exact min_le_right _ _

theorem refresh_sound (sound : Sound p) (current : Current p now) : Sound (refresh p now) where
  proper := by
    rw [(refresh_frame p now).2.2.1]
    exact sound.proper
  started := by
    obtain ⟨-, -, -, active, -, -, updated⟩ := refresh_frame p now
    intro _
    rw [active, updated]
    exact current
  capped := refresh_capped p now

theorem room_counters {counters : List Nat} (more : p.counters.length ≤ counters.length) :
    ceiling p now ≤ ceiling { p with counters } now := by
  have larger := Nat.mul_le_mul_right p.accountingQuantumCpuUs more
  simp only [ceiling, room, capacity]
  omega

theorem register_sound (sound : Sound p) : Sound (registerCounter p owner).1 := by
  rw [registerCounter]
  split
  · exact sound
  next proper =>
  split
  · exact sound
  split
  · exact sound
  · refine ⟨?_, sound.started, ?_⟩
    · intro inside
      rcases List.mem_append.mp inside with old | new
      · exact sound.proper old
      · exact proper (List.mem_singleton.mp new).symm
    · intro running budget
      refine (sound.capped running budget).trans ?_
      have more : p.counters.length ≤ (p.counters ++ [owner]).length := by
        rw [List.length_append]
        omega
      exact_mod_cast room_counters more

theorem unregister_sound (proper : 0 ∉ p.counters)
    (started : p.initialized = true → ∀ entry ∈ p.active, entry.2 ≤ p.updatedUs)
    (capped : owner ∉ p.counters → Capped p) : Sound (unregisterCounter p owner) := by
  rw [unregisterCounter]
  split
  · have fewer : 0 ∉ p.counters.erase owner := fun inside =>
      proper (List.mem_of_mem_erase inside)
    dsimp only
    split
    · refine ⟨fewer, started, ?_⟩
      intro _ _
      rw [unsettledCapacity_eq]
      exact le_rfl
    · next within =>
      refine ⟨fewer, started, ?_⟩
      intro running _
      rw [not_and, Int.not_lt, unsettledCapacity_eq] at within
      exact within running
  · next absent => exact ⟨proper, started, capped absent⟩

theorem retire_sound (sound : Sound p) (measured residual : Nat) :
    Sound (retireCounter p owner measured residual) := by
  rw [retireCounter]
  split
  · next member =>
    dsimp only
    split
    · exact unregister_sound sound.proper sound.started fun absent => absurd member absent
    · exact unregister_sound sound.proper sound.started fun _ => sound.capped
  · exact sound

theorem enqueue_sound (sound : Sound p) : Sound (enqueue p owner) := by
  rw [enqueue_frame]
  exact ⟨sound.proper, sound.started, sound.capped⟩

theorem activate_sound (sound : Sound p) (running : p.initialized = true) :
    Sound (activate p owner p.updatedUs) := by
  have roomy : ceiling p p.updatedUs ≤
      ceiling { p with active := p.active ++ [(owner, p.updatedUs)] } p.updatedUs := by
    simp only [ceiling, room, capacity, List.map_append, List.sum_append]
    omega
  have started : ∀ entry ∈ p.active ++ [(owner, p.updatedUs)], entry.2 ≤ p.updatedUs := by
    intro entry inside
    rcases List.mem_append.mp inside with old | new
    · exact sound.started running entry old
    · rw [List.mem_singleton.mp new]
  unfold activate cancel
  dsimp only
  split
  · refine ⟨sound.proper, fun _ => started, ?_⟩
    intro _ budget
    have within := sound.capped running budget
    have : p.creditCpuUs - reserveCpuUs ≤ p.creditCpuUs := by omega
    exact this.trans (within.trans (by exact_mod_cast roomy))
  · next unlimited =>
    refine ⟨sound.proper, fun _ => started, ?_⟩
    intro _ budget
    exact absurd budget.ne' unlimited

theorem resolve_sound (sound : Sound p) (running : p.initialized = true)
    (clock : p.updatedUs = now) : Sound (resolve p owner now).1 := by
  cases admitted : (resolve p owner now).2.1 with
  | false =>
    rcases resolve_refused admitted with same | queued
    · rwa [same]
    · rw [queued]
      exact enqueue_sound sound
  | true =>
    have sameClock : (enqueue p owner).updatedUs = now := by
      rw [enqueue_frame]
      exact clock
    rw [(resolve_admitted admitted).2, ← sameClock]
    refine activate_sound (enqueue_sound sound) ?_
    rw [enqueue_frame]
    exact running

theorem acquire_sound (sound : Sound p) (current : Current p now) :
    Sound (acquire p owner now).1 := by
  obtain ⟨counters, shape⟩ := registerCounter_frame p owner
  rcases acquire_cases p owner now with refused | ⟨-, asked⟩
  · rwa [refused]
  · have registered : Current (registerCounter p owner).1 now := by
      rw [shape]
      exact current
    obtain ⟨-, -, -, running, updated⟩ := refreshed_frame p owner now
    rw [asked]
    exact resolve_sound (refresh_sound (register_sound sound) registered) running updated

theorem finish_sound {cpu : Nat} (sound : Sound p) (current : Current p now) :
    Sound (finish p owner now cpu) := by
  by_cases member : owner ∈ p.active.map Prod.fst
  · have before := refresh_sound sound current
    have running := (refresh_frame p now).2.2.2.2.2.1
    obtain ⟨-, -, began, updated, active⟩ := release_frame (refresh p now) owner cpu
    have counters : (release (refresh p now) owner cpu).counters = (refresh p now).counters := by
      unfold release
      dsimp only
      split <;> rfl
    have started : ∀ entry ∈ (release (refresh p now) owner cpu).active,
        entry.2 ≤ (refresh p now).updatedUs := by
      intro entry inside
      rw [active] at inside
      exact before.started running entry (List.mem_of_mem_eraseP inside)
    rw [finish, if_pos member]
    dsimp only
    rw [refresh_clamp]
    obtain ⟨-, -, kept, same, -, -, clock⟩ :=
      refresh_frame (release (refresh p now) owner cpu) (clamp p now)
    refine ⟨?_, ?_, refresh_capped _ _⟩
    · rw [kept, counters]
      exact before.proper
    · intro _ entry inside
      rw [same] at inside
      rw [clock]
      have early := started entry inside
      rw [← updated] at early
      exact early.trans (clamp_le (began.trans running))
  · rw [finish_inactive member]
    exact sound

theorem Reached.sound (reached : Reached p) : Sound p := by
  induction reached with
  | initial cores quantum => exact ⟨List.not_mem_nil, nofun, nofun⟩
  | @performed p _ operation current ih =>
    cases operation with
    | acquire owner now => exact acquire_sound ih (current now rfl)
    | finish owner now cpu => exact finish_sound ih (current now rfl)
    | cancel owner => exact ⟨ih.proper, ih.started, ih.capped⟩
    | register owner => exact register_sound ih
    | unregister owner => exact unregister_sound ih.proper ih.started fun _ => ih.capped
    | retire owner measured residual => exact retire_sound ih measured residual
  | budget _ cores ih => exact ⟨ih.proper, nofun, nofun⟩

/-! Several failed attempts. -/

def gaps : Nat → List Nat → List Nat
  | _, [] => []
  | time, sample :: rest => (sample - time) :: gaps (max time sample) rest

def parts (cores time : Nat) (samples : List Nat) : List Nat :=
  (gaps time samples).map (earned cores)

theorem sum_gaps {time : Nat} {samples : List Nat} (last : ∀ sample ∈ samples, sample ≤ now) :
    (gaps time (samples ++ [now])).sum = now - time := by
  induction samples generalizing time with
  | nil => simp [gaps]
  | cons sample rest ih =>
    have first := last sample List.mem_cons_self
    have others := fun other inside => last other (List.mem_cons_of_mem _ inside)
    rw [List.cons_append, gaps, List.sum_cons, ih others]
    omega

theorem sum_earned (times : List Nat) :
    (times.map (earned cores)).sum ≤ earned cores times.sum := by
  induction times with
  | nil => simp
  | cons gap rest ih =>
    have both : gap * cores / 1000000 + rest.sum * cores / 1000000 ≤
        (gap * cores + rest.sum * cores) / 1000000 := Nat.div_add_div_le_add_div
    rw [List.map_cons, List.sum_cons, List.sum_cons]
    unfold earned at *
    rw [Nat.add_mul]
    omega

theorem climb_fits {level : Int} {gains : List Nat} (fit : ∀ gain ∈ gains, gain ≤ int64Max) :
    gains.foldl raise level = level + gains.sum := by
  induction gains generalizing level with
  | nil => simp
  | cons gain rest ih =>
    have first := fit gain List.mem_cons_self
    rw [List.foldl_cons, ih fun gain inside => fit gain (List.mem_cons_of_mem _ inside), raise,
      if_neg (by omega), List.sum_cons]
    push_cast
    ring

theorem climb_full {level : Int} (gains : List Nat) (full : int64Max ≤ level) :
    int64Max ≤ gains.foldl raise level := by
  induction gains generalizing level with
  | nil => exact full
  | cons gain rest ih =>
    apply ih
    unfold raise
    split <;> omega

theorem climb_overflows {level : Int} {gains : List Nat}
    (overflow : ∃ gain ∈ gains, int64Max < gain) : int64Max ≤ gains.foldl raise level := by
  induction gains generalizing level with
  | nil =>
    obtain ⟨gain, inside, -⟩ := overflow
    cases inside
  | cons first rest ih =>
    rw [List.foldl_cons]
    by_cases large : int64Max < first
    · apply climb_full
      rw [raise, if_pos large]
    · apply ih
      obtain ⟨gain, inside, beyond⟩ := overflow
      rcases List.mem_cons.mp inside with rfl | later
      · exact absurd beyond large
      · exact ⟨gain, later, beyond⟩

theorem Polled.polls {level : Int} {time : Nat} {polls : List (Nat × Nat)}
    (at_time : Polled p q level time) (budget : 0 < p.coresMillionths) (proper : 0 ∉ p.counters)
    (known : ∀ poll ∈ polls, poll.1 ∈ p.counters) (failing : Failing q polls)
    (last : ∀ poll ∈ polls, poll.2 ≤ now) :
    (∃ level time, Polled p (polled q polls) level time) ∧
      (Budget.refresh (polled q polls) now).creditCpuUs =
        min ((parts p.coresMillionths time (polls.map Prod.snd ++ [now])).foldl raise level)
          (ceiling p (max time now)) := by
  induction polls generalizing q level time with
  | nil => exact ⟨⟨level, time, at_time⟩, (at_time.refresh budget).credit⟩
  | cons poll rest ih =>
    obtain ⟨failed, later⟩ := failing
    have member := known poll List.mem_cons_self
    have nonzero : poll.1 ≠ 0 := fun zero => proper (zero ▸ member)
    have order : max (max time poll.2) now = max time now := by
      have := last poll List.mem_cons_self
      omega
    rw [← order]
    exact ih ((at_time.refresh budget).refused member nonzero failed)
      (fun poll inside => known poll (List.mem_cons_of_mem _ inside)) later
      (fun poll inside => last poll (List.mem_cons_of_mem _ inside))

/-! The attempt after the polling against the attempt alone. -/

/-- The credit that an attempt finds, before a reservation of its own. -/
def found (p : Policy) (owner now : Nat) : Int := (refreshed p owner now).creditCpuUs

/-- The attempt after the polling leaves the credit of the attempt alone, and succeeds if that one
does. -/
def Unharmed (p : Policy) (polls : List (Nat × Nat)) (owner now : Nat) : Prop :=
  (acquire (polled p polls) owner now).1.creditCpuUs = (acquire p owner now).1.creditCpuUs ∧
    ((acquire p owner now).2.1 = true → (acquire (polled p polls) owner now).2.1 = true)

/-- Nothing is lost by rounding down at each refresh, or the credit is at its limit anyway, or one
refill is beyond 64 bits. Before the first refresh, which fills the credit, polling must not earn
any either. -/
def Whole (p : Policy) (polls : List (Nat × Nat)) (now : Nat) : Prop :=
  let samples := polls.map Prod.snd ++ [now]
  if p.initialized then
    let gains := parts p.coresMillionths p.updatedUs samples
    let whole := earned p.coresMillionths (now - p.updatedUs)
    (gains.sum = whole ∧ whole ≤ int64Max) ∨
      (ceiling p (max p.updatedUs now) : Int) ≤ p.creditCpuUs + gains.sum ∨
      ∃ gain ∈ gains, int64Max < gain
  else
    (parts p.coresMillionths (samples.headD now) samples).sum = 0 ∨ ceiling p now ≤ capacity p

theorem found_known (known : owner ∈ p.counters) (proper : owner ≠ 0) :
    found p owner now = (refresh p now).creditCpuUs := by
  rw [found, refreshed, registerCounter_member known proper]

theorem climb_eq_iff {level : Int} {times : List Nat} {limit : Nat} (bounded : limit ≤ int64Max) :
    min ((times.map (earned cores)).foldl raise level) limit =
        min (raise level (earned cores times.sum)) limit ↔
      ((times.map (earned cores)).sum = earned cores times.sum ∧
          earned cores times.sum ≤ int64Max) ∨
        (limit : Int) ≤ level + (times.map (earned cores)).sum ∨
        ∃ gain ∈ times.map (earned cores), int64Max < gain := by
  have total : (times.map (earned cores)).sum ≤ earned cores times.sum := sum_earned times
  generalize times.map (earned cores) = gains at *
  generalize earned cores times.sum = whole at *
  by_cases overflow : ∃ gain ∈ gains, int64Max < gain
  · have high : (int64Max : Int) ≤ gains.foldl raise level := climb_overflows overflow
    obtain ⟨gain, inside, beyond⟩ := overflow
    have part := List.le_sum_of_mem inside
    refine iff_of_true ?_ (.inr (.inr ⟨gain, inside, beyond⟩))
    rw [raise, if_pos (by omega)]
    omega
  · have fit : ∀ gain ∈ gains, gain ≤ int64Max := by
      intro gain inside
      by_contra beyond
      exact overflow ⟨gain, inside, by omega⟩
    rw [climb_fits fit, raise]
    simp only [overflow, or_false]
    split <;> omega

theorem climb_le (level : Int) {times : List Nat} {limit : Nat} (bounded : limit ≤ int64Max) :
    min ((times.map (earned cores)).foldl raise level) limit ≤
      min (raise level (earned cores times.sum)) limit := by
  have total : (times.map (earned cores)).sum ≤ earned cores times.sum := sum_earned times
  generalize times.map (earned cores) = gains at *
  generalize earned cores times.sum = whole at *
  by_cases large : int64Max < whole
  · rw [raise, if_pos large]
    omega
  · have fit : ∀ gain ∈ gains, gain ≤ int64Max := by
      intro gain inside
      have part := List.le_sum_of_mem inside
      omega
    rw [climb_fits fit, raise, if_neg large]
    omega

theorem Sound.polled (sound : Sound p) (running : p.initialized = true)
    (budget : 0 < p.coresMillionths) : Polled p p p.creditCpuUs p.updatedUs where
  toKept := kept_self p
  running := running
  updated := rfl
  current := sound.started running
  credit := (min_eq_left (sound.capped running budget)).symm
  uncut := by
    have within := sound.capped running budget
    rw [ceiling] at within
    right
    left
    omega

theorem refresh_fresh (fresh : p.initialized = false) (budget : 0 < p.coresMillionths) :
    (refresh p now).creditCpuUs = min (capacity p : Int) (ceiling p now) := by
  have limited : 0 < (start p now).coresMillionths := by
    rw [start_fresh fresh]
    exact budget
  rw [refresh_start fresh, refresh_credit_eq (start_initialized p now) limited,
    clamp_start fresh, start_fresh fresh, Nat.sub_self, earned, Nat.zero_mul, Nat.zero_div,
    raise, if_neg (Nat.not_lt_zero _), Nat.cast_zero, add_zero]
  rfl

theorem first_polled (fresh : p.initialized = false) (budget : 0 < p.coresMillionths)
    (current : Current p now) : Polled p (refresh p now) (capacity p) now := by
  obtain ⟨cores, quantum, counters, active, waiters, running, updated⟩ := refresh_frame p now
  rw [Current, clamp_fresh fresh] at current
  rw [clamp_fresh fresh] at updated
  refine ⟨⟨cores, quantum, counters, active, ?_⟩, running, updated, current, ?_, .inr (.inl ?_)⟩
  · simp only [waiters, List.prefix_rfl]
  · exact refresh_fresh fresh budget
  · rw [room]
    omega

theorem climb_start_iff {level : Int} {gains : List Nat} {limit : Nat}
    (bounded : limit ≤ int64Max) :
    min (gains.foldl raise level) limit = min level limit ↔
      gains.sum = 0 ∨ (limit : Int) ≤ level := by
  by_cases overflow : ∃ gain ∈ gains, int64Max < gain
  · have high : (int64Max : Int) ≤ gains.foldl raise level := climb_overflows overflow
    obtain ⟨gain, inside, beyond⟩ := overflow
    have part := List.le_sum_of_mem inside
    omega
  · have fit : ∀ gain ∈ gains, gain ≤ int64Max := by
      intro gain inside
      by_contra beyond
      exact overflow ⟨gain, inside, by omega⟩
    rw [climb_fits fit]
    omega

section Attempt

variable {polls : List (Nat × Nat)}

theorem found_running (reached : Reached p) (running : p.initialized = true)
    (budget : 0 < p.coresMillionths) (known : owner ∈ p.counters)
    (others : ∀ poll ∈ polls, poll.1 ∈ p.counters) (last : ∀ poll ∈ polls, poll.2 ≤ now)
    (failing : Failing p polls) :
    Kept p (polled p polls) ∧
      found (polled p polls) owner now =
        min ((parts p.coresMillionths p.updatedUs (polls.map Prod.snd ++ [now])).foldl raise
          p.creditCpuUs) (ceiling p (max p.updatedUs now)) ∧
      found p owner now =
        min (raise p.creditCpuUs (earned p.coresMillionths (now - p.updatedUs)))
          (ceiling p (max p.updatedUs now)) := by
  have sound := reached.sound
  have proper : owner ≠ 0 := fun zero => sound.proper (zero ▸ known)
  have at_time := sound.polled running budget
  obtain ⟨⟨level, time, after⟩, credit⟩ := at_time.polls budget sound.proper others failing last
  have member : owner ∈ (polled p polls).counters := by rwa [after.counters]
  refine ⟨after.toKept, ?_, ?_⟩
  · rw [found_known member proper, credit]
  · rw [found_known known proper, (at_time.refresh budget).credit]

theorem found_alone (reached : Reached p) (fresh : p.initialized = false)
    (budget : 0 < p.coresMillionths) (known : owner ∈ p.counters) :
    found p owner now = min (capacity p : Int) (ceiling p now) := by
  have sound := reached.sound
  have proper : owner ≠ 0 := fun zero => sound.proper (zero ▸ known)
  rw [found_known known proper, refresh_fresh fresh budget]

theorem found_fresh (reached : Reached p) (fresh : p.initialized = false)
    (budget : 0 < p.coresMillionths) (known : owner ∈ p.counters)
    (others : ∀ poll ∈ polls, poll.1 ∈ p.counters)
    (current : ∀ poll ∈ polls, Current p poll.2) (last : ∀ poll ∈ polls, poll.2 ≤ now)
    (failing : Failing p polls) :
    Kept p (polled p polls) ∧ ∃ gains : List Nat,
      found (polled p polls) owner now = min (gains.foldl raise (capacity p)) (ceiling p now) ∧
      gains.sum = (parts p.coresMillionths ((polls.map Prod.snd ++ [now]).headD now)
        (polls.map Prod.snd ++ [now])).sum := by
  have sound := reached.sound
  have proper : owner ≠ 0 := fun zero => sound.proper (zero ▸ known)
  cases polls with
  | nil =>
    refine ⟨kept_self p, [], found_alone reached fresh budget known, ?_⟩
    simp [parts, gaps, earned]
  | cons poll rest =>
    obtain ⟨failed, later⟩ := failing
    have asked := others poll List.mem_cons_self
    have nonzero : poll.1 ≠ 0 := fun zero => sound.proper (zero ▸ asked)
    have at_time := (first_polled fresh budget (current poll List.mem_cons_self)).refused
      asked nonzero failed
    have order : max poll.2 now = now := max_eq_right (last poll List.mem_cons_self)
    obtain ⟨⟨level, time, after⟩, credit⟩ := at_time.polls budget sound.proper
      (fun poll inside => others poll (List.mem_cons_of_mem _ inside)) later
      (fun poll inside => last poll (List.mem_cons_of_mem _ inside))
    have kept : Kept p (polled p (poll :: rest)) := after.toKept
    have member : owner ∈ (polled p (poll :: rest)).counters := by rwa [kept.counters]
    rw [order] at credit
    refine ⟨kept, _, (found_known member proper).trans credit, ?_⟩
    simp [parts, gaps, earned]

theorem samples_last (last : ∀ poll ∈ polls, poll.2 ≤ now) :
    ∀ sample ∈ polls.map Prod.snd, sample ≤ now := by
  intro sample inside
  obtain ⟨poll, among, rfl⟩ := List.mem_map.mp inside
  exact last poll among

/-- What an attempt finds after the polling is what it finds alone exactly when nothing is lost by
rounding. -/
theorem found_polled_iff (reached : Reached p) (budget : 0 < p.coresMillionths)
    (known : owner ∈ p.counters) (others : ∀ poll ∈ polls, poll.1 ∈ p.counters)
    (current : ∀ poll ∈ polls, Current p poll.2) (last : ∀ poll ∈ polls, poll.2 ≤ now)
    (failing : Failing p polls) :
    found (polled p polls) owner now = found p owner now ↔ Whole p polls now := by
  have bounded : ∀ time, ceiling p time ≤ int64Max := fun time => min_le_right _ _
  cases running : p.initialized with
  | true =>
    obtain ⟨-, after, alone⟩ := found_running reached running budget known others last failing
    rw [after, alone, parts, ← sum_gaps (samples_last last), climb_eq_iff (bounded _), Whole,
      if_pos running, parts, sum_gaps (samples_last last)]
  | false =>
    obtain ⟨-, gains, after, total⟩ :=
      found_fresh reached running budget known others current last failing
    rw [after, found_alone reached running budget known, climb_start_iff (bounded now), total,
      Whole, if_neg (by rw [running]; simp), Nat.cast_le]

def Open (p : Policy) (owner : Nat) : Prop :=
  owner ∉ p.active.map Prod.fst ∧ p.active.length < concurrency p

theorem resolve_head (head : p.waiters.head? = some owner) (budget : 0 < p.coresMillionths) :
    ((resolve p owner now).2.1 = true ↔ Open p owner ∧ (reserveCpuUs : Int) ≤ p.creditCpuUs) ∧
      (resolve p owner now).1.creditCpuUs = if (resolve p owner now).2.1 then
        p.creditCpuUs - reserveCpuUs else p.creditCpuUs := by
  have queued : owner ∈ p.waiters := List.mem_of_head? head
  have same : enqueue p owner = p := if_pos queued
  rw [resolve, same]
  dsimp only
  split
  · next busy => exact ⟨⟨by simp, fun ready => absurd busy ready.1.1⟩, rfl⟩
  next idle =>
  rw [if_neg fun crowded => crowded.1 queued]
  split
  · next taken =>
    refine ⟨⟨by simp, fun ready => ?_⟩, rfl⟩
    rcases taken with full | behind
    · exact absurd ready.1.2 (Nat.not_lt.mpr full)
    · exact absurd head behind
  next free =>
  rw [not_or, Nat.not_le] at free
  split
  · next poor => exact ⟨⟨by simp, fun ready => absurd ready.2 (Int.not_le.mpr poor.2)⟩, rfl⟩
  · next funded =>
    rw [not_and, Int.not_lt] at funded
    refine ⟨⟨fun _ => ⟨⟨idle, free.1⟩, funded budget.ne'⟩, fun _ => rfl⟩, ?_⟩
    rw [activate, if_pos rfl]
    exact congrArg Policy.creditCpuUs (if_pos budget.ne')

theorem acquire_head (known : owner ∈ p.counters) (proper : owner ≠ 0)
    (head : p.waiters.head? = some owner) (budget : 0 < p.coresMillionths) :
    ((acquire p owner now).2.1 = true ↔
        Open p owner ∧ (reserveCpuUs : Int) ≤ found p owner now) ∧
      (acquire p owner now).1.creditCpuUs = if (acquire p owner now).2.1 then
        found p owner now - reserveCpuUs else found p owner now := by
  obtain ⟨cores, -, -, active, waiters, -, -⟩ := refresh_frame p now
  have sameHead : (refresh p now).waiters.head? = some owner := by rwa [waiters]
  have sameOpen : Open (refresh p now) owner = Open p owner := by
    rw [Open, Open, concurrency, concurrency, active, cores]
  rw [acquire_known known proper, found_known known proper, ← sameOpen]
  exact resolve_head sameHead (by rwa [cores])

theorem found_polled_le (reached : Reached p) (budget : 0 < p.coresMillionths)
    (known : owner ∈ p.counters) (others : ∀ poll ∈ polls, poll.1 ∈ p.counters)
    (last : ∀ poll ∈ polls, poll.2 ≤ now) (failing : Failing p polls) :
    found (polled p polls) owner now ≤ found p owner now ∨
      (reserveCpuUs : Int) ≤ found p owner now := by
  cases running : p.initialized with
  | true =>
    left
    obtain ⟨-, after, alone⟩ := found_running reached running budget known others last failing
    rw [after, alone, parts, ← sum_gaps (samples_last last)]
    exact climb_le _ (min_le_right _ _)
  | false =>
    right
    have reserve : reserveCpuUs ≤ capacity p := by
      rw [capacity]
      omega
    have fits : reserveCpuUs ≤ int64Max := by decide
    rw [found_alone reached running budget known, ceiling, room]
    omega

theorem polled_kept (reached : Reached p) (budget : 0 < p.coresMillionths)
    (known : owner ∈ p.counters) (others : ∀ poll ∈ polls, poll.1 ∈ p.counters)
    (current : ∀ poll ∈ polls, Current p poll.2) (last : ∀ poll ∈ polls, poll.2 ≤ now)
    (failing : Failing p polls) : Kept p (polled p polls) := by
  cases running : p.initialized with
  | true => exact (found_running reached running budget known others last failing).1
  | false => exact (found_fresh reached running budget known others current last failing).1

theorem Kept.head (kept : Kept p q) (head : p.waiters.head? = some owner) :
    q.waiters.head? = some owner := by
  obtain ⟨more, same⟩ := kept.waiters
  rw [← same, List.head?_append, head]
  rfl

theorem unharmed_iff (reached : Reached p) (budget : 0 < p.coresMillionths)
    (known : owner ∈ p.counters) (others : ∀ poll ∈ polls, poll.1 ∈ p.counters)
    (current : ∀ poll ∈ polls, Current p poll.2) (last : ∀ poll ∈ polls, poll.2 ≤ now)
    (failing : Failing p polls) (head : p.waiters.head? = some owner) :
    Unharmed p polls owner now ↔ found (polled p polls) owner now = found p owner now := by
  have proper : owner ≠ 0 := fun zero => reached.sound.proper (zero ▸ known)
  have kept := polled_kept reached budget known others current last failing
  have less := found_polled_le reached budget known others last failing
  have member : owner ∈ (polled p polls).counters := by rwa [kept.counters]
  have limited : 0 < (polled p polls).coresMillionths := by rwa [kept.cores]
  obtain ⟨admits, credit⟩ :
      ((acquire p owner now).2.1 = true ↔ _) ∧ (acquire p owner now).1.creditCpuUs = _ :=
    acquire_head known proper head budget
  obtain ⟨admitsAfter, creditAfter⟩ :
      ((acquire (polled p polls) owner now).2.1 = true ↔ _) ∧
        (acquire (polled p polls) owner now).1.creditCpuUs = _ :=
    acquire_head member proper (kept.head head) limited
  have sameOpen : Open (polled p polls) owner = Open p owner := by
    rw [Open, Open, concurrency, concurrency, kept.active, kept.cores]
  rw [sameOpen] at admitsAfter
  rw [Unharmed, credit, creditAfter]
  generalize (acquire p owner now).2.1 = alone at *
  generalize (acquire (polled p polls) owner now).2.1 = after at *
  generalize found p owner now = whole at *
  generalize found (polled p polls) owner now = rest at *
  constructor
  · rintro ⟨same, succeeds⟩
    cases alone with
    | true =>
      rw [succeeds rfl] at same
      simpa using same
    | false =>
      cases after with
      | false => simpa using same
      | true =>
        -- the permit is open, so the attempt alone misses the credit
        obtain ⟨free, funded⟩ := admitsAfter.mp rfl
        have missing : ¬ (reserveCpuUs : Int) ≤ whole := fun enough =>
          absurd (admits.mpr ⟨free, enough⟩) (by simp)
        omega
  · rintro rfl
    have same : after = alone := by
      rw [Bool.eq_iff_iff, admits, admitsAfter]
    rw [same]
    exact ⟨rfl, id⟩

/-- Polling costs nothing exactly when nothing is lost by rounding: neither in the credit that an
attempt of any owner finds, nor in what an attempt of the first waiter does. -/
theorem polling_free_iff (reached : Reached p) (budget : 0 < p.coresMillionths)
    (known : owner ∈ p.counters) (others : ∀ poll ∈ polls, poll.1 ∈ p.counters)
    (current : ∀ poll ∈ polls, Current p poll.2) (last : ∀ poll ∈ polls, poll.2 ≤ now)
    (failing : Failing p polls) :
    (found (polled p polls) owner now = found p owner now ↔ Whole p polls now) ∧
      (p.waiters.head? = some owner → (Unharmed p polls owner now ↔ Whole p polls now)) := by
  have same := found_polled_iff reached budget known others current last failing
  refine ⟨same, fun head => ?_⟩
  exact (unharmed_iff reached budget known others current last failing head).trans same

end Attempt

/-- Half a core. Owner 1 has used up the credit and waits. -/
def spent : Policy :=
  [Operation.acquire 1 0, .finish 1 0 2000, .acquire 1 0].foldl
    (fun p operation => (perform p operation).1) (initial 500000 0).policy

theorem spent_reached : Reached spent := by
  refine .performed (.performed (.performed (.initial 500000 0) (.acquire 1 0) ?_)
    (.finish 1 0 2000) ?_) (.acquire 1 0) ?_
  all_goals
    rintro now sampled
    cases sampled
    decide +kernel

/-- Polled after two microseconds, it still gets its permit in time. -/
theorem polling_free_spent : Unharmed spent [(1, 2)] 1 2000 := by
  have registered : ∀ poll ∈ [(1, 2)], poll.1 ∈ spent.counters := by decide +kernel
  have whole : Whole spent [(1, 2)] 2000 := .inl (by decide +kernel)
  have current : ∀ poll ∈ [(1, 2)], Current spent poll.2 := by decide +kernel
  refine ((polling_free_iff spent_reached (by decide +kernel) (by decide +kernel) registered
    current (by decide) ⟨by decide +kernel, trivial⟩).2 (by decide +kernel)).mpr whole

/-- Polled after one microsecond, it does not. -/
theorem polling_costs : Failing spent [(1, 1)] ∧ spent.waiters.head? = some 1 ∧
    (acquire spent 1 2000).2.1 = true ∧
    (acquire (polled spent [(1, 1)]) 1 2000).2.1 = false ∧ ¬ Unharmed spent [(1, 1)] 1 2000 := by
  have alone : (acquire spent 1 2000).2.1 = true := by decide +kernel
  have after : (acquire (polled spent [(1, 1)]) 1 2000).2.1 = false := by decide +kernel
  refine ⟨⟨by decide +kernel, trivial⟩, by decide +kernel, alone, after, ?_⟩
  rintro ⟨-, succeeds⟩
  rw [succeeds alone] at after
  cases after

end MisrcGui.RfPreview.Polling
