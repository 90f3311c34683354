import Mathlib.Data.UInt

/-! The rate that `cxadc_measure_card_rate_hz` measures of a card: a drain of what the driver has
buffered, then a timed window. Times are microseconds of a clock that does not wrap. -/
namespace MisrcGui.Cxadc.RateProbe

def maxCards : Nat := 2

/-- `CXADC_RATE_PROBE_START_BYTES`, the larger of the two windows that are asked for. -/
def probeStartBytes : Nat := 4 * 1024 * 1024

def chunkBytes : Nat := 256 * 1024

def minElapsedUs : Nat := 20000

def maxElapsedUs : Nat := 2000000

def drainChunkMinUs : Nat := 4000

def drainMaxBytes : Nat := 1024 * 1024 * 1024

def drainMaxUs : Nat := 3 * 1000000

/-- What a call of `cxadc_read_card` meets: the bytes that the driver has, none where it fails,
and the time before the call, in it, and after it up to the next look at the clock. -/
structure CardRead where
  before : Nat
  offered : Option Nat
  took : Nat
  after : Nat
deriving DecidableEq

namespace CardRead

def got (opened : Bool) (want : Nat) (read : CardRead) : Option Nat :=
  if opened then read.offered.map (min want) else none

def returned (now : Nat) (read : CardRead) : Nat := now + read.before + read.took

def finish (now : Nat) (read : CardRead) : Nat := read.returned now + read.after

def spent (read : CardRead) : Nat := read.before + read.took + read.after

end CardRead

/-- The arguments and surroundings of a call: the clock at its start, the time between the two
phases and the time from the window to the last look at the clock. -/
structure Probe where
  cardIdx : Int
  tenbit : Bool
  probeBytes : Nat
  allocated : Bool
  opened : Bool
  started : Nat
  settle : Nat
  closing : Nat

def Probe.bytesPerSample (probe : Probe) : Nat := if probe.tenbit then 2 else 1

structure Drained where
  reachedLive : Bool
  bytes : Nat
  now : Nat
deriving DecidableEq

def drain (opened : Bool) (start now bytes : Nat) (reads : List CardRead) :
    Option (Drained × List CardRead) :=
  if drainMaxBytes ≤ bytes then some (⟨false, bytes, now⟩, reads)
  else match reads with
    | [] => none
    | read :: rest =>
      match read.got opened chunkBytes with
      | none => some (⟨false, bytes, read.returned now⟩, rest)
      | some got =>
        if got ≠ 0 ∧ drainChunkMinUs ≤ read.took then
          some (⟨true, bytes + got, read.returned now⟩, rest)
        else if drainMaxUs ≤ read.finish now - start then
          some (⟨false, bytes + got, read.finish now⟩, rest)
        else drain opened start (read.finish now) (bytes + got) rest

/-- `results` is ghost: what the calls returned. -/
structure Timed where
  bytes : Nat
  now : Nat
  results : List (Option Nat)
deriving DecidableEq

def timedWindow (opened : Bool) (probeBytes start : Nat) (timed : Timed) (reads : List CardRead) :
    Option Timed :=
  if probeBytes ≤ timed.bytes then some timed
  else match reads with
    | [] => none
    | read :: rest =>
      let result := read.got opened (min (probeBytes - timed.bytes) chunkBytes)
      let results := timed.results ++ [result]
      match result with
      | none => some { timed with now := read.returned timed.now, results }
      | some got =>
        let next : Timed := ⟨timed.bytes + got, read.finish timed.now, results⟩
        if maxElapsedUs ≤ next.now - start then some next
        else timedWindow opened probeBytes start next rest

structure Phases where
  drained : Drained
  timed : Timed
  elapsedUs : Nat
deriving DecidableEq

def phases (probe : Probe) (reads : List CardRead) : Option Phases :=
  (drain probe.opened probe.started probe.started 0 reads).bind fun (drained, rest) =>
    let start := drained.now + probe.settle
    (timedWindow probe.opened probe.probeBytes start ⟨0, start, []⟩ rest).map fun timed =>
      ⟨drained, timed, timed.now + probe.closing - start⟩

/-- `hz`, computed in 64 bits. -/
def hz (probe : Probe) (p : Phases) : Nat :=
  p.timed.bytes * 1000000 % 2 ^ 64 / (p.elapsedUs * probe.bytesPerSample)

/-- The end of the call: `measured_hz_out`, where it returns success. -/
def judge (probe : Probe) (p : Phases) : Option Nat :=
  if 0 < p.timed.bytes ∧ minElapsedUs ≤ p.elapsedUs then
    if 0 < hz probe p ∧ hz probe p ≤ 100000000 then some (hz probe p) else none
  else none

/-- What a call returns, what it adds to `s_cxadc_probe_consumed_bytes`, and its phases. -/
structure Outcome where
  rate : Option Nat
  consumed : Nat
  phases : Option Phases
deriving DecidableEq

/-- `cxadc_measure_card_rate_hz`; without a result where the reads do not bring it to an end. -/
def measureCardRateHz (probe : Probe) (reads : List CardRead) : Option Outcome :=
  if probe.cardIdx < 0 ∨ (maxCards : Int) ≤ probe.cardIdx ∨ probe.allocated = false then
    some ⟨none, 0, none⟩
  else (phases probe reads).map fun p =>
    ⟨judge probe p, p.drained.bytes + p.timed.bytes, some p⟩

def bytesOf (results : List (Option Nat)) : Nat := (results.map fun result => result.getD 0).sum

/-- A rate is returned only for a window that follows the live stream and in which no read fails,
and it is the rate of the bytes read in it. -/
def Trusted (probe : Probe) (outcome : Outcome) : Prop :=
  ∀ rate, outcome.rate = some rate → ∃ p, outcome.phases = some p ∧
    p.drained.reachedLive = true ∧ none ∉ p.timed.results ∧
    rate = bytesOf p.timed.results * 1000000 / (p.elapsedUs * probe.bytesPerSample)

def Buffered (opened : Bool) (read : CardRead) : Prop :=
  ∃ got, read.got opened chunkBytes = some got ∧ (got = 0 ∨ read.took < drainChunkMinUs)

def Live (opened : Bool) (read : CardRead) : Prop :=
  ∃ got, read.got opened chunkBytes = some got ∧ got ≠ 0 ∧ drainChunkMinUs ≤ read.took

def drainedBytes (opened : Bool) (reads : List CardRead) : Nat :=
  bytesOf (reads.map (CardRead.got opened chunkBytes))

/-- The first read that is not of buffered bytes is live, and comes within the bounds. -/
def ReachesLive (opened : Bool) (reads : List CardRead) : Prop :=
  ∃ front read rest, reads = front ++ read :: rest ∧
    (∀ early ∈ front, Buffered opened early) ∧ Live opened read ∧
    drainedBytes opened front < drainMaxBytes ∧ (front.map CardRead.spent).sum < drainMaxUs

/-- The window has no bytes, is too short, or has a rate that no card has. -/
def Refused (probe : Probe) (p : Phases) : Prop :=
  bytesOf p.timed.results = 0 ∨ p.elapsedUs < minElapsedUs ∨
    bytesOf p.timed.results * 1000000 < p.elapsedUs * probe.bytesPerSample ∨
    100000001 * (p.elapsedUs * probe.bytesPerSample) ≤ bytesOf p.timed.results * 1000000

theorem bytesOf_append (front rest : List (Option Nat)) :
    bytesOf (front ++ rest) = bytesOf front + bytesOf rest := by
  rw [bytesOf, List.map_append, List.sum_append]
  rfl

section drain
variable {opened : Bool} {start now bytes : Nat} {read : CardRead} {reads rest : List CardRead}

def ReachesFrom (opened : Bool) (start now bytes : Nat) (reads : List CardRead) : Prop :=
  ∃ front read rest, reads = front ++ read :: rest ∧
    (∀ early ∈ front, Buffered opened early) ∧ Live opened read ∧
    bytes + drainedBytes opened front < drainMaxBytes ∧
    (front ≠ [] → now + (front.map CardRead.spent).sum - start < drainMaxUs)

theorem live_not_buffered (live : Live opened read) : ¬ Buffered opened read := by
  obtain ⟨got, result, some, long⟩ := live
  rintro ⟨other, same, short⟩
  cases result.symm.trans same
  omega

theorem finish_eq : read.finish now = now + read.spent := by
  unfold CardRead.finish CardRead.returned CardRead.spent
  omega

theorem drainedBytes_cons {got : Nat} (result : read.got opened chunkBytes = some got) :
    drainedBytes opened (read :: rest) = got + drainedBytes opened rest := by
  unfold drainedBytes bytesOf
  rw [List.map_cons, List.map_cons, List.sum_cons, result]
  rfl

theorem reachesFrom_live (live : Live opened read) (room : bytes < drainMaxBytes) :
    ReachesFrom opened start now bytes (read :: rest) :=
  ⟨[], read, rest, rfl, nofun, live, room, fun some => absurd rfl some⟩

theorem reachesFrom_cons {got : Nat} (result : read.got opened chunkBytes = some got)
    (buffered : Buffered opened read) :
    ReachesFrom opened start now bytes (read :: rest) ↔
      read.finish now - start < drainMaxUs ∧
        ReachesFrom opened start (read.finish now) (bytes + got) rest := by
  constructor
  · rintro ⟨front, live, later, shape, early, isLive, room, time⟩
    cases front with
    | nil =>
      cases shape
      exact absurd buffered (live_not_buffered isLive)
    | cons first front =>
      cases shape
      have spent := time (List.cons_ne_nil _ _)
      rw [List.map_cons, List.sum_cons] at spent
      rw [drainedBytes_cons result] at room
      rw [finish_eq]
      refine ⟨by omega, front, live, later, rfl, ?_, isLive, by omega, fun _ => by omega⟩
      exact fun other member => early other (List.mem_cons_of_mem _ member)
  · rintro ⟨within, front, live, later, rfl, early, isLive, room, time⟩
    refine ⟨read :: front, live, later, rfl, ?_, isLive, ?_, ?_⟩
    · exact List.forall_mem_cons.mpr ⟨buffered, early⟩
    · rw [drainedBytes_cons result]
      omega
    · intro _
      rw [finish_eq] at within time
      rw [List.map_cons, List.sum_cons]
      cases front with
      | nil => exact within
      | cons first front =>
        have spent := time (List.cons_ne_nil _ _)
        omega

theorem drain_reaches {phase : Drained}
    (ran : drain opened start now bytes reads = some (phase, rest)) :
    phase.reachedLive = true ↔ ReachesFrom opened start now bytes reads := by
  induction reads generalizing now bytes with
  | nil =>
    rw [drain] at ran
    split at ran
    · cases ran
      exact ⟨by simp, fun ⟨front, _, _, shape, _⟩ => by cases front <;> cases shape⟩
    · cases ran
  | cons read later ih =>
    rw [drain] at ran
    split at ran
    · -- the bound on the bytes
      rename_i full
      cases ran
      refine ⟨by simp, ?_⟩
      rintro ⟨front, _, _, _, _, _, room, _⟩
      omega
    rename_i room
    split at ran
    · -- a failure
      rename_i failed
      cases ran
      refine ⟨by simp, ?_⟩
      rintro ⟨front, _, _, shape, early, ⟨got, result, _⟩, _⟩
      cases front with
      | nil =>
        cases shape
        cases failed.symm.trans result
      | cons first front =>
        cases shape
        obtain ⟨got, result, _⟩ := early _ List.mem_cons_self
        cases failed.symm.trans result
    rename_i got result
    split at ran
    · rename_i live
      cases ran
      exact ⟨fun _ => reachesFrom_live ⟨got, result, live⟩ (Nat.not_le.mp room), fun _ => rfl⟩
    rename_i short
    have buffered : Buffered opened read := ⟨got, result, by omega⟩
    rw [reachesFrom_cons result buffered]
    split at ran
    · rename_i late
      cases ran
      exact ⟨by simp, fun reaches => absurd reaches.1 (Nat.not_lt.mpr late)⟩
    · rename_i within
      rw [ih ran]
      exact ⟨fun reaches => ⟨Nat.not_le.mp within, reaches⟩, And.right⟩

theorem reachesFrom_start : ReachesFrom opened start start 0 reads ↔ ReachesLive opened reads := by
  have same (front : List CardRead) :
      (front ≠ [] → start + (front.map CardRead.spent).sum - start < drainMaxUs) ↔
        (front.map CardRead.spent).sum < drainMaxUs := by
    rw [Nat.add_sub_cancel_left]
    cases front with
    | nil => exact ⟨fun _ => by decide, fun _ some => absurd rfl some⟩
    | cons first front => exact ⟨fun time => time (List.cons_ne_nil _ _), fun time _ => time⟩
  unfold ReachesFrom ReachesLive
  simp only [same, Nat.zero_add]

end drain

theorem got_le {opened : Bool} {want got : Nat} {read : CardRead}
    (result : read.got opened want = some got) : got ≤ want := by
  unfold CardRead.got at result
  split at result
  · obtain ⟨offered, _, rfl⟩ := Option.map_eq_some_iff.mp result
    exact Nat.min_le_left _ _
  · cases result

structure Counted (probeBytes : Nat) (timed : Timed) : Prop where
  bytes : timed.bytes = bytesOf timed.results
  bound : timed.bytes ≤ probeBytes

theorem timedWindow_counted {opened : Bool} {probeBytes start : Nat} {timed last : Timed}
    {reads : List CardRead} (counted : Counted probeBytes timed)
    (ran : timedWindow opened probeBytes start timed reads = some last) :
    Counted probeBytes last := by
  induction reads generalizing timed with
  | nil =>
    rw [timedWindow] at ran
    split at ran
    · cases ran
      exact counted
    · cases ran
  | cons read rest ih =>
    rw [timedWindow] at ran
    split at ran
    · cases ran
      exact counted
    dsimp only at ran
    split at ran
    · rename_i failed
      cases ran
      refine ⟨?_, counted.bound⟩
      rw [bytesOf_append, ← counted.bytes, failed]
      rfl
    rename_i got result
    have next : Counted probeBytes ⟨timed.bytes + got, read.finish timed.now, timed.results ++
        [read.got opened (min (probeBytes - timed.bytes) chunkBytes)]⟩ := by
      have small := Nat.le_trans (got_le result) (Nat.min_le_left _ _)
      have bound := counted.bound
      refine ⟨?_, by dsimp only; omega⟩
      rw [bytesOf_append, ← counted.bytes, result]
      rfl
    split at ran
    · cases ran
      exact next
    · exact ih next ran

theorem phases_counted {probe : Probe} {reads : List CardRead} {p : Phases}
    (ran : phases probe reads = some p) : Counted probe.probeBytes p.timed := by
  obtain ⟨⟨drained, rest⟩, _, ran⟩ := Option.bind_eq_some_iff.mp ran
  obtain ⟨timed, window, rfl⟩ := Option.map_eq_some_iff.mp ran
  exact timedWindow_counted ⟨rfl, Nat.zero_le _⟩ window

theorem phases_reaches {probe : Probe} {reads : List CardRead} {p : Phases}
    (ran : phases probe reads = some p) :
    p.drained.reachedLive = true ↔ ReachesLive probe.opened reads := by
  obtain ⟨⟨drained, rest⟩, drains, ran⟩ := Option.bind_eq_some_iff.mp ran
  obtain ⟨timed, _, rfl⟩ := Option.map_eq_some_iff.mp ran
  rw [drain_reaches drains]
  exact reachesFrom_start

section judge
variable {probe : Probe} {p : Phases}

theorem hz_eq (counted : Counted probe.probeBytes p.timed)
    (small : probe.probeBytes ≤ probeStartBytes) :
    hz probe p = bytesOf p.timed.results * 1000000 / (p.elapsedUs * probe.bytesPerSample) := by
  have bound := counted.bound
  unfold probeStartBytes at small
  rw [hz, Nat.mod_eq_of_lt (by omega), counted.bytes]

theorem bytesPerSample_pos (probe : Probe) : 0 < probe.bytesPerSample := by
  unfold Probe.bytesPerSample
  split <;> decide

theorem judge_eq_none (counted : Counted probe.probeBytes p.timed)
    (small : probe.probeBytes ≤ probeStartBytes) : judge probe p = none ↔ Refused probe p := by
  have rate := hz_eq counted small
  have positive := bytesPerSample_pos probe
  unfold judge Refused
  rw [counted.bytes, rate]
  by_cases short : p.elapsedUs < minElapsedUs
  · rw [if_neg (by omega)]
    exact ⟨fun _ => .inr (.inl short), fun _ => rfl⟩
  have divisor : 0 < p.elapsedUs * probe.bytesPerSample := by
    unfold minElapsedUs at short
    exact Nat.mul_pos (by omega) positive
  have low : bytesOf p.timed.results * 1000000 / (p.elapsedUs * probe.bytesPerSample) = 0 ↔ _ :=
    Nat.div_eq_zero_iff_lt divisor
  have high : 100000001 ≤ bytesOf p.timed.results * 1000000 /
      (p.elapsedUs * probe.bytesPerSample) ↔ _ := Nat.le_div_iff_mul_le divisor
  by_cases empty : bytesOf p.timed.results = 0
  · rw [if_neg (by omega)]
    exact ⟨fun _ => .inl empty, fun _ => rfl⟩
  rw [if_pos (by omega)]
  split
  · exact ⟨nofun, fun refused => by omega⟩
  · exact ⟨fun _ => by omega, fun _ => rfl⟩

end judge

/-- A rate can be trusted if the drain reached the live stream and no read of the window failed,
and otherwise only where the window is refused for what was read in it. -/
theorem rate_trusted_iff {probe : Probe} {reads : List CardRead} {outcome : Outcome}
    (small : probe.probeBytes ≤ probeStartBytes)
    (ran : measureCardRateHz probe reads = some outcome) :
    Trusted probe outcome ↔ ∀ p, outcome.phases = some p →
      ReachesLive probe.opened reads ∧ none ∉ p.timed.results ∨ Refused probe p := by
  unfold measureCardRateHz at ran
  split at ran
  · cases ran
    exact ⟨fun _ => nofun, fun _ => nofun⟩
  obtain ⟨p, phased, rfl⟩ := Option.map_eq_some_iff.mp ran
  have counted := phases_counted phased
  have refused := judge_eq_none counted small
  have reaches := phases_reaches phased
  constructor
  · intro trusted q same
    cases same
    cases returned : judge probe p with
    | none => exact .inr (refused.mp returned)
    | some rate =>
      obtain ⟨q, same, live, clean, -⟩ := trusted rate returned
      cases same
      exact .inl ⟨reaches.mp live, clean⟩
  · intro condition rate returned
    rcases condition p rfl with ⟨live, clean⟩ | no
    · refine ⟨p, rfl, reaches.mpr live, clean, ?_⟩
      rw [← hz_eq counted small]
      change judge probe p = some rate at returned
      unfold judge at returned
      split at returned
      · split at returned
        · exact (Option.some.inj returned).symm
        · cases returned
      · cases returned
    · cases (refused.mpr no).symm.trans returned

/-- Card 0 in its 8-bit mode, asked for the two megabytes of the start of the program. -/
def startupProbe : Probe := ⟨0, false, 2 * 1024 * 1024, true, true, 0, 10, 10⟩

/-- A chunk at 40 million bytes a second. -/
def liveChunk : CardRead := ⟨0, some chunkBytes, 6553, 1⟩

theorem liveChunk_reaches (rest : List CardRead) : ReachesLive true (liveChunk :: rest) := by
  refine ⟨[], liveChunk, rest, rfl, nofun, ⟨chunkBytes, rfl, ?_, ?_⟩, ?_, ?_⟩
  all_goals decide

theorem rate_trusted_live : ∃ outcome,
    measureCardRateHz startupProbe (List.replicate 9 liveChunk) = some outcome ∧
      outcome.rate.isSome ∧ Trusted startupProbe outcome := by
  have shown : (measureCardRateHz startupProbe (List.replicate 9 liveChunk)).map (fun outcome =>
      (outcome.rate.isSome, outcome.phases.map fun p => p.timed.results)) =
        some (true, some (List.replicate 8 (some chunkBytes))) := by
    decide +kernel
  obtain ⟨outcome, ran, view⟩ := Option.map_eq_some_iff.mp shown
  refine ⟨outcome, ran, congrArg Prod.fst view, ?_⟩
  apply (rate_trusted_iff (by decide) ran).mpr
  intro p phased
  have results : p.timed.results = List.replicate 8 (some chunkBytes) := by
    have same := congrArg Prod.snd view
    rw [phased] at same
    exact Option.some.inj same
  refine .inl ⟨liveChunk_reaches _, ?_⟩
  rw [results]
  decide

/-- The first read fails, and so does the fifth of the window; the card is said to have a rate all
the same. -/
theorem failed_reads_measured : ∃ outcome,
    measureCardRateHz startupProbe
        (⟨0, none, 10, 0⟩ :: List.replicate 4 liveChunk ++ [⟨0, none, 10, 0⟩]) = some outcome ∧
      ¬ Trusted startupProbe outcome := by
  have shown : (measureCardRateHz startupProbe
      (⟨0, none, 10, 0⟩ :: List.replicate 4 liveChunk ++ [⟨0, none, 10, 0⟩])).map (fun outcome =>
        (outcome.rate.isSome, outcome.phases.map fun p => p.drained.reachedLive)) =
      some (true, some false) := by
    decide +kernel
  obtain ⟨outcome, ran, view⟩ := Option.map_eq_some_iff.mp shown
  refine ⟨outcome, ran, fun trusted => ?_⟩
  obtain ⟨rate, returned⟩ := Option.isSome_iff_exists.mp (congrArg Prod.fst view)
  obtain ⟨p, phased, live, -⟩ := trusted rate returned
  have same := congrArg Prod.snd view
  rw [phased] at same
  cases live.symm.trans (Option.some.inj same)

end MisrcGui.Cxadc.RateProbe
