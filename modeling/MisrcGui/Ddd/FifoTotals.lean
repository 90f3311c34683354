import Mathlib.Algebra.Order.BigOperators.Group.Finset
import Mathlib.Order.Lattice.Nat
import MisrcGui.Ddd.FifoTelemetry

/-! The decoding of the FIFO telemetry in `ddd_protocol.c`, its percentages, and the totals over
the snapshots that a capture has polled. -/
namespace MisrcGui.Ddd.FifoTotals
open Finset

def dddFifoTelemetryId : UInt8 := 0xBD
def dddFifoTelemetryLength : Nat := 23
def dddFifoTelemetryFormat : UInt8 := 1
def dddFifoTelemetryFormatMask : UInt8 := 0x0F
def dddFifoFlagOverflowSeen : UInt8 := 0x10
def dddFifoFlagSaturated : UInt8 := 0x20

def dddReadLittleEndianWord (block : List UInt8) (offset : Nat) : UInt16 :=
  (block.getD offset 0).toUInt16 ||| (block.getD (offset + 1) 0).toUInt16 <<< 8

/-- `ddd_fifo_telemetry_parse`, which leaves the telemetry cleared when it fails. -/
def dddFifoTelemetryParse (block : List UInt8) : FifoTelemetry × Bool :=
  if block.length < dddFifoTelemetryLength ∨ block.getD 0 0 ≠ dddFifoTelemetryId then
    (fifoTelemetryInit, false)
  else
    let status := block.getD 1 0
    let format := status &&& dddFifoTelemetryFormatMask
    let depth := dddReadLittleEndianWord block 17
    let packet := dddReadLittleEndianWord block 19
    if format ≠ dddFifoTelemetryFormat then (fifoTelemetryInit, false)
    else if packet = 0 ∨ depth ≤ packet then (fifoTelemetryInit, false)
    else
      ({ present := true
         format
         overflowSeen := status &&& dddFifoFlagOverflowSeen != 0
         saturated := status &&& dddFifoFlagSaturated != 0
         latchCount := block.getD 2 0
         usedNow := dddReadLittleEndianWord block 3
         peak := dddReadLittleEndianWord block 5
         peakSinceOpen := dddReadLittleEndianWord block 7
         overflowEvents := dddReadLittleEndianWord block 9
         droppedWords := dddReadLittleEndianWord block 11
         packetsRead := dddReadLittleEndianWord block 13
         nearFullUnits := dddReadLittleEndianWord block 15
         depthWords := depth
         packetWords := packet
         nearFullWords := dddReadLittleEndianWord block 21 }, true)

/-- The end of the percentages: in `0..100`. -/
def clampPercent (percent : Int) : Int :=
  if percent < 0 then 0 else if percent > 100 then 100 else percent

/-- `ddd_fifo_backpressure_percent`; `/` of `int` rounds to zero. -/
def dddFifoBackpressurePercent (telemetry : FifoTelemetry) : Int :=
  let headroom : Int := telemetry.depthWords.toNat - telemetry.packetWords.toNat
  let excursion : Int := telemetry.peak.toNat - telemetry.packetWords.toNat
  if !telemetry.present then 0
  else if telemetry.overflowEvents > 0 then 100
  else if telemetry.peak ≤ telemetry.packetWords then 0
  else if headroom ≤ 0 then 0
  else clampPercent ((excursion * 100).tdiv headroom)

/-- `ddd_fifo_peak_percent` and `ddd_fifo_used_percent`. -/
def fillPercent (telemetry : FifoTelemetry) (words : UInt16) : Int :=
  if !telemetry.present || telemetry.depthWords == 0 then 0
  else clampPercent (((words.toNat : Int) * 100).tdiv telemetry.depthWords.toNat)

def dddFifoPeakPercent (telemetry : FifoTelemetry) : Int := fillPercent telemetry telemetry.peak

def dddFifoUsedPercent (telemetry : FifoTelemetry) : Int := fillPercent telemetry telemetry.usedNow

def dddFifoTelemetryTotalsInit : FifoTelemetryTotals := ⟨false, 0, true, false, 0, 0, 0, 0, 0⟩

def accumulate (totals : FifoTelemetryTotals) (telemetry : FifoTelemetry) (complete : Bool) :
    FifoTelemetryTotals where
  latchSeen := true
  lastLatchCount := telemetry.latchCount
  intervalCoverageComplete := complete
  saturated := totals.saturated || telemetry.saturated
  overflowEvents := totals.overflowEvents + telemetry.overflowEvents.toUInt64
  droppedWords := totals.droppedWords + telemetry.droppedWords.toUInt64
  nearFullUnits := totals.nearFullUnits + telemetry.nearFullUnits.toUInt64
  peakWords := if telemetry.peak > totals.peakWords then telemetry.peak else totals.peakWords
  peakBackpressurePercent :=
    if dddFifoBackpressurePercent telemetry > totals.peakBackpressurePercent.toInt then
      Int32.ofInt (dddFifoBackpressurePercent telemetry)
    else totals.peakBackpressurePercent

def dddFifoTelemetryTotalsAdd (totals : FifoTelemetryTotals) (telemetry : FifoTelemetry) :
    FifoTelemetryTotals × Bool :=
  let latchDelta := telemetry.latchCount - totals.lastLatchCount
  if !telemetry.present then (totals, false)
  else if totals.latchSeen then
    if latchDelta = 0 then (totals, false)
    else (accumulate totals telemetry (totals.intervalCoverageComplete && latchDelta == 1), true)
  else (accumulate totals telemetry totals.intervalCoverageComplete, true)

/-- `ddd_v1_fifo_receive`, up to the publication. -/
def dddV1FifoReceive (totals : FifoTelemetryTotals) (block : List UInt8) : FifoTelemetryTotals :=
  (dddFifoTelemetryTotalsAdd totals (dddFifoTelemetryParse block).1).1

section totals
variable {snapshot : Nat → FifoTelemetry} {seen : Finset Nat} {totals : FifoTelemetryTotals}
  {last generation : Nat} {complete : Bool}

/-- A total of 64 bits. -/
def SumsTo (seen : Finset Nat) (events : Nat → UInt16) (total : UInt64) : Prop :=
  total.toNat = (∑ generation ∈ seen, (events generation).toNat) % 2 ^ 64

structure Totaled (snapshot : Nat → FifoTelemetry) (seen : Finset Nat)
    (totals : FifoTelemetryTotals) : Prop where
  overflowEvents : SumsTo seen (fun generation => (snapshot generation).overflowEvents)
    totals.overflowEvents
  droppedWords : SumsTo seen (fun generation => (snapshot generation).droppedWords)
    totals.droppedWords
  nearFullUnits : SumsTo seen (fun generation => (snapshot generation).nearFullUnits)
    totals.nearFullUnits
  saturated : totals.saturated = true ↔ ∃ generation ∈ seen, (snapshot generation).saturated = true
  peakWords : totals.peakWords.toNat =
    seen.sup fun generation => (snapshot generation).peak.toNat
  peakBackpressure : totals.peakBackpressurePercent.toInt =
    (seen.sup fun generation => (dddFifoBackpressurePercent (snapshot generation)).toNat : Nat)

def Covered (seen : Finset Nat) : Prop :=
  ∀ generation, (∃ first ∈ seen, first ≤ generation) → (∃ last ∈ seen, generation ≤ last) →
    generation ∈ seen

structure Latched (seen : Finset Nat) (last : Nat) (totals : FifoTelemetryTotals) : Prop where
  mem : last ∈ seen
  top : ∀ generation ∈ seen, generation ≤ last
  latchSeen : totals.latchSeen = true
  latch : totals.lastLatchCount = UInt8.ofNat last
  coverage : totals.intervalCoverageComplete = true ↔ Covered seen

theorem SumsTo.insert {events : Nat → UInt16} {total : UInt64} (sums : SumsTo seen events total)
    (fresh : generation ∉ seen) :
    SumsTo (insert generation seen) events (total + (events generation).toUInt64) := by
  unfold SumsTo at *
  rw [sum_insert fresh, UInt64.toNat_add, sums, UInt16.toNat_toUInt64, Nat.mod_add_mod,
    Nat.add_comm]

theorem SumsTo.exact {events : Nat → UInt16} {total : UInt64} (sums : SumsTo seen events total)
    (few : seen.card ≤ 2 ^ 48) :
    total.toNat = ∑ generation ∈ seen, (events generation).toNat := by
  have small : ∑ generation ∈ seen, (events generation).toNat ≤ seen.card * 65535 := by
    apply sum_le_card_nsmul
    intro generation _
    have := (events generation).toNat_lt
    omega
  rw [SumsTo, Nat.mod_eq_of_lt (by omega)] at sums
  exact sums

theorem clampPercent_range (percent : Int) :
    0 ≤ clampPercent percent ∧ clampPercent percent ≤ 100 := by
  unfold clampPercent
  split
  · omega
  · split <;> omega

theorem backpressure_range (telemetry : FifoTelemetry) :
    0 ≤ dddFifoBackpressurePercent telemetry ∧ dddFifoBackpressurePercent telemetry ≤ 100 := by
  unfold dddFifoBackpressurePercent
  dsimp only
  split
  · decide
  · split
    · decide
    · split
      · decide
      · split
        · decide
        · exact clampPercent_range _

theorem Totaled.insert (totaled : Totaled snapshot seen totals) (fresh : generation ∉ seen) :
    Totaled snapshot (insert generation seen)
      (accumulate totals (snapshot generation) complete) := by
  refine ⟨totaled.overflowEvents.insert fresh, totaled.droppedWords.insert fresh,
    totaled.nearFullUnits.insert fresh, ?_, ?_, ?_⟩
  · simp only [accumulate, Bool.or_eq_true, totaled.saturated, mem_insert, exists_eq_or_imp]
    exact or_comm
  · rw [sup_insert, ← totaled.peakWords]
    simp only [accumulate, UInt16.lt_iff_toNat_lt, gt_iff_lt]
    split
    · exact (max_eq_left (by omega)).symm
    · exact (max_eq_right (by omega)).symm
  · obtain ⟨low, high⟩ := backpressure_range (snapshot generation)
    have before := totaled.peakBackpressure
    rw [sup_insert]
    simp only [accumulate]
    split
    · next higher =>
      rw [Int32.toInt_ofInt_of_le (by omega) (by omega), max_eq_left (by omega)]
      omega
    · rw [before, max_eq_right (by omega)]

theorem covered_insert (mem : last ∈ seen) (top : ∀ generation ∈ seen, generation ≤ last)
    (later : last < generation) :
    Covered (insert generation seen) ↔ Covered seen ∧ generation = last + 1 := by
  have fresh : generation ∉ seen := fun inside => absurd (top generation inside) (by omega)
  constructor
  · intro covered
    refine ⟨fun between below above => ?_, ?_⟩
    · obtain ⟨first, one, low⟩ := below
      obtain ⟨final, other, high⟩ := above
      have inside := covered between ⟨first, mem_insert_of_mem one, low⟩
        ⟨final, mem_insert_of_mem other, high⟩
      rcases mem_insert.mp inside with rfl | inside
      · have := top final other
        omega
      · exact inside
    · have inside := covered (last + 1) ⟨last, mem_insert_of_mem mem, Nat.le_succ last⟩
        ⟨generation, mem_insert_self generation seen, later⟩
      rcases mem_insert.mp inside with same | inside
      · exact same.symm
      · have := top (last + 1) inside
        omega
  · rintro ⟨covered, rfl⟩ between ⟨first, one, low⟩ ⟨final, other, high⟩
    have bound : between ≤ last + 1 := by
      rcases mem_insert.mp other with rfl | other
      · exact high
      · have := top final other
        omega
    rcases Nat.lt_or_eq_of_le bound with inside | same
    · rcases mem_insert.mp one with rfl | one
      · omega
      · exact mem_insert_of_mem (covered between ⟨first, one, low⟩ ⟨last, mem, by omega⟩)
    · rw [same]
      exact mem_insert_self _ _

theorem latch_delta (ordered : last ≤ generation) :
    UInt8.ofNat generation - UInt8.ofNat last = UInt8.ofNat (generation - last) := by
  obtain ⟨ahead, rfl⟩ := Nat.exists_eq_add_of_le ordered
  rw [UInt8.ofNat_add, Nat.add_sub_cancel_left, UInt8.add_comm, UInt8.add_sub_cancel]

structure Device (snapshot : Nat → FifoTelemetry) : Prop where
  present : ∀ generation, (snapshot generation).present = true
  counted : ∀ generation, (snapshot generation).latchCount = UInt8.ofNat generation

theorem add_latched (device : Device snapshot) (totaled : Totaled snapshot seen totals)
    (latched : Latched seen last totals) (ordered : last ≤ generation)
    (near : generation < last + 256) :
    Totaled snapshot (insert generation seen)
        (dddFifoTelemetryTotalsAdd totals (snapshot generation)).1 ∧
      Latched (insert generation seen) generation
        (dddFifoTelemetryTotalsAdd totals (snapshot generation)).1 := by
  have delta : (snapshot generation).latchCount - totals.lastLatchCount =
      UInt8.ofNat (generation - last) := by
    rw [device.counted, latched.latch, latch_delta ordered]
  have counted (ahead : Nat) (small : ahead < 256) :
      UInt8.ofNat (generation - last) = UInt8.ofNat ahead ↔ generation - last = ahead := by
    rw [← UInt8.toNat_inj, UInt8.toNat_ofNat', UInt8.toNat_ofNat', Nat.mod_eq_of_lt (by omega),
      Nat.mod_eq_of_lt small]
  simp only [dddFifoTelemetryTotalsAdd, device.present, latched.latchSeen, delta, Bool.not_true,
    Bool.false_eq_true, if_false, if_true]
  by_cases again : generation = last
  · subst again
    have none : UInt8.ofNat (generation - generation) = 0 := by
      rw [Nat.sub_self]
      rfl
    rw [if_pos none, insert_eq_of_mem latched.mem]
    exact ⟨totaled, latched⟩
  · have some : ¬UInt8.ofNat (generation - last) = 0 := fun none =>
      absurd ((counted 0 (by decide)).mp none) (by omega)
    have fresh : generation ∉ seen := fun inside =>
      absurd (latched.top generation inside) (by omega)
    rw [if_neg some]
    refine ⟨totaled.insert fresh, mem_insert_self _ _, ?_, rfl, device.counted generation, ?_⟩
    · intro other inside
      rcases mem_insert.mp inside with rfl | inside
      · exact Nat.le_refl _
      · exact Nat.le_trans (latched.top other inside) ordered
    · have one : UInt8.ofNat (generation - last) = 1 ↔ generation = last + 1 := by
        rw [show (1 : UInt8) = UInt8.ofNat 1 from rfl, counted 1 (by decide)]
        omega
      rw [covered_insert latched.mem latched.top (by omega)]
      simp only [accumulate, Bool.and_eq_true, beq_iff_eq, one, latched.coverage]

theorem init_totaled (snapshot : Nat → FifoTelemetry) :
    Totaled snapshot ∅ dddFifoTelemetryTotalsInit := by
  refine ⟨rfl, rfl, rfl, ?_, rfl, rfl⟩
  simp [dddFifoTelemetryTotalsInit]

theorem add_first (device : Device snapshot) (generation : Nat) :
    Totaled snapshot {generation}
        (dddFifoTelemetryTotalsAdd dddFifoTelemetryTotalsInit (snapshot generation)).1 ∧
      Latched {generation} generation
        (dddFifoTelemetryTotalsAdd dddFifoTelemetryTotalsInit (snapshot generation)).1 := by
  have added : (dddFifoTelemetryTotalsAdd dddFifoTelemetryTotalsInit (snapshot generation)).1 =
      accumulate dddFifoTelemetryTotalsInit (snapshot generation) true := by
    simp [dddFifoTelemetryTotalsAdd, device.present, dddFifoTelemetryTotalsInit]
  rw [added]
  refine ⟨(init_totaled snapshot).insert (Finset.notMem_empty generation), mem_singleton_self _,
    fun other inside => (mem_singleton.mp inside).le, rfl, device.counted generation, ?_⟩
  refine ⟨fun _ between ⟨first, one, low⟩ ⟨final, other, high⟩ => ?_, fun _ => rfl⟩
  rw [mem_singleton] at one other ⊢
  omega

end totals

/-- A poll, with the generation of the snapshot that the device has given it. -/
structure Poll where
  generation : Nat
  block : List UInt8

def Poll.readable (poll : Poll) : Bool := (dddFifoTelemetryParse poll.block).2

/-- Of a snapshot only the level of the FIFO itself may change between two polls. -/
def Poll.Shows (snapshot : Nat → FifoTelemetry) (poll : Poll) : Prop :=
  ∃ usedNow, (dddFifoTelemetryParse poll.block).1 = { snapshot poll.generation with usedNow }

def totalsOf (polls : List Poll) : FifoTelemetryTotals :=
  polls.foldl (fun totals poll => dddV1FifoReceive totals poll.block) dddFifoTelemetryTotalsInit

def seenOf (polls : List Poll) : Finset Nat :=
  ((polls.filter Poll.readable).map Poll.generation).toFinset

/-- The next snapshot comes less than 256 generations later, or is the same. -/
def Near (poll next : Poll) : Prop :=
  poll.generation ≤ next.generation ∧ next.generation < poll.generation + 256

theorem parse_failed {block : List UInt8} (failed : (dddFifoTelemetryParse block).2 = false) :
    (dddFifoTelemetryParse block).1 = fifoTelemetryInit := by
  unfold dddFifoTelemetryParse at *
  dsimp only at *
  split_ifs at * <;> rfl

theorem receive_failed (totals : FifoTelemetryTotals) {poll : Poll}
    (failed : poll.readable = false) : dddV1FifoReceive totals poll.block = totals := by
  rw [dddV1FifoReceive, parse_failed failed]
  rfl

theorem receive_shows {snapshot : Nat → FifoTelemetry} (totals : FifoTelemetryTotals) {poll : Poll}
    (shows' : poll.Shows snapshot) :
    dddV1FifoReceive totals poll.block =
      (dddFifoTelemetryTotalsAdd totals (snapshot poll.generation)).1 := by
  obtain ⟨usedNow, same⟩ := shows'
  rw [dddV1FifoReceive, same]
  rfl

theorem totals_readable (polls : List Poll) (totals : FifoTelemetryTotals) :
    polls.foldl (fun totals poll => dddV1FifoReceive totals poll.block) totals =
      (polls.filter Poll.readable).foldl
        (fun totals poll => dddV1FifoReceive totals poll.block) totals := by
  induction polls generalizing totals with
  | nil => rfl
  | cons poll rest ih =>
    cases readable : poll.readable with
    | true => rw [List.filter_cons_of_pos readable, List.foldl_cons, List.foldl_cons, ih]
    | false =>
      rw [List.filter_cons_of_neg (by rw [readable]; decide), List.foldl_cons,
        receive_failed totals readable, ih]

section run
variable {snapshot : Nat → FifoTelemetry}

theorem receive_latched (device : Device snapshot) {rest : List Poll} {poll : Poll}
    {seen : Finset Nat} {totals : FifoTelemetryTotals}
    (shown : ∀ poll ∈ rest, poll.Shows snapshot) (near : (poll :: rest).IsChain Near)
    (totaled : Totaled snapshot seen totals) (latched : Latched seen poll.generation totals) :
    ∃ last ∈ poll :: rest, (poll :: rest).getLast? = some last ∧
      Totaled snapshot (seen ∪ (rest.map Poll.generation).toFinset)
        (rest.foldl (fun totals poll => dddV1FifoReceive totals poll.block) totals) ∧
      Latched (seen ∪ (rest.map Poll.generation).toFinset) last.generation
        (rest.foldl (fun totals poll => dddV1FifoReceive totals poll.block) totals) := by
  induction rest generalizing poll seen totals with
  | nil =>
    refine ⟨poll, List.mem_cons_self, rfl, ?_⟩
    simpa using ⟨totaled, latched⟩
  | cons next rest ih =>
    obtain ⟨⟨ordered, close⟩, chain⟩ := List.isChain_cons_cons.mp near
    obtain ⟨added, told⟩ := add_latched device totaled latched ordered close
    rw [← receive_shows totals (shown next List.mem_cons_self)] at added told
    obtain ⟨last, inside, final, more, end'⟩ :=
      ih (fun poll listed => shown poll (List.mem_cons_of_mem next listed)) chain added told
    refine ⟨last, List.mem_cons_of_mem poll inside, ?_, ?_⟩
    · rw [List.getLast?_cons_cons]
      exact final
    · rw [List.map_cons, List.toFinset_cons, union_insert, ← insert_union]
      exact ⟨more, end'⟩

theorem totalsOf_latched (device : Device snapshot) {polls : List Poll}
    (shown : ∀ poll ∈ polls, poll.readable = true → poll.Shows snapshot)
    (near : (polls.filter Poll.readable).IsChain Near) :
    Totaled snapshot (seenOf polls) (totalsOf polls) ∧
      ∀ last, (polls.filter Poll.readable).getLast? = some last →
        Latched (seenOf polls) last.generation (totalsOf polls) := by
  rw [totalsOf, totals_readable, seenOf]
  have each : ∀ poll ∈ polls.filter Poll.readable, poll.Shows snapshot := by
    intro poll listed
    obtain ⟨inside, readable⟩ := List.mem_filter.mp listed
    exact shown poll inside readable
  cases listed : polls.filter Poll.readable with
  | nil => exact ⟨init_totaled snapshot, nofun⟩
  | cons first rest =>
    rw [listed] at near each
    obtain ⟨totaled, latched⟩ := add_first device first.generation
    rw [← receive_shows _ (each first List.mem_cons_self)] at totaled latched
    obtain ⟨last, _, final, more, told⟩ := receive_latched device
      (fun poll inside => each poll (List.mem_cons_of_mem first inside)) near totaled latched
    rw [List.map_cons, List.toFinset_cons, ← singleton_union, List.foldl_cons, final]
    refine ⟨more, fun other same => ?_⟩
    rw [← Option.some.inj same]
    exact told

theorem covered_empty : Covered ∅ := fun _ ⟨_, inside, _⟩ => absurd inside (notMem_empty _)

theorem coverage_iff (device : Device snapshot) {polls : List Poll}
    (shown : ∀ poll ∈ polls, poll.readable = true → poll.Shows snapshot)
    (near : (polls.filter Poll.readable).IsChain Near) :
    (totalsOf polls).intervalCoverageComplete = true ↔ Covered (seenOf polls) := by
  cases final : (polls.filter Poll.readable).getLast? with
  | some last => exact ((totalsOf_latched device shown near).2 last final).coverage
  | none =>
    rw [totalsOf, totals_readable, seenOf, List.getLast?_eq_none_iff.mp final]
    exact ⟨fun _ => covered_empty, fun _ => rfl⟩

theorem repeated_nothing (device : Device snapshot) {polls : List Poll}
    (shown : ∀ poll ∈ polls, poll.readable = true → poll.Shows snapshot)
    (near : (polls.filter Poll.readable).IsChain Near) {last poll : Poll}
    (final : (polls.filter Poll.readable).getLast? = some last)
    (again : poll.generation = last.generation) (shows' : poll.Shows snapshot) :
    totalsOf (polls ++ [poll]) = totalsOf polls := by
  have latched := (totalsOf_latched device shown near).2 last final
  have same : (snapshot poll.generation).latchCount - (totalsOf polls).lastLatchCount = 0 := by
    rw [device.counted, latched.latch, again, UInt8.sub_self]
  have added : totalsOf (polls ++ [poll]) = dddV1FifoReceive (totalsOf polls) poll.block := by
    rw [totalsOf, List.foldl_append]
    rfl
  rw [added, receive_shows _ shows']
  simp [dddFifoTelemetryTotalsAdd, same, latched.latchSeen]

end run

theorem clampPercent_mono {low high : Int} (ordered : low ≤ high) :
    clampPercent low ≤ clampPercent high := by
  unfold clampPercent
  split_ifs <;> omega

theorem clampPercent_full {percent : Int} (full : 100 ≤ percent) : clampPercent percent = 100 := by
  unfold clampPercent
  split_ifs <;> omega

theorem share_mono {low high whole : Int} (positive : 0 ≤ low) (ordered : low ≤ high)
    (some : 0 < whole) :
    clampPercent ((low * 100).tdiv whole) ≤ clampPercent ((high * 100).tdiv whole) := by
  apply clampPercent_mono
  rw [Int.tdiv_eq_ediv_of_nonneg (by omega), Int.tdiv_eq_ediv_of_nonneg (by omega)]
  exact Int.ediv_le_ediv some (by omega)

theorem share_full {part whole : Int} (some : 0 < whole) (full : whole ≤ part) :
    clampPercent ((part * 100).tdiv whole) = 100 := by
  apply clampPercent_full
  rw [Int.tdiv_eq_ediv_of_nonneg (by omega), Int.le_ediv_iff_mul_le some]
  omega

theorem parse_depth {block : List UInt8} (parsed : (dddFifoTelemetryParse block).2 = true) :
    (dddFifoTelemetryParse block).1.present = true ∧
      (dddFifoTelemetryParse block).1.packetWords <
        (dddFifoTelemetryParse block).1.depthWords := by
  unfold dddFifoTelemetryParse at *
  dsimp only at *
  split_ifs at * with _ _ depths
  rw [not_or, UInt16.not_le] at depths
  exact ⟨rfl, depths.2⟩

/-- A percentage that rises with a level, to 100 where the level is full. -/
structure Rises (percent : UInt16 → Int) (full : UInt16) : Prop where
  mono : ∀ low high, low ≤ high → percent low ≤ percent high
  saturates : ∀ level, full ≤ level → percent level = 100
  bounded : ∀ level, 0 ≤ percent level ∧ percent level ≤ 100

section percent
variable {telemetry : FifoTelemetry}

theorem fillPercent_eq (present : telemetry.present = true) (deep : telemetry.depthWords ≠ 0)
    (words : UInt16) : fillPercent telemetry words =
      clampPercent (((words.toNat : Int) * 100).tdiv telemetry.depthWords.toNat) := by
  simp [fillPercent, present, deep]

theorem fill_rises (present : telemetry.present = true) (deep : telemetry.depthWords ≠ 0) :
    Rises (fillPercent telemetry) telemetry.depthWords := by
  have some : (0 : Int) < telemetry.depthWords.toNat := by
    have := UInt16.toNat_inj.not.mpr deep
    rw [UInt16.toNat_zero] at this
    omega
  refine ⟨fun low high ordered => ?_, fun level full => ?_, fun level => ?_⟩
  · rw [fillPercent_eq present deep, fillPercent_eq present deep]
    have := UInt16.le_iff_toNat_le.mp ordered
    exact share_mono (by omega) (by omega) some
  · rw [fillPercent_eq present deep]
    have := UInt16.le_iff_toNat_le.mp full
    exact share_full some (by omega)
  · rw [fillPercent_eq present deep]
    exact clampPercent_range _

theorem backpressure_rises (present : telemetry.present = true)
    (deep : telemetry.packetWords < telemetry.depthWords) :
    Rises (fun peak => dddFifoBackpressurePercent { telemetry with peak })
      telemetry.depthWords := by
  have room := UInt16.lt_iff_toNat_lt.mp deep
  have some : ¬(telemetry.depthWords.toNat : Int) - telemetry.packetWords.toNat ≤ 0 := by omega
  simp only [dddFifoBackpressurePercent, present, Bool.not_true, Bool.false_eq_true, if_false,
    if_neg some]
  refine ⟨fun low high ordered => ?_, fun level full => ?_, fun level => ?_⟩
  · have := UInt16.le_iff_toNat_le.mp ordered
    split
    · exact Int.le_refl 100
    · simp only [UInt16.le_iff_toNat_le]
      split
      · split
        · exact Int.le_refl 0
        · exact (clampPercent_range _).1
      · rw [if_neg (by omega)]
        exact share_mono (by omega) (by omega) (by omega)
  · have := UInt16.le_iff_toNat_le.mp full
    split
    · rfl
    · rw [if_neg (by rw [UInt16.le_iff_toNat_le]; omega)]
      exact share_full (by omega) (by omega)
  · split
    · decide
    · split
      · decide
      · exact clampPercent_range _

end percent

/-- The totals of any polls of a device with less than 256 generations between two snapshots, and
the percentages of what was polled. -/
theorem fifo_totals_exact (snapshot : Nat → FifoTelemetry) (device : Device snapshot)
    (polls : List Poll) (shown : ∀ poll ∈ polls, poll.readable = true → poll.Shows snapshot)
    (near : (polls.filter Poll.readable).IsChain Near) :
    Totaled snapshot (seenOf polls) (totalsOf polls) ∧
    ((seenOf polls).card ≤ 2 ^ 48 →
      (totalsOf polls).overflowEvents.toNat =
          ∑ generation ∈ seenOf polls, (snapshot generation).overflowEvents.toNat ∧
      (totalsOf polls).droppedWords.toNat =
          ∑ generation ∈ seenOf polls, (snapshot generation).droppedWords.toNat ∧
      (totalsOf polls).nearFullUnits.toNat =
          ∑ generation ∈ seenOf polls, (snapshot generation).nearFullUnits.toNat) ∧
    ((totalsOf polls).intervalCoverageComplete = true ↔ Covered (seenOf polls)) ∧
    (∀ last poll, (polls.filter Poll.readable).getLast? = some last →
      poll.generation = last.generation → poll.Shows snapshot →
      totalsOf (polls ++ [poll]) = totalsOf polls) ∧
    ∀ block telemetry, dddFifoTelemetryParse block = (telemetry, true) →
      Rises (fun usedNow => dddFifoUsedPercent { telemetry with usedNow })
          telemetry.depthWords ∧
      Rises (fun peak => dddFifoPeakPercent { telemetry with peak }) telemetry.depthWords ∧
      Rises (fun peak => dddFifoBackpressurePercent { telemetry with peak })
        telemetry.depthWords := by
  have totaled := (totalsOf_latched device shown near).1
  refine ⟨totaled, fun few => ?_, coverage_iff device shown near,
    fun last poll final again shows' => repeated_nothing device shown near final again shows',
    fun block telemetry parsed => ?_⟩
  · exact ⟨totaled.overflowEvents.exact few, totaled.droppedWords.exact few,
      totaled.nearFullUnits.exact few⟩
  · obtain ⟨present, deep⟩ := parse_depth (congrArg Prod.snd parsed)
    rw [parsed] at present deep
    have some : telemetry.depthWords ≠ 0 := by
      intro none
      rw [none] at deep
      exact absurd (UInt16.lt_iff_toNat_lt.mp deep) (Nat.not_lt_zero _)
    exact ⟨fill_rises present some, fill_rises present some, backpressure_rises present deep⟩

def overflowBlock (generation : Nat) : List UInt8 :=
  [0xBD, 1, UInt8.ofNat generation, 7, 0, 9, 0, 9, 0, 2, 0, 0, 0, 3, 0, 0, 0, 0, 16, 0, 1, 0, 12]

def overflowSnapshot (generation : Nat) : FifoTelemetry :=
  ⟨true, 1, false, false, UInt8.ofNat generation, 7, 9, 9, 2, 0, 3, 0, 4096, 256, 3072⟩

def overflowPolls : List Poll :=
  [⟨255, overflowBlock 255⟩, ⟨255, overflowBlock 255⟩, ⟨0, []⟩, ⟨256, overflowBlock 256⟩]

theorem fifo_totals_exact_wrap :
    Totaled overflowSnapshot (seenOf overflowPolls) (totalsOf overflowPolls) ∧
      (totalsOf overflowPolls).overflowEvents = 4 ∧
      (totalsOf overflowPolls).intervalCoverageComplete = true := by
  have device : Device overflowSnapshot := ⟨fun _ => rfl, fun _ => rfl⟩
  have shown : ∀ poll ∈ overflowPolls, poll.readable = true → poll.Shows overflowSnapshot := by
    simp only [overflowPolls, List.forall_mem_cons]
    refine ⟨fun _ => ⟨7, by decide⟩, fun _ => ⟨7, by decide⟩, fun readable => ?_,
      fun _ => ⟨7, by decide⟩, nofun⟩
    exact absurd readable (by decide)
  have near : (overflowPolls.filter Poll.readable).IsChain Near := by
    have readable : overflowPolls.filter Poll.readable =
        [⟨255, overflowBlock 255⟩, ⟨255, overflowBlock 255⟩, ⟨256, overflowBlock 256⟩] := rfl
    rw [readable]
    simp [Near]
  exact ⟨(fifo_totals_exact overflowSnapshot device overflowPolls shown near).1, by decide,
    by decide⟩

end MisrcGui.Ddd.FifoTotals
