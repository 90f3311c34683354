import MisrcGui.Library.HoldWindow

/-! The gate of the RF preview, `gui_rf_preview_pressure.c`: it pauses the preview when buffers fill
up or data is dropped, and resumes when they have been low for a while. -/
namespace MisrcGui.RfPreview.Pressure
open Library.HoldWindow

/-- `gui_rf_preview_pressure_t`. -/
structure Gate where
  paused : Bool
  trackingHigh : Bool
  trackingLow : Bool
  haveDrops : Bool
  highSinceMs : UInt64
  lowSinceMs : UInt64
  lastMs : UInt64
  lastDrops : UInt64

def cleared : Gate := ⟨false, false, false, false, 0, 0, 0, 0⟩

structure Update where
  now : UInt64
  raw : Nat
  record : Nat
  drops : UInt64

def Update.pressure (update : Update) : Nat :=
  if update.raw > update.record then update.raw else update.record

def Gate.takeTime (gate : Gate) (now : UInt64) : Gate :=
  if now < gate.lastMs then { gate with trackingHigh := false, trackingLow := false, lastMs := now }
  else { gate with lastMs := now }

section takeTime
variable (gate : Gate) (now : UInt64)

@[simp] theorem takeTime_lastMs : (gate.takeTime now).lastMs = now := by
  unfold Gate.takeTime
  split <;> rfl

@[simp] theorem takeTime_paused : (gate.takeTime now).paused = gate.paused := by
  unfold Gate.takeTime
  split <;> rfl

@[simp] theorem takeTime_haveDrops : (gate.takeTime now).haveDrops = gate.haveDrops := by
  unfold Gate.takeTime
  split <;> rfl

@[simp] theorem takeTime_lastDrops : (gate.takeTime now).lastDrops = gate.lastDrops := by
  unfold Gate.takeTime
  split <;> rfl

@[simp] theorem takeTime_highSinceMs : (gate.takeTime now).highSinceMs = gate.highSinceMs := by
  unfold Gate.takeTime
  split <;> rfl

@[simp] theorem takeTime_lowSinceMs : (gate.takeTime now).lowSinceMs = gate.lowSinceMs := by
  unfold Gate.takeTime
  split <;> rfl

end takeTime

/-- `if (!tracking) { tracking=true; since=now; }`. -/
def startOf (tracking : Bool) (since now : UInt64) : UInt64 := if tracking then since else now

def Gate.holdHigh (gate : Gate) (now : UInt64) (pressure : Nat) : Gate :=
  let gate := { gate with trackingLow := false }
  if pressure ≥ 60 then
    let since := startOf gate.trackingHigh gate.highSinceMs now
    let gate := { gate with trackingHigh := true, highSinceMs := since }
    if now - since ≥ 150 then { gate with paused := true, trackingLow := false } else gate
  else { gate with trackingHigh := false }

def Gate.holdLow (gate : Gate) (now : UInt64) (pressure : Nat) : Gate :=
  let gate := { gate with trackingHigh := false }
  if pressure ≤ 35 then
    let since := startOf gate.trackingLow gate.lowSinceMs now
    let gate := { gate with trackingLow := true, lowSinceMs := since }
    if now - since ≥ 2000 then { gate with paused := false, trackingLow := false } else gate
  else { gate with trackingLow := false }

/-- `gui_rf_preview_pressure_update`; the result is `paused`. -/
def guiRfPreviewPressureUpdate (gate : Gate) (update : Update) (capturing : Bool) : Gate :=
  if !capturing then cleared
  else
    let gate := gate.takeTime update.now
    let newDrop := gate.haveDrops && decide (update.drops > gate.lastDrops)
    let gate := { gate with lastDrops := update.drops, haveDrops := true }
    if newDrop || decide (update.pressure ≥ 85) then
      { gate with paused := true, trackingHigh := false, trackingLow := false }
    else if !gate.paused then gate.holdHigh update.now update.pressure
    else gate.holdLow update.now update.pressure

def runFrom (gate : Gate) (updates : Nat → Update) : Nat → Gate
  | 0 => gate
  | i + 1 => guiRfPreviewPressureUpdate (runFrom gate updates i) (updates i) true

def newDropAt (updates : Nat → Update) : Nat → Bool
  | 0 => false
  | i + 1 => decide ((updates (i + 1)).drops > (updates i).drops)

section windows
variable (updates : Nat → Update)

def time (i : Nat) : Nat := (updates i).now.toNat

def High (i : Nat) : Prop := (updates i).pressure ≥ 60

def Low (i : Nat) : Prop := (updates i).pressure ≤ 35 ∧ newDropAt updates i = false

/-- A condition has held for some time, without a step back of the clock. -/
def HeldFor (good : Nat → Prop) (hold i : Nat) : Prop :=
  ∃ first, Window good (time updates) first i ∧ hold ≤ time updates i - time updates first

def Pauses (i : Nat) : Prop :=
  newDropAt updates i = true ∨ (updates i).pressure ≥ 85 ∨ HeldFor updates (High updates) 150 i

def Timed (good : Nat → Prop) (i : Nat) (tracking : Bool) (since : UInt64) : Prop :=
  tracking = true → ∃ first, Window good (time updates) first i ∧ since.toNat = time updates first

structure Knows (i : Nat) (gate : Gate) : Prop where
  lastMs : gate.lastMs = (updates i).now
  lastDrops : gate.lastDrops = (updates i).drops
  haveDrops : gate.haveDrops = true
  high : Timed updates (High updates) i gate.trackingHigh gate.highSinceMs
  low : Timed updates (Low updates) i gate.trackingLow gate.lowSinceMs

structure Ready (i : Nat) (gate : Gate) : Prop where
  drops : (gate.haveDrops && decide ((updates i).drops > gate.lastDrops)) = newDropAt updates i
  high : High updates i → Timed updates (High updates) i
    (gate.takeTime (updates i).now).trackingHigh gate.highSinceMs
  low : Low updates i → Timed updates (Low updates) i
    (gate.takeTime (updates i).now).trackingLow gate.lowSinceMs

end windows

variable {updates : Nat → Update} {gate : Gate} {i : Nat}

theorem ready_first (updates : Nat → Update) : Ready updates 0 cleared := by
  have still : ¬(updates 0).now < 0 := by
    rw [UInt64.lt_iff_toNat_lt]
    exact Nat.not_lt_zero _
  refine ⟨rfl, fun _ tracking => ?_, fun _ tracking => ?_⟩
  · simp [Gate.takeTime, cleared] at tracking
  · simp [Gate.takeTime, cleared] at tracking

theorem Knows.next (knows : Knows updates i gate) : Ready updates (i + 1) gate := by
  have forward : ¬(updates (i + 1)).now < gate.lastMs → time updates i ≤ time updates (i + 1) := by
    rw [knows.lastMs, UInt64.lt_iff_toNat_lt]
    exact Nat.le_of_not_lt
  refine ⟨?_, fun high tracking => ?_, fun low tracking => ?_⟩
  · rw [knows.haveDrops, knows.lastDrops, Bool.true_and]
    rfl
  · unfold Gate.takeTime at tracking
    split at tracking
    · cases tracking
    · next still =>
      obtain ⟨first, window, since⟩ := knows.high tracking
      exact ⟨first, window.extend high (forward still), since⟩
  · unfold Gate.takeTime at tracking
    split at tracking
    · cases tracking
    · next still =>
      obtain ⟨first, window, since⟩ := knows.low tracking
      exact ⟨first, window.extend low (forward still), since⟩

theorem Timed.started {good : Nat → Prop} {tracking : Bool} {since : UInt64}
    (timed : Timed updates good i tracking since) (here : good i) :
    ∃ first, Window good (time updates) first i ∧
      (startOf tracking since (updates i).now).toNat = time updates first ∧
      ((updates i).now - startOf tracking since (updates i).now).toNat =
        time updates i - time updates first := by
  have elapsed {start : UInt64} {first : Nat} (window : Window good (time updates) first i)
      (same : start.toNat = time updates first) :
      ((updates i).now - start).toNat = time updates i - time updates first := by
    rw [UInt64.toNat_sub_of_le, same]
    · rfl
    · rw [UInt64.le_iff_toNat_le, same]
      exact window.time_le
  cases tracking with
  | true =>
    obtain ⟨first, window, same⟩ := timed rfl
    exact ⟨first, window, same, elapsed window same⟩
  | false => exact ⟨i, Window.single here, rfl, elapsed (Window.single here) rfl⟩

theorem not_timed (good : Nat → Prop) (since : UInt64) : Timed updates good i false since :=
  (absurd · Bool.false_ne_true)

theorem update_knows (ready : Ready updates i gate) :
    Knows updates i (guiRfPreviewPressureUpdate gate (updates i) true) ∧
      (gate.paused = false →
        (guiRfPreviewPressureUpdate gate (updates i) true).paused = true → Pauses updates i) ∧
      (gate.paused = true →
        (guiRfPreviewPressureUpdate gate (updates i) true).paused = false →
        HeldFor updates (Low updates) 2000 i) := by
  obtain ⟨drops, high, low⟩ := ready
  simp only [guiRfPreviewPressureUpdate, Bool.not_true, Bool.false_eq_true, if_false,
    takeTime_haveDrops, takeTime_lastDrops, takeTime_paused, drops]
  split
  · next hard =>
    refine ⟨⟨takeTime_lastMs _ _, rfl, rfl, not_timed _ _, not_timed _ _⟩, fun _ _ => ?_,
      fun _ none => by cases none⟩
    rw [Bool.or_eq_true, decide_eq_true_eq] at hard
    rcases hard with drop | above
    · exact Or.inl drop
    · exact Or.inr (Or.inl above)
  · next soft =>
    rw [Bool.or_eq_true, not_or, Bool.not_eq_true] at soft
    cases paused : gate.paused with
    | false =>
      rw [Bool.not_false, if_pos rfl]
      refine ⟨?_, fun _ => ?_, fun none => by cases none⟩
      · unfold Gate.holdHigh
        dsimp only
        split
        · next above =>
          obtain ⟨first, window, since, _⟩ := (high above).started above
          rw [takeTime_highSinceMs]
          split
          · exact ⟨takeTime_lastMs _ _, rfl, rfl, fun _ => ⟨first, window, since⟩, not_timed _ _⟩
          · exact ⟨takeTime_lastMs _ _, rfl, rfl, fun _ => ⟨first, window, since⟩, not_timed _ _⟩
        · exact ⟨takeTime_lastMs _ _, rfl, rfl, not_timed _ _, not_timed _ _⟩
      · unfold Gate.holdHigh
        dsimp only
        rw [takeTime_highSinceMs]
        split
        · next above =>
          obtain ⟨first, window, _, elapsed⟩ := (high above).started above
          split
          · next held =>
            rw [ge_iff_le, UInt64.le_iff_toNat_le, elapsed] at held
            exact fun _ => Or.inr (Or.inr ⟨first, window, held⟩)
          · exact fun none => by cases none
        · exact fun none => by cases none
    | true =>
      rw [Bool.not_true, if_neg Bool.false_ne_true]
      refine ⟨?_, (fun none => by cases none), fun _ => ?_⟩
      · unfold Gate.holdLow
        dsimp only
        split
        · next under =>
          obtain ⟨first, window, since, _⟩ := (low ⟨under, soft.1⟩).started ⟨under, soft.1⟩
          rw [takeTime_lowSinceMs]
          split
          · exact ⟨takeTime_lastMs _ _, rfl, rfl, not_timed _ _, not_timed _ _⟩
          · exact ⟨takeTime_lastMs _ _, rfl, rfl, not_timed _ _, fun _ => ⟨first, window, since⟩⟩
        · exact ⟨takeTime_lastMs _ _, rfl, rfl, not_timed _ _, not_timed _ _⟩
      · unfold Gate.holdLow
        dsimp only
        rw [takeTime_lowSinceMs]
        split
        · next under =>
          obtain ⟨first, window, _, elapsed⟩ := (low ⟨under, soft.1⟩).started ⟨under, soft.1⟩
          split
          · next held =>
            rw [ge_iff_le, UInt64.le_iff_toNat_le, elapsed] at held
            exact fun _ => ⟨first, window, held⟩
          · exact fun none => by cases none
        · exact fun none => by cases none

theorem run_ready (updates : Nat → Update) (i : Nat) :
    Ready updates i (runFrom cleared updates i) := by
  induction i with
  | zero => exact ready_first updates
  | succ i ih => exact (update_knows ih).1.next

def lastTime (gate : Gate) (times : Nat → UInt64) : Nat → UInt64
  | 0 => gate.lastMs
  | i + 1 => times i

def Steadied (gate : Gate) (times clock : Nat → UInt64) : Prop :=
  ∀ i, (lastTime gate clock i).toNat ≤ (clock i).toNat ∧
    ((lastTime gate times i).toNat ≤ (times i).toNat →
      (times i).toNat - (lastTime gate times i).toNat =
        (clock i).toNat - (lastTime gate clock i).toNat)

def steady (updates : Nat → Update) (clock : Nat → UInt64) (i : Nat) : Update :=
  { updates i with now := clock i }

structure TimerBehind (tracking : Bool) (since last : UInt64) (tracking' : Bool)
    (since' last' : UInt64) : Prop where
  started : tracking' = true → since'.toNat ≤ last'.toNat
  shorter : tracking = true → tracking' = true ∧ since.toNat ≤ last.toNat ∧
    last.toNat - since.toNat ≤ last'.toNat - since'.toNat

structure Behind (gate gate' : Gate) : Prop where
  paused : gate.paused = gate'.paused
  haveDrops : gate.haveDrops = gate'.haveDrops
  lastDrops : gate.lastDrops = gate'.lastDrops
  high : TimerBehind gate.trackingHigh gate.highSinceMs gate.lastMs
    gate'.trackingHigh gate'.highSinceMs gate'.lastMs
  low : TimerBehind gate.trackingLow gate.lowSinceMs gate.lastMs
    gate'.trackingLow gate'.lowSinceMs gate'.lastMs

section behind
variable {tracking tracking' : Bool} {since since' last last' now now' : UInt64} {gate' : Gate}

theorem timers_stopped : TimerBehind false since last false since' last' := ⟨by simp, by simp⟩

theorem takeTime_trackingHigh (gate : Gate) (now : UInt64) :
    (gate.takeTime now).trackingHigh = (gate.trackingHigh && decide (gate.lastMs ≤ now)) := by
  unfold Gate.takeTime
  split
  · next back => simp [UInt64.not_le.mpr back]
  · next still => simp [UInt64.not_lt.mp still]

theorem takeTime_trackingLow (gate : Gate) (now : UInt64) :
    (gate.takeTime now).trackingLow = (gate.trackingLow && decide (gate.lastMs ≤ now)) := by
  unfold Gate.takeTime
  split
  · next back => simp [UInt64.not_le.mpr back]
  · next still => simp [UInt64.not_lt.mp still]

theorem TimerBehind.next (behind : TimerBehind tracking since last tracking' since' last')
    (forward : last'.toNat ≤ now'.toNat)
    (same : last.toNat ≤ now.toNat → now.toNat - last.toNat = now'.toNat - last'.toNat) :
    TimerBehind true (startOf (tracking && decide (last ≤ now)) since now) now
        true (startOf (tracking' && decide (last' ≤ now')) since' now') now' ∧
      (now - startOf (tracking && decide (last ≤ now)) since now).toNat ≤
        (now' - startOf (tracking' && decide (last' ≤ now')) since' now').toNat := by
  obtain ⟨started, shorter⟩ := behind
  have runs : decide (last' ≤ now') = true := by
    rw [decide_eq_true_eq, UInt64.le_iff_toNat_le]
    exact forward
  have second : (startOf (tracking' && decide (last' ≤ now')) since' now').toNat ≤ now'.toNat := by
    rw [runs, Bool.and_true]
    cases tracking' with
    | true => exact Nat.le_trans (started rfl) forward
    | false => exact Nat.le_refl _
  have first : (startOf (tracking && decide (last ≤ now)) since now).toNat ≤ now.toNat ∧
      now.toNat - (startOf (tracking && decide (last ≤ now)) since now).toNat ≤
        now'.toNat - (startOf (tracking' && decide (last' ≤ now')) since' now').toNat := by
    cases on : tracking && decide (last ≤ now) with
    | false =>
      show now.toNat ≤ now.toNat ∧ now.toNat - now.toNat ≤ _
      omega
    | true =>
      rw [Bool.and_eq_true, decide_eq_true_eq, UInt64.le_iff_toNat_le] at on
      obtain ⟨other, before, less⟩ := shorter on.1
      have gone := same on.2
      have later := started other
      rw [runs, other]
      show since.toNat ≤ now.toNat ∧ now.toNat - since.toNat ≤ now'.toNat - since'.toNat
      omega
  refine ⟨⟨fun _ => second, fun _ => ⟨rfl, first.1, first.2⟩⟩, ?_⟩
  rw [UInt64.toNat_sub_of_le _ _ (UInt64.le_iff_toNat_le.mpr first.1),
    UInt64.toNat_sub_of_le _ _ (UInt64.le_iff_toNat_le.mpr second)]
  exact first.2

theorem update_behind {gate : Gate} (behind : Behind gate gate') (update : Update) (now' : UInt64)
    (forward : gate'.lastMs.toNat ≤ now'.toNat)
    (same : gate.lastMs.toNat ≤ update.now.toNat →
      update.now.toNat - gate.lastMs.toNat = now'.toNat - gate'.lastMs.toNat)
    (holds : (guiRfPreviewPressureUpdate gate' { update with now := now' } true).paused =
      gate'.paused) :
    (guiRfPreviewPressureUpdate gate update true).paused = gate.paused ∧
      Behind (guiRfPreviewPressureUpdate gate update true)
        (guiRfPreviewPressureUpdate gate' { update with now := now' } true) := by
  obtain ⟨paused, haveDrops, lastDrops, high, low⟩ := behind
  obtain ⟨nextHigh, elapsedHigh⟩ := high.next forward same
  obtain ⟨nextLow, elapsedLow⟩ := low.next forward same
  have level : ({ update with now := now' } : Update).pressure = update.pressure := rfl
  simp only [guiRfPreviewPressureUpdate, Bool.not_true, Bool.false_eq_true, if_false,
    takeTime_haveDrops, takeTime_lastDrops, takeTime_paused, takeTime_trackingHigh,
    takeTime_trackingLow, takeTime_highSinceMs, takeTime_lowSinceMs, takeTime_lastMs, paused,
    haveDrops, lastDrops, level, Gate.holdHigh, Gate.holdLow] at holds ⊢
  split at holds
  · next hard =>
    rw [if_pos hard, if_pos hard]
    exact ⟨holds, rfl, rfl, rfl, timers_stopped, timers_stopped⟩
  · next soft =>
    rw [if_neg soft, if_neg soft]
    cases before : gate'.paused with
    | false =>
      rw [before, Bool.not_false, if_pos rfl] at holds
      rw [Bool.not_false, if_pos rfl, if_pos rfl]
      split at holds
      · next above =>
        rw [if_pos above, if_pos above]
        split at holds
        · cases holds
        · next short =>
          have shorter : ¬update.now -
              startOf (gate.trackingHigh && decide (gate.lastMs ≤ update.now)) gate.highSinceMs
                update.now ≥ 150 := by
            rw [ge_iff_le, UInt64.le_iff_toNat_le] at short ⊢
            omega
          rw [if_neg short, if_neg shorter]
          exact ⟨rfl, rfl, rfl, rfl, nextHigh, timers_stopped⟩
      · next under =>
        rw [if_neg under, if_neg under]
        exact ⟨rfl, rfl, rfl, rfl, timers_stopped, timers_stopped⟩
    | true =>
      rw [before, Bool.not_true, if_neg Bool.false_ne_true] at holds
      rw [Bool.not_true, if_neg Bool.false_ne_true, if_neg Bool.false_ne_true]
      split at holds
      · next under =>
        rw [if_pos under, if_pos under]
        split at holds
        · cases holds
        · next short =>
          have shorter : ¬update.now -
              startOf (gate.trackingLow && decide (gate.lastMs ≤ update.now)) gate.lowSinceMs
                update.now ≥ 2000 := by
            rw [ge_iff_le, UInt64.le_iff_toNat_le] at short ⊢
            omega
          rw [if_neg short, if_neg shorter]
          exact ⟨rfl, rfl, rfl, rfl, timers_stopped, nextLow⟩
      · next above =>
        rw [if_neg above, if_neg above]
        exact ⟨rfl, rfl, rfl, rfl, timers_stopped, timers_stopped⟩

theorem update_lastMs (gate : Gate) (update : Update) :
    (guiRfPreviewPressureUpdate gate update true).lastMs = update.now := by
  simp only [guiRfPreviewPressureUpdate, Bool.not_true, Bool.false_eq_true, if_false,
    Gate.holdHigh, Gate.holdLow]
  split_ifs <;> exact takeTime_lastMs _ _

theorem runFrom_lastMs (gate : Gate) (updates : Nat → Update) (i : Nat) :
    (runFrom gate updates i).lastMs = lastTime gate (fun i => (updates i).now) i := by
  cases i with
  | zero => rfl
  | succ i => exact update_lastMs _ _

/-- While the gate on the steady clock has not switched, the other one has not either. -/
theorem run_behind {gate : Gate} {clock : Nat → UInt64} (start : Behind gate gate)
    (steadied : Steadied gate (fun i => (updates i).now) clock) {last : Nat}
    (holds : ∀ i ≤ last, (runFrom gate (steady updates clock) i).paused = gate.paused) :
    ∀ i ≤ last, (runFrom gate updates i).paused = gate.paused ∧
      Behind (runFrom gate updates i) (runFrom gate (steady updates clock) i) := by
  intro i
  induction i with
  | zero => exact fun _ => ⟨rfl, start⟩
  | succ i ih =>
    intro low
    obtain ⟨before, behind⟩ := ih (by omega)
    obtain ⟨forward, same⟩ := steadied i
    have still : (runFrom gate (steady updates clock) (i + 1)).paused =
        (runFrom gate (steady updates clock) i).paused :=
      (holds (i + 1) low).trans (holds i (by omega)).symm
    rw [← runFrom_lastMs] at same
    have other := runFrom_lastMs gate (steady updates clock) i
    change _ = lastTime gate clock i at other
    rw [← other] at forward same
    obtain ⟨stays, next⟩ := update_behind behind (updates i) (clock i) forward same still
    exact ⟨stays.trans before, next⟩

theorem Knows.behind (knows : Knows updates i gate) : Behind gate gate := by
  have timer {good : Nat → Prop} {tracking : Bool} {since : UInt64}
      (timed : Timed updates good i tracking since) :
      TimerBehind tracking since gate.lastMs tracking since gate.lastMs := by
    have before (on : tracking = true) : since.toNat ≤ gate.lastMs.toNat := by
      obtain ⟨first, window, same⟩ := timed on
      rw [same, knows.lastMs]
      exact window.time_le
    exact ⟨before, fun on => ⟨on, before on, Nat.le_refl _⟩⟩
  exact ⟨rfl, rfl, rfl, timer knows.high, timer knows.low⟩

theorem run_behind_self (updates : Nat → Update) (i : Nat) :
    Behind (runFrom cleared updates i) (runFrom cleared updates i) := by
  cases i with
  | zero => exact ⟨rfl, rfl, rfl, timers_stopped, timers_stopped⟩
  | succ i => exact (update_knows (run_ready updates i)).1.behind

end behind

/-- The hysteresis of the gate: why it pauses, why it resumes, and that a step back of the clock
delays either. -/
theorem pressure_hysteresis (updates : Nat → Update) :
    (∀ i, (runFrom cleared updates i).paused = false →
      (runFrom cleared updates (i + 1)).paused = true → Pauses updates i) ∧
    (∀ i, (runFrom cleared updates i).paused = true →
      (runFrom cleared updates (i + 1)).paused = false →
      HeldFor updates (Low updates) 2000 i) ∧
    ∀ (first : Nat) (clock : Nat → UInt64),
      Steadied (runFrom cleared updates first) (fun i => (updates (first + i)).now) clock →
      ∀ last, (∀ i ≤ last, (runFrom (runFrom cleared updates first)
          (steady (fun i => updates (first + i)) clock) i).paused =
            (runFrom cleared updates first).paused) →
        ∀ i ≤ last, (runFrom cleared updates (first + i)).paused =
          (runFrom cleared updates first).paused := by
  refine ⟨fun i opened paused => (update_knows (run_ready updates i)).2.1 opened paused,
    fun i paused resumed => (update_knows (run_ready updates i)).2.2 paused resumed, ?_⟩
  intro first clock steadied last holds i low
  have later : runFrom cleared updates (first + i) =
      runFrom (runFrom cleared updates first) (fun i => updates (first + i)) i := by
    clear low
    induction i with
    | zero => rfl
    | succ i ih =>
      rw [← Nat.add_assoc, runFrom, runFrom, ih]
  rw [later]
  exact (run_behind (run_behind_self updates first) steadied holds i low).1

end MisrcGui.RfPreview.Pressure
