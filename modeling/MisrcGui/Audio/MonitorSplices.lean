import MisrcGui.Audio.MonitorCapture

/-! What subscribers of the monitor audio hear without a reported discontinuity. -/
namespace MisrcGui.Audio.MonitorSplices
open Library Library.Circular MonitorCapture

variable {Frame : Type} {ring : Capture Frame} {stored block : List Frame}

structure Holds (ring : Capture Frame) (stored : List Frame) : Prop where
  length : stored.length = ring.written
  recent : ∀ count ≤ ring.written, count ≤ ringFrames →
    slice ringFrames ring.frames (ring.written - count) count =
      stored.drop (ring.written - count)

theorem Holds.empty (frames : Nat → Frame) (rate mode epoch : Nat) :
    Holds ⟨frames, 0, rate, mode, epoch⟩ [] where
  length := rfl
  recent := by
    intro count none _
    rw [Nat.le_zero.mp none]
    rfl

theorem Holds.append (holds : Holds ring stored) (fits : block.length ≤ ringFrames) :
    Holds (ring.append block) (stored ++ block) where
  length := by rw [List.length_append, holds.length, Capture.append]
  recent := by
    intro count inside small
    rw [Capture.append] at inside ⊢
    dsimp only at inside ⊢
    have self : slice ringFrames (Circular.store ringFrames ring.frames ring.written block)
        ring.written block.length = block := slice_store_self fits
    by_cases within : count ≤ block.length
    · have start : ring.written + block.length - count =
          ring.written + (block.length - count) := by omega
      have cut : (slice ringFrames (Circular.store ringFrames ring.frames ring.written block)
          ring.written block.length).drop (block.length - count) = _ :=
        slice_drop (Nat.sub_le block.length count)
      rw [self, Nat.sub_sub_self within] at cut
      have past : (stored ++ block).drop (ring.written + (block.length - count)) =
          block.drop (block.length - count) := by
        rw [← holds.length, List.drop_append, List.drop_eq_nil_of_le (Nat.le_add_right _ _),
          List.nil_append, Nat.add_sub_cancel_left]
      rw [start, past, cut]
    · obtain ⟨more, rfl⟩ : ∃ more, count = more + block.length := ⟨count - block.length, by omega⟩
      have start : ring.written + block.length - (more + block.length) = ring.written - more := by
        omega
      have old := holds.recent more (by omega) (by omega)
      have meet : ring.written - more + more = ring.written := by omega
      rw [start, slice_add, meet, self, slice_store_after meet.le (by omega), old,
        List.drop_append_of_le_length (by rw [holds.length]; omega)]

theorem Holds.tap (holds : Holds ring stored) (rate mode : Nat) (block : List Frame) :
    Holds (ring.tap rate mode block)
      ((if ring.begins rate mode then [] else stored) ++ keep block) := by
  have fits : (keep block).length ≤ ringFrames := by
    rw [keep, List.length_drop]
    omega
  refine Holds.append ?_ fits
  rw [Capture.retune]
  split
  · exact .empty _ _ _ _
  · exact holds

variable {r : Reader}

theorem restart_le : (Reader.restart ring).cursor ≤ ring.written := by
  rw [Reader.restart]
  dsimp only
  split <;> omega

theorem place_inside (rate : ring.rate ≤ 384000) :
    (r.place ring).1.cursor ≤ ring.written ∧
      ring.written - (r.place ring).1.cursor ≤ ringFrames := by
  have started : (if r.stale ring then Reader.restart ring else r).cursor ≤ ring.written := by
    split
    · exact restart_le
    · next fresh =>
      rw [Reader.stale, Bool.or_eq_true, not_or, decide_eq_true_eq, decide_eq_true_eq] at fresh
      omega
  rw [Reader.place]
  generalize (if r.stale ring then Reader.restart ring else r) = start at started ⊢
  by_cases late : start.late ring = true
  · rw [if_pos late]
    dsimp only [ringFrames]
    split <;> omega
  · rw [if_neg late]
    rw [Reader.late, Bool.or_eq_true, not_or, decide_eq_true_eq] at late
    exact ⟨started, Nat.le_of_not_lt late.1⟩

theorem place_reports : (r.place ring).2 = (r.stale ring || r.late ring) := by
  rw [Reader.place]
  cases stale : r.stale ring with
  | true =>
    rw [if_pos rfl, Bool.true_or]
    split <;> rfl
  | false =>
    rw [if_neg Bool.false_ne_true, Bool.false_or]
    cases late : r.late ring <;> rfl

theorem place_silent (silent : (r.stale ring || r.late ring) = false) :
    (r.place ring).1 = r ∧ r.cursor ≤ ring.written := by
  obtain ⟨fresh, early⟩ := Bool.or_eq_false_iff.mp silent
  constructor
  · rw [Reader.place, fresh, if_neg Bool.false_ne_true, early, if_neg Bool.false_ne_true]
  · rw [Reader.stale, Bool.or_eq_false_iff, decide_eq_false_iff_not, decide_eq_false_iff_not,
      Nat.not_lt] at fresh
    exact fresh.2

theorem count_le : r.count ring ≤ ring.written - r.cursor := by
  rw [Reader.count]
  split
  · exact Nat.zero_le _
  · exact Nat.min_le_left _ _

theorem copy_eq (holds : Holds ring stored) (inside : r.cursor ≤ ring.written)
    (kept : ring.written - r.cursor ≤ ringFrames) :
    r.copy ring = (stored.drop r.cursor).take (r.count ring) := by
  have recent := holds.recent (ring.written - r.cursor) (Nat.sub_le _ _) kept
  rw [Nat.sub_sub_self inside] at recent
  rw [Reader.copy, ← recent, slice_take count_le]

theorem copy_suffix (holds : Holds ring stored) (inside : r.cursor ≤ ring.written)
    (kept : ring.written - r.cursor ≤ ringFrames) {run : List Frame}
    (before : run <:+ stored.take r.cursor) :
    run ++ r.copy ring <:+ stored.take (r.advance ring).cursor := by
  rw [copy_eq holds inside kept, Reader.advance]
  dsimp only
  rw [List.take_add]
  obtain ⟨front, same⟩ := before
  exact ⟨front, by rw [← same, List.append_assoc]⟩

variable {s next : State Frame} {x : Subscriber Frame} {b : Block Frame} {i : Nat}

/-- No block is stored after a loss in the same epoch or is cut there, no reader takes the epoch
for that of an older generation, and none reports a discontinuity after the last number. -/
def allowed (s : State Frame) : Action Frame → Bool
  | .tapStore =>
    match s.pending with
    | none => true
    | some block => s.ring.begins block.rate block.mode ||
        (!s.lost && block.frames.length ≤ ringFrames)
  | .read i =>
    let x := s.stream i
    if x.reader.stale s.ring || x.reader.late s.ring then
      x.packets.getLast?.map Prod.fst ≠ some (wrap - 1)
    else x.generation = s.generation || x.run.isEmpty
  | _ => true

/-- The frames follow one another in what is captured, at one rate and in one mode. -/
def Continuous (captured : List (Tagged Frame)) (run : List Frame) : Prop :=
  ∃ rate mode, run.map (tag rate mode) <:+: captured

/-- Packets of different runs do not follow one another in number. -/
def Skips (packets : List (Nat × Nat)) : Prop :=
  packets.IsChain fun p q => p.2 ≠ q.2 → q.1 ≠ (p.1 + 1) % wrap

/-- What the ring holds ends what is captured, but for what is lost since. -/
structure Kept (s : State Frame) : Prop where
  rate : s.ring.rate ≤ 384000
  holds : Holds s.ring s.stored
  captured : ∃ early rest, (s.lost = false → rest = []) ∧
    s.captured = early ++ s.stored.map (tag s.ring.rate s.ring.mode) ++ rest

structure Heard (s : State Frame) (x : Subscriber Frame) : Prop where
  continuous : Continuous s.captured x.run
  generation : x.generation ≤ s.generation
  current : x.generation = s.generation →
    x.run <:+ s.stored.take x.reader.cursor ∧ x.reader.cursor ≤ s.ring.written

structure Numbered (x : Subscriber Frame) : Prop where
  skips : Skips x.packets
  small : x.sequence < wrap
  last : ∀ p, x.packets.getLast? = some p → p.1 < wrap ∧ p.2 ≤ x.runs ∧
    (x.sequence = 0 ∨ p.1 < x.sequence) ∧
    (p.2 ≠ x.runs → p.1 + 1 < wrap ∧ (x.sequence = 0 ∨ p.1 + 1 < x.sequence))

structure Inv (s : State Frame) : Prop where
  kept : Kept s
  heard : ∀ i, Heard s (s.stream i)
  numbered : ∀ i, Numbered (s.stream i)

theorem Continuous.append {captured : List (Tagged Frame)} {run : List Frame}
    (continuous : Continuous captured run) (more : List (Tagged Frame)) :
    Continuous (captured ++ more) run := by
  obtain ⟨rate, mode, inside⟩ := continuous
  exact ⟨rate, mode, inside.trans (List.prefix_append captured more).isInfix⟩

theorem Kept.continuous (kept : Kept s) {run : List Frame} {cursor : Nat}
    (ends : run <:+ s.stored.take cursor) : Continuous s.captured run := by
  obtain ⟨early, rest, -, captured⟩ := kept.captured
  refine ⟨s.ring.rate, s.ring.mode, ?_⟩
  have inside : run <:+: s.stored := ends.isInfix.trans (List.take_prefix _ _).isInfix
  rw [captured]
  exact (inside.map _).trans ⟨early, rest, rfl⟩

theorem tapRate_le (device : Device) (audioSampleRate : Nat) :
    tapRate device audioSampleRate ≤ 384000 := by
  rw [tapRate]
  split
  · omega
  · split <;> omega

theorem Heard.grown (heard : Heard s x) {more : List (Tagged Frame)}
    (captured : next.captured = s.captured ++ more)
    (later : s.generation < next.generation ∨ (next.generation = s.generation ∧
      s.stored.length = s.ring.written ∧ s.ring.written ≤ next.ring.written ∧
      ∃ frames, next.stored = s.stored ++ frames)) : Heard next x where
  continuous := by
    rw [captured]
    exact heard.continuous.append more
  generation := by
    have before := heard.generation
    omega
  current := by
    intro same
    have before := heard.generation
    rcases later with later | ⟨generation, length, longer, frames, stored⟩
    · omega
    · obtain ⟨ends, inside⟩ := heard.current (by omega)
      rw [stored, List.take_append_of_le_length (by omega)]
      exact ⟨ends, by omega⟩

theorem Heard.same (heard : Heard s x) (captured : next.captured = s.captured)
    (stored : next.stored = s.stored) (ring : next.ring = s.ring)
    (generation : next.generation = s.generation) : Heard next x where
  continuous := captured ▸ heard.continuous
  generation := generation ▸ heard.generation
  current := by
    rw [generation, stored, ring]
    exact heard.current

theorem Kept.same (kept : Kept s) (captured : next.captured = s.captured)
    (stored : next.stored = s.stored) (ring : next.ring = s.ring) (lost : next.lost = s.lost) :
    Kept next where
  rate := ring ▸ kept.rate
  holds := by
    rw [ring, stored]
    exact kept.holds
  captured := by
    rw [captured, stored, ring, lost]
    exact kept.captured

theorem Inv.drop (inv : Inv s) : Inv (drop s b) where
  kept := { inv.kept with
    captured := by
      obtain ⟨early, rest, -, captured⟩ := inv.kept.captured
      refine ⟨early, rest ++ b.tagged, Bool.noConfusion, ?_⟩
      rw [MonitorCapture.drop]
      dsimp only
      rw [captured, List.append_assoc _ rest] }
  heard := fun i => (inv.heard i).grown rfl
    (.inr ⟨rfl, inv.kept.holds.length, le_rfl, [], (List.append_nil _).symm⟩)
  numbered := inv.numbered

theorem Inv.guarded (inv : Inv s) (guard : Option Holder) (pending : Option (Block Frame)) :
    Inv { s with guard, pending } where
  kept := inv.kept.same rfl rfl rfl rfl
  heard := fun i => (inv.heard i).same rfl rfl rfl rfl
  numbered := inv.numbered

theorem tapCall_inv (inv : Inv s) (taken : tapCall s b = some next) : Inv next := by
  rw [tapCall] at taken
  split at taken
  · cases taken
  · split at taken
    · cases taken
      exact inv.drop
    · cases taken
      exact inv.guarded s.guard (some b)

theorem tapLock_inv (inv : Inv s) (taken : tapLock s = some next) : Inv next := by
  rw [tapLock] at taken
  split at taken
  · cases taken
  · cases taken
  · cases taken
    exact inv.guarded (some .tap) s.pending
  · cases taken
    exact inv.drop

theorem lock_inv (inv : Inv s) {holder : Holder} (taken : lock s holder = some next) :
    Inv next := by
  rw [lock] at taken
  split at taken
  · cases taken
    exact inv.guarded (some holder) s.pending
  · cases taken

theorem reset_inv (inv : Inv s) (taken : reset s = some next) : Inv next := by
  rw [reset] at taken
  split at taken
  · cases taken
    exact {
      kept := {
        rate := Nat.zero_le _
        holds := .empty _ _ _ _
        captured := ⟨s.captured, [], fun _ => rfl, by simp⟩ }
      heard := fun i => (inv.heard i).grown (List.append_nil _).symm (.inl (Nat.lt_succ_self _))
      numbered := inv.numbered }
  · cases taken

theorem tagged_eq (b : Block Frame) :
    b.tagged = (b.frames.take (b.frames.length - ringFrames)).map (tag b.rate b.mode) ++
      (keep b.frames).map (tag b.rate b.mode) := by
  rw [keep, ← List.map_append, List.take_append_drop, Block.tagged]

theorem tapStore_some (taken : tapStore s = some next) : ∃ block, s.pending = some block ∧
    next.ring = s.ring.tap block.rate block.mode block.frames ∧
    next.captured = s.captured ++ block.tagged ∧
    next.stored =
      (if s.ring.begins block.rate block.mode then [] else s.stored) ++ keep block.frames ∧
    next.generation =
      (if s.ring.begins block.rate block.mode then s.generation + 1 else s.generation) ∧
    next.lost = false ∧ next.stream = s.stream := by
  rw [tapStore] at taken
  split at taken
  · cases taken
  next block pending =>
  split at taken
  · rw [Option.some_inj] at taken
    rw [← taken]
    exact ⟨block, pending, rfl, rfl, rfl, rfl, rfl, rfl⟩
  · cases taken

theorem retune_begins {rate mode : Nat} (begins : ring.begins rate mode = true) :
    (ring.retune rate mode).rate = rate ∧ (ring.retune rate mode).mode = mode ∧
      (ring.retune rate mode).written = 0 := by
  rw [Capture.retune, if_pos begins]
  exact ⟨rfl, rfl, rfl⟩

theorem retune_same {rate mode : Nat} (same : ring.begins rate mode = false) :
    ring.retune rate mode = ring ∧ ring.rate = rate ∧ ring.mode = mode := by
  refine ⟨by rw [Capture.retune, same, if_neg Bool.false_ne_true], ?_⟩
  rw [Capture.begins, Bool.or_eq_false_iff, decide_eq_false_iff_not, decide_eq_false_iff_not,
    not_not, not_not] at same
  exact ⟨same.1.symm, same.2.symm⟩

theorem tapStore_inv (inv : Inv s) (safe : allowed s .tapStore) (taken : tapStore s = some next) :
    Inv next := by
  obtain ⟨block, pending, ring, captured, stored, generation, kept, stream⟩ := tapStore_some taken
  rw [allowed, pending] at safe
  dsimp only at safe
  have holds : Holds next.ring next.stored := by
    rw [ring, stored]
    exact inv.kept.holds.tap _ _ _
  have numbered : ∀ i, Numbered (next.stream i) := stream ▸ inv.numbered
  cases begins : s.ring.begins block.rate block.mode with
  | true =>
    obtain ⟨rate, mode, -⟩ := retune_begins begins
    rw [begins, if_pos rfl] at stored generation
    refine ⟨⟨?_, holds, ?_⟩, fun i => ?_, numbered⟩
    · rw [ring, Capture.tap, Capture.append]
      exact rate.trans_le (tapRate_le _ _)
    · -- the skipped frames precede those of the new epoch
      refine ⟨s.captured ++ (block.frames.take (block.frames.length - ringFrames)).map
        (tag block.rate block.mode), [], fun _ => rfl, ?_⟩
      rw [captured, stored, ring, Capture.tap, Capture.append, rate, mode, tagged_eq,
        List.nil_append, List.append_nil, List.append_assoc]
    · rw [stream]
      exact (inv.heard i).grown captured (.inl (generation ▸ Nat.lt_succ_self _))
  | false =>
    obtain ⟨same, rate, mode⟩ := retune_same begins
    rw [begins, if_neg Bool.false_ne_true] at stored generation
    rw [begins, Bool.false_or, Bool.and_eq_true, Bool.not_eq_true', decide_eq_true_eq] at safe
    obtain ⟨whole, fits⟩ := safe
    rw [Capture.tap, same] at ring
    have all : keep block.frames = block.frames := by
      rw [keep, Nat.sub_eq_zero_of_le fits, List.drop_zero]
    refine ⟨⟨?_, holds, ?_⟩, fun i => ?_, numbered⟩
    · rw [ring, Capture.append]
      exact inv.kept.rate
    · -- nothing is lost between what the ring holds and the block
      obtain ⟨early, rest, none, before⟩ := inv.kept.captured
      refine ⟨early, [], fun _ => rfl, ?_⟩
      rw [captured, stored, ring, Capture.append, before, none whole, all, Block.tagged, ← rate,
        ← mode, List.map_append, List.append_nil, List.append_nil, List.append_assoc]
    · rw [stream]
      refine (inv.heard i).grown captured (.inr ⟨generation, inv.kept.holds.length, ?_, _, stored⟩)
      rw [ring]
      exact Nat.le_add_right _ _

theorem Inv.update (inv : Inv s) (heard : Heard s x) (numbered : Numbered x)
    (guard : Option Holder) (subscribers : Nat) :
    Inv { s with guard, subscribers, stream := Function.update s.stream i x } where
  kept := inv.kept.same rfl rfl rfl rfl
  heard := by
    intro j
    dsimp only
    by_cases same : j = i
    · rw [same, Function.update_self]
      exact heard.same rfl rfl rfl rfl
    · rw [Function.update_of_ne same]
      exact (inv.heard j).same rfl rfl rfl rfl
  numbered := by
    intro j
    dsimp only
    by_cases same : j = i
    · rw [same, Function.update_self]
      exact numbered
    · rw [Function.update_of_ne same]
      exact inv.numbered j

theorem Heard.fresh (s : State Frame) : Heard s .fresh where
  continuous := ⟨0, 0, List.nil_infix⟩
  generation := Nat.zero_le _
  current := fun _ => ⟨List.nil_suffix, Nat.zero_le _⟩

theorem Numbered.fresh : Numbered (.fresh : Subscriber Frame) where
  skips := .nil
  small := Nat.two_pow_pos 32
  last := nofun

theorem Numbered.sendPacket (numbered : Numbered x) : Numbered (sendPacket x) where
  skips := by
    refine numbered.skips.append (.singleton _) ?_
    intro p last q first
    cases first
    intro other
    obtain ⟨-, -, -, skipped⟩ := numbered.last p last
    obtain ⟨small, after⟩ := skipped other
    rw [Nat.mod_eq_of_lt small]
    dsimp only
    omega
  small := Nat.mod_lt _ (Nat.two_pow_pos 32)
  last := by
    intro p last
    rw [MonitorCapture.sendPacket, List.getLast?_concat] at last
    cases last
    have small := numbered.small
    refine ⟨small, le_rfl, ?_, fun other => (other rfl).elim⟩
    rw [MonitorCapture.sendPacket]
    dsimp only
    rw [wrap] at small ⊢
    omega

theorem Numbered.restarts (numbered : Numbered x)
    (more : x.packets.getLast?.map Prod.fst ≠ some (wrap - 1)) {y : Subscriber Frame}
    (packets : y.packets = x.packets) (runs : y.runs = x.runs + 1)
    (sequence : y.sequence = if x.sequence ≠ 0 then (x.sequence + 1) % wrap else x.sequence) :
    Numbered y where
  skips := packets ▸ numbered.skips
  small := by
    rw [sequence]
    split
    · exact Nat.mod_lt _ (Nat.two_pow_pos 32)
    · exact numbered.small
  last := by
    intro p last
    rw [packets] at last
    rw [last, Option.map_some, ne_eq, Option.some_inj] at more
    obtain ⟨below, older, used, -⟩ := numbered.last p last
    have small := numbered.small
    rw [runs, sequence]
    rw [wrap] at *
    split <;> omega

theorem Numbered.continues (numbered : Numbered x) {y : Subscriber Frame} (retuned : Prop)
    [Decidable retuned] (packets : y.packets = x.packets) (runs : y.runs = x.runs)
    (sequence : y.sequence =
      if retuned ∧ x.sequence ≠ 0 then (x.sequence + 1) % wrap else x.sequence) :
    Numbered y where
  skips := packets ▸ numbered.skips
  small := by
    rw [sequence]
    split
    · exact Nat.mod_lt _ (Nat.two_pow_pos 32)
    · exact numbered.small
  last := by
    intro p last
    rw [packets] at last
    obtain ⟨below, older, used, skipped⟩ := numbered.last p last
    have small := numbered.small
    rw [runs, sequence]
    rw [wrap] at *
    split <;> omega

theorem advance_le (inside : r.cursor ≤ ring.written) :
    (r.advance ring).cursor ≤ ring.written := by
  have fewer : r.count ring ≤ ring.written - r.cursor := count_le
  rw [Reader.advance]
  dsimp only
  omega

theorem turn_inv (inv : Inv s) (safe : allowed s (.read i)) :
    Heard s (turn s (s.stream i)) ∧ Numbered (turn s (s.stream i)) := by
  have reports : ((s.stream i).reader.place s.ring).2 = _ := place_reports
  obtain ⟨inside, held⟩ : ((s.stream i).reader.place s.ring).1.cursor ≤ s.ring.written ∧ _ :=
    place_inside inv.kept.rate
  rw [allowed] at safe
  rw [turn]
  generalize place : (s.stream i).reader.place s.ring = placed at *
  obtain ⟨start, discontinuity⟩ := placed
  dsimp only at *
  -- the frames of the run, after the read, end those before the new cursor
  have ends : ∀ run : List Frame, run <:+ s.stored.take start.cursor →
      run ++ start.copy s.ring <:+ s.stored.take (start.advance s.ring).cursor :=
    fun run before => copy_suffix inv.kept.holds inside held before
  cases discontinuity with
  | true =>
    rw [← reports, if_pos rfl, decide_eq_true_eq] at safe
    have suffix := ends [] List.nil_suffix
    constructor
    · exact ⟨inv.kept.continuous suffix, le_rfl, fun _ => ⟨suffix, advance_le inside⟩⟩
    · exact (inv.numbered i).restarts safe rfl rfl (by simp)
  | false =>
    obtain ⟨same, -⟩ := place_silent reports.symm
    rw [place] at same
    cases same
    rw [← reports, if_neg Bool.false_ne_true, Bool.or_eq_true, decide_eq_true_eq,
      List.isEmpty_iff] at safe
    have suffix := by
      refine ends (s.stream i).run ?_
      rcases safe with current | fresh
      · exact ((inv.heard i).current current).1
      · rw [fresh]
        exact List.nil_suffix
    constructor
    · exact ⟨inv.kept.continuous suffix, le_rfl, fun _ => ⟨suffix, advance_le inside⟩⟩
    · exact (inv.numbered i).continues _ rfl rfl rfl

theorem step_inv {action : Action Frame} (inv : Inv s) (safe : allowed s action)
    (taken : step s action = some next) : Inv next := by
  cases action with
  | tapCall block => exact tapCall_inv inv taken
  | tapLock => exact tapLock_inv inv taken
  | tapStore => exact tapStore_inv inv safe taken
  | resetLock => exact lock_inv inv taken
  | reset => exact reset_inv inv taken
  | subscribe i =>
    rw [step] at taken
    split at taken
    · cases taken
    · cases taken
      exact inv.update (.fresh s) .fresh s.guard (s.subscribers + 1)
  | unsubscribe i =>
    rw [step] at taken
    split at taken
    · cases taken
      have heard : Heard s { s.stream i with subscribed := false } :=
        ⟨(inv.heard i).continuous, (inv.heard i).generation, (inv.heard i).current⟩
      have numbered : Numbered { s.stream i with subscribed := false } :=
        ⟨(inv.numbered i).skips, (inv.numbered i).small, (inv.numbered i).last⟩
      exact inv.update heard numbered s.guard (s.subscribers - 1)
    · cases taken
  | readLock i =>
    rw [step] at taken
    split at taken
    · exact lock_inv inv taken
    · cases taken
  | read i =>
    rw [step] at taken
    split at taken
    · cases taken
      obtain ⟨heard, numbered⟩ := turn_inv inv safe
      exact inv.update heard numbered none s.subscribers
    · cases taken
  | packet i =>
    rw [step] at taken
    split at taken
    · cases taken
      have heard : Heard s (sendPacket (s.stream i)) :=
        ⟨(inv.heard i).continuous, (inv.heard i).generation, (inv.heard i).current⟩
      exact inv.update heard (inv.numbered i).sendPacket s.guard s.subscribers
    · cases taken

theorem initial_inv (frames : Nat → Frame) : Inv (initial frames) where
  kept := {
    rate := Nat.zero_le _
    holds := .empty _ _ _ _
    captured := ⟨[], [], fun _ => rfl, rfl⟩ }
  heard := fun _ => {
    continuous := ⟨0, 0, List.nil_infix⟩
    generation := le_rfl
    current := fun _ => ⟨List.nil_suffix, le_rfl⟩ }
  numbered := fun _ => ⟨.nil, Nat.two_pow_pos 32, nofun⟩

/-- Nothing is spliced silently while nothing is stored after a loss in the same epoch. -/
theorem no_silent_splice {frames : Nat → Frame} {schedule : List (Action Frame)}
    {last : State Frame}
    (taken : Machine.run (Machine.guarded allowed step) (initial frames) schedule = some last)
    (i : Nat) :
    Continuous last.captured (last.stream i).run ∧ Skips (last.stream i).packets := by
  have inv : Inv last := by
    refine Machine.run_invariant Inv ?_ (initial_inv frames) taken
    intro state action next inv taken
    obtain ⟨safe, taken⟩ := Machine.guarded_eq_some.mp taken
    exact step_inv inv safe taken
  exact ⟨(inv.heard i).continuous, (inv.numbered i).skips⟩

/-- One block is stored and read, and one after the rate has changed. -/
theorem no_silent_splice_retuned : ∃ last : State Nat,
    (last.stream 0).runs = 2 ∧ (last.stream 0).run = [4] ∧
    (last.stream 0).packets = [(0, 1), (2, 2)] ∧
    Continuous last.captured (last.stream 0).run ∧ Skips (last.stream 0).packets := by
  have ran : (Machine.run (Machine.guarded allowed step) (initial fun _ => 0)
      [.subscribe 0, .tapCall ⟨[1, 2, 3], .hsdaoh, 0⟩, .tapLock, .tapStore, .readLock 0, .read 0,
        .packet 0, .tapCall ⟨[4], .cxadc, 48000⟩, .tapLock, .tapStore, .readLock 0, .read 0,
        .packet 0]).map (fun s =>
      ((s.stream 0).runs, (s.stream 0).run, (s.stream 0).packets)) =
        some (2, [4], [(0, 1), (2, 2)]) := by
    decide +kernel
  obtain ⟨last, taken, same⟩ := Option.map_eq_some_iff.mp ran
  rw [Prod.mk.injEq, Prod.mk.injEq] at same
  have spliced := no_silent_splice taken 0
  exact ⟨last, same.1, same.2.1, same.2.2, spliced⟩

/-- The tap finds the guard held and drops a block; the next read reports nothing. -/
theorem dropped_block_spliced : ∃ last : State Nat,
    Machine.run step (initial fun _ => 0)
      [.subscribe 0, .tapCall ⟨[1], .hsdaoh, 0⟩, .tapLock, .tapStore, .readLock 0, .read 0,
        .readLock 0, .tapCall ⟨[2], .hsdaoh, 0⟩, .tapLock, .read 0,
        .tapCall ⟨[3], .hsdaoh, 0⟩, .tapLock, .tapStore, .readLock 0, .read 0] = some last ∧
    (last.stream 0).run = [1, 3] ∧ ¬ Continuous last.captured (last.stream 0).run := by
  have ran : (Machine.run step (initial fun _ => 0)
      [.subscribe 0, .tapCall ⟨[1], .hsdaoh, 0⟩, .tapLock, .tapStore, .readLock 0, .read 0,
        .readLock 0, .tapCall ⟨[2], .hsdaoh, 0⟩, .tapLock, .read 0,
        .tapCall ⟨[3], .hsdaoh, 0⟩, .tapLock, .tapStore, .readLock 0, .read 0]).map (fun s =>
      ((s.stream 0).run, s.captured.map Prod.fst)) = some ([1, 3], [1, 2, 3]) := by
    decide +kernel
  obtain ⟨last, taken, same⟩ := Option.map_eq_some_iff.mp ran
  rw [Prod.mk.injEq] at same
  refine ⟨last, taken, same.1, ?_⟩
  rintro ⟨rate, mode, inside⟩
  have frames : (last.stream 0).run <:+: last.captured.map Prod.fst := by
    have mapped := inside.map Prod.fst
    have untagged : (Prod.fst ∘ tag rate mode : Nat → Nat) = id := rfl
    rwa [List.map_map, untagged, List.map_id] at mapped
  rw [same.1, same.2] at frames
  revert frames
  decide

end MisrcGui.Audio.MonitorSplices
