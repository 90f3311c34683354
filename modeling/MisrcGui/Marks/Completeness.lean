import MisrcGui.Marks.Soundness

/-! Reads of blocks inside one unambiguous run. Positions and sizes are aligned, as the header
asks. -/
namespace MisrcGui.Marks
open Library
open Boundaries (IsMark Tiles frontier Sharp)

variable {origin : Nat} {system next : System}

def aligned (_ : System) : Action → Bool
  | .observe write => !write.invalid
  | .read position bytes => !refused position bytes
  | .produce | .publish | .consume => true

/-- The range lies inside one unambiguous run of constant rates and epochs. -/
def OneRun (observed : List Observation) (first last : Nat) : Prop :=
  ∃ rates epochs, ∀ observation ∈ observed, observation.piece.Meets first last →
    observation.write.ambiguousGap = false ∧ observation.write.rates = rates ∧
      observation.write.epochs = epochs

def Result.last (result : Result) : Nat := result.position + result.bytes

/-- The read before ended where this one starts, was accepted, and belongs to the same run. -/
def Continues (observed : List Observation) (previous : Option Result) (result : Result) : Prop :=
  ∃ before, previous = some before ∧ before.last = result.position ∧ before.safe = true ∧
    OneRun observed before.position result.last

/-- A read that no snapshot disturbs is complete from the last one on. -/
structure Result.Complete (observed : List Observation) (previous : Option Result)
    (result : Result) : Prop where
  accepted : result.safe = true
  first : result.info.1.discontinuity = false ↔ Continues observed previous result
  second : result.info.2.discontinuity = false ↔ Continues observed previous result

def Reported (observed : List Observation) : List Result → Prop
  | [] => True
  | result :: older =>
    (result.quiet = true → result.floor ≤ result.position →
      OneRun observed result.position result.last →
        result.Complete observed older.head?) ∧ Reported observed older

/-- With aligned writes a mark is unsafe only for an ambiguous write, and always a change. -/
structure Plain (origin : Nat) (system : System) : Prop where
  exact : ∀ observation ∈ system.observed,
    observation.content.isUnsafe = observation.write.ambiguousGap
  expected : system.marks.producerValid = true →
    system.marks.producerEnd = frontier origin system.pieces
  sharp : Sharp system.pieces

/-- The recovery floor is the position of the lost mark last recovered. -/
structure Floor (marks : StreamMarks) (lost : List Lost) : Prop where
  positive : ∀ entry ∈ lost, 0 < entry.sequence
  minimum : marks.seenRecoverySequence = 0 ∧ marks.minimumSafePosition = 0 ∨
    ∃ entry ∈ lost, entry.sequence = marks.seenRecoverySequence ∧
      entry.mark.position = marks.minimumSafePosition

def Quiet (marks : StreamMarks) (block : Block) : Prop :=
  block.opened % 2 = 0 ∧ marks.recoverySequence = block.opened

def Excused (pieces : List (Boundaries.Piece Content)) (marks : StreamMarks) (block : Block) :
    Prop :=
  block.position < marks.minimumSafePosition ∨
    ∃ mark, IsMark pieces mark ∧ block.position < mark.position ∧ mark.position < block.last

def Watch (pieces : List (Boundaries.Piece Content)) (marks : StreamMarks) : Consumer → Prop
  | .idle => True
  | .recovering block => block.opened ≤ marks.recoverySequence
  | .loading block sequence _ _ | .locating block sequence _ | .dropping block sequence _ _
  | .releasing block sequence _ _ =>
    block.opened ≤ sequence ∧ sequence ≤ marks.recoverySequence
  | .confirming block sequence =>
    block.opened ≤ sequence ∧ sequence ≤ marks.recoverySequence ∧
      marks.seenRecoverySequence = sequence
  | .preparing block recovered =>
    block.opened ≤ marks.recoverySequence ∧
      (Quiet marks block →
        recovered = true ∧ marks.seenRecoverySequence = marks.recoverySequence)
  | .taking block safe _ | .advancing block safe _ | .finishing block safe =>
    block.opened ≤ marks.recoverySequence ∧
      (Quiet marks block → marks.seenRecoverySequence = marks.recoverySequence ∧
        (safe = true ∨ Excused pieces marks block))

/-- The gap flag since the last result: clear exactly while the consumer still holds its mark. -/
structure Gap (marks : StreamMarks) (moved : Prop) (results : List Result) : Prop where
  none : results = [] → marks.gapPending = true
  rejected : ∀ result older, results = result :: older → result.safe = false →
    marks.gapPending = true
  accepted : ∀ result older, results = result :: older → result.safe = true →
    marks.consumerValid = true ∧
      (marks.gapPending = false ∧ marks.consumer = result.mark ∧ ¬moved ∨
        marks.gapPending = true ∧
          (result.mark.position < marks.consumer.position ∨ moved))
  consumed : marks.consumedAny = !results.isEmpty
  consumedEnd : ∀ result older, results = result :: older → marks.consumedEnd = result.last

/-- Whether the block under read, once looked at, starts elsewhere than the last one ended. -/
def Moved (marks : StreamMarks) : Consumer → Prop
  | .taking block _ _ | .advancing block _ _ | .finishing block _ =>
    marks.consumedEnd ≠ block.position
  | _ => False

structure Result.Governed (pieces : List (Boundaries.Piece Content)) (result : Result) :
    Prop where
  positive : 0 < result.bytes
  marked : IsMark pieces result.mark
  before : result.mark.position ≤ result.position
  latest : ∀ mark, IsMark pieces mark → mark.position < result.last →
    mark.position ≤ result.mark.position

structure Complete (origin : Nat) (system : System) : Prop where
  reading : Reading origin system
  plain : Plain origin system
  floor : Floor system.marks system.lost
  watch : Watch system.pieces system.marks system.consumer
  gap : Gap system.marks (Moved system.marks system.consumer) system.results
  governed : ∀ result ∈ system.results, result.safe = true → result.Governed system.pieces
  reported : Reported system.observed system.results
  lossless : system.lost = [] → ∀ result ∈ system.results, result.quiet = true ∧ result.floor = 0

theorem oneRun_observe {write : Write} {first last : Nat} (behind : last ≤ write.position) :
    OneRun (Marks.observe system write).observed first last ↔
      OneRun system.observed first last := by
  have same : ∀ observation, observation ∈ (Marks.observe system write).observed ∧
      observation.piece.Meets first last ↔
        observation ∈ system.observed ∧ observation.piece.Meets first last := by
    intro observation
    constructor
    · intro ⟨member, meets⟩
      cases List.mem_cons.mp member with
      | inl newest =>
        rw [newest] at meets
        exact absurd meets.1 (Nat.not_lt.mpr behind)
      | inr older => exact ⟨older, meets⟩
    · intro ⟨member, meets⟩
      exact ⟨List.mem_cons_of_mem _ member, meets⟩
  unfold OneRun
  constructor
  · intro ⟨rates, epochs, facts⟩
    refine ⟨rates, epochs, fun observation member meets => ?_⟩
    exact facts observation ((same observation).mpr ⟨member, meets⟩).1 meets
  · intro ⟨rates, epochs, facts⟩
    refine ⟨rates, epochs, fun observation member meets => ?_⟩
    exact facts observation ((same observation).mp ⟨member, meets⟩).1 meets

variable {results : List Result} {marks : StreamMarks}

theorem reported_observe {write : Write}
    (behind : ∀ result ∈ results, result.last ≤ write.position)
    (reported : Reported system.observed results) :
    Reported (Marks.observe system write).observed results := by
  induction results with
  | nil => trivial
  | cons result older ih =>
    obtain ⟨here, rest⟩ := reported
    have last := behind result List.mem_cons_self
    refine ⟨?_, ih (fun other member => behind other (List.mem_cons_of_mem _ member)) rest⟩
    intro quiet floor run
    have complete := here quiet floor ((oneRun_observe last).mp run)
    have same : Continues (Marks.observe system write).observed older.head? result ↔
        Continues system.observed older.head? result := by
      simp only [Continues, oneRun_observe last]
    exact ⟨complete.accepted, complete.first.trans same.symm, complete.second.trans same.symm⟩

theorem observe_plain (plain : Plain origin system)
    (producer : ProducerSound origin system.marks system.producer system.publishedEnd
      system.observed) {write : Write} (valid : write.invalid = false)
    (contiguous : write.position = frontier origin system.pieces) :
    Plain origin (Marks.observe system write) := by
  have expected : system.marks.unexpectedPosition write = false := by
    by_cases started : system.marks.producerValid = true
    · simp [StreamMarks.unexpectedPosition, started, contiguous, plain.expected started]
    · simp [StreamMarks.unexpectedPosition, started]
  constructor
  · intro observation member
    cases List.mem_cons.mp member with
    | inl newest =>
      rw [newest]
      simp [StreamMarks.content, valid, expected]
    | inr older => exact plain.exact observation older
  · intro _
    simp [Marks.observe, StreamMarks.note, valid, System.pieces, Observation.piece,
      Boundaries.frontier]
  · refine ⟨?_, plain.sharp⟩
    intro marked same
    have changed : system.marks.changed write = true := marked
    cases shape : system.observed with
    | nil => simp [shape] at same
    | cons newest older =>
      have started : system.marks.producerValid = true := by simp [producer.valid, shape]
      have label := producer.newest newest older shape
      rw [shape] at same
      have equal : newest.content = system.marks.content write := Option.some.inj same
      have differs : rfMarkChanged system.marks.producer.label (system.marks.content write) =
          true := by
        simpa [StreamMarks.changed, started, expected] using changed
      rw [label, equal, rfMarkChanged_eq_false.mpr rfl] at differs
      contradiction

structure Frame (before after : System) : Prop where
  consumer : after.consumer = before.consumer
  held : after.marks.consumer = before.marks.consumer
  valid : after.marks.consumerValid = before.marks.consumerValid
  consumedAny : after.marks.consumedAny = before.marks.consumedAny
  consumedEnd : after.marks.consumedEnd = before.marks.consumedEnd
  gapPending : after.marks.gapPending = before.marks.gapPending
  minimum : after.marks.minimumSafePosition = before.marks.minimumSafePosition
  seen : after.marks.seenRecoverySequence = before.marks.seenRecoverySequence
  producerEnd : after.marks.producerEnd = before.marks.producerEnd
  producerValid : after.marks.producerValid = before.marks.producerValid
  observed : after.observed = before.observed
  results : after.results = before.results
  sequence : before.marks.recoverySequence ≤ after.marks.recoverySequence
  lost : after.lost = before.lost ∨
    ∃ mark, after.lost = ⟨before.marks.recoverySequence + 2, mark⟩ :: before.lost

theorem produce_frame (h : produce system = some next) : Frame system next := by
  simp only [produce] at h
  split at h
  all_goals
    first
    | contradiction
    | cases h
      constructor <;>
        first | rfl | exact Or.inl rfl | exact Or.inr ⟨_, rfl⟩ | exact Nat.le_succ _ | exact Nat.le_refl _
    | split at h <;> cases h <;> constructor <;>
        first | rfl | exact Or.inl rfl | exact Nat.le_refl _

theorem Frame.pieces (frame : Frame system next) : next.pieces = system.pieces := by
  rw [System.pieces, frame.observed]
  rfl

theorem frame_floor (frame : Frame system next) (floor : Floor system.marks system.lost) :
    Floor next.marks next.lost := by
  cases frame.lost with
  | inl same =>
    rw [same]
    constructor
    · exact floor.positive
    · rw [frame.seen, frame.minimum]
      exact floor.minimum
  | inr more =>
    obtain ⟨mark, shape⟩ := more
    rw [shape]
    constructor
    · intro entry member
      cases List.mem_cons.mp member with
      | inl newest =>
        rw [newest]
        exact Nat.succ_pos _
      | inr older => exact floor.positive entry older
    · rw [frame.seen, frame.minimum]
      cases floor.minimum with
      | inl start => exact Or.inl start
      | inr recovered =>
        obtain ⟨entry, member, facts⟩ := recovered
        exact Or.inr ⟨entry, List.mem_cons_of_mem _ member, facts⟩

theorem Frame.quiet (frame : Frame system next) {block : Block}
    (opened : block.opened ≤ system.marks.recoverySequence) (quiet : Quiet next.marks block) :
    Quiet system.marks block ∧ next.marks.recoverySequence = system.marks.recoverySequence := by
  obtain ⟨even, same⟩ := quiet
  have grown := frame.sequence
  exact ⟨⟨even, by omega⟩, by omega⟩

theorem frame_watch (frame : Frame system next)
    (watch : Watch system.pieces system.marks system.consumer) :
    Watch next.pieces next.marks next.consumer := by
  have grown := frame.sequence
  rw [frame.consumer, frame.pieces]
  cases standing : system.consumer <;> rw [standing] at watch
  case idle => trivial
  case recovering block => exact Nat.le_trans watch grown
  case loading block sequence mark remaining => exact ⟨watch.1, Nat.le_trans watch.2 grown⟩
  case locating block sequence mark => exact ⟨watch.1, Nat.le_trans watch.2 grown⟩
  case dropping block sequence mark write => exact ⟨watch.1, Nat.le_trans watch.2 grown⟩
  case releasing block sequence mark write => exact ⟨watch.1, Nat.le_trans watch.2 grown⟩
  case confirming block sequence =>
    exact ⟨watch.1, Nat.le_trans watch.2.1 grown, frame.seen.trans watch.2.2⟩
  case preparing block recovered =>
    refine ⟨Nat.le_trans watch.1 grown, fun quiet => ?_⟩
    obtain ⟨still, same⟩ := frame.quiet watch.1 quiet
    rw [frame.seen, same]
    exact watch.2 still
  all_goals
    refine ⟨Nat.le_trans watch.1 grown, fun quiet => ?_⟩
    obtain ⟨still, same⟩ := frame.quiet watch.1 quiet
    rw [frame.seen, same, Excused, frame.minimum]
    exact watch.2 still

theorem frame_gap (frame : Frame system next)
    (gap : Gap system.marks (Moved system.marks system.consumer) system.results) :
    Gap next.marks (Moved next.marks next.consumer) next.results := by
  have moved : Moved next.marks next.consumer ↔ Moved system.marks system.consumer := by
    rw [frame.consumer]
    cases system.consumer <;> simp [Moved, frame.consumedEnd]
  rw [frame.results]
  constructor
  · rw [frame.gapPending]
    exact gap.none
  · rw [frame.gapPending]
    exact gap.rejected
  · rw [frame.gapPending, frame.valid, frame.held, moved]
    exact gap.accepted
  · rw [frame.consumedAny]
    exact gap.consumed
  · rw [frame.consumedEnd]
    exact gap.consumedEnd

theorem Watch.grow {pieces more : List (Boundaries.Piece Content)} {consumer : Consumer}
    (kept : ∀ mark, IsMark pieces mark → IsMark more mark) (watch : Watch pieces marks consumer) :
    Watch more marks consumer := by
  have excused : ∀ {block : Block}, Excused pieces marks block → Excused more marks block := by
    intro block reason
    cases reason with
    | inl below => exact Or.inl below
    | inr crossed =>
      obtain ⟨mark, marked, facts⟩ := crossed
      exact Or.inr ⟨mark, kept mark marked, facts⟩
  cases consumer
  case taking | advancing | finishing =>
    exact ⟨watch.1, fun quiet => ⟨(watch.2 quiet).1, (watch.2 quiet).2.imp_right excused⟩⟩
  all_goals exact watch

theorem consume_producer (h : consume system = some next) :
    next.marks.producerValid = system.marks.producerValid ∧
      next.marks.producerEnd = system.marks.producerEnd := by
  simp only [consume] at h
  split at h
  all_goals
    first
    | contradiction
    | cases h
      exact ⟨rfl, rfl⟩
    | split at h <;> cases h <;> exact ⟨rfl, rfl⟩

theorem consume_floor (sound : Sound origin system) (floor : Floor system.marks system.lost)
    (h : consume system = some next) : Floor next.marks next.lost := by
  have phase := sound.phase
  cases standing : system.consumer <;> rw [standing] at phase <;>
    simp only [consume, standing] at h
  case dropping block sequence mark write =>
    split at h <;> cases h
    · exact floor
    · refine ⟨floor.positive, Or.inr ⟨_, phase.2.2.1.lost, rfl, rfl⟩⟩
  case idle => contradiction
  case taking block safe write =>
    split at h <;> cases h <;> exact ⟨floor.positive, floor.minimum⟩
  case loading block sequence mark remaining =>
    cases remaining <;> cases h <;> exact ⟨floor.positive, floor.minimum⟩
  all_goals
    cases h
    exact ⟨floor.positive, floor.minimum⟩

theorem consume_watch (sound : Sound origin system)
    (watch : Watch system.pieces system.marks system.consumer)
    (h : consume system = some next) : Watch next.pieces next.marks next.consumer := by
  have phase := sound.phase
  have seen := sound.held.seen
  cases standing : system.consumer <;> rw [standing] at phase watch <;>
    simp only [consume, standing] at h
  case idle => contradiction
  case recovering block =>
    cases h
    dsimp only
    split
    · next same => exact ⟨watch, fun _ => ⟨rfl, same.symm⟩⟩
    · split
      · next odd =>
        refine ⟨watch, fun quiet => ?_⟩
        obtain ⟨even, same⟩ := quiet
        omega
      · exact ⟨watch, Nat.le_refl _⟩
  case loading block sequence mark remaining =>
    cases remaining with
    | cons field remaining =>
      cases h
      exact watch
    | nil =>
      cases h
      dsimp only
      split
      · exact watch
      · next differ =>
        obtain ⟨opened, reached⟩ := watch
        refine ⟨Nat.le_trans opened reached, fun quiet => ?_⟩
        have same := quiet.2
        omega
  case locating block sequence mark =>
    cases h
    exact watch
  case dropping block sequence mark write =>
    split at h <;> cases h
    · exact watch
    · exact ⟨watch.1, watch.2, rfl⟩
  case releasing block sequence mark write =>
    cases h
    exact watch
  case confirming block sequence =>
    cases h
    obtain ⟨opened, reached, recovered⟩ := watch
    refine ⟨Nat.le_trans opened reached, fun quiet => ?_⟩
    have same : system.marks.recoverySequence = block.opened := quiet.2
    have equal : sequence = system.marks.recoverySequence := by omega
    exact ⟨by simp [equal], recovered.trans equal⟩
  case preparing block recovered =>
    cases h
    refine ⟨watch.1, fun quiet => ?_⟩
    obtain ⟨ready, current⟩ := watch.2 quiet
    refine ⟨current, ?_⟩
    have forward := phase.1.forward
    by_cases below : block.position < system.marks.minimumSafePosition
    · exact Or.inr (Or.inl below)
    · apply Or.inl
      simp [ready, Nat.not_lt.mp below, forward]
  case taking block safe write =>
    split at h
    · cases h
      exact watch
    · next takes =>
      cases h
      refine ⟨watch.1, fun quiet => ?_⟩
      obtain ⟨current, reason⟩ := watch.2 quiet
      refine ⟨current, ?_⟩
      cases reason with
      | inr excused => exact Or.inr excused
      | inl clear =>
        by_cases crosses : (system.marks.slot system.marks.readIndex).position > block.position
        · have loaded := phase.2.2.loaded
          refine Or.inr (Or.inr ⟨_, sound.queue.isMark _ (Nat.le_refl _) (by omega), crosses, ?_⟩)
          omega
        · apply Or.inl
          simp [clear, Nat.not_lt.mp crosses]
  case advancing block safe write =>
    cases h
    exact watch
  case finishing block safe =>
    cases h
    trivial

theorem consume_lost (h : consume system = some next) : next.lost = system.lost := by
  simp only [consume] at h
  split at h
  all_goals
    first
    | contradiction
    | cases h
      rfl
    | split at h <;> cases h <;> rfl

theorem Gap.raise {moved : Prop} (gap : Gap marks moved results) (mark : Mark)
    (later : marks.consumerValid = true → marks.consumer.position < mark.position) :
    Gap { marks with consumer := mark, consumerValid := true, gapPending := true } moved
      results := by
  refine ⟨fun _ => rfl, fun _ _ _ _ => rfl, ?_, gap.consumed, gap.consumedEnd⟩
  intro result older shape safe
  obtain ⟨valid, facts⟩ := gap.accepted result older shape safe
  have ahead := later valid
  refine ⟨rfl, Or.inr ⟨rfl, ?_⟩⟩
  rcases facts with ⟨_, same, _⟩ | ⟨_, passed | elsewhere⟩
  · exact Or.inl (same ▸ ahead)
  · exact Or.inl (Nat.lt_trans passed ahead)
  · exact Or.inr elsewhere

theorem Gap.look (position : Nat) (gap : Gap marks False results) :
    Gap { marks with
      gapPending := marks.gapPending || marks.consumedAny && marks.consumedEnd != position }
      (marks.consumedEnd ≠ position) results := by
  constructor
  · intro empty
    simp [gap.none empty]
  · intro result older shape rejected
    simp [gap.rejected result older shape rejected]
  · intro result older shape safe
    obtain ⟨valid, facts⟩ := gap.accepted result older shape safe
    have any : marks.consumedAny = true := by simp [gap.consumed, shape]
    refine ⟨valid, ?_⟩
    by_cases moved : marks.consumedEnd = position
    · simpa [moved] using facts
    · exact Or.inr ⟨by simp [any, moved], Or.inr moved⟩
  · exact gap.consumed
  · exact gap.consumedEnd

theorem finish_gap (system : System) (block : Block) (safe : Bool) :
    Gap (finish system block safe).marks False (finish system block safe).results := by
  constructor
  · nofun
  · intro result older shape rejected
    obtain ⟨rfl, _⟩ := List.cons.inj shape
    simp only [finish] at rejected ⊢
    rw [rejected]
    rfl
  · intro result older shape accepted
    obtain ⟨rfl, _⟩ := List.cons.inj shape
    have parts := accepted
    simp only [Bool.and_eq_true] at parts
    refine ⟨parts.1.1.2, Or.inl ⟨?_, rfl, not_false⟩⟩
    simp only [finish] at accepted ⊢
    rw [accepted]
    rfl
  · rfl
  · intro result older shape
    obtain ⟨rfl, _⟩ := List.cons.inj shape
    rfl

theorem consume_gap (sound : Sound origin system)
    (gap : Gap system.marks (Moved system.marks system.consumer) system.results)
    (h : consume system = some next) :
    Gap next.marks (Moved next.marks next.consumer) next.results := by
  have phase := sound.phase
  cases standing : system.consumer <;> rw [standing] at phase gap <;>
    simp only [consume, standing] at h
  case idle => contradiction
  case recovering block =>
    cases h
    dsimp only
    split
    · exact gap
    · split <;> exact gap
  case loading block sequence mark remaining =>
    cases remaining with
    | cons field remaining =>
      cases h
      exact gap
    | nil =>
      cases h
      dsimp only
      split <;> exact gap
  case dropping block sequence mark write =>
    split at h <;> cases h
    · exact gap
    · have raised := gap.raise mark phase.2.2.1.later
      exact { raised with }
  case preparing block recovered =>
    cases h
    exact gap.look block.position
  case taking block safe write =>
    split at h
    · cases h
      exact gap
    · next takes =>
      cases h
      have loaded := phase.2.2.loaded
      apply gap.raise
      intro valid
      have held := sound.held
      rw [standing] at held
      exact held.behind valid _ (Nat.le_refl _) (by omega)
  case finishing block safe =>
    cases h
    exact finish_gap system block safe
  all_goals
    cases h
    exact { gap with }

theorem plain_content (plain : Plain origin system)
    (producer : ProducerSound origin system.marks system.producer system.publishedEnd
      system.observed) {observation : Observation} (member : observation ∈ system.observed)
    {rates epochs : Nat × Nat} (facts : observation.write.ambiguousGap = false ∧
      observation.write.rates = rates ∧ observation.write.epochs = epochs) :
    observation.content = ⟨rates, epochs, false⟩ := by
  obtain ⟨gap, rate, epoch⟩ := facts
  obtain ⟨_, flagRate, flagEpoch⟩ := producer.flagged observation member
  have clean := plain.exact observation member
  rw [← rate, ← epoch, ← flagRate, ← flagEpoch, ← gap, ← clean]

theorem no_mark_inside (plain : Plain origin system)
    (producer : ProducerSound origin system.marks system.producer system.publishedEnd
      system.observed) {first last : Nat} (run : OneRun system.observed first last)
    (start : origin ≤ first) {mark : Mark} (marked : IsMark system.pieces mark)
    (after : first < mark.position) (inside : mark.position < last) : False := by
  obtain ⟨left, hleft, right, hright, meetsLeft, meetsRight, differ⟩ :=
    Boundaries.mark_splits producer.tiles plain.sharp marked start after inside
  obtain ⟨source, hsource, rfl⟩ := List.mem_map.mp hleft
  obtain ⟨other, hother, rfl⟩ := List.mem_map.mp hright
  obtain ⟨rates, epochs, facts⟩ := run
  apply differ
  have content := plain_content plain producer hsource (facts source hsource meetsLeft)
  have same := plain_content plain producer hother (facts other hother meetsRight)
  exact content.trans same.symm

theorem Floor.eq_of_seen {pieces : List (Boundaries.Piece Content)} {producer : Producer}
    {publishedEnd : Nat} {lost : List Lost} (floor : Floor marks lost)
    (sound : LostSound pieces marks producer publishedEnd lost)
    (even : marks.recoverySequence % 2 = 0)
    (seen : marks.seenRecoverySequence = marks.recoverySequence) :
    (lost.head?.map fun lost => lost.mark.position).getD 0 = marks.minimumSafePosition := by
  cases shape : lost with
  | nil =>
    cases floor.minimum with
    | inl start => exact start.2.symm
    | inr recovered =>
      obtain ⟨entry, member, _⟩ := recovered
      simp [shape] at member
  | cons newest older =>
    have member : newest ∈ lost := by rw [shape]; exact List.mem_cons_self
    have equal := (sound.newest_sequence shape).2.1 even
    have positive := floor.positive newest member
    cases floor.minimum with
    | inl start => omega
    | inr recovered =>
      obtain ⟨entry, hentry, sequence, position⟩ := recovered
      rcases sound.compare hentry member with same | before | after
      · rw [← position, same]
        rfl
      · omega
      · omega

theorem finish_accepts (complete : Complete origin system) {block : Block} {safe : Bool}
    (standing : system.consumer = .finishing block safe) (quiet : Quiet system.marks block)
    (floor : (system.lost.head?.map fun lost => lost.mark.position).getD 0 ≤ block.position)
    (run : OneRun system.observed block.position block.last) :
    (safe && system.marks.consumerValid && !system.marks.consumer.label.isUnsafe &&
      system.marks.seenRecoverySequence == system.marks.recoverySequence) = true := by
  have sound := complete.reading.sound
  have producer := sound.producer
  have phase := sound.phase
  have watch := complete.watch
  rw [standing] at phase watch
  obtain ⟨seen, reason⟩ := watch.2 quiet
  have inside := phase.1
  have even : system.marks.recoverySequence % 2 = 0 := quiet.2 ▸ quiet.1
  rw [complete.floor.eq_of_seen sound.lost even seen] at floor
  have clear : safe = true := by
    rcases reason with clear | below | ⟨mark, marked, after, before⟩
    · exact clear
    · omega
    · exact (no_mark_inside complete.plain producer run inside.first marked after before).elim
  -- the write at the first byte of the block has a mark at or before it
  have positive := inside.positive
  have last : block.last = block.position + block.bytes := rfl
  have published := Nat.le_trans inside.published producer.published_le
  obtain ⟨piece, member, low, high⟩ :=
    Boundaries.tiles_cover producer.tiles inside.first (by omega)
  obtain ⟨observation, source, rfl⟩ := List.mem_map.mp member
  have meets : observation.piece.Meets block.position block.last := ⟨by omega, high⟩
  obtain ⟨mark, marked, below, _⟩ := Boundaries.label_governed producer.tiles member
  have valid := (sound.latest standing seen marked (by omega)).1
  have before := (phase.2.1.clear clear).2 valid
  have label := sound.label_held standing seen valid before source meets
  obtain ⟨rates, epochs, facts⟩ := run
  have content := plain_content complete.plain producer source (facts observation source meets)
  have clean : system.marks.consumer.label.isUnsafe = false := by rw [← label, content]
  simp [clear, valid, clean, seen]

/-- With the read accepted, the gap flag is clear exactly when it continues the last one. -/
theorem finish_continues (complete : Complete origin system) {block : Block} {safe : Bool}
    (standing : system.consumer = .finishing block safe)
    (valid : system.marks.consumerValid = true)
    (clean : system.marks.consumer.label.isUnsafe = false)
    (seen : system.marks.seenRecoverySequence = system.marks.recoverySequence)
    (before : system.marks.consumer.position ≤ block.position) :
    system.marks.gapPending = false ↔
      ∃ previous, system.results.head? = some previous ∧ previous.last = block.position ∧
        previous.safe = true ∧ OneRun system.observed previous.position block.last := by
  have sound := complete.reading.sound
  have producer := sound.producer
  have gap := complete.gap
  rw [standing, Moved] at gap
  constructor
  · intro clear
    have some : system.results ≠ [] := fun none => by simp [gap.none none] at clear
    obtain ⟨previous, older, shape⟩ := List.exists_cons_of_ne_nil some
    have safe : previous.safe = true := by
      by_contra rejected
      have raised := gap.rejected previous older shape (by simpa using rejected)
      simp [raised] at clear
    obtain ⟨_, facts⟩ := gap.accepted previous older shape safe
    rcases facts with ⟨_, same, still⟩ | ⟨raised, _⟩
    · have governed := complete.governed previous (by simp [shape]) safe
      have adjacent := (gap.consumedEnd previous older shape).symm.trans (not_not.mp still)
      refine ⟨previous, by simp [shape], adjacent, safe, system.marks.consumer.label.rates,
        system.marks.consumer.label.epochs, ?_⟩
      intro observation member meets
      have label := sound.label_held standing seen valid (same ▸ governed.before) member meets
      exact producer.read_off member label clean
    · simp [raised] at clear
  · intro ⟨previous, head, adjacent, safe, run⟩
    obtain ⟨older, shape⟩ : ∃ older, system.results = previous :: older := by
      cases results : system.results with
      | nil => simp [results] at head
      | cons newest older =>
        rw [results] at head
        exact ⟨older, by rw [Option.some.inj head]⟩
    obtain ⟨_, facts⟩ := gap.accepted previous older shape safe
    rcases facts with ⟨clear, _⟩ | ⟨_, passed | moved⟩
    · exact clear
    · -- a mark taken over since then lies behind the last block's first byte
      have governed := complete.governed previous (by simp [shape]) safe
      have marked := sound.held.isMark valid
      have phase := sound.phase
      rw [standing] at phase
      have positive := phase.1.positive
      have last : block.last = block.position + block.bytes := rfl
      have length : previous.last = previous.position + previous.bytes := rfl
      have beyond : previous.last ≤ system.marks.consumer.position := by
        by_contra inside
        have latest := governed.latest _ marked (by omega)
        omega
      have start := (Boundaries.mark_bounds producer.tiles governed.marked).1
      have positiveBefore := governed.positive
      have first := governed.before
      exact (no_mark_inside complete.plain producer run (by omega) marked (by omega)
        (by omega)).elim
    · exact absurd ((gap.consumedEnd previous older shape).trans adjacent) moved

theorem finish_complete (complete : Complete origin system) {block : Block} {safe : Bool}
    (standing : system.consumer = .finishing block safe)
    (reading : Reading origin (finish system block safe)) :
    Complete origin (finish system block safe) := by
  have sound := complete.reading.sound
  have phase := sound.phase
  rw [standing] at phase
  obtain ⟨inside, taking, _⟩ := phase
  refine ⟨reading, { complete.plain with }, { complete.floor with }, trivial,
    finish_gap system block safe, ?_, ⟨?_, complete.reported⟩, ?_⟩
  · intro result member accepted
    cases List.mem_cons.mp member with
    | inr older => exact complete.governed result older accepted
    | inl newest =>
      subst newest
      simp only [Bool.and_eq_true, beq_iff_eq] at accepted
      obtain ⟨⟨⟨clear, valid⟩, _⟩, seen⟩ := accepted
      exact ⟨inside.positive, sound.held.isMark valid, (taking.clear clear).2 valid,
        fun mark marked before => (sound.latest standing seen marked before).2⟩
  · intro quiet floor run
    simp only [Bool.and_eq_true, beq_iff_eq] at quiet
    have accepted := finish_accepts complete standing ⟨quiet.1, quiet.2.symm⟩ floor run
    have parts := accepted
    simp only [Bool.and_eq_true, Bool.not_eq_true', beq_iff_eq] at parts
    obtain ⟨⟨⟨clear, valid⟩, clean⟩, seen⟩ := parts
    have continues := finish_continues complete standing valid clean seen
      ((taking.clear clear).2 valid)
    refine ⟨accepted, ?_, ?_⟩
    · simp only [accepted, Bool.not_true, Bool.or_false]
      exact continues
    · simp only [accepted, Bool.not_true, Bool.or_false]
      exact continues
  · intro none result member
    cases List.mem_cons.mp member with
    | inr older => exact complete.lossless none result older
    | inl newest =>
      have watch := complete.watch
      rw [standing] at watch
      have zero := sound.lost.sequence_of_none none
      have opened := watch.1
      have lost : system.lost = [] := none
      have same : block.opened = 0 := by omega
      subst newest
      simp [zero, same, lost]

theorem step_complete (complete : Complete origin system) {action : Action}
    (h : Machine.guarded aligned (step origin) system action = some next) :
    Complete origin next := by
  obtain ⟨allowed, taken⟩ := Machine.guarded_eq_some.mp h
  have reading := step_reading complete.reading taken
  have sound := complete.reading.sound
  have producer := sound.producer
  cases action with
  | observe write =>
    simp only [step] at taken
    split at taken
    · next idle =>
      split at taken
      · next contiguous =>
        cases taken
        have settled := producer.settled (by rw [idle]; rfl)
        have behind : ∀ result ∈ system.results, result.last ≤ write.position := by
          intro result member
          rw [contiguous.2]
          exact Nat.le_trans (complete.reading.published result member) (Nat.le_of_eq settled)
        refine ⟨reading, ?_, { complete.floor with }, ?_, { complete.gap with }, ?_, ?_,
          complete.lossless⟩
        · exact observe_plain complete.plain producer (by simpa [aligned] using allowed)
            contiguous.2
        · have watch := complete.watch.grow fun mark marked =>
            marked.cons (Observation.piece ⟨write, system.marks.content write,
              system.marks.changed write⟩)
          cases standing : system.consumer <;> rw [standing] at watch <;>
            simp only [Marks.observe, standing] <;> exact watch
        · intro result member accepted
          have governed := complete.governed result member accepted
          refine ⟨governed.positive, governed.marked.cons _, governed.before, ?_⟩
          intro mark marked before
          cases Boundaries.isMark_cons.mp marked with
          | inl newest =>
            have late := behind result member
            rw [← newest.2] at before
            exact absurd before (Nat.not_lt.mpr late)
          | inr older => exact governed.latest mark older before
        · exact reported_observe behind complete.reported
      · contradiction
    · contradiction
  | produce =>
    have frame := produce_frame taken
    have pieces := frame.pieces
    refine ⟨reading, ?_, frame_floor frame complete.floor, frame_watch frame complete.watch,
      frame_gap frame complete.gap, ?_, ?_, ?_⟩
    · constructor
      · rw [frame.observed]
        exact complete.plain.exact
      · rw [frame.producerValid, frame.producerEnd, pieces]
        exact complete.plain.expected
      · rw [pieces]
        exact complete.plain.sharp
    · rw [frame.results, pieces]
      exact complete.governed
    · rw [frame.results, frame.observed]
      exact complete.reported
    · rw [frame.results]
      intro none
      apply complete.lossless
      cases frame.lost with
      | inl same => exact same.symm.trans none
      | inr more =>
        obtain ⟨mark, shape⟩ := more
        exact absurd (shape.symm.trans none) (by simp)
  | publish =>
    simp only [step] at taken
    split at taken
    · cases taken
      exact ⟨reading, { complete.plain with }, complete.floor, complete.watch, complete.gap,
        complete.governed, complete.reported, complete.lossless⟩
    · contradiction
  | read position bytes =>
    simp only [step] at taken
    split at taken
    · next idle =>
      split at taken
      · have gap := complete.gap
        rw [idle] at gap
        split at taken <;> cases taken
        · exact complete
        · exact ⟨reading, { complete.plain with }, complete.floor, Nat.le_refl _, gap,
            complete.governed, complete.reported, complete.lossless⟩
      · contradiction
    · contradiction
  | consume =>
    obtain ⟨results, observed, _⟩ := consume_results taken
    cases results with
    | inl same =>
      have pieces : next.pieces = system.pieces := by rw [System.pieces, observed]; rfl
      refine ⟨reading, ?_, consume_floor sound complete.floor taken,
        consume_watch sound complete.watch taken, consume_gap sound complete.gap taken, ?_, ?_,
        ?_⟩
      · obtain ⟨valid, last⟩ := consume_producer taken
        constructor
        · rw [observed]
          exact complete.plain.exact
        · rw [valid, last, pieces]
          exact complete.plain.expected
        · rw [pieces]
          exact complete.plain.sharp
      · rw [same, pieces]
        exact complete.governed
      · rw [same, observed]
        exact complete.reported
      · rw [same, consume_lost taken]
        exact complete.lossless
    | inr finished =>
      obtain ⟨block, safe, standing, rfl⟩ := finished
      exact finish_complete complete standing reading

theorem initial_complete : Complete origin (initial origin) := by
  refine ⟨⟨initial_sound, nofun, nofun⟩, ⟨nofun, nofun, trivial⟩, ⟨nofun, Or.inl ⟨rfl, rfl⟩⟩,
    trivial, ?_, nofun, trivial, nofun⟩
  exact ⟨fun _ => rfl, nofun, nofun, rfl, nofun⟩

/-- Every read of every run is complete; without an overflow every read is quiet, with nothing
lost before it. -/
theorem marks_complete {schedule : List Action} {last : System}
    (h : Machine.run (Machine.guarded aligned (step origin)) (initial origin) schedule =
      some last) :
    Reported last.observed last.results ∧
      (last.lost = [] → ∀ result ∈ last.results, result.quiet = true ∧ result.floor = 0) := by
  have complete := Machine.run_invariant (Complete origin)
    (fun _ _ _ before taken => step_complete before taken) initial_complete h
  exact ⟨complete.reported, complete.lossless⟩

theorem marks_complete_first_read :
    ∃ last, Machine.run (Machine.guarded aligned (step 0)) (initial 0) firstRead = some last ∧
      Reported last.observed last.results := by
  have runs : (Machine.run (Machine.guarded aligned (step 0)) (initial 0) firstRead).isSome := by
    decide +kernel
  obtain ⟨last, h⟩ := Option.isSome_iff_exists.mp runs
  exact ⟨last, h, (marks_complete h).1⟩

end MisrcGui.Marks
