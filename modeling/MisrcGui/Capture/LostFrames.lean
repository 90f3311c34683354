import MisrcGui.Capture.Outcome

/-! A lost RF frame leaves a mark before the next one is committed. -/
namespace MisrcGui.Capture
open Library

variable {tolerance : Tolerance} {app after : App} {delivery : Delivery}

/-- The frame is the next one behind the older, but for frames that carry no RF. -/
def Commit.Follows (newer older : Commit) : Prop :=
  newer.counter = older.counter + UInt16.ofNat newer.passed + 1

def App.Traced (app : App) : Prop :=
  app.committedErrors < app.parserErrorCount ∨ app.committedDrops < app.writeDrops ∨
    app.seenEpoch < app.rfStreamEpoch

/-- The parser's counter is that of the last commit and of the passed frames behind it. -/
def App.InPlace (app : App) (newest : Commit) : Prop :=
  app.parser.streamSynced = true ∧
    app.parser.lastFrameCnt = newest.counter + UInt16.ofNat app.passed

/-- Since the last commit either a counter has moved or every RF frame is accounted for. -/
structure Ledger (app : App) : Prop where
  seenParser : app.seenParser = app.committedErrors % 2 ^ 32
  seenDrops : app.seenDrops = app.committedDrops % 2 ^ 32
  behind : app.committedErrors ≤ app.parserErrorCount ∧ app.committedDrops ≤ app.writeDrops ∧
    app.seenEpoch ≤ app.rfStreamEpoch
  place : ∀ newest older, app.commits = newest :: older → app.Traced ∨ app.InPlace newest
  accounted : ∀ newer older, [newer, older] <:+: app.commits →
    newer.changed = true ∨ newer.Follows older
  flagged : ∀ commit ∈ app.commits, commit.changed = true → commit.write.ambiguousGap = true

theorem Kept.traced (kept : Kept app after) (traced : app.Traced) : after.Traced := by
  have errors := kept.errors
  have drops := kept.drops
  have epoch := kept.epoch
  unfold App.Traced at traced ⊢
  rw [kept.committed.1, kept.committed.2, kept.seen.2.2.2]
  omega

theorem Ledger.changed (ledger : Ledger app) (kept : Kept app after) (traced : after.Traced)
    (errors : after.parserErrorCount < app.committedErrors + 2 ^ 32)
    (drops : after.writeDrops < app.committedDrops + 2 ^ 32) : after.changed = true := by
  have seenParser := ledger.seenParser
  have seenDrops := ledger.seenDrops
  unfold App.Traced at traced
  rw [kept.committed.1, kept.committed.2, kept.seen.2.2.2] at traced
  simp only [App.changed, kept.seen, seenParser, seenDrops, Bool.or_eq_true, bne_iff_ne]
  omega

theorem Ledger.traced (ledger : Ledger app) (kept : Kept app after) (grown : Grown app after) :
    after.Traced := by
  have behind := ledger.behind
  unfold Grown at grown
  unfold App.Traced
  rw [kept.committed.1, kept.committed.2, kept.seen.2.2.2]
  omega

theorem App.InPlace.due {newest : Commit} {older : List Commit} (place : app.InPlace newest)
    (shape : app.commits = newest :: older) : app.due = some (app.parser.lastFrameCnt + 1) := by
  rw [App.due, shape, place.2]
  rfl

theorem ofNat_succ (count : Nat) : UInt16.ofNat (count + 1) = UInt16.ofNat count + 1 := by
  rw [UInt16.ofNat_add]
  rfl

theorem ne_succ (value : UInt16) : value ≠ value + 1 := by
  intro same
  have numbers := congrArg UInt16.toNat same
  rw [UInt16.toNat_add] at numbers
  have bound := value.toNat_lt
  have one : UInt16.toNat 1 = 1 := rfl
  omega

theorem silent_place (ledger : Ledger app) {newest : Commit} {older : List Commit}
    (shape : app.commits = newest :: older)
    (h : guiCaptureCallback tolerance app delivery = (after, none))
    (free : droppedUncounted tolerance app delivery = false) :
    after.Traced ∨ after.parser.streamSynced = true ∧ after.parser.lastFrameCnt =
      newest.counter + UInt16.ofNat (app.passed + (passes app delivery).toNat) := by
  have kept := guiCaptureCallback_kept tolerance app delivery
  rw [h] at kept
  cases ledger.place newest older shape with
  | inl traced => exact Or.inl (kept.traced traced)
  | inr place =>
    have outcome := guiCaptureCallback_outcome tolerance delivery place.1
    rw [h] at outcome
    cases outcome with
    | counted grown => exact Or.inl (ledger.traced kept grown)
    | unchanged _ same known =>
      have none : passes app delivery = false := by
        by_contra passing
        simp only [passes, place.due shape, Bool.not_eq_false, Bool.and_eq_true,
          Bool.not_eq_true', beq_iff_eq, Option.some.injEq] at passing
        rcases known with away | again
        · simp [passing.1.1.1] at away
        · exact ne_succ _ (again.symm.trans passing.2.symm)
      refine Or.inr ⟨?_, ?_⟩
      · rw [same]
        exact place.1
      · rw [same, none]
        exact place.2
    | inOrder parsed synced magic next taken silent =>
      have idle : carriesRf delivery.frame = false := by
        by_contra carries
        exact absurd (silent rfl (by simpa using carries)) (by simp [free])
      have passing : passes app delivery = true := by
        simp [passes, place.due shape, parsed, magic, idle, next]
      refine Or.inr ⟨synced, ?_⟩
      rw [taken, next, place.2, passing, Bool.toNat_true, ofNat_succ, UInt16.add_assoc]

theorem silent_ledger (ledger : Ledger app)
    (h : guiCaptureCallback tolerance app delivery = (after, none))
    (free : droppedUncounted tolerance app delivery = false) :
    Ledger { after with passed := app.passed + (passes app delivery).toNat } := by
  have kept := guiCaptureCallback_kept tolerance app delivery
  rw [h] at kept
  have behind := ledger.behind
  have errors := kept.errors
  have drops := kept.drops
  have epoch := kept.epoch
  constructor
  · dsimp only
    rw [kept.seen.2.1, kept.committed.1]
    exact ledger.seenParser
  · dsimp only
    rw [kept.seen.2.2.1, kept.committed.2]
    exact ledger.seenDrops
  · dsimp only
    rw [kept.committed.1, kept.committed.2, kept.seen.2.2.2]
    dsimp only at errors drops epoch
    omega
  · intro newest older shape
    dsimp only at shape
    rw [kept.commits] at shape
    have place := silent_place ledger shape h free
    exact place
  · dsimp only
    rw [kept.commits]
    exact ledger.accounted
  · dsimp only
    rw [kept.commits]
    exact ledger.flagged

theorem write_facts {bytes : Nat}
    (h : guiCaptureCallback tolerance app delivery = (after, some bytes)) :
    after.parser.streamSynced = true ∧
      after.parser.lastFrameCnt = delivery.frame.metadata.framecounter ∧ 0 < bytes ∧
        after.parserErrorCount = app.parserErrorCount ∧ after.writeDrops = app.writeDrops := by
  by_cases away : turnedAway app delivery = true
  · have dropped := (guiCaptureCallback_turnedAway tolerance away).1
    rw [h] at dropped
    contradiction
  · rw [Bool.not_eq_true] at away
    rw [guiCaptureCallback_parsed away] at h
    obtain ⟨synced, kept, fresh, positive, errors, drops⟩ := handleResult_some h
    have handled := (handleResult_kept (parsedApp tolerance app delivery) delivery
      (frameProcess tolerance app.parser delivery.frame).2).2
    rw [h] at handled
    have counts := parsedApp_counts tolerance app delivery
    refine ⟨?_, ?_, positive, errors.trans counts.1, drops.trans counts.2⟩
    · rw [handled]
      exact synced
    · rw [handled, parsedApp_state]
      exact frameProcess_taken tolerance app.parser delivery.frame kept fresh

theorem write_follows (ledger : Ledger app) {newest : Commit} {older : List Commit} {bytes : Nat}
    (shape : app.commits = newest :: older)
    (h : guiCaptureCallback tolerance app delivery = (after, some bytes))
    (errors : app.parserErrorCount < app.committedErrors + 2 ^ 32)
    (drops : app.writeDrops < app.committedDrops + 2 ^ 32) :
    after.changed = true ∨ delivery.frame.metadata.framecounter =
      newest.counter + UInt16.ofNat app.passed + 1 := by
  have kept := guiCaptureCallback_kept tolerance app delivery
  rw [h] at kept
  obtain ⟨_, _, _, sameErrors, sameDrops⟩ := write_facts h
  have shown (traced : after.Traced) : after.changed = true :=
    ledger.changed kept traced (by rw [sameErrors]; exact errors) (by rw [sameDrops]; exact drops)
  cases ledger.place newest older shape with
  | inl traced => exact Or.inl (shown (kept.traced traced))
  | inr place =>
    have outcome := guiCaptureCallback_outcome tolerance delivery place.1
    rw [h] at outcome
    cases outcome with
    | counted grown => exact Or.inl (shown (ledger.traced kept grown))
    | unchanged dropped => contradiction
    | inOrder _ _ _ next =>
      apply Or.inr
      rw [next, place.2]

theorem observeRfWrite_flagged (app : App) (bytes : Nat) (changed : app.changed = true) :
    (observeRfWrite app bytes).2.ambiguousGap = true := by
  simp [observeRfWrite, changed]

theorem receive_ledger (ledger : Ledger app)
    (free : droppedUncounted tolerance app delivery = false)
    (errors : app.parserErrorCount < app.committedErrors + 2 ^ 32)
    (drops : app.writeDrops < app.committedDrops + 2 ^ 32) :
    Ledger (receive tolerance app delivery).1 := by
  cases h : guiCaptureCallback tolerance app delivery with
  | mk after bytes =>
    cases bytes with
    | none =>
      simp only [receive, h]
      exact silent_ledger ledger h free
    | some bytes =>
      have kept := guiCaptureCallback_kept tolerance app delivery
      rw [h] at kept
      obtain ⟨synced, taken, _⟩ := write_facts h
      simp only [receive, h]
      refine ⟨rfl, rfl, ⟨Nat.le_refl _, Nat.le_refl _, Nat.le_refl _⟩, ?_, ?_, ?_⟩
      · intro newest older shape
        obtain ⟨rfl, _⟩ := List.cons.inj shape
        exact Or.inr ⟨synced, taken.trans (UInt16.add_zero _).symm⟩
      · intro newer older adjacent
        change [newer, older] <:+: _ :: after.commits at adjacent
        rw [kept.commits] at adjacent
        rcases List.infix_cons_iff.mp adjacent with first | rest
        · obtain ⟨rfl, second⟩ := List.cons_prefix_cons.mp first
          obtain ⟨rest, shape⟩ := second
          exact write_follows ledger shape.symm h errors drops
        · exact ledger.accounted newer older rest
      · intro commit member changed
        change commit ∈ _ :: after.commits at member
        rw [kept.commits] at member
        cases List.mem_cons.mp member with
        | inl newest =>
          subst newest
          exact observeRfWrite_flagged after bytes changed
        | inr older => exact ledger.flagged commit older changed

/-- The bytes of the ring are those of the commits, each observed by the stream marks. -/
structure Following (system : System) : Prop where
  ledger : Ledger system.app
  reading : Marks.Reading 0 system.marks
  written : system.app.bytesWritten = Boundaries.frontier 0 system.marks.pieces
  commits : system.app.commits.map Commit.write =
    system.marks.observed.map Marks.Observation.write

theorem observe_step {marks : Marks.System} {write : Marks.Write} (idle : marks.producer = .idle)
    (positive : 0 < write.bytes)
    (contiguous : write.position = Boundaries.frontier 0 marks.pieces) :
    Marks.step 0 marks (.observe write) = some (Marks.observe marks write) := by
  simp [Marks.step, idle, positive, contiguous]

theorem frame_following {system : System} (following : Following system)
    (idle : system.marks.producer = .idle)
    (ledger : Ledger (receive tolerance system.app delivery).1) :
    Following ⟨(receive tolerance system.app delivery).1,
      (receive tolerance system.app delivery).2.elim system.marks
        (Marks.observe system.marks)⟩ := by
  cases h : guiCaptureCallback tolerance system.app delivery with
  | mk after bytes =>
    have kept := guiCaptureCallback_kept tolerance system.app delivery
    rw [h] at kept
    cases bytes with
    | none =>
      simp only [receive, h] at ledger ⊢
      refine ⟨ledger, following.reading, ?_, ?_⟩
      · exact kept.written.trans following.written
      · change after.commits.map Commit.write = _
        rw [kept.commits]
        exact following.commits
    | some bytes =>
      have positive := (write_facts h).2.2.1
      simp only [receive, h] at ledger ⊢
      refine ⟨ledger, ?_, rfl, ?_⟩
      · apply Marks.step_reading following.reading
        exact observe_step idle positive (kept.written.trans following.written)
      · change _ :: after.commits.map Commit.write = _ :: _
        rw [kept.commits, following.commits]

theorem marks_observed {marks next : Marks.System} {action : Marks.Action}
    (apart : ∀ write, action ≠ .observe write) (h : Marks.step 0 marks action = some next) :
    next.observed = marks.observed := by
  cases action with
  | observe write => exact absurd rfl (apart write)
  | produce => exact (Marks.produce_results h).2.1
  | consume => exact (Marks.consume_results h).2.1
  | publish =>
    simp only [Marks.step] at h
    split at h
    · cases h
      rfl
    · contradiction
  | read position bytes =>
    simp only [Marks.step] at h
    split at h
    · split at h
      · split at h <;> cases h <;> rfl
      · contradiction
    · contradiction

theorem marks_following {system : System} (following : Following system) {action : Marks.Action}
    (apart : ∀ write, action ≠ .observe write) {next : System}
    (h : (Marks.step 0 system.marks action).map (fun marks => { system with marks }) =
      some next) : Following next := by
  obtain ⟨marks, taken, rfl⟩ := Option.map_eq_some_iff.mp h
  have same := marks_observed apart taken
  refine ⟨following.ledger, Marks.step_reading following.reading taken, ?_, ?_⟩
  · rw [Marks.System.pieces, same]
    exact following.written
  · rw [same]
    exact following.commits

theorem step_following {system next : System} (following : Following system) {action : Action}
    (allowed : counted tolerance system action = true)
    (h : step tolerance system action = some next) : Following next := by
  cases action with
  | frame delivery =>
    simp only [step] at h
    split at h
    · next idle =>
      cases h
      simp only [counted, Bool.and_eq_true, Bool.not_eq_true', decide_eq_true_eq] at allowed
      exact frame_following following idle
        (receive_ledger following.ledger allowed.1.1 allowed.1.2 allowed.2)
    · contradiction
  | environment sampleRate rfSourceRateHz hasChannelB stopOnDropout =>
    cases h
    exact ⟨{ following.ledger with }, following.reading, following.written, following.commits⟩
  | marks action =>
    cases action with
    | observe write => contradiction
    | produce | publish | read | consume =>
      exact marks_following following (fun _ other => by cases other) h

theorem initial_following (epoch sampleRate : Nat) : Following (initial epoch sampleRate) := by
  refine ⟨⟨rfl, rfl, ⟨Nat.le_refl _, Nat.le_refl _, Nat.zero_le _⟩, nofun, ?_, nofun⟩,
    ⟨Marks.initial_sound, nofun, nofun⟩, rfl, rfl⟩
  intro newer older adjacent
  exact absurd (List.infix_nil.mp adjacent) nofun

def Commit.Meets (commit : Commit) (first last : Nat) : Prop :=
  commit.write.position < last ∧ first < commit.write.position + commit.write.bytes

/-- The bytes are those of committed frames, each the next one of the device behind the one
before it, but for frames that carry no RF. -/
structure Consecutive (commits : List Commit) (first last : Nat) : Prop where
  covered : ∀ byte, first ≤ byte → byte < last →
    ∃ commit ∈ commits, commit.Meets byte (byte + 1)
  follows : ∀ newer older, [newer, older] <:+: commits → newer.Meets first last →
    newer.Follows older

theorem Following.consecutive {system : System} (following : Following system)
    {result : Marks.Result} (member : result ∈ system.marks.results)
    (accepted : result.safe = true) :
    Consecutive system.app.commits result.position (result.position + result.bytes) := by
  have attributed := following.reading.attributed result member accepted
  constructor
  · intro byte low high
    obtain ⟨observation, seen, below, above⟩ := attributed.covered byte low high
    have write : observation.write ∈ system.app.commits.map Commit.write := by
      rw [following.commits]
      exact List.mem_map_of_mem seen
    obtain ⟨commit, here, same⟩ := List.mem_map.mp write
    refine ⟨commit, here, ?_, ?_⟩
    · rw [same]
      exact Nat.lt_succ_of_le below
    · rw [same]
      exact above
  · intro newer older adjacent meets
    have here : newer ∈ system.app.commits := adjacent.subset (List.mem_cons_self ..)
    have write : newer.write ∈ system.marks.observed.map Marks.Observation.write := by
      rw [← following.commits]
      exact List.mem_map_of_mem here
    obtain ⟨observation, seen, same⟩ := List.mem_map.mp write
    have clean : observation.write.ambiguousGap = false := by
      apply (attributed.exact observation seen _).1
      rw [Commit.Meets, ← same] at meets
      exact meets
    cases following.ledger.accounted newer older adjacent with
    | inl changed =>
      have gap := following.ledger.flagged newer here changed
      rw [← same, clean] at gap
      contradiction
    | inr follows => exact follows

theorem Following.positive {system : System} (following : Following system) :
    ∀ commit ∈ system.app.commits, 0 < commit.write.bytes := by
  intro commit member
  have write : commit.write ∈ system.marks.observed.map Marks.Observation.write := by
    rw [← following.commits]
    exact List.mem_map_of_mem member
  obtain ⟨observation, seen, same⟩ := List.mem_map.mp write
  rw [← same]
  exact (Boundaries.tiles_bounds following.reading.sound.producer.tiles
    (List.mem_map_of_mem seen)).2.1

theorem Consecutive.join {commits : List Commit} {first middle last : Nat}
    (positive : ∀ commit ∈ commits, 0 < commit.write.bytes)
    (left : Consecutive commits first middle) (right : Consecutive commits middle last) :
    Consecutive commits first last := by
  constructor
  · intro byte low high
    by_cases before : byte < middle
    · exact left.covered byte low before
    · exact right.covered byte (Nat.le_of_not_lt before) high
  · intro newer older adjacent meets
    by_cases before : newer.write.position < middle
    · exact left.follows newer older adjacent ⟨before, meets.2⟩
    · apply right.follows newer older adjacent
      have some := positive newer (adjacent.subset (List.mem_cons_self ..))
      unfold Commit.Meets at meets ⊢
      omega

/-- While no RF frame is dropped uncounted, a commit that is not the next frame shows a changed
counter, and a read that returns true, or two adjacent ones, hold consecutive frames only. -/
theorem lost_frames_traced {epoch sampleRate : Nat} {schedule : List Action} {last : System}
    (h : Machine.run (Machine.guarded (counted tolerance) (step tolerance))
      (initial epoch sampleRate) schedule = some last) :
    (∀ newer older, [newer, older] <:+: last.app.commits →
      newer.changed = true ∨ newer.Follows older) ∧
    (∀ result ∈ last.marks.results, result.safe = true →
      Consecutive last.app.commits result.position (result.position + result.bytes)) ∧
    ∀ result ∈ last.marks.results, ∀ later ∈ last.marks.results, result.safe = true →
      later.safe = true → later.position = result.position + result.bytes →
        Consecutive last.app.commits result.position (later.position + later.bytes) := by
  have following := Machine.run_invariant Following
    (fun _ _ _ before taken =>
      step_following before (Machine.guarded_eq_some.mp taken).1
        (Machine.guarded_eq_some.mp taken).2)
    (initial_following epoch sampleRate) h
  refine ⟨following.ledger.accounted, fun _ => following.consecutive, ?_⟩
  intro result member later laterMember accepted laterAccepted adjacent
  apply (following.consecutive member accepted).join following.positive
  rw [← adjacent]
  exact following.consecutive laterMember laterAccepted

/-- Two lines, the first with one word of payload; the length of the second is given. -/
def plainFrame (framecounter : UInt16) (payloadLen : UInt16) : Delivery :=
  ⟨⟨2, 2, fun word => if word = 3 then payloadLen else 1,
    ⟨hsdaohMagic, framecounter, crcNone, 0, 20000000⟩, false⟩, 0, true⟩

def acquire : List Action :=
  [1, 2, 3, 4, 5].map fun framecounter => .frame (plainFrame framecounter 1)

def markedCommit (framecounter : UInt16) : List Action :=
  [.frame (plainFrame framecounter 1), .marks .produce, .marks .produce, .marks .produce,
    .marks .publish]

def readTwo (position bytes : Nat) : List Action :=
  .marks (.read position bytes) :: List.replicate 8 (.marks .consume)

/-- Two commits behind the acquisition, and a read of the second. -/
def keptSchedule : List Action :=
  acquire ++ markedCommit 6 ++ markedCommit 7 ++ readTwo 4 4

theorem lost_frames_traced_kept :
    ∃ last, Machine.run (Machine.guarded (counted defaultTolerance) (step defaultTolerance))
        (initial 1 20000000) keptSchedule = some last ∧
      ∃ result ∈ last.marks.results, result.safe = true ∧
        Consecutive last.app.commits result.position (result.position + result.bytes) := by
  have runs : (Machine.run (Machine.guarded (counted defaultTolerance) (step defaultTolerance))
      (initial 1 20000000) keptSchedule).any
        (fun last => last.marks.results.any Marks.Result.safe) = true := by
    decide +kernel
  obtain ⟨last, h, accepted⟩ := (Option.any_eq_true _ _).mp runs
  obtain ⟨result, member, safe⟩ := List.any_eq_true.mp accepted
  exact ⟨last, h, result, member, safe, (lost_frames_traced h).2.1 result member safe⟩

/-- Frame 8 has a line with an impossible length; 9 is committed behind 7. -/
def lostSchedule : List Action :=
  acquire ++ markedCommit 6 ++ markedCommit 7 ++
    [.frame (plainFrame 8 4095), .frame (plainFrame 9 1), .marks .publish] ++ readTwo 4 8

def Commit.meets (commit : Commit) (result : Marks.Result) : Bool :=
  decide (commit.write.position < result.position + result.bytes) &&
    decide (result.position < commit.write.position + commit.write.bytes)

theorem meets_spec {commit : Commit} {result : Marks.Result}
    (h : commit.meets result = true) :
    commit.Meets result.position (result.position + result.bytes) := by
  simpa [Commit.meets, Commit.Meets] using h

/-- The newest two commits lie in one accepted block, and the newer does not follow. -/
def skips (system : System) : Bool :=
  match system.app.commits with
  | newer :: older :: _ =>
    !newer.changed && newer.counter != older.counter + UInt16.ofNat newer.passed + 1 &&
      system.marks.results.any fun result =>
        result.safe && newer.meets result && older.meets result
  | _ => false

theorem skips_spec {system : System} (h : skips system = true) :
    ∃ newer older, [newer, older] <:+: system.app.commits ∧ newer.changed = false ∧
      ¬ newer.Follows older ∧ ∃ result ∈ system.marks.results, result.safe = true ∧
        newer.Meets result.position (result.position + result.bytes) ∧
        older.Meets result.position (result.position + result.bytes) := by
  unfold skips at h
  split at h
  · next newer older rest shape =>
    simp only [Bool.and_eq_true, Bool.not_eq_true', bne_iff_ne, List.any_eq_true] at h
    obtain ⟨⟨unchanged, apart⟩, result, member, ⟨accepted, newest⟩, before⟩ := h
    refine ⟨newer, older, ?_, unchanged, apart, result, member, accepted, ?_, ?_⟩
    · rw [shape]
      exact (List.prefix_append [newer, older] rest).isInfix
    · exact meets_spec newest
    · exact meets_spec before
  · contradiction

theorem frame_lost_silently :
    ∃ last, Machine.run (step defaultTolerance) (initial 1 20000000) lostSchedule = some last ∧
      ∃ newer older, [newer, older] <:+: last.app.commits ∧ newer.changed = false ∧
        ¬ newer.Follows older ∧ ∃ result ∈ last.marks.results, result.safe = true ∧
          newer.Meets result.position (result.position + result.bytes) ∧
          older.Meets result.position (result.position + result.bytes) := by
  have runs : (Machine.run (step defaultTolerance) (initial 1 20000000) lostSchedule).any
      (fun last => skips last) = true := by
    decide +kernel
  obtain ⟨last, h, skipped⟩ := (Option.any_eq_true _ _).mp runs
  exact ⟨last, h, skips_spec skipped⟩

end MisrcGui.Capture
