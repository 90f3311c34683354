import MisrcGui.Marks.Consumption
import MisrcGui.Marks.Production

/-! A read that returns true has told the rate and the epoch of every byte of its block. -/
namespace MisrcGui.Marks
open Library
open Boundaries (IsMark Tiles frontier)

variable {origin : Nat} {system next : System}

theorem step_sound (sound : Sound origin system) {action : Action}
    (h : step origin system action = some next) : Sound origin next := by
  cases action with
  | observe write =>
    simp only [step] at h
    split at h
    · next idle =>
      split at h
      · next contiguous =>
        cases h
        exact observe_sound sound idle contiguous.1 contiguous.2
      · contradiction
    · contradiction
  | produce => exact produce_sound sound h
  | publish =>
    simp only [step] at h
    split at h
    · next standing =>
      cases h
      exact publish_sound sound standing
    · contradiction
  | read position bytes =>
    simp only [step] at h
    split at h
    · next idle =>
      split at h
      · next inside =>
        split at h
        · cases h
          exact sound
        · next accepted =>
          cases h
          have phase := sound.phase
          rw [idle] at phase
          have positive : 0 < bytes := by
            by_contra empty
            apply accepted
            simp [refused, Nat.eq_zero_of_not_pos empty]
          exact sound.move (by rw [idle]; rfl)
            ⟨⟨inside.1, positive, inside.2.1, inside.2.2⟩, phase⟩
      · contradiction
    · contradiction
  | consume => exact consume_sound sound h

theorem initial_sound : Sound origin (initial origin) := by
  refine ⟨?_, ?_, ?_, ?_, nofun⟩
  · exact ⟨trivial, fun _ => rfl, nofun, rfl, nofun, nofun⟩
  · refine ⟨Nat.le_refl _, Nat.zero_le _, ?_, ?_, nofun, ?_, nofun⟩
    · intro index _ high
      exact absurd high (Nat.not_lt_zero _)
    · intro index later _ _ high
      exact absurd high (Nat.not_lt_zero _)
    · intro mark standing
      cases standing <;> contradiction
  · refine ⟨nofun, List.Pairwise.nil, nofun, nofun, ?_⟩
    intro _
    exact ⟨rfl, fun _ => rfl, nofun⟩
  · refine ⟨nofun, nofun, nofun, nofun, ⟨rfl, Nat.le_refl _⟩, nofun, ?_⟩
    intro mark marked
    simp [IsMark, initial, System.pieces] at marked

/-- At the end of a read that has seen the last snapshot, no mark lies between the one held and
the end of the block. -/
theorem Sound.latest (sound : Sound origin system) {block : Block} {safe : Bool}
    (standing : system.consumer = .finishing block safe)
    (seen : system.marks.seenRecoverySequence = system.marks.recoverySequence)
    {mark : Mark} (marked : IsMark system.pieces mark) (inside : mark.position < block.last) :
    system.marks.consumerValid = true ∧ mark.position ≤ system.marks.consumer.position := by
  have phase := sound.phase
  have held := sound.held
  rw [standing] at phase held
  obtain ⟨within, _, passed⟩ := phase
  rcases held.accounted mark marked with pending | ⟨index, low, high, here⟩ | lost | behind
  · have position := sound.producer.pending_position pending
    have published := within.published
    omega
  · have far := passed index low high
    rw [here] at far
    omega
  · obtain ⟨entry, member, below⟩ := lost
    obtain ⟨newest, older, shape⟩ := List.exists_cons_of_ne_nil (List.ne_nil_of_mem member)
    have bound := sound.lost.sequence_le shape member
    have complete := (sound.lost.newest_sequence shape).2.1 (seen ▸ held.seen.1)
    obtain ⟨valid, covered⟩ := held.covered entry member (by omega)
    exact ⟨valid, Nat.le_trans below covered⟩
  · exact behind

/-- Every byte of a block was observed in an unambiguous write with the returned fields. -/
structure Result.Attributed (observed : List Observation) (result : Result) : Prop where
  covered : ∀ byte, result.position ≤ byte → byte < result.position + result.bytes →
    ∃ observation ∈ observed, observation.write.position ≤ byte ∧
      byte < observation.write.position + observation.write.bytes
  exact : ∀ observation ∈ observed,
    observation.piece.Meets result.position (result.position + result.bytes) →
      observation.write.ambiguousGap = false ∧
      observation.write.rates = (result.info.1.sampleRateHz, result.info.2.sampleRateHz) ∧
      observation.write.epochs = (result.info.1.epoch, result.info.2.epoch)
  startSample : result.info.1.startSample = result.position / pairBytes ∧
    result.info.2.startSample = result.position / pairBytes

theorem ProducerSound.published_le {marks : StreamMarks} {producer : Producer}
    {publishedEnd : Nat} {observed : List Observation}
    (sound : ProducerSound origin marks producer publishedEnd observed) :
    publishedEnd ≤ frontier origin (observed.map Observation.piece) := by
  by_cases idle : producer.isIdle = true
  · exact Nat.le_of_eq (sound.settled idle)
  · obtain ⟨newest, older, shape, position, _⟩ := sound.current (by simpa using idle)
    rw [shape, position]
    exact Nat.le_add_right _ _

theorem ProducerSound.read_off {marks : StreamMarks} {producer : Producer} {publishedEnd : Nat}
    {observed : List Observation} {observation : Observation} {content : Content}
    (sound : ProducerSound origin marks producer publishedEnd observed)
    (member : observation ∈ observed) (same : observation.content = content)
    (clean : content.isUnsafe = false) :
    observation.write.ambiguousGap = false ∧ observation.write.rates = content.rates ∧
      observation.write.epochs = content.epochs := by
  obtain ⟨flag, rates, epochs⟩ := sound.flagged observation member
  rw [same] at flag rates epochs
  refine ⟨?_, rates.symm, epochs.symm⟩
  by_contra gap
  exact absurd (flag (by simpa using gap)) (by simp [clean])

/-- While the read ends well, the writes that meet a range after the mark held carry its
content. -/
theorem Sound.label_held (sound : Sound origin system) {block : Block} {safe : Bool}
    (standing : system.consumer = .finishing block safe)
    (seen : system.marks.seenRecoverySequence = system.marks.recoverySequence)
    (valid : system.marks.consumerValid = true) {first : Nat}
    (before : system.marks.consumer.position ≤ first) {observation : Observation}
    (member : observation ∈ system.observed)
    (meets : observation.piece.Meets first block.last) :
    observation.content = system.marks.consumer.label := by
  have held := sound.held
  exact Boundaries.label_of_mark sound.producer.tiles (held.isMark valid) before
    (fun other marked inside => (sound.latest standing seen marked inside).2)
    (List.mem_map_of_mem member) meets

theorem finish_attributed (sound : Sound origin system) {block : Block} {safe : Bool}
    (standing : system.consumer = .finishing block safe)
    {result : Result} {older : List Result}
    (shape : (finish system block safe).results = result :: older) (accepted : result.safe = true) :
    result.Attributed system.observed := by
  have phase := sound.phase
  rw [standing] at phase
  obtain ⟨within, taking, _⟩ := phase
  obtain ⟨rfl, _⟩ := List.cons.inj shape
  simp only [Bool.and_eq_true, Bool.not_eq_true', beq_iff_eq] at accepted
  obtain ⟨⟨⟨clear, valid⟩, clean⟩, seen⟩ := accepted
  have before := (taking.clear clear).2 valid
  constructor
  · intro byte low high
    have grown := sound.producer.published_le
    obtain ⟨piece, member, here⟩ := Boundaries.tiles_cover sound.producer.tiles
      (Nat.le_trans within.first low)
      (Nat.lt_of_lt_of_le high (Nat.le_trans within.published grown))
    obtain ⟨observation, source, rfl⟩ := List.mem_map.mp member
    exact ⟨observation, source, here⟩
  · intro observation member meets
    exact sound.producer.read_off member (sound.label_held standing seen valid before member meets)
      clean
  · exact ⟨rfl, rfl⟩

theorem Result.Attributed.observe {write : Write} {result : Result}
    (attributed : result.Attributed system.observed)
    (behind : result.position + result.bytes ≤ write.position) :
    result.Attributed (Marks.observe system write).observed := by
  constructor
  · intro byte low high
    obtain ⟨observation, member, here⟩ := attributed.covered byte low high
    exact ⟨observation, List.mem_cons_of_mem _ member, here⟩
  · intro observation member meets
    cases List.mem_cons.mp member with
    | inl newest =>
      rw [newest] at meets
      exact absurd meets.1 (Nat.not_lt.mpr behind)
    | inr older => exact attributed.exact observation older meets
  · exact attributed.startSample

/-- The results so far lie in the published bytes and are attributed. -/
structure Reading (origin : Nat) (system : System) : Prop where
  sound : Sound origin system
  published : ∀ result ∈ system.results, result.position + result.bytes ≤ system.publishedEnd
  attributed : ∀ result ∈ system.results, result.safe = true →
    result.Attributed system.observed

theorem consume_results (h : consume system = some next) :
    (next.results = system.results ∨ ∃ block safe, system.consumer = .finishing block safe ∧
      next = finish system block safe) ∧
      next.observed = system.observed ∧ next.publishedEnd = system.publishedEnd := by
  simp only [consume] at h
  split at h
  case h_12 block safe standing =>
    cases h
    exact ⟨Or.inr ⟨block, safe, standing, rfl⟩, rfl, rfl⟩
  all_goals
    first
    | contradiction
    | cases h
      exact ⟨Or.inl rfl, rfl, rfl⟩
    | split at h <;> cases h <;> exact ⟨Or.inl rfl, rfl, rfl⟩

theorem produce_results (h : produce system = some next) :
    next.results = system.results ∧ next.observed = system.observed ∧
      next.publishedEnd = system.publishedEnd := by
  simp only [produce] at h
  split at h
  all_goals
    first
    | contradiction
    | cases h
      exact ⟨rfl, rfl, rfl⟩
    | split at h <;> cases h <;> exact ⟨rfl, rfl, rfl⟩

theorem step_reading (reading : Reading origin system) {action : Action}
    (h : step origin system action = some next) : Reading origin next := by
  have sound := step_sound reading.sound h
  have producer := reading.sound.producer
  cases action with
  | observe write =>
    simp only [step] at h
    split at h
    · next idle =>
      split at h
      · next contiguous =>
        cases h
        refine ⟨sound, reading.published, ?_⟩
        intro result member accepted
        apply (reading.attributed result member accepted).observe
        have published := reading.published result member
        have settled := producer.settled (by rw [idle]; rfl)
        rw [contiguous.2]
        exact Nat.le_trans published (Nat.le_of_eq settled)
      · contradiction
    · contradiction
  | produce =>
    obtain ⟨results, observed, publishedEnd⟩ := produce_results h
    refine ⟨sound, ?_, ?_⟩
    · rw [results, publishedEnd]
      exact reading.published
    · rw [results, observed]
      exact reading.attributed
  | publish =>
    simp only [step] at h
    split at h
    · cases h
      refine ⟨sound, ?_, reading.attributed⟩
      intro result member
      exact Nat.le_trans (reading.published result member) producer.published_le
    · contradiction
  | read position bytes =>
    simp only [step] at h
    split at h
    · split at h
      · split at h <;> cases h <;> exact ⟨sound, reading.published, reading.attributed⟩
      · contradiction
    · contradiction
  | consume =>
    obtain ⟨results, observed, publishedEnd⟩ := consume_results h
    cases results with
    | inl same =>
      refine ⟨sound, ?_, ?_⟩
      · rw [same, publishedEnd]
        exact reading.published
      · rw [same, observed]
        exact reading.attributed
    | inr finished =>
      obtain ⟨block, safe, standing, rfl⟩ := finished
      have phase := reading.sound.phase
      rw [standing] at phase
      refine ⟨sound, ?_, ?_⟩
      · intro result member
        cases List.mem_cons.mp member with
        | inl newest =>
          rw [newest]
          exact phase.1.published
        | inr older => exact reading.published result older
      · intro result member accepted
        cases List.mem_cons.mp member with
        | inl newest =>
          rw [newest] at accepted ⊢
          exact finish_attributed reading.sound standing rfl accepted
        | inr older => exact reading.attributed result older accepted

/-- In every interleaving a read that returns true is attributed. -/
theorem marks_sound {schedule : List Action} {last : System}
    (h : Machine.run (step origin) (initial origin) schedule = some last)
    {result : Result} (member : result ∈ last.results) (accepted : result.safe = true) :
    result.Attributed last.observed := by
  have reading := Machine.run_invariant (Reading origin)
    (fun _ _ _ before taken => step_reading before taken) ⟨initial_sound, nofun, nofun⟩ h
  exact reading.attributed result member accepted

def twoPairs (position : Nat) : Write :=
  ⟨position, 8, (⟨20000000, 0, 1, false⟩, ⟨20000000, 0, 1, false⟩), false⟩

def firstRead : List Action :=
  [.observe (twoPairs 0), .produce, .produce, .produce, .publish, .read 0 8] ++
    List.replicate 6 .consume

theorem marks_sound_first_read :
    ∃ last, Machine.run (step 0) (initial 0) firstRead = some last ∧
      ∃ result ∈ last.results, result.safe = true ∧ result.Attributed last.observed := by
  have runs : (Machine.run (step 0) (initial 0) firstRead).any
      (fun last => last.results.any Result.safe) = true := by
    decide +kernel
  obtain ⟨last, h, accepted⟩ := (Option.any_eq_true _ _).mp runs
  obtain ⟨result, member, safe⟩ := List.any_eq_true.mp accepted
  exact ⟨last, h, result, member, safe, marks_sound h member safe⟩

end MisrcGui.Marks
