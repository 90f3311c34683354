import MisrcGui.Marks.Accounting

/-! The consumer's steps keep the accounts. -/
namespace MisrcGui.Marks
open Library
open Boundaries (IsMark Tiles frontier)

variable {origin : Nat} {system next : System}

theorem Sound.move (sound : Sound origin system) {consumer : Consumer}
    (same : consumer.next system.marks.readIndex =
      system.consumer.next system.marks.readIndex)
    (phase : Phase origin system.publishedEnd system.marks system.lost consumer) :
    Sound origin { system with consumer } := by
  refine ⟨sound.producer, sound.queue, sound.lost, ?_, phase⟩
  dsimp only
  rw [same]
  exact sound.held

/-- The last lost mark, if the recovery sequence has moved on or is moving, lies ahead. -/
theorem Sound.ahead_of_fresh (sound : Sound origin system) {sequence last : Nat}
    (fresh : Fresh system.lost sequence last)
    (moved : sequence < system.marks.recoverySequence) :
    Ahead system.marks system.lost last := by
  intro newest older shape _
  apply fresh newest (by rw [shape]; exact List.mem_cons_self)
  exact Nat.lt_of_lt_of_le moved (sound.lost.newest_sequence shape).1

theorem recovering_sound (sound : Sound origin system) {block : Block}
    (standing : system.consumer = .recovering block) (h : consume system = some next) :
    Sound origin next := by
  have phase := sound.phase
  rw [standing] at phase
  obtain ⟨inside, bounded⟩ := phase
  simp only [consume, standing, Option.some.injEq] at h
  subst h
  split
  · next same =>
    apply sound.move (by simp [Consumer.next, standing])
    refine ⟨inside, bounded, ?_⟩
    intro newest older shape unseen
    have complete := (sound.lost.newest_sequence shape).2.1 (same ▸ sound.held.seen.1)
    omega
  · next differ =>
    split
    · next odd =>
      apply sound.move (by simp [Consumer.next, standing])
      refine ⟨inside, bounded, ?_⟩
      intro newest older shape _
      rw [(sound.lost.newest_sequence shape).2.2 odd]
      exact inside.published
    · next even =>
      apply sound.move (by simp [Consumer.next, standing])
      have reached := sound.held.seen.2
      refine ⟨inside, bounded, by omega, by omega, Nat.le_refl _, ?_, ?_⟩
      · intro entry member later
        cases shape : system.lost with
        | nil => simp [shape] at member
        | cons newest older =>
          have complete := (sound.lost.newest_sequence shape).2.1 (by omega)
          have bound := sound.lost.sequence_le shape member
          omega
      · intro _ field
        exact Or.inl (mem_loadOrder field)

theorem loading_sound (sound : Sound origin system) {block : Block} {sequence : Nat}
    {mark : Mark} {remaining : List Field}
    (standing : system.consumer = .loading block sequence mark remaining)
    (h : consume system = some next) : Sound origin next := by
  have phase := sound.phase
  rw [standing] at phase
  obtain ⟨inside, bounded, even, unseen, reached, fresh, agrees⟩ := phase
  cases remaining with
  | cons field remaining =>
    simp only [consume, standing, Option.some.injEq] at h
    subst h
    apply sound.move (by simp [Consumer.next, standing])
    exact ⟨inside, bounded, even, unseen, reached, fresh, fun same => (agrees same).copy⟩
  | nil =>
    simp only [consume, standing, Option.some.injEq] at h
    subst h
    split
    · next same =>
      apply sound.move (by simp [Consumer.next, standing])
      have idle : ∀ other remaining, system.producer ≠ .storing other remaining := by
        intro other remaining storing
        have odd := (sound.lost.storing other remaining storing).1
        omega
      obtain ⟨_, empty, newest⟩ := sound.lost.complete idle
      have lossy : system.lost ≠ [] := by
        intro none
        have zero := empty none
        omega
      obtain ⟨entry, older, shape⟩ := List.exists_cons_of_ne_nil lossy
      obtain ⟨equal, snapshot⟩ := newest entry older shape
      have this : (⟨sequence, mark⟩ : Lost) = entry := by
        rw [(agrees same).eq, ← snapshot, same, ← equal]
      refine ⟨inside, bounded, even, unseen, reached, fresh, ?_, ?_⟩
      · rw [this, shape]
        exact List.mem_cons_self
      · intro valid
        have ahead := sound.held.unseen valid entry older shape (by omega)
        rw [← this] at ahead
        exact ahead
    · next differ =>
      apply sound.move (by simp [Consumer.next, standing])
      exact ⟨inside, bounded, sound.ahead_of_fresh fresh (by omega)⟩

theorem locating_sound (sound : Sound origin system) {block : Block} {sequence : Nat}
    {mark : Mark} (standing : system.consumer = .locating block sequence mark)
    (h : consume system = some next) : Sound origin next := by
  have phase := sound.phase
  rw [standing] at phase
  obtain ⟨inside, bounded, chosen⟩ := phase
  simp only [consume, standing, Option.some.injEq] at h
  subst h
  apply sound.move (by simp [Consumer.next, standing])
  refine ⟨inside, bounded, chosen, ?_⟩
  refine ⟨⟨sound.queue.ordered, Nat.le_refl _⟩, ?_⟩
  intro index low high
  exact absurd high (Nat.not_lt.mpr low)

theorem QueueSound.release {pieces : List (Boundaries.Piece Content)} {marks : StreamMarks}
    {producer : Producer} (sound : QueueSound pieces marks producer)
    (some : marks.readIndex < marks.writeIndex) :
    QueueSound pieces { marks with readIndex := marks.readIndex + 1 } producer := by
  have bounded := sound.bounded
  constructor
  · exact some
  · dsimp only
    omega
  · intro index low high
    exact sound.isMark index (Nat.le_of_succ_le low) high
  · intro index later low between high
    exact sound.increasing index later (Nat.le_of_succ_le low) between high
  · intro mark pending index low high
    exact sound.before mark pending index (Nat.le_of_succ_le low) high
  · intro mark standing
    have room := sound.room mark standing
    dsimp only
    omega
  · exact sound.written

/-- The consumer takes over the snapshot: every lost mark up to it is behind, and the queue
begins after it. -/
theorem recovered_sound (sound : Sound origin system) {block : Block} {sequence write : Nat}
    {mark : Mark} (standing : system.consumer = .dropping block sequence mark write)
    (stays : ¬(system.marks.readIndex ≠ write ∧
      (system.marks.slot system.marks.readIndex).position ≤ mark.position)) :
    Sound origin { system with
      marks := { system.marks with
        consumer := mark
        consumerValid := true
        minimumSafePosition := mark.position
        seenRecoverySequence := sequence
        gapPending := true }
      consumer := .confirming block sequence } := by
  have phase := sound.phase
  have held := sound.held
  rw [standing] at phase held
  obtain ⟨inside, _, chosen, dropping⟩ := phase
  refine ⟨{ sound.producer with }, { sound.queue with }, { sound.lost with }, ?_, ?_⟩
  · constructor
    · intro _
      exact sound.lost.isMark _ chosen.lost
    · intro _ index low high
      by_cases emptied : system.marks.readIndex = write
      · exact dropping.beyond index (emptied ▸ low) high
      · have first := Nat.not_le.mp fun below => stays ⟨emptied, below⟩
        cases Nat.lt_or_eq_of_le low with
        | inl later =>
          exact Nat.lt_trans first
            (sound.queue.increasing _ index (Nat.le_refl _) later high)
        | inr same =>
          subst same
          exact first
    · intro pending isPending _
      exact sound.lost.before pending isPending _ chosen.lost
    · intro entry member reached
      exact ⟨rfl, sound.lost.mono member chosen.lost reached⟩
    · exact ⟨chosen.even, chosen.reached⟩
    · intro _ newest older shape later
      exact sound.lost.strict chosen.lost (by rw [shape]; exact List.mem_cons_self) later
    · intro other isMark
      rcases held.accounted other isMark with pending | queued | lost | behind
      · exact Or.inl pending
      · exact Or.inr (Or.inl queued)
      · exact Or.inr (Or.inr (Or.inl lost))
      · have later := chosen.later behind.1
        exact Or.inr (Or.inr (Or.inr ⟨rfl, Nat.le_of_lt (Nat.lt_of_le_of_lt behind.2 later)⟩))
  · refine ⟨inside, fun _ => Or.inr (Nat.le_refl _), ?_⟩
    intro newest older shape later
    exact chosen.fresh newest (by rw [shape]; exact List.mem_cons_self) later

theorem dropping_sound (sound : Sound origin system) {block : Block} {sequence write : Nat}
    {mark : Mark} (standing : system.consumer = .dropping block sequence mark write)
    (h : consume system = some next) : Sound origin next := by
  have phase := sound.phase
  rw [standing] at phase
  obtain ⟨inside, bounded, chosen, dropping⟩ := phase
  simp only [consume, standing] at h
  split at h
  · next drops =>
    cases h
    apply sound.move (by simp [Consumer.next, standing])
    have loaded := dropping.loaded
    exact ⟨inside, bounded, chosen, dropping, by omega, drops.2⟩
  · next stays =>
    cases h
    exact recovered_sound sound standing stays

theorem releasing_sound (sound : Sound origin system) {block : Block} {sequence write : Nat}
    {mark : Mark} (standing : system.consumer = .releasing block sequence mark write)
    (h : consume system = some next) : Sound origin next := by
  have phase := sound.phase
  have held := sound.held
  rw [standing] at phase held
  obtain ⟨inside, bounded, chosen, dropping, room, below⟩ := phase
  have loaded := dropping.loaded
  simp only [consume, standing, Option.some.injEq] at h
  subst h
  refine ⟨{ sound.producer with }, sound.queue.release (by omega), { sound.lost with }, ?_, ?_⟩
  · refine ⟨held.isMark, ?_, held.before, held.covered, held.seen, held.unseen, ?_⟩
    · intro valid index low high
      exact held.behind valid index (Nat.le_of_succ_le low) high
    · intro other isMark
      rcases held.accounted other isMark with pending | ⟨index, low, high, here⟩ | later
      · exact Or.inl pending
      · -- the mark dropped is covered by the lost one
        cases Nat.lt_or_eq_of_le low with
        | inl kept => exact Or.inr (Or.inl ⟨index, kept, high, here⟩)
        | inr first =>
          refine Or.inr (Or.inr (Or.inl ⟨_, chosen.lost, ?_⟩))
          rw [← here, ← first]
          exact below
      · exact Or.inr (Or.inr later)
  · refine ⟨inside, bounded, { chosen with }, ?_, dropping.beyond⟩
    exact ⟨room, loaded.2⟩

theorem confirming_sound (sound : Sound origin system) {block : Block} {sequence : Nat}
    (standing : system.consumer = .confirming block sequence)
    (h : consume system = some next) : Sound origin next := by
  have phase := sound.phase
  rw [standing] at phase
  simp only [consume, standing, Option.some.injEq] at h
  subst h
  exact sound.move (by simp [Consumer.next, standing]) phase

theorem preparing_sound (sound : Sound origin system) {block : Block} {recovered : Bool}
    (standing : system.consumer = .preparing block recovered)
    (h : consume system = some next) : Sound origin next := by
  have phase := sound.phase
  have held := sound.held
  rw [standing] at phase held
  obtain ⟨inside, bounded, ahead⟩ := phase
  simp only [consume, standing, Option.some.injEq] at h
  subst h
  have forward := inside.forward
  have positive := inside.positive
  have last : block.last = block.position + block.bytes := rfl
  refine ⟨{ sound.producer with }, { sound.queue with }, { sound.lost with },
    { held with }, inside, ⟨ahead, ?_, ?_⟩, ?_⟩
  · intro valid
    cases bounded valid with
    | inl below => exact Or.inl (by dsimp only; omega)
    | inr recovery => exact Or.inr recovery
  · intro safe
    simp only [Bool.and_eq_true, decide_eq_true_eq] at safe
    refine ⟨safe.1.2, ?_⟩
    intro valid
    cases bounded valid with
    | inl below => exact Nat.le_trans (Nat.le_of_lt below) forward
    | inr recovery => exact Nat.le_trans recovery safe.1.2
  · refine ⟨⟨sound.queue.ordered, Nat.le_refl _⟩, ?_⟩
    intro index low high
    exact absurd high (Nat.not_lt.mpr low)

theorem taken_sound (sound : Sound origin system) {block : Block} {safe : Bool} {write : Nat}
    (standing : system.consumer = .taking block safe write)
    (room : system.marks.readIndex < write)
    (below : (system.marks.slot system.marks.readIndex).position < block.last) :
    Sound origin { system with
      marks := { system.marks with
        consumer := system.marks.slot system.marks.readIndex
        consumerValid := true
        gapPending := true }
      consumer := .advancing block
        (safe && !decide ((system.marks.slot system.marks.readIndex).position > block.position))
        write } := by
  have phase := sound.phase
  have held := sound.held
  rw [standing] at phase held
  obtain ⟨inside, taking, loaded⟩ := phase
  have high : system.marks.readIndex < system.marks.writeIndex :=
    Nat.lt_of_lt_of_le room loaded.loaded.2
  have ahead : system.marks.consumerValid = true → system.marks.consumer.position <
      (system.marks.slot system.marks.readIndex).position := fun valid =>
    held.behind valid _ (Nat.le_refl _) high
  refine ⟨{ sound.producer with }, { sound.queue with }, { sound.lost with }, ?_, ?_⟩
  · constructor
    · intro _
      exact sound.queue.isMark _ (Nat.le_refl _) high
    · intro _ index later bound
      exact sound.queue.increasing _ index (Nat.le_refl _) later bound
    · intro pending isPending _
      exact sound.queue.before pending isPending _ (Nat.le_refl _) high
    · intro entry member reached
      obtain ⟨valid, covered⟩ := held.covered entry member reached
      exact ⟨rfl, Nat.le_trans covered (Nat.le_of_lt (ahead valid))⟩
    · exact held.seen
    · intro _ newest older shape unseen
      exact Nat.lt_of_lt_of_le below (taking.ahead newest older shape unseen)
    · intro other isMark
      rcases held.accounted other isMark with pending | ⟨index, low, bound, here⟩ | lost | behind
      · exact Or.inl pending
      · cases Nat.lt_or_eq_of_le low with
        | inl kept => exact Or.inr (Or.inl ⟨index, kept, bound, here⟩)
        | inr first =>
          subst first
          subst here
          exact Or.inr (Or.inr (Or.inr ⟨rfl, Nat.le_refl _⟩))
      · exact Or.inr (Or.inr (Or.inl lost))
      · exact Or.inr (Or.inr (Or.inr
          ⟨rfl, Nat.le_trans behind.2 (Nat.le_of_lt (ahead behind.1))⟩))
  · refine ⟨inside, ⟨taking.ahead, fun _ => Or.inl below, ?_⟩, ⟨loaded.loaded, loaded.beyond⟩,
      room⟩
    intro clear
    simp only [Bool.and_eq_true, Bool.not_eq_true', decide_eq_false_iff_not,
      Nat.not_lt] at clear
    exact ⟨(taking.clear clear.1).1, fun _ => clear.2⟩

theorem taking_sound (sound : Sound origin system) {block : Block} {safe : Bool} {write : Nat}
    (standing : system.consumer = .taking block safe write)
    (h : consume system = some next) : Sound origin next := by
  have phase := sound.phase
  rw [standing] at phase
  obtain ⟨inside, taking, loaded⟩ := phase
  have ordered := loaded.loaded
  simp only [consume, standing] at h
  split at h
  · next stops =>
    cases h
    apply sound.move (by simp [Consumer.next, standing])
    refine ⟨inside, taking, ?_⟩
    intro index low high
    cases stops with
    | inl emptied => exact loaded.beyond index (emptied ▸ low) high
    | inr far =>
      cases Nat.lt_or_eq_of_le low with
      | inl later =>
        exact Nat.le_trans far (Nat.le_of_lt
          (sound.queue.increasing _ index (Nat.le_refl _) later high))
      | inr first =>
        rw [← first]
        exact far
  · next takes =>
    cases h
    exact taken_sound sound standing (by omega) (by omega)

theorem advancing_sound (sound : Sound origin system) {block : Block} {safe : Bool}
    {write : Nat} (standing : system.consumer = .advancing block safe write)
    (h : consume system = some next) : Sound origin next := by
  have phase := sound.phase
  have held := sound.held
  rw [standing] at phase held
  obtain ⟨inside, taking, loaded, room⟩ := phase
  simp only [consume, standing, Option.some.injEq] at h
  subst h
  have bound := loaded.loaded.2
  refine ⟨{ sound.producer with }, sound.queue.release (by omega), { sound.lost with },
    { held with }, inside, { taking with }, ⟨⟨room, bound⟩, loaded.beyond⟩⟩

theorem finishing_sound (sound : Sound origin system) {block : Block} {safe : Bool}
    (standing : system.consumer = .finishing block safe)
    (h : consume system = some next) : Sound origin next := by
  have phase := sound.phase
  have held := sound.held
  rw [standing] at phase held
  obtain ⟨inside, taking, _⟩ := phase
  simp only [consume, standing, Option.some.injEq] at h
  subst h
  exact ⟨{ sound.producer with }, { sound.queue with }, { sound.lost with }, { held with },
    taking.bounded⟩

theorem consume_sound (sound : Sound origin system) (h : consume system = some next) :
    Sound origin next := by
  cases standing : system.consumer with
  | idle => simp [consume, standing] at h
  | recovering block => exact recovering_sound sound standing h
  | loading block sequence mark remaining => exact loading_sound sound standing h
  | locating block sequence mark => exact locating_sound sound standing h
  | dropping block sequence mark write => exact dropping_sound sound standing h
  | releasing block sequence mark write => exact releasing_sound sound standing h
  | confirming block sequence => exact confirming_sound sound standing h
  | preparing block recovered => exact preparing_sound sound standing h
  | taking block safe write => exact taking_sound sound standing h
  | advancing block safe write => exact advancing_sound sound standing h
  | finishing block safe => exact finishing_sound sound standing h

end MisrcGui.Marks
