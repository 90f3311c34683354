import MisrcGui.Ring.Commit

/-! Grants under interleaving. A write call that loads its head before the wrap of a
full ring and its tail after it takes the ring for empty. Torn loads of the other kind only
make a call fail, which the invariant of commits allows once the lost commits are forgotten. -/
namespace MisrcGui.Ring.Grants
open Library Library.Circular Interleaving Commit

variable {Cell : Type} {geometry : Geometry} {state next : State Cell}

def asked : WriteCall Cell → Nat
  | .put data => data.length
  | .writePtr size => size
  | .writeFinished _ => 0

/-- A write call that takes a ring for empty which was full when its head load saw it
asks for no more than the room that the consumer has released since. -/
def asksReleased (geometry : Geometry) (state : State Cell) : Action Cell → Bool
  | .produce =>
    match state.producer with
    | .headLoaded call _ head wraps =>
      !(decide (wraps < state.tailWraps) && head == state.ring.tail) ||
        decide (unread state + asked call ≤ geometry.size)
    | _ => true
  | _ => true

/-- What the producer may write: a pointer that it was granted, or the copy of a put. -/
def writeGrant : Producer Cell → Option Grant
  | .ready grant => grant
  | .copying data tail => some ⟨tail, data.length⟩
  | _ => none

/-- Granted room is apart from the unread bytes and inside the mapping; granted bytes
are the oldest unread ones. -/
structure GrantsSafe (geometry : Geometry) (state : State Cell) : Prop where
  disjoint : ∀ grant, writeGrant state.producer = some grant →
    ∀ index < unread state, ∀ offset < grant.size,
      (state.ring.head + index) % geometry.size ≠ (grant.pointer + offset) % geometry.size
  inside : ∀ grant, writeGrant state.producer = some grant →
    grant.pointer + grant.size ≤ geometry.mapSize
  readable : ∀ grant, state.consumer = .ready (some grant) →
    grant.size ≤ unread state ∧
      copyOut geometry state.ring grant.pointer grant.size =
        (state.committed.drop state.released).take grant.size

/-- The state without the record of refused commits, which no step reads. -/
def forget (state : State Cell) : State Cell := { state with lost := false }

/-- The pointer of a grant stays where it was, also when the tail wraps; and a head
that was loaded before a wrap is not below the tail after it. -/
structure Placed (geometry : Geometry) (state : State Cell) : Prop where
  inside : ∀ grant, writeGrant state.producer = some grant →
    grant.pointer + grant.size ≤ geometry.mapSize
  behind : ∀ call grant head wraps, state.producer = .headLoaded call grant head wraps →
    wraps < state.tailWraps → state.ring.tail ≤ head

structure Safe (geometry : Geometry) (state : State Cell) : Prop where
  inv : Commit.Inv geometry (forget state)
  placed : Placed geometry state

theorem initial_safe (buffer : Nat → Cell) : Safe geometry (initial buffer) where
  inv := Commit.initial_inv buffer
  placed := ⟨by simp [initial, writeGrant], by simp [initial]⟩

theorem step_forget (geometry : Geometry) (state : State Cell) (action : Action Cell) :
    (step geometry (forget state) action).map forget =
      (step geometry state action).map forget := by
  cases action with
  | call | fill =>
    simp only [step, forget]
    split
    · split <;> rfl
    · rfl
  | produce =>
    simp only [step, produce, forget]
    split
    · rfl
    · rename_i call grant head wraps loaded
      cases call with
      | put | writeFinished => simp only [decideCall]; split <;> rfl
      | writePtr size => rfl
    · rfl
    · rfl
  | readPtr | readFinished =>
    simp only [step, forget]
    split <;> rfl
  | consume =>
    simp only [step, consume, forget]
    split <;> rfl

theorem admitsWrite_inside {head tail size : Nat} (below : tail ≤ geometry.mapSize)
    (h : admitsWrite geometry head tail size) : tail + size ≤ geometry.mapSize ∧
      tail < geometry.mapSize ∧ head ≤ tail := by
  have mapped := geometry.mapped
  have mapSize : geometry.mapSize = geometry.size + geometry.size := Nat.mul_two _
  unfold admitsWrite at h
  rw [wordSub_of_le below (by omega)] at h
  simp only [Bool.and_eq_true, Bool.not_eq_true', Bool.or_eq_false_iff,
    decide_eq_false_iff_not] at h
  omega

theorem admitted_fits (safe : Safe geometry state) {call : WriteCall Cell}
    {grant : Option Grant} {head wraps : Nat}
    (loaded : state.producer = .headLoaded call grant head wraps)
    (allowed : asksReleased geometry state .produce)
    (admitted : admitsWrite geometry head state.ring.tail (asked call)) :
    unread state + asked call ≤ geometry.size := by
  have facts := safe.inv.producer
  have core := safe.inv.core
  simp only [forget, loaded] at facts
  obtain ⟨-, -, wraps_le, snapshot⟩ := facts
  have inside : state.ring.tail ≤ geometry.mapSize := core.inside
  have placed := admitsWrite_inside inside admitted
  have mapSize : geometry.mapSize = geometry.size + geometry.size := Nat.mul_two _
  rcases Nat.lt_trichotomy wraps state.tailWraps with older | same | newer
  · have behind := safe.placed.behind _ _ _ _ loaded older
    have level : head = state.ring.tail := by omega
    simpa [asksReleased, loaded, older, level] using allowed
  · obtain ⟨above, below, -⟩ := snapshot state.ring.tail (.inl ⟨same, rfl⟩)
    rw [admitsWrite_iff placed.2.2 below inside] at admitted
    change head + unread state ≤ state.ring.tail at above
    omega
  · have wraps_eq : state.headWraps =
        state.tailWraps + if state.consumer = .tailWrapping then 1 else 0 := core.wraps_eq
    have tail_eq : state.ring.tail =
        state.ring.head + unread state + lag geometry state.consumer := core.tail_eq
    change wraps ≤ state.headWraps at wraps_le
    by_cases wrapping : state.consumer = .tailWrapping
    · rw [if_pos wrapping] at wraps_eq
      rw [wrapping] at tail_eq
      simp only [lag] at tail_eq
      have back : state.ring.tail = state.ring.tail - geometry.size + geometry.size := by omega
      obtain ⟨above, -⟩ := snapshot (state.ring.tail - geometry.size)
        (.inr ⟨by dsimp only; omega, back⟩)
      change head + unread state ≤ state.ring.tail - geometry.size at above
      omega
    · rw [if_neg wrapping] at wraps_eq
      omega

theorem granted_of_admitted (safe : Safe geometry state) {call : WriteCall Cell}
    {grant : Option Grant} {head wraps : Nat}
    (loaded : state.producer = .headLoaded call grant head wraps)
    (allowed : asksReleased geometry state .produce)
    (admitted : admitsWrite geometry head state.ring.tail (asked call)) :
    Granted geometry (forget state) ⟨state.ring.tail, asked call⟩ := by
  have placed := admitsWrite_inside safe.inv.core.inside admitted
  exact ⟨rfl, admitted_fits safe loaded allowed admitted, placed.2.1, placed.1⟩

theorem decideCall_safe (safe : Safe geometry state) {call : WriteCall Cell}
    {grant : Option Grant} {head wraps : Nat}
    (loaded : state.producer = .headLoaded call grant head wraps)
    (allowed : asksReleased geometry state .produce) :
    Safe geometry (decideCall geometry state grant head call) := by
  have core := safe.inv.core
  have consumer := safe.inv.consumer
  have granted := granted_of_admitted safe loaded allowed
  cases call with
  | put data =>
    simp only [decideCall]
    split
    · rename_i admitted
      have fits := granted admitted
      refine ⟨⟨{ core with }, fits, consumer⟩, ?_, by simp⟩
      intro one mem
      cases mem
      exact fits.2.2.2
    · exact ⟨⟨{ core with }, by simp [forget, ProducerInv], consumer⟩, by simp [writeGrant],
        by simp⟩
  | writePtr size =>
    simp only [decideCall]
    refine ⟨⟨{ core with }, ?_, consumer⟩, ?_, by simp⟩
    · intro one mem
      split at mem
      · rename_i admitted
        cases mem
        exact granted admitted
      · contradiction
    · intro one mem
      simp only [writeGrant] at mem
      split at mem
      · rename_i admitted
        cases mem
        exact (granted admitted).2.2.2
      · contradiction
  | writeFinished size =>
    have facts := safe.inv.producer
    simp only [forget, loaded] at facts
    obtain ⟨within, held, -⟩ := facts
    simp only [decideCall]
    split
    · refine ⟨⟨{ core with }, ?_, consumer⟩, by simp [writeGrant], by simp⟩
      cases grant with
      | none => simp [withinGrant] at within
      | some one =>
        have small : size ≤ one.size := by simpa [withinGrant] using within
        obtain ⟨pointer, room, inside, ends⟩ := held one rfl
        refine ⟨pointer, ?_, inside, ?_⟩
        · change unread state + size ≤ geometry.size
          change unread state + one.size ≤ geometry.size at room
          omega
        · change state.ring.tail + size ≤ geometry.mapSize
          change state.ring.tail + one.size ≤ geometry.mapSize at ends
          omega
    · exact ⟨⟨{ core with }, by simp [forget, ProducerInv], consumer⟩, by simp [writeGrant],
        by simp⟩

theorem inv_of_untorn (safe : Safe geometry state) {action : Action Cell}
    (whole : untorn state action) (h : step geometry state action = some next) :
    Commit.Inv geometry (forget next) := by
  have same := step_forget geometry state action
  rw [h, Option.map_some] at same
  obtain ⟨other, taken, forgotten⟩ := Option.map_eq_some_iff.mp same
  have inv := Commit.step_inv safe.inv whole taken
  have unchanged : forget other = other := by
    have lost := inv.core.kept
    cases other
    subst lost
    rfl
  rwa [← forgotten, unchanged]

theorem consume_frame (h : consume geometry state = some next) :
    next.producer = state.producer ∧
      (next.ring.tail = state.ring.tail ∧ next.tailWraps = state.tailWraps ∨
        next.ring.tail = state.ring.tail - geometry.size ∧
          next.tailWraps = state.tailWraps + 1) := by
  unfold consume at h
  split at h
  · contradiction
  · cases h
    exact ⟨rfl, .inl ⟨rfl, rfl⟩⟩
  · cases h
    exact ⟨rfl, .inl ⟨rfl, rfl⟩⟩
  · cases h
    exact ⟨rfl, .inl ⟨rfl, rfl⟩⟩
  · cases h
    exact ⟨rfl, .inl ⟨rfl, rfl⟩⟩
  · cases h
    exact ⟨rfl, .inl ⟨rfl, rfl⟩⟩
  · cases h
    exact ⟨rfl, .inr ⟨rfl, rfl⟩⟩

theorem consume_placed (safe : Safe geometry state)
    (h : consume geometry state = some next) : Placed geometry next := by
  obtain ⟨producer, moved⟩ := consume_frame h
  refine ⟨by rw [producer]; exact safe.placed.inside, ?_⟩
  rw [producer]
  intro call grant head wraps loaded older
  have behind := safe.placed.behind call grant head wraps loaded
  rcases moved with ⟨tail, count⟩ | ⟨tail, count⟩
  · rw [tail]
    exact behind (by omega)
  · by_cases before : wraps < state.tailWraps
    · have := behind before
      omega
    · have facts := safe.inv.producer
      simp only [forget, loaded] at facts
      obtain ⟨-, -, -, snapshot⟩ := facts
      obtain ⟨-, below, -⟩ := snapshot state.ring.tail (.inl ⟨by dsimp only; omega, rfl⟩)
      omega

theorem step_safe (safe : Safe geometry state) {action : Action Cell}
    (allowed : asksReleased geometry state action)
    (h : step geometry state action = some next) : Safe geometry next := by
  have wraps_le : state.tailWraps ≤ state.headWraps := by
    have := safe.inv.core.wraps_eq
    change state.headWraps = state.tailWraps + _ at this
    omega
  cases action with
  | call call =>
    refine ⟨inv_of_untorn safe rfl h, ?_⟩
    simp only [step] at h
    split at h
    · split at h
      · cases h
        refine ⟨by simp [writeGrant], ?_⟩
        intro call grant head wraps loaded older
        cases loaded
        dsimp only at older
        omega
      · contradiction
    · contradiction
  | fill data =>
    refine ⟨inv_of_untorn safe rfl h, ?_⟩
    simp only [step] at h
    split at h
    · split at h
      · cases h
        exact ⟨safe.placed.inside, safe.placed.behind⟩
      · contradiction
    · contradiction
  | produce =>
    cases producing : state.producer with
    | headLoaded call grant head wraps =>
      simp only [step, produce, producing] at h
      cases h
      exact decideCall_safe safe producing allowed
    | ready grant => simp [step, produce, producing] at h
    | copying | advancing =>
      refine ⟨inv_of_untorn safe (by simp [untorn, producing]) h, ?_⟩
      simp only [step, produce, producing] at h
      cases h
      exact ⟨by simp [writeGrant], by simp⟩
  | readPtr | readFinished =>
    refine ⟨inv_of_untorn safe rfl h, ?_⟩
    simp only [step] at h
    split at h
    · cases h
      exact ⟨safe.placed.inside, safe.placed.behind⟩
    · contradiction
  | consume => exact ⟨inv_of_untorn safe rfl h, consume_placed safe h⟩

/-- Room that fits beside the unread bytes and starts at the tail is apart from them. -/
theorem Granted.disjoint {grant : Grant} (core : Core geometry state)
    (granted : Granted geometry state grant) :
    ∀ index < unread state, ∀ offset < grant.size,
      (state.ring.head + index) % geometry.size ≠ (grant.pointer + offset) % geometry.size := by
  obtain ⟨place, room, -⟩ := granted
  intro index hindex offset hoffset
  have same : (state.ring.head + unread state) % geometry.size =
      grant.pointer % geometry.size := by
    rw [place, core.tail_eq]
    cases state.consumer <;> simp [lag]
  rw [Nat.add_mod grant.pointer, ← same, ← Nat.add_mod]
  exact mod_ne (by omega) (by omega)

theorem Safe.grantsSafe (safe : Safe geometry state) : GrantsSafe geometry state where
  disjoint := by
    intro grant held
    have facts := safe.inv.producer
    have granted : Granted geometry (forget state) grant := by
      cases producing : state.producer with
      | ready held' =>
        rw [producing] at held
        simp only [forget, producing] at facts
        exact facts grant held
      | copying data tail =>
        rw [producing] at held
        simp only [forget, producing] at facts
        cases held
        exact facts
      | headLoaded | advancing => simp [producing, writeGrant] at held
    have apart := Granted.disjoint safe.inv.core granted
    exact apart
  inside := safe.placed.inside
  readable := by
    intro grant ready
    have facts := safe.inv.consumer
    simp only [forget, ready] at facts
    obtain ⟨pointer, size_le⟩ := facts.2 grant rfl
    have memory : slice geometry.size state.ring.buffer state.ring.head (unread state) =
        state.committed.drop state.released := safe.inv.core.memory
    change grant.size ≤ unread state at size_le
    refine ⟨size_le, ?_⟩
    rw [← memory, pointer]
    exact (slice_take size_le).symm

/-- In every run whose write calls ask for released room when they take a full ring for
empty, no grant covers an unread byte and every granted read is of unread bytes. -/
theorem grants_safe (geometry : Geometry) (buffer : Nat → Cell)
    (schedule : List (Action Cell)) (last : State Cell)
    (h : Machine.run (Machine.guarded (asksReleased geometry) (step geometry))
      (initial buffer) schedule = some last) : GrantsSafe geometry last := by
  refine Safe.grantsSafe (Machine.run_invariant (Safe geometry) ?_ (initial_safe buffer) h)
  intro state action next safe taken
  have allowed := Machine.guarded_eq_some.mp taken
  exact step_safe safe allowed.1 allowed.2

/-- A page is filled, one byte is released and one more written: the ring is full with
the head at 1. A write call loads that head; the consumer releases the 4095 bytes below
the wrap and wraps; the call loads the tail, which is 1 again. -/
def tornFull (size : Nat) : List (Action UInt8) :=
  [.call (.put (List.replicate 4096 0)), .produce, .produce, .produce,
    .readFinished 1, .consume, .consume, .consume,
    .call (.put [0]), .produce, .produce, .produce,
    .call (.writePtr size), .readFinished 4095, .consume, .consume, .consume, .consume,
    .consume, .produce]

theorem grant_overlaps :
    ¬∀ (geometry : Geometry) (schedule : List (Action UInt8)) (last : State UInt8),
      Machine.run (step geometry) (initial fun _ => 0) schedule = some last →
        GrantsSafe geometry last := by
  intro claim
  have outcome : (Machine.run (step page) (initial fun _ => 0) (tornFull 4096)).map
      (fun last => (writeGrant last.producer, last.ring.head, unread last)) =
        some (some ⟨1, 4096⟩, 0, 1) := by decide +kernel
  obtain ⟨last, reached, fields⟩ := Option.map_eq_some_iff.mp outcome
  simp only [Prod.mk.injEq] at fields
  obtain ⟨granted, head, one⟩ := fields
  have apart := (claim page (tornFull 4096) last reached).disjoint _ granted 0 (by omega)
    4095 (by decide)
  rw [head] at apart
  exact apart (by decide)

/-- The same call asks for the 4095 bytes that were released in between. -/
theorem grants_safe_torn : ∃ last,
    Machine.run (Machine.guarded (asksReleased page) (step page)) (initial fun _ => 0)
      (tornFull 4095) = some last ∧ GrantsSafe page last := by
  have possible : (Machine.run (Machine.guarded (asksReleased page) (step page))
      (initial fun _ => (0 : UInt8)) (tornFull 4095)).isSome := by decide +kernel
  obtain ⟨last, reached⟩ := Option.isSome_iff_exists.mp possible
  exact ⟨last, reached, grants_safe page _ (tornFull 4095) last reached⟩

end MisrcGui.Ring.Grants
