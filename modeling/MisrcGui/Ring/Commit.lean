import MisrcGui.Ring.Interleaving

/-! Commits under interleaving. A write call that loads one index on each side
of the consumer's wrap can refuse a commit inside its grant. -/
namespace MisrcGui.Ring.Commit
open Library Library.Circular Interleaving

variable {Cell : Type} {geometry : Geometry} {state next : State Cell}

/-- How far the tail is ahead of its place while the consumer is between the
two steps of a wrap. -/
def lag (geometry : Geometry) : Consumer → Nat
  | .tailWrapping => geometry.size
  | _ => 0

structure Core (geometry : Geometry) (state : State Cell) : Prop where
  released_le : state.released ≤ state.committed.length
  unread_le : unread state ≤ geometry.size
  tail_eq : state.ring.tail = state.ring.head + unread state + lag geometry state.consumer
  wraps_eq : state.headWraps =
    state.tailWraps + if state.consumer = .tailWrapping then 1 else 0
  inside : state.ring.tail ≤ geometry.mapSize
  memory : slice geometry.size state.ring.buffer state.ring.head (unread state) =
    state.committed.drop state.released
  kept : state.lost = false

def Granted (geometry : Geometry) (state : State Cell) (grant : Grant) : Prop :=
  grant.pointer % geometry.size = state.ring.tail % geometry.size ∧
    unread state + grant.size ≤ geometry.size ∧
    state.ring.tail < geometry.mapSize ∧
    state.ring.tail + grant.size ≤ geometry.mapSize

/-- The tail as it is on the side of the wrap that the head load saw. -/
def SameSide (geometry : Geometry) (state : State Cell) (wraps tail : Nat) : Prop :=
  wraps = state.tailWraps ∧ state.ring.tail = tail ∨
    wraps = state.tailWraps + 1 ∧ state.ring.tail = tail + geometry.size

def Snapshot (geometry : Geometry) (state : State Cell) (grant : Option Grant)
    (head wraps : Nat) : Prop :=
  wraps ≤ state.headWraps ∧ ∀ tail, SameSide geometry state wraps tail →
    head + unread state ≤ tail ∧ tail ≤ head + geometry.size ∧
      ∀ granted ∈ grant, tail + granted.size ≤ head + geometry.size

def ProducerInv (geometry : Geometry) (state : State Cell) : Producer Cell → Prop
  | .ready grant => ∀ granted ∈ grant, Granted geometry state granted
  | .headLoaded call grant head wraps =>
    withinGrant grant call ∧ (∀ granted ∈ grant, Granted geometry state granted) ∧
      Snapshot geometry state grant head wraps
  | .copying data tail => Granted geometry state ⟨tail, data.length⟩
  | .advancing pointer size => Granted geometry state ⟨pointer, size⟩

def ConsumerInv (geometry : Geometry) (state : State Cell) : Consumer → Prop
  | .ready grant => state.ring.head < geometry.size ∧
      ∀ granted ∈ grant, granted.pointer = state.ring.head ∧ granted.size ≤ unread state
  | .headLoaded _ head => state.ring.head < geometry.size ∧ head = state.ring.head
  | .tailLoaded _ tail => state.ring.head < geometry.size ∧
      state.ring.head ≤ tail ∧ tail ≤ state.ring.tail
  | .advancing size => state.ring.head < geometry.size ∧ size ≤ unread state
  | .testing => state.ring.head < geometry.mapSize
  | .headWrapping => geometry.size ≤ state.ring.head ∧ state.ring.head < geometry.mapSize
  | .tailWrapping => state.ring.head < geometry.size

structure Inv (geometry : Geometry) (state : State Cell) : Prop where
  core : Core geometry state
  producer : ProducerInv geometry state state.producer
  consumer : ConsumerInv geometry state state.consumer

theorem initial_inv (buffer : Nat → Cell) : Inv geometry (initial buffer) where
  core := by
    constructor <;> simp [initial, unread, lag]
  producer := by simp [initial, ProducerInv]
  consumer := by
    have := geometry.positive
    simpa [initial, ConsumerInv] using this

/-- While the consumer releases bytes or wraps, the producer's facts survive
whatever shrinks the unread bytes and keeps the tail's cell. -/
theorem Granted.mono {grant : Grant} (h : Granted geometry state grant)
    (fewer : unread next ≤ unread state)
    (tail_mod : next.ring.tail % geometry.size = state.ring.tail % geometry.size)
    (tail_le : next.ring.tail ≤ state.ring.tail) : Granted geometry next grant := by
  obtain ⟨pointer, room, inside, ends⟩ := h
  exact ⟨by rw [tail_mod]; exact pointer, by omega, by omega, by omega⟩

theorem producerInv_mono {producer : Producer Cell}
    (h : ProducerInv geometry state producer)
    (fewer : unread next ≤ unread state)
    (tail_mod : next.ring.tail % geometry.size = state.ring.tail % geometry.size)
    (tail_le : next.ring.tail ≤ state.ring.tail)
    (wraps_le : state.headWraps ≤ next.headWraps)
    (side : ∀ wraps tail, wraps ≤ state.headWraps → SameSide geometry next wraps tail →
      SameSide geometry state wraps tail) :
    ProducerInv geometry next producer := by
  cases producer with
  | ready grant =>
    intro granted hgrant
    exact (h granted hgrant).mono fewer tail_mod tail_le
  | headLoaded call grant head wraps =>
    obtain ⟨within, hgrant, hwraps, snapshot⟩ := h
    refine ⟨within, fun granted mem => (hgrant granted mem).mono fewer tail_mod tail_le,
      hwraps.trans wraps_le, fun tail htail => ?_⟩
    obtain ⟨above, below, ends⟩ := snapshot tail (side wraps tail hwraps htail)
    exact ⟨by omega, below, ends⟩
  | copying | advancing => exact Granted.mono h fewer tail_mod tail_le

theorem producerInv_congr {producer : Producer Cell}
    (h : ProducerInv geometry state producer)
    (hunread : unread next = unread state)
    (hring : next.ring.tail = state.ring.tail)
    (hhead : next.headWraps = state.headWraps) (htail : next.tailWraps = state.tailWraps) :
    ProducerInv geometry next producer := by
  apply producerInv_mono h hunread.le (by rw [hring]) hring.le hhead.ge
  intro wraps tail _ side
  unfold SameSide at side ⊢
  rwa [hring, htail] at side

theorem consumerInv_congr {consumer : Consumer}
    (h : ConsumerInv geometry state consumer)
    (hunread : unread state ≤ unread next)
    (hhead : next.ring.head = state.ring.head)
    (htail : state.ring.tail ≤ next.ring.tail) : ConsumerInv geometry next consumer := by
  cases consumer with
  | ready grant =>
    refine ⟨hhead ▸ h.1, fun granted mem => ?_⟩
    obtain ⟨pointer, size⟩ := h.2 granted mem
    exact ⟨by rw [hhead]; exact pointer, size.trans hunread⟩
  | headLoaded size head => exact ⟨hhead ▸ h.1, by rw [hhead]; exact h.2⟩
  | tailLoaded size tail =>
    exact ⟨hhead ▸ h.1, by rw [hhead]; exact h.2.1, h.2.2.trans htail⟩
  | advancing size => exact ⟨hhead ▸ h.1, h.2.trans hunread⟩
  | testing => exact hhead.trans_lt h
  | headWrapping => exact ⟨by rw [hhead]; exact h.1, by rw [hhead]; exact h.2⟩
  | tailWrapping => exact hhead.trans_lt h

theorem call_inv (inv : Inv geometry state) {grant : Option Grant} {call : WriteCall Cell}
    (ready : state.producer = .ready grant) (within : withinGrant grant call) :
    Inv geometry { state with
      producer := .headLoaded call grant state.ring.head state.headWraps } where
  core := { inv.core with }
  consumer := inv.consumer
  producer := by
    have granted := inv.producer
    rw [ready] at granted
    refine ⟨within, granted, le_rfl, fun tail side => ?_⟩
    have unread_le := inv.core.unread_le
    have tail_eq := inv.core.tail_eq
    have wraps_eq := inv.core.wraps_eq
    have place : tail = state.ring.head + unread state := by
      rcases side with ⟨same, htail⟩ | ⟨same, htail⟩ <;> dsimp only at same htail
      · cases h : state.consumer <;> simp_all [lag]
      · cases h : state.consumer <;> simp_all [lag]
    change state.ring.head + unread state ≤ tail ∧ tail ≤ _ ∧ _
    refine ⟨place.ge, by omega, fun one mem => ?_⟩
    obtain ⟨-, room, -⟩ := granted one mem
    omega

theorem copyIn_inv (inv : Inv geometry state) {pointer : Nat} {data : List Cell}
    (target : pointer % geometry.size = state.ring.tail % geometry.size)
    (room : unread state + data.length ≤ geometry.size) :
    Inv geometry { state with ring := copyIn geometry state.ring pointer data } where
  core := { inv.core with
    memory := by
      have tail_eq := inv.core.tail_eq
      have same : (state.ring.head + unread state) % geometry.size =
          pointer % geometry.size := by
        rw [target, tail_eq]
        cases state.consumer <;> simp [lag]
      rw [← inv.core.memory]
      apply slice_store_disjoint
      intro offset hoffset shift hshift
      have hoffset : offset < unread state := hoffset
      rw [Nat.add_mod pointer, ← same, ← Nat.add_mod]
      change (state.ring.head + offset) % _ ≠ _
      exact mod_ne (by omega) (by omega) }
  consumer := inv.consumer
  producer := producerInv_congr inv.producer rfl rfl rfl rfl

theorem advance_inv (inv : Inv geometry state) {pointer size : Nat}
    (advancing : state.producer = .advancing pointer size) :
    Inv geometry { state with
      ring := { state.ring with tail := state.ring.tail + size }
      producer := .ready none
      committed := state.committed ++ copyOut geometry state.ring pointer size } := by
  have granted := inv.producer
  rw [advancing] at granted
  obtain ⟨target, room, inside, ends⟩ := granted
  dsimp only at target room ends
  obtain ⟨released_le, unread_le, tail_eq, wraps_eq, -, memory, kept⟩ := inv.core
  set grown := { state with
      ring := { state.ring with tail := state.ring.tail + size }
      producer := .ready none
      committed := state.committed ++ copyOut geometry state.ring pointer size } with hgrown
  have longer : unread grown = unread state + size := by
    simp only [hgrown, unread, List.length_append, copyOut, slice_length]
    omega
  refine ⟨⟨?_, ?_, ?_, wraps_eq, ends, ?_, kept⟩, ?_, ?_⟩
  · simp only [hgrown, List.length_append]
    omega
  · omega
  · rw [longer]
    simp only [hgrown]
    omega
  · have same : (state.ring.head + unread state) % geometry.size =
        pointer % geometry.size := by
      rw [target, tail_eq]
      cases state.consumer <;> simp [lag]
    rw [longer]
    simp only [hgrown]
    rw [slice_add, memory, List.drop_append_of_le_length released_le,
      slice_congr_start _ size same, copyOut]
  · simp [hgrown, ProducerInv]
  · exact consumerInv_congr inv.consumer (by omega) rfl (Nat.le_add_right _ _)

/-- An untorn pair of loads decides as the true room does, and admits every
commit inside its grant. -/
theorem decideCall_inv (inv : Inv geometry state) {call : WriteCall Cell}
    {grant : Option Grant} {head wraps : Nat}
    (loaded : state.producer = .headLoaded call grant head wraps)
    (whole : wraps = state.tailWraps) :
    Inv geometry (decideCall geometry state grant head call) := by
  have facts := inv.producer
  rw [loaded] at facts
  obtain ⟨within, granted, -, snapshot⟩ := facts
  obtain ⟨above, below, covers⟩ := snapshot state.ring.tail (.inl ⟨whole, rfl⟩)
  have ordered : head ≤ state.ring.tail := by omega
  have decision (size : Nat) : admitsWrite geometry head state.ring.tail size ↔
      state.ring.tail + size ≤ head + geometry.size ∧
        state.ring.tail < geometry.mapSize ∧
        state.ring.tail + size ≤ geometry.mapSize :=
    admitsWrite_iff ordered below inv.core.inside
  cases call with
  | put data =>
    simp only [decideCall]
    split
    · rename_i admitted
      rw [decision] at admitted
      exact ⟨{ inv.core with }, ⟨rfl, by
        change unread state + data.length ≤ geometry.size
        omega, admitted.2⟩, inv.consumer⟩
    · exact ⟨{ inv.core with }, by simp [ProducerInv], inv.consumer⟩
  | writePtr size =>
    simp only [decideCall]
    refine ⟨{ inv.core with }, ?_, inv.consumer⟩
    intro one mem
    split at mem
    · rename_i admitted
      rw [decision] at admitted
      cases mem
      refine ⟨rfl, ?_, admitted.2⟩
      change unread state + size ≤ geometry.size
      omega
    · contradiction
  | writeFinished size =>
    cases grant with
    | none => simp [withinGrant] at within
    | some one =>
      have small : size ≤ one.size := by simpa [withinGrant] using within
      obtain ⟨pointer, room, inside, ends⟩ := granted one rfl
      have covered := covers one rfl
      have admitted := (decision size).mpr ⟨by omega, inside, by omega⟩
      simp only [decideCall, admitted, if_true]
      refine ⟨{ inv.core with }, ⟨pointer, ?_, inside, ?_⟩, inv.consumer⟩
      · change unread state + size ≤ geometry.size
        omega
      · change state.ring.tail + size ≤ geometry.mapSize
        omega

theorem produce_inv (inv : Inv geometry state) (whole : untorn state .produce)
    (h : produce geometry state = some next) : Inv geometry next := by
  unfold produce at h
  split at h
  · contradiction
  · rename_i loaded
    cases h
    exact decideCall_inv inv loaded (by simpa [untorn, loaded] using whole)
  · rename_i data tail copying
    cases h
    have granted := inv.producer
    rw [copying] at granted
    have copied := copyIn_inv inv granted.1 granted.2.1
    exact ⟨{ copied.core with }, granted, copied.consumer⟩
  · rename_i advancing
    cases h
    exact advance_inv inv advancing

theorem consumer_inv (inv : Inv geometry state) {consumer : Consumer}
    (before : lag geometry state.consumer = 0) (after : lag geometry consumer = 0)
    (facts : ConsumerInv geometry state consumer) :
    Inv geometry { state with consumer } := by
  have positive := geometry.positive
  have plain (one : Consumer) (h : lag geometry one = 0) : one ≠ .tailWrapping := by
    rintro rfl
    simp only [lag] at h
    omega
  refine ⟨{ inv.core with
      tail_eq := ?_
      wraps_eq := ?_ }, ?_, ?_⟩
  · have tail_eq := inv.core.tail_eq
    rw [before] at tail_eq
    rw [after]
    exact tail_eq
  · have wraps_eq := inv.core.wraps_eq
    rw [if_neg (plain _ before)] at wraps_eq
    rw [if_neg (plain _ after)]
    exact wraps_eq
  · exact producerInv_congr inv.producer rfl rfl rfl rfl
  · exact consumerInv_congr facts le_rfl rfl le_rfl

theorem release_inv (inv : Inv geometry state) {size : Nat}
    (advancing : state.consumer = .advancing size) :
    Inv geometry { state with
      ring := { state.ring with head := state.ring.head + size }
      consumer := .testing
      released := state.released + size } := by
  have facts := inv.consumer
  rw [advancing] at facts
  obtain ⟨head_lt, size_le⟩ := facts
  obtain ⟨released_le, unread_le, tail_eq, wraps_eq, inside, memory, kept⟩ := inv.core
  rw [advancing] at tail_eq wraps_eq
  set shorter := { state with
      ring := { state.ring with head := state.ring.head + size }
      consumer := .testing
      released := state.released + size } with hshorter
  have fewer : unread shorter = unread state - size := by
    simp only [hshorter, unread]
    omega
  have mapSize : geometry.mapSize = geometry.size + geometry.size := Nat.mul_two _
  simp only [lag, Nat.add_zero] at tail_eq
  refine ⟨⟨?_, by omega, ?_, ?_, inside, ?_, kept⟩, ?_, ?_⟩
  · simp only [unread] at size_le
    simp only [hshorter]
    omega
  · rw [fewer]
    simp only [hshorter, lag]
    omega
  · simpa [hshorter] using wraps_eq
  · rw [fewer]
    simp only [hshorter]
    rw [← slice_drop size_le, memory, List.drop_drop]
  · exact producerInv_mono inv.producer (by omega) rfl le_rfl le_rfl
      fun _ _ _ side => side
  · simp only [hshorter, ConsumerInv]
    omega

theorem headWrap_inv (inv : Inv geometry state)
    (wrapping : state.consumer = .headWrapping) :
    Inv geometry { state with
      ring := { state.ring with head := state.ring.head - geometry.size }
      consumer := .tailWrapping
      headWraps := state.headWraps + 1 } := by
  have facts := inv.consumer
  rw [wrapping] at facts
  obtain ⟨size_le, head_lt⟩ := facts
  obtain ⟨released_le, unread_le, tail_eq, wraps_eq, inside, memory, kept⟩ := inv.core
  rw [wrapping] at tail_eq wraps_eq
  have mapSize : geometry.mapSize = geometry.size + geometry.size := Nat.mul_two _
  simp only [lag, Nat.add_zero] at tail_eq
  refine ⟨⟨released_le, unread_le, ?_, ?_, inside, ?_, kept⟩, ?_, ?_⟩
  · change state.ring.tail = state.ring.head - geometry.size + unread state + geometry.size
    omega
  · simpa using wraps_eq
  · have same : (state.ring.head - geometry.size) % geometry.size =
        state.ring.head % geometry.size := (Nat.mod_eq_sub_mod size_le).symm
    exact (slice_congr_start _ _ same).trans memory
  · exact producerInv_mono inv.producer le_rfl rfl le_rfl (Nat.le_succ _)
      fun _ _ _ side => side
  · change state.ring.head - geometry.size < geometry.size
    omega

theorem tailWrap_inv (inv : Inv geometry state)
    (wrapping : state.consumer = .tailWrapping) :
    Inv geometry { state with
      ring := { state.ring with tail := state.ring.tail - geometry.size }
      consumer := .ready none
      tailWraps := state.tailWraps + 1 } := by
  have head_lt := inv.consumer
  rw [wrapping] at head_lt
  obtain ⟨released_le, unread_le, tail_eq, wraps_eq, inside, memory, kept⟩ := inv.core
  rw [wrapping] at tail_eq wraps_eq
  simp only [lag] at tail_eq
  have size_le : geometry.size ≤ state.ring.tail := by omega
  refine ⟨⟨released_le, unread_le, ?_, ?_, ?_, memory, kept⟩, ?_, head_lt, by simp⟩
  · change state.ring.tail - geometry.size = state.ring.head + unread state + 0
    omega
  · simpa using wraps_eq
  · exact (Nat.sub_le _ _).trans inside
  · refine producerInv_mono inv.producer le_rfl (Nat.mod_eq_sub_mod size_le).symm
      (Nat.sub_le _ _) le_rfl ?_
    rintro wraps tail wraps_le (⟨same, htail⟩ | ⟨same, htail⟩) <;> dsimp only at same htail
    · exact .inr ⟨same, by omega⟩
    · simp only [if_true] at wraps_eq
      omega

theorem consume_inv (inv : Inv geometry state)
    (h : consume geometry state = some next) : Inv geometry next := by
  have facts := inv.consumer
  have inside := inv.core.inside
  have tail_eq := inv.core.tail_eq
  have mapped := geometry.mapped
  have mapSize : geometry.mapSize = geometry.size + geometry.size := Nat.mul_two _
  unfold consume at h
  split at h
  · contradiction
  · rename_i size head loaded
    rw [loaded] at facts tail_eq
    obtain ⟨head_lt, rfl⟩ := facts
    simp only [lag, Nat.add_zero] at tail_eq
    cases h
    refine consumer_inv inv (by rw [loaded]; rfl) rfl ⟨head_lt, ?_⟩
    intro granted mem
    split at mem
    · rename_i admitted
      rw [admitsRead_iff head_lt (by omega) inside] at admitted
      cases mem
      exact ⟨rfl, by dsimp only; omega⟩
    · contradiction
  · rename_i size tail loaded
    rw [loaded] at facts tail_eq
    obtain ⟨head_lt, head_le, tail_le⟩ := facts
    simp only [lag, Nat.add_zero] at tail_eq
    cases h
    rw [wordSub_of_le head_le (by omega)]
    split
    · exact consumer_inv inv (by rw [loaded]; rfl) rfl ⟨head_lt, by simp⟩
    · exact consumer_inv inv (by rw [loaded]; rfl) rfl ⟨head_lt, by omega⟩
  · rename_i advancing
    cases h
    exact release_inv inv advancing
  · rename_i testing
    rw [testing] at facts
    cases h
    split
    · rename_i wraps
      exact consumer_inv inv (by rw [testing]; rfl) rfl ⟨wraps, facts⟩
    · rename_i fits
      exact consumer_inv inv (by rw [testing]; rfl) rfl ⟨Nat.lt_of_not_le fits, by simp⟩
  · rename_i wrapping
    cases h
    exact headWrap_inv inv wrapping
  · rename_i wrapping
    cases h
    exact tailWrap_inv inv wrapping

theorem step_inv (inv : Inv geometry state) {action : Action Cell}
    (whole : untorn state action) (h : step geometry state action = some next) :
    Inv geometry next := by
  cases action with
  | call call =>
    simp only [step] at h
    split at h
    · rename_i ready
      split at h
      · rename_i within
        cases h
        exact call_inv inv ready within
      · contradiction
    · contradiction
  | fill data =>
    simp only [step] at h
    split at h
    · rename_i grant ready
      split at h
      · rename_i fits
        cases h
        have granted := inv.producer
        rw [ready] at granted
        obtain ⟨target, room, -⟩ := granted grant rfl
        exact copyIn_inv inv target (by omega)
      · contradiction
    · contradiction
  | produce => exact produce_inv inv whole h
  | readPtr size =>
    simp only [step] at h
    split at h
    · rename_i ready
      cases h
      have facts := inv.consumer
      rw [ready] at facts
      exact consumer_inv inv (by rw [ready]; rfl) rfl ⟨facts.1, rfl⟩
    · contradiction
  | readFinished size =>
    simp only [step] at h
    split at h
    · rename_i ready
      cases h
      have facts := inv.consumer
      have tail_eq := inv.core.tail_eq
      rw [ready] at facts
      exact consumer_inv inv (by rw [ready]; rfl) rfl ⟨facts.1, by omega, le_rfl⟩
    · contradiction
  | consume => exact consume_inv inv h

theorem Inv.commitsKept (inv : Inv geometry state) : CommitsKept geometry state := by
  refine ⟨inv.core.kept, fun grant ready => ?_⟩
  have facts := inv.consumer
  have tail_eq := inv.core.tail_eq
  rw [ready] at facts tail_eq
  simp only [lag, Nat.add_zero] at tail_eq
  have filled : state.ring.tail - state.ring.head = unread state := by omega
  refine ⟨by rw [contents, filled]; exact inv.core.memory, fun granted mem => ?_⟩
  obtain ⟨pointer, size_le⟩ := facts.2 granted mem
  rw [← inv.core.memory, pointer]
  exact (slice_take size_le).symm

/-- In every run whose write calls load an untorn pair of indices, each commit
inside its grant succeeds and its bytes are read once, in order. -/
theorem commits_kept (buffer : Nat → Cell) (schedule : List (Action Cell))
    (last : State Cell)
    (h : Machine.run (Machine.guarded untorn (step geometry)) (initial buffer) schedule =
      some last) :
    CommitsKept geometry last := by
  refine Inv.commitsKept (Machine.run_invariant (Inv geometry) ?_ (initial_inv buffer) h)
  intro state action next inv taken
  obtain ⟨whole, taken⟩ := Machine.guarded_eq_some.mp taken
  exact step_inv inv whole taken

/-- A full page is written and released. The consumer stops between the two
steps of its wrap, after the producer was granted one byte; the commit of that
byte then loads the new head with the old tail. -/
def tornCommit : List (Action UInt8) :=
  [.call (.writePtr 4096), .produce, .call (.writeFinished 4096), .produce, .produce,
    .readPtr 4096, .consume, .readFinished 4096, .consume, .consume, .consume,
    .call (.writePtr 1), .produce, .consume, .call (.writeFinished 1), .produce]

theorem commit_refused :
    ¬∀ (geometry : Geometry) (schedule : List (Action UInt8)) (last : State UInt8),
      Machine.run (step geometry) (initial fun _ => 0) schedule = some last →
        CommitsKept geometry last := by
  intro claim
  have refused : ((Machine.run (step page) (initial fun _ => 0) tornCommit).map State.lost) =
      some true := by decide
  obtain ⟨last, reached, lost⟩ := Option.map_eq_some_iff.mp refused
  rw [(claim page tornCommit last reached).1] at lost
  contradiction

def wholeCommit : List (Action UInt8) :=
  [.call (.writePtr 4096), .produce, .call (.writeFinished 4096), .produce, .produce,
    .readPtr 4096, .consume, .readFinished 4096, .consume, .consume, .consume,
    .call (.writePtr 1), .produce, .consume, .consume, .call (.writeFinished 1),
    .produce, .produce]

theorem commits_kept_page : CommitsKept page
    ((Machine.run (Machine.guarded untorn (step page)) (initial fun _ => 0)
      wholeCommit).get (by decide)) :=
  commits_kept _ wholeCommit _ (Option.some_get _).symm

end MisrcGui.Ring.Commit
