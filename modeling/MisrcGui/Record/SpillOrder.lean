import MisrcGui.Record.SpillQueue

/-! The spill file as a queue. An enqueue loads its offset outside the lock, so
a recycle or the other thread can move the end of the queue before its block is
written. In runs without such a race the file refines the abstract channel. -/
namespace MisrcGui.Record.SpillOrder
open Library Library.SparseFile SpillQueue

variable {Cell : Type}

def zeroing : Pc Cell → Bool
  | .recycle .zeroWrite | .recycle .zeroRead => true
  | _ => false

/-- The thread has created the file and has not yet published it. -/
def creating : Pc Cell → Bool
  | .opening .zeroWrite _ | .opening .zeroRead _ | .opening .setOpened _ => true
  | _ => false

def EnqueueInv (state : State Cell) (data : List Cell) : EnqueuePc → Prop
  | .storeWrite writeOff => writeOff = state.writeOffset ∧
      writeOff + data.length ≤ state.file.length ∧
      range state.file writeOff (writeOff + data.length) = data
  | _ => True

def ReadInv (state : State Cell) (bytes : Nat) : ReadPc Cell → Prop
  | .test => True
  | .loadWrite => state.opened
  | .loadRead writeOff => state.opened ∧ writeOff ≤ state.writeOffset
  | .fileSection readOff => state.opened ∧ readOff = state.readOffset ∧
      readOff + bytes ≤ state.writeOffset
  | .storeRead block readOff => state.opened ∧ readOff = state.readOffset ∧
      readOff + bytes ≤ state.writeOffset ∧ block = pread state.file readOff bytes

def RecycleInv (state : State Cell) : RecyclePc → Prop
  | .test | .loadWrite | .loadRead _ | .lock => True
  | .zeroWrite => state.ioLock ∧ state.writeOffset = state.readOffset
  | .zeroRead => state.ioLock ∧ state.writeOffset = 0
  | _ => state.ioLock

def PcInv (state : State Cell) (thread : Thread) : Pc Cell → Prop
  | .idle => True
  | .opening pc data => creating (.opening pc data : Pc Cell) →
      state.opened = false ∧ state.fp.isSome
  | .enqueue pc data => state.opened ∧ EnqueueInv state data pc
  | .read pc bytes => thread = .writer ∧ ReadInv state bytes pc
  | .recycle pc => thread = .writer ∧ state.opened ∧ RecycleInv state pc

def Compatible (left right : Pc Cell) : Prop :=
  (left.storing → right.storing = false ∧ zeroing right = false) ∧
    (right.storing → zeroing left = false) ∧ (creating left → creating right = false)

theorem Compatible.symm {left right : Pc Cell} (h : Compatible left right) :
    Compatible right left := by
  unfold Compatible at h ⊢
  grind

structure Inv (state : State Cell) : Prop where
  bounds : (∀ thread, zeroing (state.pcs thread) = false) →
    state.readOffset ≤ state.writeOffset ∧ state.writeOffset ≤ state.file.length
  closed : state.opened = false → state.writeOffset = 0 ∧ state.readOffset = 0
  created : state.opened → state.fp.isSome
  own : ∀ thread, PcInv state thread (state.pcs thread)
  compatible : ∀ thread, Compatible (state.pcs thread) (state.pcs thread.other)

variable {state next mid : State Cell} {thread : Thread} {pc : Pc Cell} {io : Io}

theorem other_cases (thread one : Thread) : one = thread ∨ one = thread.other := by
  cases thread <;> cases one <;> decide

@[simp] theorem other_ne (thread : Thread) : thread.other ≠ thread := by
  cases thread <;> decide

@[simp] theorem other_other (thread : Thread) : thread.other.other = thread := by
  cases thread <;> rfl

@[simp] theorem goto_self : (state.goto thread pc).pcs thread = pc :=
  Function.update_self ..

@[simp] theorem goto_other :
    (state.goto thread pc).pcs thread.other = state.pcs thread.other :=
  Function.update_of_ne (other_ne thread) ..

theorem PcInv.goto {one : Thread} {place : Pc Cell} (h : PcInv state one place) :
    PcInv (state.goto thread pc) one place := by
  rcases place with _ | ⟨_⟩ | ⟨_ | _ | _ | _⟩ | ⟨_ | _ | _ | _ | _⟩ |
    ⟨_ | _ | _ | _ | _ | _ | _ | _ | _ | _ | _⟩ <;> exact h

/-- The goals of a step: the facts of the thread that moved, those of the other
thread over the changed fields, and that the two places go together. -/
theorem inv_goto (same : mid.pcs = state.pcs)
    (own : PcInv mid thread pc) (other : PcInv mid thread.other (state.pcs thread.other))
    (compatible : Compatible pc (state.pcs thread.other))
    (bounds : zeroing pc = false → zeroing (state.pcs thread.other) = false →
      mid.readOffset ≤ mid.writeOffset ∧ mid.writeOffset ≤ mid.file.length)
    (closed : mid.opened = false → mid.writeOffset = 0 ∧ mid.readOffset = 0)
    (created : mid.opened → mid.fp.isSome) : Inv (mid.goto thread pc) where
  bounds := by
    intro calm
    apply bounds
    · simpa using calm thread
    · simpa [same] using calm thread.other
  closed := closed
  created := created
  own := by
    intro one
    rcases other_cases thread one with rfl | rfl
    · rw [goto_self]
      exact own.goto
    · rw [goto_other, same]
      exact other.goto
  compatible := by
    intro one
    rcases other_cases thread one with rfl | rfl
    · rw [goto_self, goto_other, same]
      exact compatible
    · rw [goto_other, other_other, goto_self, same]
      exact compatible.symm

theorem Inv.quiet (inv : Inv state) (before : zeroing (state.pcs thread) = false)
    (storing : pc.storing = false) (zeroed : zeroing pc = false)
    (fresh : creating pc = false) (own : PcInv state thread pc) :
    Inv (state.goto thread pc) := by
  apply inv_goto rfl own (inv.own _) _ _ inv.closed inv.created
  · exact ⟨by simp [storing], by simp [zeroed], by simp [fresh]⟩
  · intro _ calm
    apply inv.bounds
    intro one
    rcases other_cases thread one with rfl | rfl
    · exact before
    · exact calm

theorem Inv.calm_of_unlocked (inv : Inv state) (free : state.ioLock = false)
    (one : Thread) : zeroing (state.pcs one) = false := by
  have facts := inv.own one
  revert facts
  rcases state.pcs one with _ | _ | _ | _ | ⟨_ | _ | _ | _ | _ | _ | _ | _ | _ | _ | _⟩ <;>
    simp [zeroing, PcInv, RecycleInv, free]

def view (state : State Cell) : Fifo.Channel Cell where
  queue := range state.file state.readOffset state.writeOffset
  sent := (state.accepted.map Prod.snd).flatten
  received := state.returned.flatten

def Matched (state next : State Cell) : Prop :=
  Inv next ∧ ∃ events, Machine.run Fifo.step (view state) events = some (view next)

theorem Inv.silent (inv : Inv next) (same : view next = view state) : Matched state next :=
  ⟨inv, [], by rw [same]; rfl⟩

theorem Inv.quiet_matched (inv : Inv state) (before : zeroing (state.pcs thread) = false)
    (storing : pc.storing = false) (zeroed : zeroing pc = false)
    (fresh : creating pc = false) (own : PcInv state thread pc) :
    Matched state (state.goto thread pc) :=
  (inv.quiet before storing zeroed fresh own).silent rfl

theorem Inv.creating_matched (inv : Inv state) (before : creating (state.pcs thread))
    (storing : pc.storing = false) (zeroed : zeroing pc = false)
    (own : PcInv state thread pc) : Matched state (state.goto thread pc) := by
  have alone := (inv.compatible thread).2.2 before
  have calm : zeroing (state.pcs thread) = false := by
    revert before
    rcases state.pcs thread with _ | ⟨_⟩ | _ | _ | _ <;> simp [creating, zeroing]
  apply Inv.silent _ rfl
  apply inv_goto rfl own (inv.own _) _ _ inv.closed inv.created
  · exact ⟨by simp [storing], by simp [zeroed], fun _ => alone⟩
  · intro _ other
    apply inv.bounds
    intro one
    rcases other_cases thread one with rfl | rfl
    · exact calm
    · exact other

theorem create_matched (inv : Inv state) {data : List Cell} (absent : state.fp = none) :
    Matched state ({ state with fp := some [] }.goto thread (.opening .zeroWrite data)) := by
  have unopened : state.opened = false := by
    by_contra h
    have := inv.created (by simpa using h)
    simp [absent] at this
  have other := inv.own thread.other
  apply Inv.silent _ (by simp [view, State.goto, State.file, absent])
  refine inv_goto rfl ?_ ?_ ?_ ?_ inv.closed fun _ => rfl
  · exact fun _ => ⟨unopened, rfl⟩
  · revert other
    rcases state.pcs thread.other with _ | ⟨_⟩ | ⟨_ | _ | _ | _⟩ | ⟨_ | _ | _ | _ | _⟩ |
      ⟨_ | _ | _ | _ | _ | _ | _ | _ | _ | _ | _⟩ <;>
      simp [PcInv, EnqueueInv, ReadInv, RecycleInv, unopened]
  · have alone : creating (state.pcs thread.other) = false := by
      revert other
      rcases state.pcs thread.other with _ | ⟨_⟩ | _ | _ | _ <;>
        simp [creating, PcInv, absent]
    refine ⟨?_, ?_, fun _ => alone⟩ <;> simp [Pc.storing, zeroing]
  · intro _ _
    simp [inv.closed unopened]

theorem setOpened_matched (inv : Inv state) {data : List Cell}
    (here : state.pcs thread = .opening .setOpened data) :
    Matched state ({ state with opened := true }.goto thread (.enqueue .force data)) := by
  have facts := inv.own thread
  have alone := (inv.compatible thread).2.2
  have other := inv.own thread.other
  rw [here] at facts alone
  obtain ⟨unopened, present⟩ := facts rfl
  have closed := inv.closed unopened
  apply Inv.silent _ rfl
  refine inv_goto rfl ?_ ?_ ?_ ?_ ?_ fun _ => present
  · exact ⟨rfl, trivial⟩
  · revert other
    have alone := alone rfl
    revert alone
    rcases state.pcs thread.other with _ | ⟨_ | _ | _ | _ | _⟩ | ⟨_ | _ | _ | _⟩ |
      ⟨_ | _ | _ | _ | _⟩ |
      ⟨_ | _ | _ | _ | _ | _ | _ | _ | _ | _ | _⟩ <;>
      simp [PcInv, EnqueueInv, ReadInv, RecycleInv, creating, unopened]
  · refine ⟨?_, ?_, ?_⟩ <;> simp [Pc.storing, zeroing, creating]
  · intro _ _
    simp [closed]
  · simp

theorem spillOpenChannel_matched (inv : Inv state) {pc : OpenPc} {data : List Cell}
    (here : state.pcs thread = .opening pc data)
    (allowed : steady state (.advance thread io)) :
    Matched state (spillOpenChannel state thread io data pc) := by
  have facts := inv.own thread
  rw [here] at facts
  have before : zeroing (state.pcs thread) = false := by rw [here]; rfl
  have leave : Matched state (state.goto thread .idle) :=
    inv.quiet_matched before rfl rfl rfl trivial
  cases pc with
  | test =>
    cases io with
    | fails => exact leave
    | succeeds =>
      simp only [spillOpenChannel]
      split
      · rename_i opened
        exact inv.quiet_matched before rfl rfl rfl ⟨opened, trivial⟩
      · exact inv.quiet_matched before rfl rfl rfl (by simp [PcInv, creating])
  | create =>
    cases io with
    | fails => exact leave
    | succeeds => exact create_matched inv (by simpa [steady, here] using allowed)
  | zeroWrite =>
    have closed := inv.closed (facts rfl).1
    have same : { state with writeOffset := 0 } = state := by rw [← closed.1]
    simp only [spillOpenChannel, same]
    exact inv.creating_matched (by rw [here]; rfl) rfl rfl fun _ => facts rfl
  | zeroRead =>
    have closed := inv.closed (facts rfl).1
    have same : { state with readOffset := 0 } = state := by rw [← closed.2]
    simp only [spillOpenChannel, same]
    exact inv.creating_matched (by rw [here]; rfl) rfl rfl fun _ => facts rfl
  | setOpened => exact setOpened_matched inv here

theorem Inv.forced (inv : Inv state) (mode : Bool) :
    Inv { state with forcedMode := mode } := by
  refine ⟨inv.bounds, inv.closed, inv.created, fun one => ?_, inv.compatible⟩
  have facts := inv.own one
  revert facts
  change PcInv state one (state.pcs one) → PcInv _ one (state.pcs one)
  rcases state.pcs one with _ | ⟨_⟩ | ⟨_ | _ | _ | _⟩ | ⟨_ | _ | _ | _ | _⟩ |
    ⟨_ | _ | _ | _ | _ | _ | _ | _ | _ | _ | _⟩ <;> exact id

@[simp] theorem view_goto : view (state.goto thread pc) = view state := rfl

/-- A write at the current offset leaves the queue and what a reader of it has
seen alone. -/
theorem fwrite_kept [Zero Cell] (inv : Inv state) (opened : state.opened)
    (free : state.ioLock = false) (data : List Cell)
    (quiet : (state.pcs thread.other).storing = false) :
    (state.fwrite state.writeOffset data).file =
        pwrite 0 state.file state.writeOffset data ∧
      view (state.fwrite state.writeOffset data) = view state ∧
      PcInv (state.fwrite state.writeOffset data) thread.other (state.pcs thread.other) := by
  obtain ⟨-, inside⟩ := inv.bounds (inv.calm_of_unlocked free)
  obtain ⟨file, present⟩ := Option.isSome_iff_exists.mp (inv.created opened)
  have written : (state.fwrite state.writeOffset data).file =
      pwrite 0 state.file state.writeOffset data := by
    simp [State.fwrite, State.file, present]
  refine ⟨written, ?_, ?_⟩
  · unfold view
    rw [written]
    simp only [State.fwrite, range_pwrite inside (Nat.le_refl _)]
  · have other := inv.own thread.other
    revert other quiet
    rcases state.pcs thread.other with _ | ⟨_ | _ | _ | _ | _⟩ | ⟨_ | _ | _ | _⟩ |
      ⟨_ | _ | _ | _ | ⟨block, readOff⟩, bytes⟩ |
      ⟨_ | _ | _ | _ | _ | _ | _ | _ | _ | _ | _⟩ <;>
      simp_all [PcInv, EnqueueInv, ReadInv, RecycleInv, Pc.storing, creating, State.fwrite]
    intro _ _ ends _
    rw [pread_pwrite inside ends]

theorem fwrite_matched [Zero Cell] (inv : Inv state) (opened : state.opened)
    (free : state.ioLock = false) (data : List Cell)
    (quiet : (state.pcs thread.other).storing = false) (zeroed : zeroing pc = false)
    (fresh : creating pc = false)
    (own : (state.fwrite state.writeOffset data).file =
      pwrite 0 state.file state.writeOffset data →
      PcInv (state.fwrite state.writeOffset data) thread pc) :
    Matched state ((state.fwrite state.writeOffset data).goto thread pc) := by
  have calm := inv.calm_of_unlocked free
  obtain ⟨ordered, inside⟩ := inv.bounds calm
  obtain ⟨written, same, kept⟩ := fwrite_kept inv opened free data quiet
  refine Inv.silent ?_ same
  refine inv_goto rfl (own written) kept ?_ ?_ inv.closed ?_
  · exact ⟨fun _ => ⟨quiet, calm _⟩, fun _ => zeroed, by simp [fresh]⟩
  · intro _ _
    refine ⟨ordered, ?_⟩
    rw [written, length_pwrite inside]
    exact Nat.le_trans inside (Nat.le_max_left _ _)
  · intro _
    simpa [State.fwrite] using inv.created opened

theorem storeWrite_matched (inv : Inv state) {data : List Cell} {writeOff : Nat}
    (here : state.pcs thread = .enqueue (.storeWrite writeOff) data) :
    Matched state ({ state with
      writeOffset := writeOff + data.length
      accepted := state.accepted ++ [(thread, data)] }.goto thread .idle) := by
  have facts := inv.own thread
  have compatible := inv.compatible thread
  rw [here] at facts compatible
  obtain ⟨opened, rfl, ends, block⟩ := facts
  obtain ⟨quiet, calm⟩ := compatible.1 rfl
  obtain ⟨ordered, inside⟩ := inv.bounds fun one => by
    rcases other_cases thread one with rfl | rfl
    · rw [here]
      rfl
    · exact calm
  have queue : range state.file state.readOffset (state.writeOffset + data.length) =
      range state.file state.readOffset state.writeOffset ++ data := by
    rw [range_add ordered inside, block]
  have sent : ((state.accepted ++ [(thread, data)]).map Prod.snd).flatten =
      (state.accepted.map Prod.snd).flatten ++ data := by
    simp
  refine ⟨?_, [.send data], ?_⟩
  · refine inv_goto rfl trivial ?_ ?_ ?_ ?_ inv.created
    · have other := inv.own thread.other
      revert other quiet calm
      rcases state.pcs thread.other with _ | ⟨_ | _ | _ | _ | _⟩ | ⟨_ | _ | _ | _⟩ |
        ⟨_ | _ | _ | _ | _⟩ |
        ⟨_ | _ | _ | _ | _ | _ | _ | _ | _ | _ | _⟩ <;>
        simp_all [PcInv, EnqueueInv, ReadInv, RecycleInv, Pc.storing, zeroing, creating,
          State.file] <;>
        omega
    · exact ⟨by simp [Pc.storing], fun _ => rfl, by simp [creating]⟩
    · intro _ _
      exact ⟨Nat.le_trans ordered (Nat.le_add_right _ _), ends⟩
    · intro closed
      simp [opened] at closed
  · change some (Fifo.Channel.mk _ _ _) = some (Fifo.Channel.mk (range state.file
      state.readOffset (state.writeOffset + data.length))
      (((state.accepted ++ [(thread, data)]).map Prod.snd).flatten) _)
    rw [queue, sent]
    rfl

theorem spillEnqueue_matched [Zero Cell] (inv : Inv state) {pc : EnqueuePc}
    {data : List Cell} (here : state.pcs thread = .enqueue pc data)
    (allowed : steady state (.advance thread io))
    (h : spillEnqueue state thread io data pc = some next) : Matched state next := by
  have facts := inv.own thread
  rw [here] at facts
  obtain ⟨opened, -⟩ := facts
  have before : zeroing (state.pcs thread) = false := by rw [here]; rfl
  cases pc with
  | force =>
    cases h
    refine Inv.silent ?_ rfl
    exact (inv.forced true).quiet before rfl rfl rfl ⟨opened, trivial⟩
  | loadWrite =>
    cases h
    exact inv.quiet_matched before rfl rfl rfl ⟨opened, trivial⟩
  | fileSection writeOff =>
    have guard : writeOff = state.writeOffset ∧
        (state.pcs thread.other).storing = false := by
      simpa [steady, here] using allowed
    obtain ⟨rfl, quiet⟩ := guard
    simp only [spillEnqueue] at h
    split at h
    · contradiction
    · rename_i unlocked
      have free : state.ioLock = false := by simpa using unlocked
      cases io with
      | succeeds =>
        cases h
        apply fwrite_matched inv opened free data quiet rfl rfl
        intro written
        have inside := (inv.bounds (inv.calm_of_unlocked free)).2
        refine ⟨opened, rfl, ?_, ?_⟩
        · rw [written, length_pwrite inside]
          exact Nat.le_max_right _ _
        · rw [written]
          exact range_of_pwrite inside
      | fails count =>
        simp only at h
        split at h
        · cases h
          exact fwrite_matched inv opened free _ quiet rfl rfl fun _ => trivial
        · contradiction
  | storeWrite writeOff =>
    cases h
    exact storeWrite_matched inv here

theorem PcInv.capture (h : PcInv state .capture pc) (opened : next.opened = state.opened)
    (present : state.fp.isSome → next.fp.isSome)
    (stored : pc.storing →
      next.file = state.file ∧ next.writeOffset = state.writeOffset) :
    PcInv next .capture pc := by
  revert h stored
  rcases pc with _ | ⟨_ | _ | _ | _ | _⟩ | ⟨_ | _ | _ | _⟩ | _ | _ <;>
    simp_all [PcInv, EnqueueInv, creating, Pc.storing]

theorem Inv.capture_calm (inv : Inv state) : zeroing (state.pcs .capture) = false := by
  have facts := inv.own .capture
  revert facts
  rcases state.pcs .capture with _ | _ | _ | _ | _ <;> simp [PcInv, zeroing]

theorem Inv.capture_quiet (inv : Inv state) (zeroed : zeroing (state.pcs .writer)) :
    (state.pcs .capture).storing = false := by
  by_contra h
  have apart := ((inv.compatible .capture).1 (by simpa using h)).2
  change zeroing (state.pcs .writer) = false at apart
  exact absurd (zeroed.symm.trans apart) (by simp)

theorem storeRead_matched (inv : Inv state) {bytes readOff : Nat} {block : List Cell}
    (here : state.pcs .writer = .read (.storeRead block readOff) bytes) :
    Matched state ({ state with
      readOffset := readOff + bytes
      returned := state.returned ++ [block] }.goto .writer (.recycle .test)) := by
  have facts := inv.own .writer
  rw [here] at facts
  obtain ⟨-, opened, rfl, ends, rfl⟩ := facts
  obtain ⟨-, inside⟩ := inv.bounds fun one => by
    cases one with
    | capture => exact inv.capture_calm
    | writer =>
      rw [here]
      rfl
  refine ⟨?_, [.receive bytes], ?_⟩
  · refine inv_goto rfl ⟨rfl, opened, trivial⟩ ?_ ?_ ?_ ?_ inv.created
    · exact (inv.own .capture).capture rfl id fun _ => ⟨rfl, rfl⟩
    · exact ⟨by simp [Pc.storing], fun _ => rfl, by simp [creating]⟩
    · exact fun _ _ => ⟨ends, inside⟩
    · intro closed
      simp [opened] at closed
  · have enough : bytes ≤ (view state).queue.length := by
      simp only [view, length_range inside]
      omega
    simp only [Machine.run_cons, Machine.run_nil, Fifo.step, if_pos enough, Option.bind_some]
    change some (Fifo.Channel.mk _ _ _) = some (Fifo.Channel.mk (range state.file
      (state.readOffset + bytes) state.writeOffset) _
      ((state.returned ++ [pread state.file state.readOffset bytes]).flatten))
    simp only [view, drop_range, take_range ends, List.flatten_append, List.flatten_cons,
      List.flatten_nil, List.append_nil]
    rfl

theorem spillReadBlock_matched (inv : Inv state) {pc : ReadPc Cell} {bytes : Nat}
    (here : state.pcs thread = .read pc bytes)
    (h : spillReadBlock state thread io bytes pc = some next) : Matched state next := by
  have facts := inv.own thread
  rw [here] at facts
  obtain ⟨rfl, facts⟩ := facts
  have before : zeroing (state.pcs .writer) = false := by rw [here]; rfl
  have leave : Matched state (state.goto .writer .idle) :=
    inv.quiet_matched before rfl rfl rfl trivial
  cases pc with
  | test =>
    simp only [spillReadBlock] at h
    split at h
    · rename_i ready
      cases h
      apply inv.quiet_matched before rfl rfl rfl
      simp only [Bool.and_eq_true] at ready
      exact ⟨rfl, ready.1⟩
    · cases h
      exact leave
  | loadWrite =>
    cases h
    exact inv.quiet_matched before rfl rfl rfl ⟨rfl, facts, Nat.le_refl _⟩
  | loadRead writeOff =>
    obtain ⟨opened, seen⟩ := facts
    simp only [spillReadBlock] at h
    split at h
    · cases h
      exact leave
    · cases h
      apply inv.quiet_matched before rfl rfl rfl
      exact ⟨rfl, opened, rfl, by omega⟩
  | fileSection readOff =>
    obtain ⟨opened, same, ends⟩ := facts
    simp only [spillReadBlock] at h
    split at h
    · contradiction
    · split at h
      · cases h
        apply inv.quiet_matched before rfl rfl rfl
        exact ⟨rfl, opened, same, ends, rfl⟩
      · cases h
        exact leave
  | storeRead block readOff =>
    cases h
    exact storeRead_matched inv here

theorem recycle_inv (inv : Inv state) {before after : RecyclePc} (same : mid.pcs = state.pcs)
    (here : state.pcs .writer = .recycle before) (opened : mid.opened = state.opened)
    (present : state.fp.isSome → mid.fp.isSome)
    (stored : (state.pcs .capture).storing →
      mid.file = state.file ∧ mid.writeOffset = state.writeOffset)
    (apart : zeroing (.recycle after : Pc Cell) → (state.pcs .capture).storing = false)
    (facts : RecycleInv mid after)
    (bounds : zeroing (.recycle after : Pc Cell) = false →
      mid.readOffset ≤ mid.writeOffset ∧ mid.writeOffset ≤ mid.file.length) :
    Inv (mid.goto .writer (.recycle after)) := by
  have mine := inv.own .writer
  rw [here] at mine
  refine inv_goto same ⟨rfl, opened.trans mine.2.1, facts⟩ ?_ ?_ ?_ ?_ ?_
  · exact (inv.own .capture).capture opened present stored
  · refine ⟨by simp [Pc.storing], fun storing => ?_, by simp [creating]⟩
    cases h : zeroing (.recycle after : Pc Cell) with
    | false => rfl
    | true =>
      have := apart h
      exact absurd (this.symm.trans storing) Bool.false_ne_true
  · exact fun calm _ => bounds calm
  · intro closed
    rw [opened, mine.2.1] at closed
    contradiction
  · exact fun _ => present (inv.created mine.2.1)

theorem spillRecycleIfDrained_matched (inv : Inv state) {pc : RecyclePc}
    (here : state.pcs thread = .recycle pc) (allowed : steady state (.advance thread io))
    (h : spillRecycleIfDrained state thread io pc = some next) : Matched state next := by
  have facts := inv.own thread
  rw [here] at facts
  obtain ⟨rfl, opened, facts⟩ := facts
  have bounds (calm : zeroing (.recycle pc : Pc Cell) = false) := inv.bounds fun one => by
    cases one with
    | capture => exact inv.capture_calm
    | writer =>
      rw [here]
      exact calm
  have leave (calm : zeroing (.recycle pc : Pc Cell) = false) :
      Matched state (state.goto .writer .idle) :=
    inv.quiet_matched (by rw [here]; exact calm) rfl rfl rfl trivial
  have move {after : RecyclePc} (calm : zeroing (.recycle pc : Pc Cell) = false)
      (zeroed : zeroing (.recycle after : Pc Cell) = false)
      (own : RecycleInv state after) : Matched state (state.goto .writer (.recycle after)) :=
    inv.quiet_matched (by rw [here]; exact calm) rfl zeroed rfl ⟨rfl, opened, own⟩
  cases pc with
  | test | loadRead =>
    simp only [spillRecycleIfDrained] at h
    split at h <;> cases h
    · exact move rfl rfl trivial
    · exact leave rfl
  | loadWrite =>
    cases h
    exact move rfl rfl trivial
  | lock =>
    simp only [spillRecycleIfDrained] at h
    split at h
    · contradiction
    · cases h
      refine Inv.silent ?_ rfl
      exact recycle_inv inv rfl here rfl id (fun _ => ⟨rfl, rfl⟩) (by simp [zeroing]) rfl
        fun _ => bounds rfl
  | lockedWrite =>
    cases h
    exact move rfl rfl facts
  | lockedRead writeOff =>
    simp only [spillRecycleIfDrained] at h
    split at h <;> cases h
    · exact move rfl rfl facts
    · exact move rfl rfl facts
  | truncate =>
    have guard : state.writeOffset = state.readOffset ∧
        (state.pcs .capture).storing = false := by
      simpa [steady, here, Thread.other] using allowed
    obtain ⟨drained, quiet⟩ := guard
    cases io with
    | succeeds =>
      cases h
      refine Inv.silent ?_ (by simp [view, State.goto, drained])
      exact recycle_inv inv rfl here rfl (fun _ => rfl) (fun h => absurd h (by simp [quiet]))
        (fun _ => quiet) ⟨facts, drained⟩ (by simp [zeroing])
    | fails =>
      cases h
      refine Inv.silent ?_ rfl
      exact recycle_inv inv rfl here rfl id (fun _ => ⟨rfl, rfl⟩) (fun _ => quiet)
        ⟨facts, drained⟩ (by simp [zeroing])
  | zeroWrite =>
    obtain ⟨locked, drained⟩ := facts
    have quiet := inv.capture_quiet (by rw [here]; rfl)
    cases h
    refine Inv.silent ?_ (by simp [view, State.goto, State.file, drained])
    exact recycle_inv inv rfl here rfl id (fun h => absurd h (by simp [quiet]))
      (fun _ => quiet) ⟨locked, rfl⟩ (by simp [zeroing])
  | zeroRead =>
    obtain ⟨locked, zero⟩ := facts
    have quiet := inv.capture_quiet (by rw [here]; rfl)
    cases h
    refine Inv.silent ?_ (by simp [view, State.goto, State.file, zero])
    exact recycle_inv inv rfl here rfl id (fun h => absurd h (by simp [quiet]))
      (fun _ => quiet) locked fun _ => by simp [zero]
  | clearForced =>
    cases h
    refine Inv.silent ?_ rfl
    exact recycle_inv inv rfl here rfl id (fun _ => ⟨rfl, rfl⟩) (by simp [zeroing]) facts
      fun _ => bounds rfl
  | unlock =>
    cases h
    refine Inv.silent (inv_goto rfl trivial ?_ ?_ ?_ inv.closed inv.created) rfl
    · exact (inv.own .capture).capture rfl id fun _ => ⟨rfl, rfl⟩
    · exact ⟨by simp [Pc.storing], fun _ => rfl, by simp [creating]⟩
    · exact fun _ _ => bounds rfl

theorem initial_inv : Inv (initial : State Cell) where
  bounds := by simp [initial]
  closed := by simp [initial]
  created := by simp [initial]
  own := fun _ => trivial
  compatible := by simp [initial, Compatible, Pc.storing, creating]

theorem step_matched [Zero Cell] (inv : Inv state) {action : Action Cell}
    (allowed : steady state action) (h : step state action = some next) :
    Matched state next := by
  cases action with
  | enqueue thread data =>
    simp only [step] at h
    split at h
    · rename_i ready
      split at h <;> cases h
      · exact inv.silent rfl
      · exact inv.quiet_matched (by rw [ready]; rfl) rfl rfl rfl (by simp [PcInv, creating])
    · contradiction
  | readBlock bytes =>
    simp only [step] at h
    split at h
    · rename_i ready
      split at h <;> cases h
      · exact inv.silent rfl
      · exact inv.quiet_matched (by rw [ready]; rfl) rfl rfl rfl ⟨rfl, trivial⟩
    · contradiction
  | advance thread io =>
    simp only [step] at h
    split at h
    · contradiction
    · rename_i here
      cases h
      exact spillOpenChannel_matched inv here allowed
    · rename_i here
      exact spillEnqueue_matched inv here allowed h
    · rename_i here
      exact spillReadBlock_matched inv here h
    · rename_i here
      exact spillRecycleIfDrained_matched inv here allowed h

/-- In every run without a stale or unfinished enqueue at a write or truncation
the spill file is a queue: reads return the enqueued bytes once and in order. -/
theorem spill_in_order [Zero Cell] (schedule : List (Action Cell)) (last : State Cell)
    (h : Machine.run (Machine.guarded steady step) initial schedule = some last) :
    InOrder last := by
  obtain ⟨events, matched⟩ := Machine.run_simulation view Inv
    (fun state action next inv taken => by
      obtain ⟨allowed, taken⟩ := Machine.guarded_eq_some.mp taken
      exact step_matched inv allowed taken) initial_inv h
  have start : Fifo.Conserved (view (initial : State Cell)) := by
    simp [Fifo.Conserved, view, initial]
  exact ⟨last.accepted, fun _ => rfl, Fifo.run_prefix start matched⟩

def advances (thread : Thread) (count : Nat) : List (Action UInt8) :=
  List.replicate count (.advance thread .succeeds)

/-- The second enqueue has loaded offset 1 when the writer drains the first
block and recycles the file; it then stores behind a hole. -/
def staleEnqueue : List (Action UInt8) :=
  .enqueue .capture [1] :: advances .capture 9 ++
    .enqueue .capture [2] :: advances .capture 3 ++
    .readBlock 1 :: advances .writer 16 ++ advances .capture 2 ++
    .readBlock 1 :: advances .writer 5

theorem spill_returns_hole :
    ¬∀ (schedule : List (Action UInt8)) (last : State UInt8),
      Machine.run step initial schedule = some last → InOrder last := by
  intro claim
  have outcome : (Machine.run step initial staleEnqueue).map
      (fun last => (last.returned, last.accepted)) =
        some ([[1], [0]], [(.capture, [1]), (.capture, [2])]) := by decide
  obtain ⟨last, reached, fields⟩ := Option.map_eq_some_iff.mp outcome
  obtain ⟨returned, accepted⟩ := Prod.mk.inj fields
  obtain ⟨order, merges, found⟩ := claim staleEnqueue last reached
  rw [returned] at found
  have hole : (0 : UInt8) ∈ (order.map Prod.snd).flatten := found.subset (by decide)
  obtain ⟨block, inOrder, inBlock⟩ := List.mem_flatten.mp hole
  obtain ⟨entry, listed, rfl⟩ := List.mem_map.mp inOrder
  have enqueued := Fifo.mem_of_merges merges listed
  rw [accepted] at enqueued
  cases h : entry.1 <;> simp [h, Fifo.own] at enqueued
  rcases enqueued with same | same <;> simp [same] at inBlock

/-- Both threads enqueue, one write fails part way, and the drained file is
recycled before the last block. -/
def sharedSpill : List (Action UInt8) :=
  .enqueue .capture [1, 2] :: advances .capture 9 ++
    .enqueue .writer [3] :: advances .writer 5 ++
    .enqueue .capture [4, 5] :: advances .capture 3 ++ .advance .capture (.fails 1) ::
    .readBlock 3 :: advances .writer 16 ++
    .enqueue .capture [6] :: advances .capture 5

theorem spill_in_order_shared : InOrder
    ((Machine.run (Machine.guarded steady step) initial sharedSpill).get (by decide)) :=
  spill_in_order sharedSpill _ (Option.some_get _).symm

end MisrcGui.Record.SpillOrder
