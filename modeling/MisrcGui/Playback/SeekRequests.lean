import MisrcGui.Library.Machine
import MisrcGui.Playback.Thread

/-! The seek requests of `gui_playback.c`: for each channel a target and a request flag, two
atomics. The UI thread stores the target and then the flag. The playback thread loads the
flag, the target and the channel's total and clears the flag; each access is a step. -/
namespace MisrcGui.Playback.SeekRequests
open Library

/-- `requesting` is between the two stores of `gui_playback_seek_sample_channel`. -/
inductive Ui where
  | idle
  | requesting (side : Side)
deriving DecidableEq

/-- Places of `playback_thread_func` with its local target: `seeking` holds it clamped. -/
inductive Thread where
  | check (side : Side)
  | loadTarget (side : Side)
  | loadTotal (side : Side) (loaded : Nat)
  | clear (side : Side) (loaded : Nat) (target : Nat)
  | seeking (side : Side) (target : Nat)
  | playing
deriving DecidableEq

/-- `total` is `channel_total_samples`, `info` the `total_samples` of the channel's file.
The last three fields are ghost: the target of the UI's last call, the last one that the
thread took, and whether it has found no request since. -/
structure Channel where
  requested : Bool
  target : Nat
  info : Nat
  total : Nat
  asked : Option Nat
  took : Option Nat
  foundNone : Bool
deriving DecidableEq

structure State where
  channel : Side → Channel
  ui : Ui
  thread : Thread

inductive Action where
  | seekSampleChannel (side : Side) (sample : Nat)
  | storeRequest
  | setTotals (side : Side) (info total : Nat)
  | thread

def initial (info total : Side → Nat) : State :=
  ⟨fun side => ⟨false, 0, info side, total side, none, none, false⟩, .idle, .check .a⟩

def State.set (state : State) (side : Side) (channel : Channel) : State :=
  { state with channel := Function.update state.channel side channel }

def afterCheck : Side → Thread
  | .a => .check .b
  | .b => .playing

def threadStep (state : State) : State :=
  match state.thread with
  | .check side =>
    let channel := state.channel side
    if channel.requested then { state with thread := .loadTarget side }
    else { state.set side { channel with foundNone := true } with thread := afterCheck side }
  | .loadTarget side =>
    let channel := state.channel side
    { state.set side { channel with took := some channel.target } with
      thread := .loadTotal side channel.target }
  | .loadTotal side loaded =>
    let total := (state.channel side).total
    let target := if 0 < total ∧ total ≤ loaded then total - 1 else loaded
    { state with thread := .clear side loaded target }
  | .clear side _ target =>
    { state.set side { state.channel side with requested := false } with
      thread := .seeking side target }
  | .seeking _ _ | .playing => { state with thread := .check .a }

/-- A call for a channel without samples returns before its stores. -/
def step (state : State) : Action → Option State
  | .seekSampleChannel side sample =>
    match state.ui with
    | .idle =>
      let channel := state.channel side
      if channel.info = 0 then some state
      else
        let sample := if channel.info ≤ sample then channel.info - 1 else sample
        some { state.set side
            { channel with target := sample, asked := some sample, foundNone := false } with
          ui := .requesting side }
    | _ => none
  | .storeRequest =>
    match state.ui with
    | .requesting side =>
      some { state.set side
          { state.channel side with requested := true, foundNone := false } with
        ui := .idle }
    | _ => none
  | .setTotals side info total =>
    some (state.set side { state.channel side with info := info, total := total })
  | .thread => some (threadStep state)

/-- Once the thread has found no request after the UI's last call, the last target it took is
the one of that call. -/
def NoSeekLost (state : State) : Prop :=
  ∀ side, (state.channel side).foundNone = true → state.ui ≠ .requesting side →
    (state.channel side).took = (state.channel side).asked

inductive View where
  | away
  | seen
  | holding (loaded : Nat)
deriving DecidableEq

def Thread.view : Thread → Side → View
  | .loadTarget own, side => if side = own then .seen else .away
  | .loadTotal own loaded, side | .clear own loaded _, side =>
    if side = own then .holding loaded else .away
  | _, _ => .away

/-- The flag is not stored while the thread, between its load of the target and its clear,
holds another target than the one asked for. -/
def fresh (state : State) : Action → Bool
  | .storeRequest =>
    match state.ui with
    | .requesting side =>
      match state.thread.view side with
      | .holding loaded => loaded == (state.channel side).target
      | _ => true
    | _ => true
  | _ => true

/-- Two calls of the UI; the second falls between the load and the clear of the thread. -/
def overtaken : List Action :=
  [.seekSampleChannel .a 5, .storeRequest, .thread, .thread, .seekSampleChannel .a 9,
    .storeRequest] ++ List.replicate 4 .thread

theorem overtaken_lost :
    ∃ last, Machine.run step (initial (fun _ => 100) fun _ => 100) overtaken = some last ∧
      ¬NoSeekLost last := by
  refine ⟨_, rfl, ?_⟩
  intro kept
  have same := kept .a rfl nofun
  cases same

/-! One channel. `calling` says that the UI is between its stores. -/

structure Inv (channel : Channel) (calling : Prop) (view : View) : Prop where
  stored : ∀ target, channel.asked = some target → channel.target = target
  called : channel.requested = true ∨ calling → channel.asked.isSome
  pending : view ≠ .away → channel.requested = true
  held : ∀ loaded, view = .holding loaded → channel.took = some loaded ∧
    (¬calling → channel.target = loaded)
  settled : channel.requested = false → ¬calling → channel.took = channel.asked
  found : channel.foundNone = true → channel.requested = false

variable {channel : Channel} {calling : Prop} {view : View}

theorem initial_inv (info total : Nat) :
    Inv ⟨false, 0, info, total, none, none, false⟩ False .away where
  stored := nofun
  called := by simp
  pending := fun seen => absurd rfl seen
  held := nofun
  settled := fun _ _ => rfl
  found := nofun

theorem Inv.ask (inv : Inv channel calling view) (sample : Nat) :
    Inv { channel with target := sample, asked := some sample, foundNone := false }
      True view where
  stored := by
    intro target same
    exact Option.some.inj same
  called := fun _ => rfl
  pending := inv.pending
  held := fun loaded holding => ⟨(inv.held loaded holding).1, fun idle => absurd trivial idle⟩
  settled := fun _ idle => absurd trivial idle
  found := nofun

theorem Inv.request (inv : Inv channel True view)
    (current : ∀ loaded, view = .holding loaded → loaded = channel.target) :
    Inv { channel with requested := true, foundNone := false } False view where
  stored := inv.stored
  called := fun _ => inv.called (.inr trivial)
  pending := fun _ => rfl
  held := fun loaded holding =>
    ⟨(inv.held loaded holding).1, fun _ => (current loaded holding).symm⟩
  settled := nofun
  found := nofun

theorem Inv.totals (inv : Inv channel calling view) (info total : Nat) :
    Inv { channel with info := info, total := total } calling view :=
  { inv with }

theorem Inv.findNone (inv : Inv channel calling view) (none : channel.requested = false) :
    Inv { channel with foundNone := true } calling view :=
  { inv with found := fun _ => none }

theorem Inv.see (inv : Inv channel calling .away) (requested : channel.requested = true) :
    Inv channel calling .seen :=
  { inv with
    pending := fun _ => requested
    held := nofun }

theorem Inv.load (inv : Inv channel calling .seen) :
    Inv { channel with took := some channel.target } calling (.holding channel.target) :=
  have requested := inv.pending nofun
  { inv with
    pending := fun _ => requested
    held := by
      intro loaded holding
      cases holding
      exact ⟨rfl, fun _ => rfl⟩
    settled := by
      intro cleared
      rw [requested] at cleared
      cases cleared }

/-- The clear: the target taken is still the one asked for, or the UI is about to store
the flag again. -/
theorem Inv.clear {loaded : Nat} (inv : Inv channel calling (.holding loaded)) :
    Inv { channel with requested := false } calling .away :=
  have asked := inv.called (.inl (inv.pending nofun))
  { inv with
    called := fun active => asked
    pending := fun seen => absurd rfl seen
    held := nofun
    settled := by
      intro _ idle
      obtain ⟨took, current⟩ := inv.held loaded rfl
      obtain ⟨target, same⟩ := Option.isSome_iff_exists.mp asked
      rw [took, same, ← inv.stored target same, current idle]
    found := fun _ => rfl }

def Invariant (state : State) : Prop :=
  ∀ side, Inv (state.channel side) (state.ui = .requesting side) (state.thread.view side)

variable {state next : State}

theorem Invariant.noSeekLost (inv : Invariant state) : NoSeekLost state := by
  intro side found idle
  exact (inv side).settled ((inv side).found found) idle

@[simp] theorem set_self (state : State) (side : Side) (channel : Channel) :
    (state.set side channel).channel side = channel :=
  Function.update_self ..

theorem set_of_ne (state : State) {own side : Side} (apart : side ≠ own) (channel : Channel) :
    (state.set own channel).channel side = state.channel side :=
  Function.update_of_ne apart ..

theorem Invariant.step_side (inv : Invariant state) (own : Side) {channel : Channel} {ui : Ui}
    {thread : Thread}
    (own_inv : Inv channel (ui = .requesting own) (thread.view own))
    (calling : ∀ side, side ≠ own → (ui = .requesting side ↔ state.ui = .requesting side))
    (seen : ∀ side, side ≠ own → thread.view side = state.thread.view side) :
    Invariant { state.set own channel with ui := ui, thread := thread } := by
  intro side
  by_cases same : side = own
  · subst same
    dsimp only
    rw [set_self]
    exact own_inv
  · dsimp only
    rw [set_of_ne state same, seen side same, propext (calling side same)]
    exact inv side

theorem Invariant.seekSampleChannel (inv : Invariant state) {side : Side} {sample : Nat}
    (taken : step state (.seekSampleChannel side sample) = some next) : Invariant next := by
  unfold step at taken
  dsimp only at taken
  split at taken
  · rename_i idle
    split at taken
    · cases taken
      exact inv
    · cases taken
      apply inv.step_side side
      · rw [eq_self]
        exact (inv side).ask _
      · intro other apart
        rw [idle]
        simpa using Ne.symm apart
      · intro other apart
        rfl
  · cases taken

theorem Invariant.storeRequest (inv : Invariant state)
    (current : fresh state .storeRequest = true)
    (taken : step state .storeRequest = some next) : Invariant next := by
  unfold step at taken
  dsimp only at taken
  split at taken
  · rename_i side requesting
    cases taken
    have own := inv side
    rw [requesting, eq_self] at own
    rw [fresh, requesting] at current
    dsimp only at current
    apply inv.step_side side
    · rw [eq_false (show Ui.idle ≠ .requesting side from nofun)]
      apply own.request
      intro loaded holding
      rw [holding] at current
      exact eq_of_beq current
    · intro other apart
      rw [requesting]
      simpa using Ne.symm apart
    · intro other apart
      rfl
  · cases taken

theorem Invariant.move (inv : Invariant state) (own : Side) {thread : Thread}
    (own_inv : Inv (state.channel own) (state.ui = .requesting own) (thread.view own))
    (seen : ∀ side, side ≠ own → thread.view side = state.thread.view side) :
    Invariant { state with thread := thread } := by
  intro side
  by_cases same : side = own
  · subst same
    exact own_inv
  · dsimp only
    rw [seen side same]
    exact inv side

theorem Invariant.thread (inv : Invariant state) : Invariant (threadStep state) := by
  cases here : state.thread with
  | check side =>
    have own := inv side
    rw [here] at own
    simp only [threadStep, here]
    split
    · rename_i requested
      apply inv.move side
      · simpa [Thread.view] using own.see requested
      · intro other apart
        simp [Thread.view, here, apart]
    · rename_i none
      apply inv.step_side side
      · cases side <;> exact own.findNone (Bool.eq_false_iff.mpr none)
      · exact fun _ _ => Iff.rfl
      · intro other apart
        rw [here]
        cases side <;> rfl
  | loadTarget side =>
    have own := inv side
    rw [here, Thread.view, if_pos rfl] at own
    simp only [threadStep, here]
    apply inv.step_side side
    · rw [Thread.view, if_pos rfl]
      exact own.load
    · exact fun _ _ => Iff.rfl
    · intro other apart
      simp [Thread.view, here, apart]
  | loadTotal side loaded =>
    have own := inv side
    rw [here] at own
    simp only [threadStep, here]
    apply inv.move side
    · exact own
    · intro other apart
      rw [here]
      rfl
  | clear side loaded target =>
    have own := inv side
    rw [here, Thread.view, if_pos rfl] at own
    simp only [threadStep, here]
    apply inv.step_side side
    · exact own.clear
    · exact fun _ _ => Iff.rfl
    · intro other apart
      simp [Thread.view, here, apart]
  | seeking side target =>
    have own := inv side
    rw [here] at own
    simp only [threadStep, here]
    apply inv.move side
    · exact own
    · intro other apart
      rw [here]
      rfl
  | playing =>
    have own := inv .a
    rw [here] at own
    simp only [threadStep, here]
    apply inv.move .a
    · exact own
    · intro other apart
      rw [here]
      rfl

theorem Invariant.step (inv : Invariant state) {action : Action}
    (current : fresh state action = true) (taken : step state action = some next) :
    Invariant next := by
  cases action with
  | seekSampleChannel side sample => exact inv.seekSampleChannel taken
  | storeRequest => exact inv.storeRequest current taken
  | setTotals side info total =>
    cases taken
    exact inv.step_side side ((inv side).totals info total) (fun _ _ => Iff.rfl) fun _ _ => rfl
  | thread =>
    cases taken
    exact inv.thread

/-- No request is lost in a run in which every flag is stored while the thread holds no
other target than the one asked for. -/
theorem seek_not_lost {info total : Side → Nat} {schedule : List Action} {last : State}
    (h : Machine.run (Machine.guarded fresh step) (initial info total) schedule = some last) :
    NoSeekLost last := by
  apply Invariant.noSeekLost
  refine Machine.run_invariant Invariant ?_ ?_ h
  · intro state action next inv taken
    obtain ⟨current, moved⟩ := Machine.guarded_eq_some.mp taken
    exact inv.step current moved
  · intro side
    have start := initial_inv (info side) (total side)
    rw [← eq_false (show Ui.idle ≠ .requesting side from nofun)] at start
    exact start

/-- The thread takes the target of a call whose flag is stored before the clear. -/
def overlapped : List Action :=
  [.seekSampleChannel .a 5, .storeRequest, .thread, .seekSampleChannel .a 9, .thread,
    .storeRequest] ++ List.replicate 4 .thread

theorem seek_not_lost_overlapped :
    ∃ last, Machine.run (Machine.guarded fresh step) (initial (fun _ => 100) fun _ => 100)
        overlapped = some last ∧
      ((last.channel .a).foundNone = true ∧ (last.channel .a).took = some 9) ∧
      NoSeekLost last := by
  have runs : (Machine.run (Machine.guarded fresh step) (initial (fun _ => 100) fun _ => 100)
      overlapped).any (fun last => decide ((last.channel .a).foundNone = true ∧
        (last.channel .a).took = some 9)) = true := by
    decide +kernel
  obtain ⟨last, ran, took⟩ := (Option.any_eq_true _ _).mp runs
  exact ⟨last, ran, of_decide_eq_true took, seek_not_lost ran⟩

end MisrcGui.Playback.SeekRequests
