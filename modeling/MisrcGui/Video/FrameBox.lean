import Mathlib.Data.List.Range
import MisrcGui.Library.Machine
import MisrcGui.Video.Wire

/-! The box of the latest frame, `gui_monitor_video_framebox.c`: any number of threads publish
frames and take them under a flag for which nobody waits. Each access of the flag is a step, and
so is the copy of a row into the box and of a byte out of it. -/
namespace MisrcGui.Video.FrameBox
open Library

def sizeMax : Nat := 2 ^ 64 - 1

/-- `image_bytes`. -/
def imageBytes (width height channels : Nat) : Option Nat :=
  if width = 0 ∨ height = 0 ∨ width > maxWidth ∨ height > maxHeight ∨
      channels ≠ 3 ∧ channels ≠ 4 then none
  else if width > sizeMax / channels ∨ height > sizeMax / (width * channels) then none
  else some (width * channels * height)

/-- A frame as its producer hands it over; `pixels` is the memory it states. -/
structure Source where
  pixels : List UInt8
  stride : Nat
  width : Nat
  height : Nat
  channels : Nat
  timestamp : Nat

namespace Source
variable (source : Source)

def row : Nat := source.width * source.channels

/-- A byte of the image, without what lies between its rows. -/
def byte (i : Nat) : UInt8 :=
  source.pixels.getD (i / source.row * source.stride + i % source.row) 0

def packed : List UInt8 := (List.range (source.row * source.height)).map source.byte

end Source

/-- `gui_monitor_video_frame_info_t`. -/
structure Info where
  width : Nat
  height : Nat
  channels : Nat
  generation : Nat
  timestamp : Nat

def Info.bytes (info : Info) : Nat := info.width * info.height * info.channels

def Source.info (source : Source) (number : Nat) : Info :=
  ⟨source.width, source.height, source.channels, number % 2 ^ 64, source.timestamp⟩

/-- What `gui_monitor_video_framebox_create` sets for good. -/
structure Box where
  capacity : Nat
  maxWidth : Nat
  maxHeight : Nat

def create (width height : Nat) : Option Box :=
  (imageBytes width height 4).map fun needed => ⟨needed, width, height⟩

/-- The checks of `gui_monitor_video_framebox_publish`. -/
def Box.accepts (box : Box) (source : Source) : Bool :=
  match imageBytes source.width source.height source.channels with
  | none => false
  | some bytes =>
    !(decide (source.width > box.maxWidth) || decide (source.height > box.maxHeight) ||
      decide (source.stride < source.row) ||
      decide (source.height - 1 > (sizeMax - source.row) / source.stride) ||
      decide ((source.height - 1) * source.stride + source.row > source.pixels.length) ||
      decide (bytes > box.capacity))

/-- A thread between its calls, behind the flag with the rows it has stored, before its look at
the latest frame, or with the bytes it has copied. -/
inductive Phase where
  | idle
  | storing (source : Source) (rows : Nat)
  | looking (room : Nat)
  | copying (room : Nat) (latest : Info) (copied : List UInt8)

/-- `seen` is the caller's `generation`. `frames` and `taken` are ghost: the published frames and
what each thread was given. -/
structure State (Thread : Type) where
  busy : Bool
  published : Nat
  dropped : Nat
  pixels : Nat → UInt8
  latest : Info
  phase : Thread → Phase
  seen : Thread → Nat
  frames : List Source
  taken : Thread → List (Info × List UInt8)

inductive Action (Thread : Type) where
  | publish (thread : Thread) (source : Source)
  | take (thread : Thread) (room : Nat)
  | go (thread : Thread)

variable {Thread : Type}

def start (memory : Nat → UInt8) : State Thread where
  busy := false
  published := 0
  dropped := 0
  pixels := memory
  latest := ⟨0, 0, 0, 0, 0⟩
  phase := fun _ => .idle
  seen := fun _ => 0
  frames := []
  taken := fun _ => []

/-- The `memcpy` of one row. -/
def storeRow (source : Source) (y : Nat) (pixels : Nat → UInt8) (i : Nat) : UInt8 :=
  if y * source.row ≤ i ∧ i < (y + 1) * source.row then
    source.pixels.getD (y * source.stride + (i - y * source.row)) 0
  else pixels i

variable [DecidableEq Thread]

def State.at (s : State Thread) (thread : Thread) (phase : Phase) : State Thread :=
  { s with phase := Function.update s.phase thread phase }

/-- The next step of a call that has set the flag. -/
def goOn (s : State Thread) (thread : Thread) : Option (State Thread) :=
  match s.phase thread with
  | .idle => none
  | .storing source rows =>
    if rows < source.height then
      some ({ s with pixels := storeRow source rows s.pixels }.at thread
        (.storing source (rows + 1)))
    else
      some ({ s with
        busy := false
        published := (s.published + 1) % 2 ^ 64
        latest := source.info (s.latest.generation + 1)
        frames := s.frames ++ [source] }.at thread .idle)
  | .looking room =>
    if s.latest.generation ≠ 0 ∧ s.latest.generation ≠ s.seen thread ∧ s.latest.bytes ≤ room then
      some (s.at thread (.copying room s.latest []))
    else some ({ s with busy := false }.at thread .idle)
  | .copying room latest copied =>
    if copied.length < latest.bytes then
      some (s.at thread (.copying room latest (copied ++ [s.pixels copied.length])))
    else
      some ({ s with
        busy := false
        seen := Function.update s.seen thread latest.generation
        taken := Function.update s.taken thread (s.taken thread ++ [(latest, copied)]) }.at thread
          .idle)

/-- A call begins with a test of the flag; the publisher checks its frame before it. -/
def step (box : Box) (s : State Thread) : Action Thread → Option (State Thread)
  | .publish thread source =>
    match s.phase thread with
    | .idle =>
      if !box.accepts source then some s
      else if s.busy then some { s with dropped := (s.dropped + 1) % 2 ^ 64 }
      else some ({ s with busy := true }.at thread (.storing source 0))
    | _ => none
  | .take thread room =>
    match s.phase thread with
    | .idle =>
      if s.busy then some s else some ({ s with busy := true }.at thread (.looking room))
    | _ => none
  | .go thread => goOn s thread

/-- The frame with a number of the order in which they were published, whole and alone. -/
def Delivers (frames : List Source) (number : Nat) (given : Info × List UInt8) : Prop :=
  ∃ source, frames[number]? = some source ∧ given = (source.info (number + 1), source.packed)

/-- The box holds the newest frame. -/
def Settled (s : State Thread) : Prop :=
  ∀ source ∈ s.frames.getLast?, ∀ i < source.row * source.height, s.pixels i = source.byte i

def Working (box : Box) (s : State Thread) (thread : Thread) : Phase → Prop
  | .idle => False
  | .storing source rows => box.accepts source ∧ rows ≤ source.height ∧
    ∀ i < rows * source.row, s.pixels i = source.byte i
  | .looking _ => Settled s
  | .copying room latest copied => Settled s ∧ latest = s.latest ∧ s.latest.generation ≠ 0 ∧
    s.latest.generation ≠ s.seen thread ∧ latest.bytes ≤ room ∧
    copied = (List.range copied.length).map s.pixels ∧ copied.length ≤ latest.bytes

structure Inv (box : Box) (s : State Thread) : Prop where
  holder : (∀ thread, s.phase thread = .idle) ∧ Settled s ∨ ∃ thread, s.busy = true ∧
    (∀ other ≠ thread, s.phase other = .idle) ∧ Working box s thread (s.phase thread)
  accepted : ∀ source ∈ s.frames, box.accepts source
  published : s.published = s.frames.length % 2 ^ 64
  generation : s.latest.generation = s.frames.length % 2 ^ 64
  latest : ∀ source ∈ s.frames.getLast?, s.latest = source.info s.frames.length
  taken : ∀ thread, ∃ numbers : List Nat, ∃ count ≤ s.frames.length, numbers.Pairwise (· < ·) ∧
    (∀ number ∈ numbers, number < count) ∧ s.seen thread = count % 2 ^ 64 ∧
    List.Forall₂ (Delivers s.frames) numbers (s.taken thread)

variable {box : Box} {s next : State Thread} {thread : Thread} {source : Source}

omit [DecidableEq Thread] in
theorem start_inv (memory : Nat → UInt8) : Inv box (start memory : State Thread) where
  holder := .inl ⟨fun _ => rfl, nofun⟩
  accepted := nofun
  published := rfl
  generation := rfl
  latest := nofun
  taken _ := ⟨[], 0, Nat.le_refl 0, .nil, nofun, rfl, .nil⟩

theorem at_self (s : State Thread) (thread : Thread) (phase : Phase) :
    (s.at thread phase).phase thread = phase := Function.update_self ..

theorem at_idle {phase : Phase} (others : ∀ other ≠ thread, s.phase other = .idle) :
    ∀ other ≠ thread, (s.at thread phase).phase other = .idle := by
  intro other apart
  exact (Function.update_of_ne apart ..).trans (others other apart)

theorem all_idle (others : ∀ other ≠ thread, s.phase other = .idle) (any : Thread) :
    (s.at thread .idle).phase any = .idle := by
  by_cases same : any = thread
  · rw [same, at_self]
  · exact at_idle others any same

theorem bytes_info (source : Source) (number : Nat) :
    (source.info number).bytes = source.row * source.height := Nat.mul_right_comm ..

theorem byte_of_row {y i : Nat} (low : y * source.row ≤ i) (high : i < (y + 1) * source.row) :
    source.byte i = source.pixels.getD (y * source.stride + (i - y * source.row)) 0 := by
  have quotient : i / source.row = y := Nat.div_eq_of_lt_le low high
  have rest : i % source.row = i - y * source.row := by
    rw [Nat.mod_eq_sub_div_mul, quotient]
  rw [Source.byte, quotient, rest]

theorem storeRow_stored {y : Nat} {pixels : Nat → UInt8}
    (stored : ∀ i < y * source.row, pixels i = source.byte i) :
    ∀ i < (y + 1) * source.row, storeRow source y pixels i = source.byte i := by
  intro i high
  rw [storeRow]
  by_cases low : y * source.row ≤ i
  · rw [if_pos ⟨low, high⟩, byte_of_row low high]
  · rw [if_neg fun both => low both.1]
    exact stored i (Nat.lt_of_not_le low)

theorem Inv.working (inv : Inv box s) (active : s.phase thread ≠ .idle) :
    s.busy = true ∧ (∀ other ≠ thread, s.phase other = .idle) ∧
      Working box s thread (s.phase thread) := by
  rcases inv.holder with rest | ⟨holder, busy, others, working⟩
  · exact absurd (rest.1 thread) active
  · by_cases same : thread = holder
    · exact same ▸ ⟨busy, others, working⟩
    · exact absurd (others thread same) active

omit [DecidableEq Thread] in
theorem Inv.newest (inv : Inv box s) (some_ : s.latest.generation ≠ 0) :
    ∃ source, s.frames.getLast? = some source ∧ s.latest = source.info s.frames.length := by
  cases newest : s.frames.getLast? with
  | none =>
    rw [inv.generation, List.getLast?_eq_none_iff.mp newest] at some_
    exact absurd rfl some_
  | some source => exact ⟨source, rfl, inv.latest source newest⟩

theorem goOn_inv (inv : Inv box s) (taken : goOn s thread = some next) : Inv box next := by
  have active : s.phase thread ≠ .idle := by
    intro idle
    rw [goOn, idle] at taken
    cases taken
  obtain ⟨busy, others, working⟩ := inv.working active
  unfold goOn at taken
  split at taken
  · cases taken
  · next source rows phase =>
    rw [phase] at working
    obtain ⟨accepted, few, stored⟩ := working
    split at taken
    · next more =>
      cases taken
      refine { inv with holder := .inr ⟨thread, busy, at_idle others, ?_⟩ }
      rw [at_self]
      exact ⟨accepted, more, storeRow_stored stored⟩
    · next done =>
      cases taken
      have whole : rows = source.height := by omega
      have number : (s.latest.generation + 1) % 2 ^ 64 = (s.frames.length + 1) % 2 ^ 64 := by
        rw [inv.generation, Nat.mod_add_mod]
      have newest {other} (last : other ∈ (s.frames ++ [source]).getLast?) : source = other := by
        simpa using last
      refine ⟨.inl ⟨all_idle others, ?_⟩, ?_, ?_, ?_, ?_, ?_⟩
      · intro other last i inside
        obtain rfl := newest last
        exact stored i (by rwa [whole, Nat.mul_comm])
      · exact List.forall_mem_append.mpr ⟨inv.accepted, by simpa using accepted⟩
      · simp [State.at, inv.published]
      · simpa [State.at, Source.info] using number
      · intro other last
        obtain rfl := newest last
        simpa [State.at, Source.info] using number
      · intro any
        obtain ⟨numbers, count, most, sorted, below, seen, given⟩ := inv.taken any
        refine ⟨numbers, count, most.trans (by simp [State.at]), sorted, below, seen, given.imp ?_⟩
        rintro number pair ⟨found, place, same⟩
        refine ⟨found, ?_, same⟩
        rw [State.at, List.getElem?_append_left (List.getElem?_eq_some_iff.mp place).1, place]
  · next room phase =>
    rw [phase] at working
    split at taken
    · next fresh =>
      cases taken
      refine { inv with holder := .inr ⟨thread, busy, at_idle others, ?_⟩ }
      rw [at_self]
      exact ⟨working, rfl, fresh.1, fresh.2.1, fresh.2.2, rfl, Nat.zero_le _⟩
    · cases taken
      exact { inv with holder := .inl ⟨all_idle others, working⟩ }
  · next room latest copied phase =>
    rw [phase] at working
    obtain ⟨settled, rfl, some_, other, fits, shown, most⟩ := working
    split at taken
    · next more =>
      cases taken
      refine { inv with holder := .inr ⟨thread, busy, at_idle others, ?_⟩ }
      rw [at_self]
      refine ⟨settled, rfl, some_, other, fits, ?_, ?_⟩
      · rw [List.length_append, List.length_singleton, List.range_succ, List.map_append]
        exact congrArg (· ++ [s.pixels copied.length]) shown
      · rw [List.length_append]
        exact more
    · next done =>
      cases taken
      have full : copied.length = s.latest.bytes := by omega
      obtain ⟨source, newest, info⟩ := inv.newest some_
      have pixels := settled _ newest
      refine { inv with holder := .inl ⟨all_idle others, settled⟩, taken := fun any => ?_ }
      obtain ⟨numbers, count, most, sorted, below, seen, given⟩ := inv.taken any
      by_cases same : any = thread
      · subst same
        have later : count < s.frames.length := by
          refine lt_of_le_of_ne most fun equal => other ?_
          rw [inv.generation, seen, equal]
        refine ⟨numbers ++ [s.frames.length - 1], s.frames.length, Nat.le_refl _, ?_, ?_, ?_, ?_⟩
        · simp only [List.pairwise_append, List.mem_singleton, List.pairwise_singleton, sorted]
          grind
        · grind
        · exact (Function.update_self ..).trans inv.generation
        · show List.Forall₂ (Delivers s.frames) _ (Function.update s.taken any _ any)
          rw [Function.update_self]
          refine List.rel_append given (.cons ⟨source, ?_, ?_⟩ .nil)
          · rw [← List.getLast?_eq_getElem?, newest]
          · rw [Nat.sub_add_cancel (Nat.one_le_of_lt later), ← info, shown, full, info,
              bytes_info]
            refine Prod.ext rfl (List.map_congr_left fun i inside => ?_)
            exact pixels i (List.mem_range.mp inside)
      · refine ⟨numbers, count, most, sorted, below, ?_, ?_⟩
        · exact (Function.update_of_ne same ..).trans seen
        · show List.Forall₂ (Delivers s.frames) _ (Function.update s.taken thread _ any)
          rwa [Function.update_of_ne same]

theorem begin_inv (inv : Inv box s) (free : ¬s.busy = true) {phase : Phase}
    (working : Settled s → Working box ({ s with busy := true }.at thread phase) thread phase) :
    Inv box ({ s with busy := true }.at thread phase) := by
  rcases inv.holder with ⟨idle, settled⟩ | ⟨_, busy, _⟩
  · refine { inv with holder := .inr ⟨thread, rfl, at_idle fun other _ => idle other, ?_⟩ }
    rw [at_self]
    exact working settled
  · exact absurd busy free

theorem step_inv {action : Action Thread} (inv : Inv box s)
    (taken : step box s action = some next) : Inv box next := by
  cases action with
  | go thread => exact goOn_inv inv taken
  | publish thread source =>
    simp only [step] at taken
    split at taken
    · split at taken
      · cases taken
        exact inv
      next accepted =>
        split at taken
        · cases taken
          exact { inv with holder := inv.holder }
        · next free =>
          cases taken
          refine begin_inv inv free fun _ => ⟨?_, Nat.zero_le _, fun i small => ?_⟩
          · simpa using accepted
          · omega
    · cases taken
  | take thread room =>
    simp only [step] at taken
    split at taken
    · split at taken
      · cases taken
        exact inv
      · next free =>
        cases taken
        exact begin_inv inv free id
    · cases taken

theorem accepts_inside (accepted : box.accepts source) :
    source.row * source.height ≤ box.capacity ∧
      (source.height - 1) * source.stride + source.row ≤ source.pixels.length := by
  unfold Box.accepts at accepted
  split at accepted
  · cases accepted
  next bytes image =>
    unfold imageBytes at image
    split at image
    · cases image
    split at image
    · cases image
    cases image
    simp only [Bool.not_eq_true', Bool.or_eq_false_iff, decide_eq_false_iff_not, Nat.not_lt]
      at accepted
    exact ⟨accepted.2, accepted.1.2⟩

/-- Where the next `memcpy` of a call reads and writes. -/
def Inside (box : Box) : Phase → Prop
  | .storing source rows => rows < source.height →
    (rows + 1) * source.row ≤ box.capacity ∧
      rows * source.stride + source.row ≤ source.pixels.length
  | .copying room latest copied => copied.length < latest.bytes →
    copied.length < box.capacity ∧ copied.length < room
  | _ => True

theorem Inv.inside (inv : Inv box s) (thread : Thread) : Inside box (s.phase thread) := by
  by_cases active : s.phase thread = .idle
  · rw [active]
    trivial
  have working := (inv.working active).2.2
  cases phase : s.phase thread with
  | idle => trivial
  | looking => trivial
  | storing source rows =>
    rw [phase] at working
    obtain ⟨room, memory⟩ := accepts_inside working.1
    intro more
    constructor
    · rw [Nat.mul_comm] at room
      exact (Nat.mul_le_mul_right _ more).trans room
    · have low : rows * source.stride ≤ (source.height - 1) * source.stride :=
        Nat.mul_le_mul_right _ (by omega)
      omega
  | copying room latest copied =>
    rw [phase] at working
    obtain ⟨-, rfl, some_, -, fits, -⟩ := working
    intro more
    refine ⟨lt_of_lt_of_le more ?_, lt_of_lt_of_le more fits⟩
    obtain ⟨source, newest, info⟩ := inv.newest some_
    rw [info, bytes_info]
    exact (accepts_inside (inv.accepted _ (List.mem_of_getLast? newest))).1

section
variable {memory : Nat → UInt8} {schedule : List (Action Thread)} {last : State Thread}

theorem run_inv (ran : Machine.run (step box) (start memory) schedule = some last) :
    Inv box last :=
  Machine.run_invariant (Inv box) (fun _ _ _ inv taken => step_inv inv taken) (start_inv memory) ran

/-- However the threads interleave, what a thread is given are whole frames, each with its own
description and number, and every one later than the one before; and no copy leaves its memory. -/
theorem frames_whole (ran : Machine.run (step box) (start memory) schedule = some last) :
    last.published = last.frames.length % 2 ^ 64 ∧ ∀ thread, Inside box (last.phase thread) ∧
      ∃ numbers : List Nat, numbers.Pairwise (· < ·) ∧
        List.Forall₂ (Delivers last.frames) numbers (last.taken thread) := by
  have inv := run_inv ran
  refine ⟨inv.published, fun thread => ⟨inv.inside thread, ?_⟩⟩
  obtain ⟨numbers, _, _, sorted, _, _, given⟩ := inv.taken thread
  exact ⟨numbers, sorted, given⟩

end

def pixel : Source := ⟨[1, 2, 3], 3, 1, 1, 3, 7⟩

/-- While one thread publishes the other finds the flag set; then it takes the frame. -/
def shared : List (Action Bool) :=
  [.publish false pixel, .publish true pixel, .go false, .go false, .take true 3, .go true,
    .go true, .go true, .go true, .go true]

theorem frames_whole_shared : ∃ last, Machine.run (step ⟨8, 2, 1⟩) (start fun _ => 0) shared =
    some last ∧ last.dropped = 1 ∧ last.taken true = [(pixel.info 1, [1, 2, 3])] ∧
      ∃ numbers, List.Forall₂ (Delivers last.frames) numbers (last.taken true) := by
  have ran : Machine.run (step ⟨8, 2, 1⟩) (start fun _ => 0) shared = some _ := rfl
  obtain ⟨numbers, -, given⟩ := ((frames_whole ran).2 true).2
  exact ⟨_, ran, rfl, rfl, numbers, given⟩

end MisrcGui.Video.FrameBox
