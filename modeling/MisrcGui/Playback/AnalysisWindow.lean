import Mathlib.Data.UInt
import MisrcGui.Library.Machine

/-! The paused analysis of `gui_playback.c`, for one channel: the render thread requests a
window and polls for its result, the worker fills one of three buffers and publishes it. A
locked section is one step, and so is the write of one column. -/
namespace MisrcGui.Playback.AnalysisWindow
open Library

/-- The parameters of a request, as `gui_playback_request_analysis_window` stores them. -/
structure Request where
  center : Nat
  span : Nat
  total : Nat
deriving DecidableEq

structure Window where
  start : Nat
  span : Nat
deriving DecidableEq

def window (request : Request) : Window :=
  let span := min request.span request.total
  let span := if span = 0 then 1 else span
  let center := if request.center ≥ request.total then request.total - 1 else request.center
  let half := span / 2
  let start := if center > half then center - half else 0
  let start := if start + span > request.total then request.total - span else start
  ⟨start, span⟩

abbrev Buffer (Value : Type) := Nat → Value

/-- The columns that are written for a window, in the order of the segments' writes. -/
abbrev Columns (Value : Type) := List (Nat × Value)

variable {Caller Value : Type}

def render [Zero Value] (columns : Columns Value) : Buffer Value :=
  columns.foldl (fun buffer column => Function.update buffer column.1 column.2) fun _ => 0

/-- Places of `gui_playback_analysis_worker` with its locals. -/
inductive Worker (Value : Type) where
  | check
  | init (req : Nat) (request : Request)
  | choose (req : Nat) (request : Request)
  | zero (req : Nat) (dst : Nat) (columns : Columns Value)
  | write (req : Nat) (dst : Nat) (columns : Columns Value)
  | publish (req : Nat) (dst : Nat)

/-- `ioSeq` holds the callers' `io_seq` variables. The last four fields are ghost: the
parameters of each request, the result computed for it, the request whose result the last
successful poll returned, and the sequence numbers before and after each of them. -/
structure State (Caller Value : Type) where
  inited : Bool
  failed : Bool
  workerValid : Bool
  request : Request
  reqSeq : Nat
  doneSeq : Nat
  publishIdx : Int
  readerIdx : Int
  magBuf : Nat → Buffer Value
  worker : Worker Value
  ioSeq : Caller → Nat
  asked : Nat → Request
  result : Nat → Option (Window × Columns Value)
  reported : Option Nat
  polls : List (Nat × Nat)

/-- `created` is the outcome of `thrd_create`, `ready` what else a poll asks for, `good` the
outcome of `gui_playback_analysis_init`. -/
inductive Action (Caller Value : Type) where
  | request (request : Request) (created : Bool)
  | poll (caller : Caller) (ready : Bool)
  | worker (good : Bool) (columns : Columns Value)

def initial [Zero Value] : State Caller Value where
  inited := false
  failed := false
  workerValid := false
  request := ⟨0, 0, 0⟩
  reqSeq := 0
  doneSeq := 0
  publishIdx := 0
  readerIdx := 0
  magBuf := fun _ _ => 0
  worker := .check
  ioSeq := fun _ => 0
  asked := fun _ => ⟨0, 0, 0⟩
  result := fun _ => none
  reported := none
  polls := []

def State.ask (state : State Caller Value) (request : Request) : State Caller Value :=
  let center := if request.center ≥ request.total then request.total - 1 else request.center
  let span := if request.span = 0 then 1 else request.span
  let request : Request := ⟨center, span, request.total⟩
  { state with
    request
    reqSeq := state.reqSeq + 1
    asked := Function.update state.asked (state.reqSeq + 1) request }

/-- The first request starts the worker, after it has pinned no buffer. -/
def requestStep (state : State Caller Value) (request : Request) (created : Bool) :
    State Caller Value :=
  if state.failed || request.total == 0 then state
  else if state.workerValid then state.ask request
  else
    let state := { state with readerIdx := -1 }
    if created then { state with workerValid := true }.ask request
    else { state with failed := true }

def pollStep [DecidableEq Caller] (state : State Caller Value) (caller : Caller) (ready : Bool) :
    State Caller Value :=
  if !ready || !state.inited then state
  else
    let done := state.doneSeq
    let seen := state.ioSeq caller
    if done = 0 ∨ done ≤ seen then state
    else { state with
      ioSeq := Function.update state.ioSeq caller done
      readerIdx := state.publishIdx
      reported := some done
      polls := state.polls ++ [(seen, done)] }

/-- The loop that looks for a buffer neither published nor pinned, with the rounds it may
take. -/
def chooseFrom (publishIdx readerIdx : Int) : Nat → Nat → Nat
  | 0, dst => dst
  | rounds + 1, dst =>
    if (dst : Int) = publishIdx ∨ (dst : Int) = readerIdx then
      chooseFrom publishIdx readerIdx rounds (dst + 1)
    else dst

def chooseDst (publishIdx readerIdx : Int) : Nat := chooseFrom publishIdx readerIdx 2 0

def State.begin (state : State Caller Value) (req : Nat) (request : Request) :
    State Caller Value :=
  if request.total = 0 then { state with doneSeq := req, worker := .check }
  else { state with worker := .choose req request }

def workerStep [Zero Value] (state : State Caller Value) (good : Bool)
    (columns : Columns Value) : State Caller Value :=
  match state.worker with
  | .check =>
    let req := state.reqSeq
    if req = 0 ∨ req = state.doneSeq then state
    else if !state.inited && !state.failed then
      { state with worker := .init req state.request }
    else if !state.inited then { state with doneSeq := req }
    else state.begin req state.request
  | .init req request =>
    if good then { state with inited := true }.begin req request
    else { state with failed := true, doneSeq := req, worker := .check }
  | .choose req request =>
    let dst := chooseDst state.publishIdx state.readerIdx
    { state with
      worker := .zero req dst columns
      result := Function.update state.result req (some (window request, columns)) }
  | .zero req dst columns =>
    { state with
      magBuf := Function.update state.magBuf dst fun _ => 0
      worker := .write req dst columns }
  | .write req dst (column :: rest) =>
    { state with
      magBuf := Function.update state.magBuf dst
        (Function.update (state.magBuf dst) column.1 column.2)
      worker := .write req dst rest }
  | .write req dst [] => { state with worker := .publish req dst }
  | .publish req dst =>
    { state with publishIdx := dst, doneSeq := req, worker := .check }

def step [DecidableEq Caller] [Zero Value] (state : State Caller Value) :
    Action Caller Value → Option (State Caller Value)
  | .request request created => some (requestStep state request created)
  | .poll caller ready => some (pollStep state caller ready)
  | .worker good columns =>
    if state.workerValid then some (workerStep state good columns) else none

def Worker.dst : Worker Value → Option Nat
  | .zero _ dst _ | .write _ dst _ | .publish _ dst => some dst
  | _ => none

/-- The buffer holds the complete result of a request, computed for the window of its own
parameters. -/
def Complete [Zero Value] (state : State Caller Value) (seq : Nat) (buffer : Buffer Value) : Prop :=
  ∃ columns, state.result seq = some (window (state.asked seq), columns) ∧
    buffer = render columns

/-- From a successful poll to the next one the buffer returned holds the complete result of
the request returned and the worker writes another one; and every poll returned a larger
number than the caller had seen. -/
structure Untorn [Zero Value] (state : State Caller Value) : Prop where
  complete : ∀ seq, state.reported = some seq →
    ∃ idx : Nat, state.readerIdx = idx ∧ idx < 3 ∧ Complete state seq (state.magBuf idx)
  untouched : state.reported.isSome → ∀ dst, state.worker.dst = some dst →
    (dst : Int) ≠ state.readerIdx
  rising : ∀ poll ∈ state.polls, poll.1 < poll.2

def Taken (state : State Caller Value) (req : Nat) : Prop :=
  state.doneSeq < req ∧ req ≤ state.reqSeq

structure Filling (state : State Caller Value) (req dst : Nat) : Prop where
  taken : Taken state req
  inited : state.inited = true
  inside : dst < 3
  unpublished : (dst : Int) ≠ state.publishIdx
  unpinned : (dst : Int) ≠ state.readerIdx

variable {state next : State Caller Value}

variable {req : Nat} {buffer : Buffer Value}

theorem asked_ask (state : State Caller Value) (request : Request) (known : req ≤ state.reqSeq) :
    (state.ask request).asked req = state.asked req :=
  Function.update_of_ne (by omega) ..

theorem Taken.ask (taken : Taken state req) (request : Request) : Taken (state.ask request) req :=
  ⟨taken.1, Nat.le_succ_of_le taken.2⟩

variable [Zero Value]

/-- The columns still to be written make the result of the request. -/
def Remaining (state : State Caller Value) (req : Nat) (buffer : Buffer Value)
    (rest : Columns Value) : Prop :=
  ∃ columns, state.result req = some (window (state.asked req), columns) ∧
    rest.foldl (fun buffer column => Function.update buffer column.1 column.2) buffer =
      render columns

def Progress (state : State Caller Value) : Worker Value → Prop
  | .check => True
  | .init req request => Taken state req ∧ (state.inited = false ∧ state.failed = false) ∧
      request = state.asked req ∧ request.total ≠ 0
  | .choose req request => Taken state req ∧ state.inited = true ∧ request = state.asked req
  | .zero req dst columns => Filling state req dst ∧ Remaining state req (fun _ => 0) columns
  | .write req dst rest => Filling state req dst ∧ Remaining state req (state.magBuf dst) rest
  | .publish req dst => Filling state req dst ∧ Complete state req (state.magBuf dst)

def Holding (state : State Caller Value) (seq : Nat) (index : Int) : Prop :=
  ∃ idx : Nat, index = idx ∧ idx < 3 ∧ Complete state seq (state.magBuf idx)

structure Inv (state : State Caller Value) : Prop where
  order : state.doneSeq ≤ state.reqSeq
  current : state.reqSeq ≠ 0 →
    state.request = state.asked state.reqSeq ∧ state.request.total ≠ 0
  progress : Progress state state.worker
  published : state.inited = true → state.doneSeq ≠ 0 →
    Holding state state.doneSeq state.publishIdx
  pinned : ∀ seq, state.reported = some seq →
    seq ≤ state.doneSeq ∧ state.inited = true ∧ Holding state seq state.readerIdx
  unready : state.inited = false → state.failed = false → state.doneSeq = 0
  ready : state.inited = true → state.failed = false ∧ state.workerValid = true
  idle : state.workerValid = false → state.worker = .check
  rising : ∀ poll ∈ state.polls, poll.1 < poll.2

theorem initial_inv : Inv (initial : State Caller Value) where
  order := Nat.le_refl _
  current := fun some => absurd rfl some
  progress := trivial
  published := nofun
  pinned := nofun
  unready := fun _ _ => rfl
  ready := nofun
  idle := fun _ => rfl
  rising := nofun

theorem Inv.filling (inv : Inv state) {dst : Nat} (writes : state.worker.dst = some dst) :
    ∃ req, Filling state req dst := by
  have progress := inv.progress
  cases worker : state.worker with
  | zero req dst columns | write req dst columns =>
    rw [worker] at progress writes
    cases writes
    exact ⟨req, progress.1⟩
  | publish req dst =>
    rw [worker] at progress writes
    cases writes
    exact ⟨req, progress.1⟩
  | _ =>
    rw [worker] at writes
    cases writes

theorem Inv.untorn (inv : Inv state) : Untorn state where
  complete := fun seq reported => (inv.pinned seq reported).2.2
  untouched := by
    intro _ dst writes
    obtain ⟨req, filling⟩ := inv.filling writes
    exact filling.unpinned
  rising := inv.rising

theorem Complete.ask {seq : Nat} (complete : Complete state seq buffer)
    (known : seq ≤ state.reqSeq) (request : Request) :
    Complete (state.ask request) seq buffer := by
  rw [Complete, asked_ask state request known]
  exact complete

theorem Remaining.ask {rest : Columns Value} (remaining : Remaining state req buffer rest)
    (known : req ≤ state.reqSeq) (request : Request) :
    Remaining (state.ask request) req buffer rest := by
  rw [Remaining, asked_ask state request known]
  exact remaining

theorem Holding.ask {seq : Nat} {index : Int} (holding : Holding state seq index)
    (known : seq ≤ state.reqSeq) (request : Request) :
    Holding (state.ask request) seq index := by
  obtain ⟨idx, same, inside, complete⟩ := holding
  exact ⟨idx, same, inside, complete.ask known request⟩

theorem Inv.ask (inv : Inv state) (request : Request) (some : request.total ≠ 0) :
    Inv (state.ask request) where
  order := Nat.le_succ_of_le inv.order
  current := by
    intro _
    refine ⟨?_, some⟩
    exact (Function.update_self (state.reqSeq + 1) _ state.asked).symm
  progress := by
    have progress := inv.progress
    change Progress (state.ask request) state.worker
    cases worker : state.worker with
    | check => trivial
    | init req own =>
      rw [worker] at progress
      obtain ⟨taken, unready, same, some⟩ := progress
      exact ⟨taken.ask request, unready, same.trans (asked_ask _ _ taken.2).symm, some⟩
    | choose req own =>
      rw [worker] at progress
      obtain ⟨taken, ready, same⟩ := progress
      exact ⟨taken.ask request, ready, same.trans (asked_ask _ _ taken.2).symm⟩
    | zero | write =>
      rw [worker] at progress
      obtain ⟨filling, remaining⟩ := progress
      exact ⟨{ filling with taken := filling.taken.ask request },
        remaining.ask filling.taken.2 request⟩
    | publish req dst =>
      rw [worker] at progress
      obtain ⟨filling, complete⟩ := progress
      exact ⟨{ filling with taken := filling.taken.ask request },
        complete.ask filling.taken.2 request⟩
  published := fun ready answered => (inv.published ready answered).ask inv.order request
  pinned := by
    intro seq reported
    obtain ⟨answered, ready, holding⟩ := inv.pinned seq reported
    exact ⟨answered, ready, holding.ask (Nat.le_trans answered inv.order) request⟩
  __ := inv

theorem Inv.start (inv : Inv state) (stopped : state.workerValid = false)
    (valid failed : Bool) (unset : failed = false → state.failed = false) :
    Inv { state with readerIdx := -1, workerValid := valid, failed := failed } := by
  have unready : state.inited = false := by
    apply Bool.eq_false_iff.mpr
    intro ready
    rw [(inv.ready ready).2] at stopped
    cases stopped
  have idle := inv.idle stopped
  constructor
  · exact inv.order
  · exact inv.current
  · change Progress _ state.worker
    rw [idle]
    trivial
  · exact fun ready => absurd (unready.symm.trans ready) Bool.false_ne_true
  · intro seq reported
    obtain ⟨-, ready, -⟩ := inv.pinned seq reported
    exact absurd (unready.symm.trans ready) Bool.false_ne_true
  · exact fun none good => inv.unready none (unset good)
  · exact fun ready => absurd (unready.symm.trans ready) Bool.false_ne_true
  · exact fun _ => idle
  · exact inv.rising

theorem Inv.request (inv : Inv state) (request : Request) (created : Bool) :
    Inv (requestStep state request created) := by
  unfold requestStep
  split
  · exact inv
  · rename_i accepted
    obtain ⟨-, total⟩ := Bool.or_eq_false_iff.mp (Bool.eq_false_iff.mpr accepted)
    have some : request.total ≠ 0 := by simpa using total
    split
    · exact inv.ask request some
    · rename_i stopped
      have stopped := Bool.eq_false_iff.mpr stopped
      dsimp only
      split
      · exact (inv.start stopped true state.failed id).ask request some
      · exact inv.start stopped state.workerValid true nofun

theorem Inv.poll [DecidableEq Caller] (inv : Inv state) (caller : Caller) (ready : Bool) :
    Inv (pollStep state caller ready) := by
  unfold pollStep
  split
  · exact inv
  · rename_i allowed
    dsimp only
    split
    · exact inv
    · rename_i answered
      obtain ⟨some, more⟩ := not_or.mp answered
      have inited : state.inited = true := by
        cases held : state.inited with
        | true => rfl
        | false => simp [held] at allowed
      have holding := inv.published inited some
      constructor
      · exact inv.order
      · exact inv.current
      · have progress := inv.progress
        change Progress _ state.worker
        cases worker : state.worker with
        | zero req dst columns | write req dst columns =>
          rw [worker] at progress
          exact ⟨{ progress.1 with unpinned := progress.1.unpublished }, progress.2⟩
        | publish req dst =>
          rw [worker] at progress
          exact ⟨{ progress.1 with unpinned := progress.1.unpublished }, progress.2⟩
        | _ =>
          rw [worker] at progress
          exact progress
      · exact inv.published
      · intro seq reported
        cases reported
        exact ⟨Nat.le_refl _, inited, holding⟩
      · exact inv.unready
      · exact inv.ready
      · exact inv.idle
      · intro poll member
        rcases List.mem_append.mp member with older | newest
        · exact inv.rising poll older
        · rw [List.mem_singleton.mp newest]
          exact Nat.lt_of_not_le more

theorem chooseDst_free (publishIdx readerIdx : Int) :
    ((chooseDst publishIdx readerIdx : Nat) : Int) ≠ publishIdx ∧
      ((chooseDst publishIdx readerIdx : Nat) : Int) ≠ readerIdx ∧
      chooseDst publishIdx readerIdx < 3 := by
  unfold chooseDst chooseFrom chooseFrom chooseFrom
  split
  · split
    · omega
    · omega
  · omega

theorem Inv.move (inv : Inv state) (valid : state.workerValid = true) {worker : Worker Value}
    (progress : Progress state worker) : Inv { state with worker := worker } where
  __ := inv
  progress := by
    change Progress _ worker
    cases worker with
    | zero req dst columns | write req dst columns =>
      exact ⟨{ progress.1 with }, progress.2⟩
    | publish req dst => exact ⟨{ progress.1 with }, progress.2⟩
    | _ => exact progress
  idle := fun stopped => absurd (valid.symm.trans stopped) nofun

/-- Without its resources the worker answers a request with no result, which no poll sees. -/
theorem Inv.giveUp (inv : Inv state) (known : req ≤ state.reqSeq) (unready : state.inited = false) :
    Inv { state with failed := true, doneSeq := req, worker := .check } where
  order := known
  __ := inv
  progress := trivial
  published := fun ready => absurd (unready.symm.trans ready) Bool.false_ne_true
  pinned := by
    intro seq reported
    obtain ⟨-, ready, -⟩ := inv.pinned seq reported
    exact absurd (unready.symm.trans ready) Bool.false_ne_true
  unready := nofun
  ready := fun ready => absurd (unready.symm.trans ready) Bool.false_ne_true
  idle := fun _ => rfl

theorem Inv.check (inv : Inv state) (valid : state.workerValid = true)
    (worker : state.worker = .check) (good : Bool) (columns : Columns Value) :
    Inv (workerStep state good columns) := by
  rw [workerStep, worker]
  dsimp only
  split
  · exact inv
  · rename_i pending
    obtain ⟨some, more⟩ := not_or.mp pending
    obtain ⟨same, total⟩ := inv.current some
    have order := inv.order
    have taken : Taken state state.reqSeq := ⟨by omega, Nat.le_refl _⟩
    split
    · rename_i unready
      obtain ⟨none, good⟩ := Bool.and_eq_true_iff.mp unready
      rw [Bool.not_eq_true'] at none good
      exact inv.move valid ⟨taken, ⟨none, good⟩, same, total⟩
    · rename_i unready
      split
      · rename_i none
        have failed : state.failed = true := by
          simpa [Bool.not_eq_true' _ ▸ none] using unready
        have given := inv.giveUp taken.2 (Bool.not_eq_true' _ ▸ none)
        rw [← failed] at given
        exact given
      · rename_i ready
        rw [State.begin, if_neg total]
        exact inv.move valid ⟨taken, by simpa using ready, same⟩

theorem Inv.init (inv : Inv state) (valid : state.workerValid = true) {request : Request}
    (worker : state.worker = .init req request) (good : Bool) (columns : Columns Value) :
    Inv (workerStep state good columns) := by
  have progress := inv.progress
  rw [worker] at progress
  obtain ⟨taken, ⟨unready, unfailed⟩, same, total⟩ := progress
  rw [workerStep, worker]
  dsimp only
  split
  · rw [State.begin, if_neg total]
    constructor
    · exact inv.order
    · exact inv.current
    · exact ⟨taken, rfl, same⟩
    · exact fun _ answered => absurd (inv.unready unready unfailed) answered
    · intro seq reported
      obtain ⟨-, ready, -⟩ := inv.pinned seq reported
      exact absurd (unready.symm.trans ready) Bool.false_ne_true
    · nofun
    · exact fun _ => ⟨unfailed, valid⟩
    · exact fun stopped => absurd (valid.symm.trans stopped) nofun
    · exact inv.rising
  · exact inv.giveUp taken.2 unready

theorem Holding.write {seq dst : Nat} {index : Int} (holding : Holding state seq index)
    (apart : (dst : Int) ≠ index) (buffer : Buffer Value) (worker : Worker Value) :
    Holding { state with magBuf := Function.update state.magBuf dst buffer, worker := worker }
      seq index := by
  obtain ⟨idx, same, inside, complete⟩ := holding
  refine ⟨idx, same, inside, ?_⟩
  have own : idx ≠ dst := by omega
  rw [Complete] at complete ⊢
  dsimp only
  rw [Function.update_of_ne own]
  exact complete

theorem Holding.result {seq : Nat} {index : Int} (holding : Holding state seq index)
    (apart : seq ≠ req) (result : Option (Window × Columns Value)) (worker : Worker Value) :
    Holding { state with result := Function.update state.result req result, worker := worker }
      seq index := by
  obtain ⟨idx, same, inside, complete⟩ := holding
  refine ⟨idx, same, inside, ?_⟩
  rw [Complete] at complete ⊢
  dsimp only
  rw [Function.update_of_ne apart]
  exact complete

theorem Inv.choose (inv : Inv state) (valid : state.workerValid = true) {request : Request}
    (worker : state.worker = .choose req request) (good : Bool) (columns : Columns Value) :
    Inv (workerStep state good columns) := by
  have progress := inv.progress
  rw [worker] at progress
  obtain ⟨⟨unanswered, known⟩, ready, same⟩ := progress
  obtain ⟨unpublished, unpinned, inside⟩ := chooseDst_free state.publishIdx state.readerIdx
  rw [workerStep, worker]
  dsimp only
  constructor
  · exact inv.order
  · exact inv.current
  · refine ⟨⟨⟨unanswered, known⟩, ready, inside, unpublished, unpinned⟩, columns, ?_, rfl⟩
    dsimp only
    rw [Function.update_self, same]
  · intro _ answered
    exact (inv.published ready answered).result (by omega) _ _
  · intro seq reported
    obtain ⟨answered, _, holding⟩ := inv.pinned seq reported
    exact ⟨answered, ready, holding.result (by omega) _ _⟩
  · exact inv.unready
  · exact inv.ready
  · exact fun stopped => absurd (valid.symm.trans stopped) nofun
  · exact inv.rising

theorem Inv.fill (inv : Inv state) (valid : state.workerValid = true) {dst : Nat}
    {rest : Columns Value} (filling : Filling state req dst)
    (remaining : Remaining state req buffer rest) :
    Inv { state with
      magBuf := Function.update state.magBuf dst buffer
      worker := .write req dst rest } where
  __ := inv
  progress := by
    refine ⟨{ filling with }, ?_⟩
    dsimp only
    rw [Function.update_self]
    exact remaining
  published := fun ready answered =>
    (inv.published ready answered).write filling.unpublished _ _
  pinned := by
    intro seq reported
    obtain ⟨answered, ready, holding⟩ := inv.pinned seq reported
    exact ⟨answered, ready, holding.write filling.unpinned _ _⟩
  idle := fun stopped => absurd (valid.symm.trans stopped) nofun

theorem Inv.publish (inv : Inv state) {dst : Nat} (filling : Filling state req dst)
    (complete : Complete state req (state.magBuf dst)) :
    Inv { state with publishIdx := dst, doneSeq := req, worker := .check } where
  order := filling.taken.2
  __ := inv
  progress := trivial
  published := fun _ _ => ⟨dst, rfl, filling.inside, complete⟩
  pinned := by
    intro seq reported
    obtain ⟨answered, ready, holding⟩ := inv.pinned seq reported
    exact ⟨Nat.le_trans answered (Nat.le_of_lt filling.taken.1), ready, holding⟩
  unready := fun unready => absurd (filling.inited.symm.trans unready) nofun
  idle := fun _ => rfl

theorem Inv.worker (inv : Inv state) (valid : state.workerValid = true) (good : Bool)
    (columns : Columns Value) : Inv (workerStep state good columns) := by
  have progress := inv.progress
  cases worker : state.worker with
  | check => exact inv.check valid worker good columns
  | init req request => exact inv.init valid worker good columns
  | choose req request => exact inv.choose valid worker good columns
  | zero req dst own =>
    rw [worker] at progress
    rw [workerStep, worker]
    exact inv.fill valid progress.1 progress.2
  | write req dst rest =>
    rw [worker] at progress
    rw [workerStep, worker]
    obtain ⟨filling, remaining⟩ := progress
    cases rest with
    | nil =>
      obtain ⟨own, known, whole⟩ := remaining
      exact inv.move valid ⟨filling, own, known, whole⟩
    | cons column rest => exact inv.fill valid filling remaining
  | publish req dst =>
    rw [worker] at progress
    rw [workerStep, worker]
    exact inv.publish progress.1 progress.2

variable [DecidableEq Caller]

theorem Inv.step (inv : Inv state) {action : Action Caller Value}
    (taken : step state action = some next) : Inv next := by
  cases action with
  | request request created =>
    cases taken
    exact inv.request request created
  | poll caller ready =>
    cases taken
    exact inv.poll caller ready
  | worker good columns =>
    unfold AnalysisWindow.step at taken
    dsimp only at taken
    split at taken <;> cases taken
    rename_i valid
    exact inv.worker valid good columns

/-- The result of a poll is never torn. -/
theorem analysis_untorn {schedule : List (Action Caller Value)} {last : State Caller Value}
    (h : Machine.run AnalysisWindow.step initial schedule = some last) : Untorn last :=
  Inv.untorn (Machine.run_invariant Inv (fun _ _ _ inv taken => inv.step taken) initial_inv h)

/-- Two requests, the second behind the choice of a buffer for the first, and polls between
their publications. -/
def overlapping : List (Action Unit Nat) :=
  let work (columns : Columns Nat) : Action Unit Nat := .worker true columns
  List.flatten [
    [.request ⟨50, 10, 100⟩ true, work [], work [], work [(0, 7), (3, 8)]],
    [.request ⟨99, 30, 100⟩ true, .poll () true], List.replicate 5 (work []),
    [.poll () true, work [], work [(1, 9)], .poll () true], List.replicate 4 (work []),
    [.poll () true]]

theorem analysis_untorn_overlapping :
    ∃ last, Machine.run AnalysisWindow.step initial overlapping = some last ∧
      (last.polls = [(0, 1), (1, 2)] ∧ last.readerIdx = 0) ∧ Untorn last := by
  have runs : (Machine.run AnalysisWindow.step initial overlapping).any (fun last =>
      decide (last.polls = [(0, 1), (1, 2)] ∧ last.readerIdx = 0)) = true := by
    decide +kernel
  obtain ⟨last, ran, polls⟩ := (Option.any_eq_true _ _).mp runs
  exact ⟨last, ran, of_decide_eq_true polls, analysis_untorn ran⟩

end MisrcGui.Playback.AnalysisWindow
