import MisrcGui.LocalSave.Moves

/-! What a successful COMMIT says about the jobs of a recording. -/
namespace MisrcGui.LocalSave.Delivery
open Library

def State.held (state : State) : List Job := state.worker.job.toList ++ state.queue

structure Posture (state : State) : Prop where
  plain : ∀ job ∈ state.held, job.Plain
  streaming : ∀ job, state.worker = .streaming job → job.type = .write
  control : ∀ job, state.worker = .controlSend job ∨ state.worker = .controlAwait job →
    job.type ≠ .write
  failing : ∀ job, state.worker = .finishing job false → state.failed = true
  waiting : state.worker.awaits.isSome = true → state.failed = false

variable {state : State} {alive : Bool} {acks : List Ack}

theorem Posture.asked {next : State} (posture : Posture state) (asked : Asked state next) :
    Posture next := by
  cases asked with
  | aside => exact { posture with }
  | adds encoder ending queuedBytes job plain =>
    refine { posture with plain := ?_ }
    intro other member
    simp only [State.held, ← List.append_assoc, List.mem_append, List.mem_singleton] at member
    rcases member with member | rfl
    · exact posture.plain other (List.mem_append.mpr member)
    · exact plain

theorem Posture.turn {next : State} (posture : Posture state) (turn : Turn state next) :
    Posture next := by
  have mine : ∀ job ∈ state.worker.job, job.Plain :=
    fun job here => posture.plain job (List.mem_append_left _ (Option.mem_toList.mpr here))
  have others : ∀ job ∈ state.queue, job.Plain :=
    fun job here => posture.plain job (List.mem_append_right _ here)
  -- a job in the worker's hands and the rest of the queue
  have holding : ∀ (worker : Worker) (job : Job), worker.job = some job → job.Plain →
      ∀ held ∈ worker.job.toList ++ state.queue, held.Plain := by
    intro worker job holds plain held member
    rw [holds] at member
    rcases List.mem_cons.mp member with rfl | member
    · exact plain
    · exact others held member
  cases turn with
  | takes job rest worker idle queue begins =>
    have plain := queue ▸ others
    rcases begins with ⟨write, rfl⟩ | ⟨control, rfl | rfl⟩
    · exact ⟨plain, by simp [write], by simp, by simp, by simp [Worker.awaits]⟩
    · exact ⟨plain, by simp, by simp, by simp, by simp [Worker.awaits]⟩
    · exact ⟨plain, by simp, by simp [control], by simp, by simp [Worker.awaits]⟩
  | fails job outstanding failed stepFailed holds broken =>
    refine ⟨holding (.finishing job false) job rfl (mine job holds), by simp, by simp, ?_, ?_⟩
    · exact fun _ _ => broken
    · exact fun waits => absurd waits Bool.false_ne_true
  | streams job outstanding worker here working goes =>
    have plain := mine job (by rw [here]; rfl)
    rcases goes with rfl | rfl
    · exact ⟨holding (.syncSend job) job rfl plain, by simp, by simp, by simp,
        by simp [Worker.awaits]⟩
    · exact ⟨holding (.finishing job true) job rfl plain, by simp, by simp, by simp,
        by simp [Worker.awaits]⟩
  | syncs job here working =>
    have plain := mine job (by rw [here]; rfl)
    exact ⟨holding (.syncAwait job) job rfl plain, by simp, by simp, by simp, fun _ => working⟩
  | sends job here working =>
    have plain := mine job (by rw [here]; rfl)
    have control := posture.control job (.inl here)
    exact ⟨holding (.controlAwait job) job rfl plain, by simp, by simp [control], by simp,
      fun _ => working⟩
  | synced job ack rest worker here arrives good goes =>
    have plain := mine job (by rw [here]; rfl)
    rcases goes with ⟨write, rfl⟩ | ⟨control, rfl⟩
    · exact ⟨holding (.finishing job true) job rfl plain, by simp, by simp, by simp,
        by simp [Worker.awaits]⟩
    · exact ⟨holding (.controlSend job) job rfl plain, by simp, by simp [control], by simp,
        by simp [Worker.awaits]⟩
  | answered job ack rest here arrives good =>
    have plain := mine job (by rw [here]; rfl)
    exact ⟨holding (.finishing job true) job rfl plain, by simp, by simp, by simp,
      by simp [Worker.awaits]⟩
  | settles job result queuedBytes here =>
    obtain ⟨encoder, ending, settled⟩ :=
      settle_eq { state with worker := .idle, queuedBytes } job result
    rw [settled]
    exact ⟨others, by simp, by simp, by simp, by simp [Worker.awaits]⟩

theorem Posture.move {next : State} (posture : Posture state) (move : Move state next) :
    Posture next := by
  cases move with
  | asks request => exact posture.asked request.asked
  | turns turn => exact posture.turn turn
  | hears heard =>
    cases heard with
    | streamed | answered | committed | stopped => exact { posture with }
  | disconnects | stops => exact { posture with }
  | detaches free =>
    refine { posture with failing := fun _ _ => rfl, waiting := fun waits => ?_ }
    rw [free] at waits
    cases waits

/-- What is in flight while the session holds, with the frame whose answer the worker awaits. -/
inductive Wire : Bool → Option Frame → List Frame → List Ack → Prop where
  | streaming (frames : List Frame) (writes : ∀ frame ∈ frames, frame.type = .writeStream) :
    Wire true none frames []
  | asking (frames : List Frame) (frame : Frame)
      (writes : ∀ frame ∈ frames, frame.type = .writeStream) :
    Wire true (some frame) (frames ++ [frame]) []
  | answered (alive : Bool) (frame : Frame) (ack : Ack) (good : ack.good = true) :
    Wire alive (some frame) [] [ack]
  | broken (awaited : Option Frame) (frames : List Frame) (acks : List Ack)
      (refusing : ∀ ack ∈ acks, ack.good = false) : Wire false awaited frames acks

theorem Wire.stream {frames : List Frame} (wire : Wire alive none frames acks) {frame : Frame}
    (write : frame.type = .writeStream) :
    Wire alive none (frames ++ [frame]) acks := by
  cases wire with
  | streaming _ writes =>
    apply Wire.streaming
    intro other member
    rcases List.mem_append.mp member with member | member
    · exact writes other member
    · rw [List.mem_singleton.mp member, write]
  | broken _ _ _ refusing => exact .broken _ _ _ refusing

theorem Wire.ask {frames : List Frame} (wire : Wire alive none frames acks) (frame : Frame) :
    Wire alive (some frame) (frames ++ [frame]) acks := by
  cases wire with
  | streaming _ writes => exact .asking frames frame writes
  | broken _ _ _ refusing => exact .broken _ _ _ refusing

theorem Wire.read {frame : Frame} {frames : List Frame} {ack : Ack}
    (wire : Wire alive (some frame) frames (ack :: acks)) (good : ack.good = true) :
    Wire alive none frames acks := by
  cases wire with
  | answered =>
    cases alive with
    | true => exact .streaming [] (List.forall_mem_nil _)
    | false => exact .broken none [] [] (List.forall_mem_nil _)
  | broken _ _ _ refusing =>
    rw [refusing ack List.mem_cons_self] at good
    cases good

theorem Wire.quiet {frames : List Frame} (wire : Wire alive none frames acks) :
    ∀ ack ∈ acks, ack.good = false := by
  cases wire with
  | streaming => exact List.forall_mem_nil _
  | broken _ _ _ refusing => exact refusing

theorem Wire.stop {awaited : Option Frame} {frames : List Frame}
    (wire : Wire alive awaited frames acks) :
    Wire false awaited frames acks := by
  cases wire with
  | streaming | asking => exact .broken _ _ _ (List.forall_mem_nil _)
  | answered _ frame ack good => exact .answered false frame ack good
  | broken _ _ _ refusing => exact .broken _ _ _ refusing

/-- The client takes a frame off the wire: a streamed write, or the one that is awaited. -/
theorem Wire.hear {awaited : Option Frame} {frame : Frame} {frames : List Frame}
    (wire : Wire true awaited (frame :: frames) acks) :
    acks = [] ∧ (frame.type = .writeStream ∧ Wire true awaited frames [] ∨
      awaited = some frame ∧ frames = []) := by
  generalize all : frame :: frames = sent at wire
  cases wire with
  | streaming _ writes =>
    rw [← all] at writes
    exact ⟨rfl, .inl ⟨writes frame List.mem_cons_self,
      .streaming frames fun other member => writes other (List.mem_cons_of_mem _ member)⟩⟩
  | asking before last writes =>
    refine ⟨rfl, ?_⟩
    cases before with
    | nil =>
      cases all
      exact .inr ⟨rfl, rfl⟩
    | cons first others =>
      cases all
      exact .inl ⟨writes frame List.mem_cons_self,
        .asking others last fun other member => writes other (List.mem_cons_of_mem _ member)⟩
  | answered => cases all

def Wired (state : State) : Prop :=
  state.failed = false →
    Wire state.alive state.worker.awaits state.toClient state.toServer

theorem Wired.turn {next : State} (wired : Wired state) (posture : Posture state)
    (turn : Turn state next) : Wired next := by
  intro working
  cases turn with
  | takes job rest worker idle queue begins =>
    have wire := wired working
    rw [idle] at wire
    rcases begins with ⟨_, rfl⟩ | ⟨_, rfl | rfl⟩
    · exact wire
    · exact wire
    · exact wire
  | fails job outstanding failed stepFailed holds broken =>
    dsimp only at working
    rw [broken] at working
    cases working
  | streams job outstanding worker here _ goes =>
    have wire := wired working
    rw [here] at wire
    have sent : Wire state.alive none (state.toClient ++ [job.frame]) state.toServer :=
      wire.stream (if_pos (posture.streaming job here))
    rcases goes with rfl | rfl
    · exact sent
    · exact sent
  | syncs job here _ =>
    have wire := wired working
    rw [here] at wire
    exact Wire.ask wire syncFrame
  | sends job here _ =>
    have wire := wired working
    rw [here] at wire
    exact Wire.ask wire job.frame
  | synced job ack rest worker here arrives good goes =>
    have wire := wired working
    rw [here, arrives] at wire
    have read : Wire state.alive none state.toClient rest := Wire.read wire good
    rcases goes with ⟨_, rfl⟩ | ⟨_, rfl⟩
    · exact read
    · exact read
  | answered job ack rest here arrives good =>
    have wire := wired working
    rw [here, arrives] at wire
    exact Wire.read wire good
  | settles job result queuedBytes here =>
    obtain ⟨encoder, ending, settled⟩ :=
      settle_eq { state with worker := .idle, queuedBytes } job result
    rw [settled] at working ⊢
    have wire := wired working
    rw [here] at wire
    exact wire

theorem Posture.awaited (posture : Posture state) {frame : Frame}
    (waits : state.worker.awaits = some frame) : frame.type ≠ .writeStream := by
  cases here : state.worker with
  | syncAwait job =>
    rw [here] at waits
    cases waits
    nofun
  | controlAwait job =>
    rw [here] at waits
    cases waits
    have control := posture.control job (.inr here)
    have plain := posture.plain job (by simp [State.held, here, Worker.job])
    simp only [Job.frame, if_neg control]
    exact plain.2
  | _ =>
    rw [here] at waits
    cases waits

theorem Wired.heard {next : State} (wired : Wired state) (posture : Posture state)
    (heard : Heard state next) : Wired next := by
  intro working
  cases heard with
  | streamed frame rest session alive arrives type effect =>
    have wire := wired working
    rw [alive, arrives] at wire
    obtain ⟨none, ⟨_, wire⟩ | ⟨awaited, last⟩⟩ := wire.hear
    · dsimp only
      rw [none]
      exact wire
    · exact absurd type (posture.awaited awaited)
  | answered frame rest session goesOn alive arrives type plain effect =>
    have wire := wired working
    rw [alive, arrives] at wire
    obtain ⟨none, ⟨write, _⟩ | ⟨awaited, last⟩⟩ := wire.hear
    · exact absurd write type
    · dsimp only
      rw [none, awaited, last]
      exact .answered goesOn frame _ rfl
  | committed frame rest session alive linked arrives commit closed =>
    have wire := wired working
    rw [alive, arrives] at wire
    obtain ⟨none, ⟨write, _⟩ | ⟨awaited, last⟩⟩ := wire.hear
    · rw [commit] at write
      cases write
    · dsimp only
      rw [none, awaited, last]
      exact .answered true frame _ rfl
  | stopped frame rest acks session applied unflushed snapshot alive arrives refusing kept =>
    have wire := wired working
    rw [alive, arrives] at wire
    dsimp only
    rw [wire.hear.1]
    exact .broken _ _ _ refusing

theorem Wired.move {next : State} (wired : Wired state) (posture : Posture state)
    (move : Move state next) : Wired next := by
  cases move with
  | asks request =>
    cases request.asked with
    | aside => exact wired
    | adds => exact wired
  | turns turn => exact wired.turn posture turn
  | hears heard => exact wired.heard posture heard
  | disconnects => exact wired
  | detaches free => exact fun working => absurd working Bool.true_eq_false.mp
  | stops session => exact fun working => (wired working).stop

def jobFrames (frames : List Frame) : List Frame :=
  frames.filter fun frame => decide (frame.type ≠ .sync)

theorem Job.Plain.jobFrames {job : Job} (plain : job.Plain) :
    jobFrames [job.frame] = [job.frame] := by
  apply List.filter_cons_of_pos
  apply decide_eq_true
  simp only [Job.frame]
  split
  · nofun
  · exact plain.1

def Worker.unsent : Worker → List Job
  | .streaming job | .controlSend job => [job]
  | .syncSend job | .syncAwait job => if job.type = .write then [] else [job]
  | _ => []

/-- Applied, in flight and waiting: the jobs in the order of the queue. -/
def Ordered (state : State) : Prop :=
  state.failed = false → state.alive = true →
    jobFrames (state.applied ++ state.toClient) ++
      (state.worker.unsent ++ state.queue).map Job.frame = state.enqueued.map Job.frame

theorem jobFrames_append (first second : List Frame) :
    jobFrames (first ++ second) = jobFrames first ++ jobFrames second :=
  List.filter_append ..

theorem Ordered.turn {next : State} (ordered : Ordered state) (posture : Posture state)
    (turn : Turn state next) : Ordered next := by
  intro working alive
  have mine : ∀ job, state.worker.job = some job → job.Plain :=
    fun job here => posture.plain job (List.mem_append_left _ (Option.mem_toList.mpr here))
  -- the worker sends the frame of its job
  have sent : ∀ job, state.worker.job = some job → state.worker.unsent = [job] →
      state.failed = false → state.alive = true →
      jobFrames (state.applied ++ (state.toClient ++ [job.frame])) ++
        state.queue.map Job.frame = state.enqueued.map Job.frame := by
    intro job holds unsent working alive
    rw [← ordered working alive, unsent, ← List.append_assoc, jobFrames_append,
      (mine job holds).jobFrames, List.append_assoc]
    rfl
  cases turn with
  | takes job rest worker idle queue begins =>
    have order := ordered working alive
    rw [idle, queue] at order
    rcases begins with ⟨_, rfl⟩ | ⟨control, rfl | rfl⟩
    · exact order
    · dsimp only
      rw [Worker.unsent, if_neg control]
      exact order
    · exact order
  | fails job outstanding failed stepFailed holds broken =>
    dsimp only at working
    rw [broken] at working
    cases working
  | streams job outstanding worker here _ goes =>
    have order := sent job (by rw [here]; rfl) (by rw [here]; rfl) working alive
    rcases goes with rfl | rfl
    · dsimp only
      rw [Worker.unsent, if_pos (posture.streaming job here)]
      exact order
    · exact order
  | syncs job here _ =>
    have order := ordered working alive
    rw [here] at order
    dsimp only
    rw [← List.append_assoc, jobFrames_append _ [syncFrame]]
    exact (congrArg (· ++ _) (List.append_nil _)).trans order
  | sends job here _ => exact sent job (by rw [here]; rfl) (by rw [here]; rfl) working alive
  | synced job ack rest worker here arrives good goes =>
    have order := ordered working alive
    rw [here, Worker.unsent] at order
    rcases goes with ⟨write, rfl⟩ | ⟨control, rfl⟩
    · rw [if_pos write] at order
      exact order
    · rw [if_neg control] at order
      exact order
  | answered job ack rest here arrives good =>
    have order := ordered working alive
    rw [here] at order
    exact order
  | settles job result queuedBytes here =>
    obtain ⟨encoder, ending, settled⟩ :=
      settle_eq { state with worker := .idle, queuedBytes } job result
    rw [settled] at working alive ⊢
    have order := ordered working alive
    rw [here] at order
    exact order

theorem Ordered.heard {next : State} (ordered : Ordered state) (heard : Heard state next) :
    Ordered next := by
  intro working alive
  have moved : ∀ frame rest, state.failed = false → state.alive = true →
      state.toClient = frame :: rest → jobFrames (state.applied ++ [frame] ++ rest) ++
        (state.worker.unsent ++ state.queue).map Job.frame = state.enqueued.map Job.frame := by
    intro frame rest working alive arrives
    rw [List.append_assoc, List.singleton_append, ← arrives]
    exact ordered working alive
  cases heard with
  | streamed frame rest session before arrives => exact moved frame rest working before arrives
  | answered frame rest session goesOn before arrives => exact moved frame rest working before arrives
  | committed frame rest session before linked arrives => exact moved frame rest working before arrives
  | stopped => cases alive

theorem Ordered.move {next : State} (ordered : Ordered state) (posture : Posture state)
    (move : Move state next) : Ordered next := by
  cases move with
  | asks request =>
    cases request.asked with
    | aside => exact ordered
    | adds encoder ending queuedBytes job plain =>
      intro working alive
      dsimp only
      rw [← List.append_assoc, List.map_append, ← List.append_assoc, ordered working alive,
        List.map_append]
  | turns turn => exact ordered.turn posture turn
  | hears heard => exact ordered.heard heard
  | disconnects => exact ordered
  | detaches free => exact fun working => absurd working Bool.true_eq_false.mp
  | stops session => exact fun _ alive => absurd alive Bool.false_ne_true

/-- The files of a client that has applied some frames since the recording began. -/
structure Files (applied : List Frame) (unflushed : Fin maxFiles → Bool) (session : Session) :
    Prop where
  opened : ∀ frame ∈ applied, frame.type = .open → ∀ id : Fin maxFiles, frame.fileId = id →
    (session.file id).wasOpened = true
  closed : ∀ id, (session.file id).wasClosed = true →
    ∃ frame ∈ applied, frame.type = .close ∧ frame.fileId = id
  streams : ∀ id, (session.file id).stream.isSome = true → (session.file id).wasOpened = true
  dirty : ∀ id, unflushed id = true → (session.file id).stream.isSome = true

theorem Files.apply {applied : List Frame} {unflushed : Fin maxFiles → Bool}
    {session next : Session} {frame : Frame} (files : Files applied unflushed session)
    (effect : Effect session next frame) (goesOn : frame.type ≠ .abort) :
    Files (applied ++ [frame]) (flushed unflushed frame) next := by
  constructor
  · intro other member type id here
    rcases List.mem_append.mp member with member | member
    · exact (effect.opened id).mpr (.inl (files.opened other member type id here))
    · rw [List.mem_singleton.mp member] at type here
      exact (effect.opened id).mpr (.inr ⟨type, here⟩)
  · intro id closed
    rcases (effect.closed id).mp closed with before | ⟨type, here⟩
    · obtain ⟨other, member, close⟩ := files.closed id before
      exact ⟨other, List.mem_append_left _ member, close⟩
    · exact ⟨frame, List.mem_append_right _ (List.mem_singleton_self frame), type, here⟩
  · intro id some
    apply (effect.opened id).mpr
    rcases effect.streaming id some with before | now
    · exact .inl (files.streams id before)
    · exact .inr now
  · intro id dirty
    have stays : unflushed id = true → ¬(frame.type = .close ∧ frame.fileId = id) →
        (next.file id).stream.isSome = true := fun before notClosed =>
      (effect.kept id (files.dirty id before) goesOn).resolve_left notClosed
    simp only [flushed] at dirty
    split at dirty
    · next type =>
      rcases (Bool.or_eq_true _ _).mp dirty with before | here
      · apply stays before
        rw [type]
        nofun
      · exact effect.written type id (of_decide_eq_true here)
    · cases dirty
    · next type =>
      obtain ⟨before, elsewhere⟩ := (Bool.and_eq_true _ _).mp dirty
      exact stays before fun closed => of_decide_eq_true elsewhere closed.2
    · next notClose => exact stays dirty fun closed => notClose closed.1

/-- The client until its first COMMIT, and what a COMMIT and a failure leave behind. -/
structure Received (state : State) : Prop where
  files : state.alive = true → state.snapshot = none →
    Files state.applied state.unflushed state.session
  committed : state.snapshot ≠ none → ∃ frame ∈ state.applied, frame.type = .commit
  errors : state.stepFailed = true →
    state.failed = true ∨ state.linked = false ∨ state.alive = false

theorem Received.turn {next : State} (received : Received state) (turn : Turn state next) :
    Received next := by
  cases turn with
  | fails job outstanding failed stepFailed holds broken =>
    exact ⟨received.files, received.committed, fun _ => .inl broken⟩
  | settles job result queuedBytes here =>
    obtain ⟨encoder, ending, settled⟩ :=
      settle_eq { state with worker := .idle, queuedBytes } job result
    rw [settled]
    exact { received with }
  | _ => exact { received with }

theorem Received.heard {next : State} (received : Received state) (heard : Heard state next) :
    Received next := by
  have kept : ∀ frame, state.snapshot ≠ none →
      ∃ other ∈ state.applied ++ [frame], other.type = .commit := by
    intro frame taken
    obtain ⟨other, member, commit⟩ := received.committed taken
    exact ⟨other, List.mem_append_left _ member, commit⟩
  have last : ∀ frame : Frame, frame.type = .commit →
      ∃ other ∈ state.applied ++ [frame], other.type = .commit := fun frame commit =>
    ⟨frame, List.mem_append_right _ (List.mem_singleton_self frame), commit⟩
  -- an error behind a client that was alive is one of the server's side
  have errors : state.alive = true → state.stepFailed = true →
      state.failed = true ∨ state.linked = false := by
    intro alive failed
    rcases received.errors failed with failed | unlinked | dead
    · exact .inl failed
    · exact .inr unlinked
    · rw [alive] at dead
      cases dead
  cases heard with
  | streamed frame rest session alive arrives type effect =>
    refine ⟨fun _ fresh => (received.files alive fresh).apply effect ?_, kept frame, ?_⟩
    · rw [type]
      nofun
    · exact fun failed => (errors alive failed).imp_right .inl
  | answered frame rest session goesOn alive arrives type plain effect =>
    refine ⟨fun goes fresh => ?_, kept frame, fun failed => ?_⟩
    · exact (received.files alive fresh).apply (effect goes).2 (effect goes).1
    · exact (errors alive failed).imp_right .inl
  | committed frame rest session alive linked arrives commit closed =>
    refine ⟨fun _ fresh => ?_, fun _ => last frame commit, fun failed => ?_⟩
    · cases fresh
    · exact (errors alive failed).imp_right .inl
  | stopped frame rest acks session applied unflushed snapshot alive arrives refusing keeps =>
    refine ⟨fun goes => absurd goes Bool.false_ne_true, fun taken => ?_, fun _ => .inr (.inr rfl)⟩
    rcases keeps with ⟨rfl, rfl⟩ | ⟨rfl, rfl | commit⟩
    · exact received.committed taken
    · exact kept frame taken
    · exact last frame commit

theorem Received.move {next : State} (received : Received state) (move : Move state next) :
    Received next := by
  cases move with
  | asks request =>
    cases request.asked with
    | aside => exact { received with }
    | adds => exact { received with }
  | turns turn => exact received.turn turn
  | hears heard => exact received.heard heard
  | disconnects => exact { received with errors := fun _ => .inr (.inl rfl) }
  | detaches free => exact { received with errors := fun _ => .inl rfl }
  | stops session =>
    exact
      { received with
        files := fun alive => absurd alive Bool.false_ne_true
        errors := fun _ => .inr (.inr rfl) }

end MisrcGui.LocalSave.Delivery
