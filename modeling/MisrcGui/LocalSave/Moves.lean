import MisrcGui.LocalSave.Delivery

/-! The moves of a local save: what a frame that the client applies does to its files, what an
encoder asks for, what the worker does in a turn and what the client answers. -/
namespace MisrcGui.LocalSave.Delivery
open Library

def Touches (session next : Session) (id : Fin maxFiles) (file : SavedFile) : Prop :=
  ∀ other, next.file other = if other = id then file else session.file other

theorem withFile_touches (session : Session) (id : Fin maxFiles) (file : SavedFile) :
    Touches session (session.withFile id file) id file := by
  intro other
  simp only [Session.file, Session.withFile, Function.update_apply]

theorem touches_self (session : Session) (id : Fin maxFiles) :
    Touches session session id (session.file id) := by
  intro other
  split
  · next same => rw [same]
  · rfl

variable {faults : Faults} {session : Session} {id : Fin maxFiles} {damaged : Bool} {state : State}
  {noMemory : Bool}

theorem openFile_ok {next : Session} {name : Bytes}
    (h : openFile faults session id name = (next, true)) :
    ∃ finalPath incompletePath, Touches session next id
      { session.file id with
        finalPath, incompletePath, stream := some 0, wasOpened := true } := by
  simp only [openFile] at h
  split at h
  · cases h
  · split at h
    · cases h
    · split at h
      · cases h
      · split at h
        · cases h
        · split at h
          · cases h
          · cases h
            exact ⟨_, _, withFile_touches session id _⟩

theorem writeFile_ok {next : Session} {offset : Nat} {data : Bytes} {flushNow : Bool}
    (h : writeFile faults session id offset data flushNow = (next, true)) :
    (session.file id).stream.isSome = true ∧ ∃ position nextOffset,
      Touches session next id { session.file id with stream := some position, nextOffset } := by
  simp only [writeFile] at h
  split at h
  · cases h
  · next fits =>
    simp only [Bool.or_eq_true, Option.isNone_iff_eq_none, not_or] at fits
    have some := Option.isSome_iff_ne_none.mpr fits.1.1.1.1
    split at h
    · cases h
    · split at h
      · cases h
      · simp only [Prod.mk.injEq] at h
        rw [← h.1]
        exact ⟨some, _, _, withFile_touches session id _⟩

theorem closeFile_ok {next : Session} (h : closeFile faults session id = (next, true)) :
    Touches session next id { session.file id with stream := none, wasClosed := true } := by
  simp only [closeFile] at h
  split at h
  · cases h
  · simp only [Prod.mk.injEq] at h
    rw [← h.1, h.2, Bool.or_true, Bool.not_true, Bool.or_false]
    exact withFile_touches session id _

theorem seekFile_ok {next : Session} {offset : Nat}
    (h : seekFile faults session id offset = (next, true)) :
    (session.file id).stream.isSome = true ∧ Touches session next id
      { session.file id with stream := some offset, nextOffset := offset } := by
  simp only [seekFile] at h
  split at h
  · cases h
  · next fits =>
    simp only [Bool.or_eq_true, Option.isNone_iff_eq_none, not_or] at fits
    cases h
    exact ⟨Option.isSome_iff_ne_none.mpr fits.1.1.1, withFile_touches session id _⟩

structure Effect (session next : Session) (frame : Frame) : Prop where
  opened : ∀ id, (next.file id).wasOpened = true ↔
    (session.file id).wasOpened = true ∨ frame.type = .open ∧ frame.fileId = id
  closed : ∀ id, (next.file id).wasClosed = true ↔
    (session.file id).wasClosed = true ∨ frame.type = .close ∧ frame.fileId = id
  streaming : ∀ id, (next.file id).stream.isSome = true →
    (session.file id).stream.isSome = true ∨ frame.type = .open ∧ frame.fileId = id
  kept : ∀ id, (session.file id).stream.isSome = true → frame.type ≠ .abort →
    (frame.type = .close ∧ frame.fileId = id) ∨ (next.file id).stream.isSome = true
  written : frame.type = .writeStream → ∀ id : Fin maxFiles, frame.fileId = id →
    (next.file id).stream.isSome = true

theorem Effect.of_file {next : Session} {frame : Frame} {file : SavedFile}
    (here : frame.fileId = id) (files : Touches session next id file)
    (opened : file.wasOpened = true ↔ (session.file id).wasOpened = true ∨ frame.type = .open)
    (closed : file.wasClosed = true ↔ (session.file id).wasClosed = true ∨ frame.type = .close)
    (streaming : file.stream.isSome = true →
      (session.file id).stream.isSome = true ∨ frame.type = .open)
    (kept : (session.file id).stream.isSome = true →
      frame.type = .close ∨ file.stream.isSome = true)
    (written : frame.type = .writeStream → file.stream.isSome = true) :
    Effect session next frame := by
  have elsewhere : ∀ other, other ≠ id → frame.fileId ≠ other :=
    fun other different same => different (Fin.ext (same.symm.trans here))
  constructor
  · intro other
    rw [files]
    split
    · next same => rw [same, opened, here, and_iff_left rfl]
    · next different => simp only [elsewhere other different, and_false, or_false]
  · intro other
    rw [files]
    split
    · next same => rw [same, closed, here, and_iff_left rfl]
    · next different => simp only [elsewhere other different, and_false, or_false]
  · intro other
    rw [files]
    split
    · next same =>
      rw [same, here, and_iff_left rfl]
      exact streaming
    · exact Or.inl
  · intro other open' _
    rw [files]
    split
    · next same =>
      rw [same] at open' ⊢
      rw [here, and_iff_left rfl]
      exact kept open'
    · exact Or.inr open'
  · intro streamed other at'
    have same : other = id := Fin.ext (at'.symm.trans here)
    rw [files, if_pos same]
    exact written streamed

theorem abortFiles_effect {frame : Frame} (type : frame.type = .abort) :
    Effect session (abortFiles session) frame := by
  constructor
  · intro id
    simp only [abortFiles, Session.file, type, reduceCtorEq, false_and, or_false]
  · intro id
    simp only [abortFiles, Session.file, type, reduceCtorEq, false_and, or_false]
  · intro id some
    exact absurd some Bool.false_ne_true
  · intro id _ other
    exact absurd type other
  · intro streamed
    rw [type] at streamed
    cases streamed

theorem applyType_effect {next : Session} {frame : Frame} (here : frame.fileId = id)
    (plain : frame.type ≠ .commit) (h : applyType faults session id frame = (next, true)) :
    Effect session next frame := by
  simp only [applyType] at h
  split at h
  case h_1 type =>
    obtain ⟨finalPath, incompletePath, files⟩ := openFile_ok h
    apply Effect.of_file here files <;> simp [type]
  case h_2 type =>
    obtain ⟨some, position, nextOffset, files⟩ := writeFile_ok h
    apply Effect.of_file here files <;> simp [type, some]
  case h_3 type =>
    obtain ⟨some, position, nextOffset, files⟩ := writeFile_ok h
    apply Effect.of_file here files <;> simp [type, some]
  case h_4 type =>
    simp only [Prod.mk.injEq] at h
    rw [← h.1]
    apply Effect.of_file here (touches_self session id) <;> simp +contextual [type]
  case h_5 type =>
    split at h
    · obtain ⟨some, files⟩ := seekFile_ok h
      apply Effect.of_file here files <;> simp [type, some]
    · cases h
  case h_6 type =>
    split at h
    · apply Effect.of_file here (closeFile_ok h) <;> simp [type]
    · cases h
  case h_7 type => exact absurd type plain
  case h_8 type =>
    cases h
    exact abortFiles_effect type
  case h_9 => cases h

theorem applyFrame_ok {next : Session} {frame : Frame}
    (h : applyFrame faults session frame damaged = (next, true)) :
    ∃ id : Fin maxFiles, frame.fileId = id ∧ ∃ applied : Session,
      applyType faults session id frame = (applied, true) ∧ next.file = applied.file := by
  simp only [applyFrame] at h
  split at h
  · cases h
  · simp only [receiverApply] at h
    split at h
    · next inside =>
      refine ⟨⟨frame.fileId, inside⟩, rfl, ?_⟩
      split at h
      · cases h
      · split at h
        · cases h
        · split at h
          · next applied type =>
            refine ⟨applied, type, ?_⟩
            split at h
            · cases h
              rfl
            · cases h
              rfl
          · cases h
    · cases h

theorem applyFrame_effect {next : Session} {frame : Frame}
    (h : applyFrame faults session frame damaged = (next, true)) (plain : frame.type ≠ .commit) :
    Effect session next frame := by
  obtain ⟨id, here, applied, type, files⟩ := applyFrame_ok h
  have effect := applyType_effect here plain type
  constructor
  · rw [files]
    exact effect.opened
  · rw [files]
    exact effect.closed
  · rw [files]
    exact effect.streaming
  · rw [files]
    exact effect.kept
  · rw [files]
    exact effect.written

theorem applyFrame_commit {next : Session} {frame : Frame}
    (h : applyFrame faults session frame damaged = (next, true)) (commit : frame.type = .commit)
    (id : Fin maxFiles) (opened : (session.file id).wasOpened = true) :
    (session.file id).stream = none ∧ (session.file id).wasClosed = true := by
  obtain ⟨_, _, applied, type, _⟩ := applyFrame_ok h
  simp only [applyType, commit] at type
  split at type
  · simp only [commitFiles] at type
    split at type
    · cases type
    · next accepted =>
      simp only [refusesCommit, Bool.or_eq_true, not_or, List.any_eq_true, not_exists] at accepted
      have member : id ∈ openedFiles session.receiver := by
        simp only [openedFiles, List.mem_filter, List.mem_finRange, true_and]
        exact opened
      have clean := accepted.2 id
      simp only [member, true_and, not_or, Option.isSome_iff_ne_none, not_not,
        Bool.not_eq_true', Bool.not_eq_false] at clean
      exact ⟨clean.1.1.1, clean.1.1.2⟩
  · cases type

inductive Request (state : State) : State → Prop where
  | opens (id : Fin maxFiles) (name : Bytes) (absent : state.encoder id = .absent)
      (running : state.ending = .running) :
    Request state ((state.withEncoder id .opening).enqueue ⟨.open, id, 0, name⟩)
  | opensNot (id : Fin maxFiles) (absent : state.encoder id = .absent)
      (running : state.ending = .running) :
    Request state { state.withEncoder id .gone with openRefused := true }
  | writes (id : Fin maxFiles) (offset : Nat) (data : Bytes)
      (ready : state.encoder id = .ready false) :
    Request state (state.enqueue ⟨.write, id, offset, data⟩)
  | writesNot (id : Fin maxFiles) (ready : state.encoder id = .ready false) :
    Request state { state.withEncoder id (.ready true) with refused := true }
  | closes (id : Fin maxFiles) (ready : state.encoder id = .ready false) :
    Request state ((state.withEncoder id .closing).enqueue ⟨.close, id, 0, []⟩)
  | closesNot (id : Fin maxFiles) (ready : state.encoder id = .ready false) :
    Request state { state.withEncoder id .failing with refused := true }
  | givesUp (id : Fin maxFiles) (bad : Bool) (ready : state.encoder id = .ready bad)
      (why : bad = true ∨ state.failed = true) : Request state (state.withEncoder id .failing)
  | aborts (id : Fin maxFiles) (failing : state.encoder id = .failing) :
    Request state ((state.withEncoder id .aborting).enqueue ⟨.abort, id, 0, []⟩)
  | abortsNot (id : Fin maxFiles) (failing : state.encoder id = .failing) :
    Request state { state.withEncoder id .gone with refused := true }
  | ends (running : state.ending = .running)
      (unused : ∀ id, (state.encoder id).unused = true) :
    Request state ({ state with ending := .committing }.enqueue ⟨.commit, syncId, 0, []⟩)
  | endsNot (refused : Bool) (running : state.ending = .running)
      (unused : ∀ id, (state.encoder id).unused = true) :
    Request state { state with ending := .returned false, refused }

def Job.Plain (job : Job) : Prop := job.type ≠ .sync ∧ job.type ≠ .writeStream

/-- What a request does outside the proxies: nothing, or a job joins the queue. -/
inductive Asked (state : State) : State → Prop where
  | aside (encoder : Fin maxFiles → Encoder) (ending : Ending) (refused openRefused : Bool) :
    Asked state { state with encoder, ending, refused, openRefused }
  | adds (encoder : Fin maxFiles → Encoder) (ending : Ending) (queuedBytes : Nat) (job : Job)
      (plain : job.Plain) :
    Asked state
      { state with
        encoder
        ending
        queuedBytes
        queue := state.queue ++ [job]
        enqueued := state.enqueued ++ [job] }

theorem Request.asked {next : State} (request : Request state next) : Asked state next := by
  cases request with
  | opens | writes | closes | aborts | ends => exact .adds _ _ _ _ ⟨nofun, nofun⟩
  | opensNot | writesNot | closesNot | givesUp | abortsNot | endsNot => exact .aside _ _ _ _

theorem openProxy_request {next : State} {name : Bytes}
    (h : openProxy state id name noMemory = some next) :
    Request state next := by
  simp only [openProxy] at h
  split at h
  · next absent running =>
    split at h
    · cases h
    · split at h
      · cases h
        exact .opensNot id absent running
      · cases h
        exact .opens id name absent running
  · cases h

theorem writeProxy_request {next : State} {offset : Nat} {data : Bytes}
    (h : writeProxy state id offset data noMemory = some next) : Request state next := by
  simp only [writeProxy] at h
  split at h
  · next ready =>
    split at h
    · cases h
    · split at h
      · cases h
        exact .writesNot id ready
      · split at h
        · cases h
        · cases h
          exact .writes id offset data ready
  · cases h

theorem closeProxy_request {next : State} (h : closeProxy state id noMemory = some next) :
    Request state next := by
  simp only [closeProxy] at h
  split at h
  · next bad ready =>
    split at h
    · next why =>
      cases h
      exact .givesUp id bad ready ((Bool.or_eq_true _ _).mp why)
    · next sound =>
      simp only [Bool.or_eq_true, not_or, Bool.not_eq_true] at sound
      rw [sound.1] at ready
      split at h
      · cases h
        exact .closesNot id ready
      · cases h
        exact .closes id ready
  · cases h

theorem abortProxy_request {next : State} (h : abortProxy state id noMemory = some next) :
    Request state next := by
  simp only [abortProxy] at h
  split at h
  · next failing =>
    split at h
    · cases h
      exact .abortsNot id failing
    · cases h
      exact .aborts id failing
  · cases h

theorem endRecording_request {next : State} (h : endRecording state noMemory = some next) :
    Request state next := by
  simp only [endRecording] at h
  split at h
  · next ready =>
    split at h
    · cases h
      exact .endsNot state.refused ready.1 ready.2
    · split at h
      · cases h
        exact .endsNot true ready.1 ready.2
      · cases h
        exact .ends ready.1 ready.2
  · cases h

def Worker.job : Worker → Option Job
  | .idle => none
  | .streaming job | .syncSend job | .syncAwait job | .controlSend job | .controlAwait job
  | .finishing job _ => some job

inductive Turn (state : State) : State → Prop where
  | takes (job : Job) (rest : List Job) (worker : Worker) (idle : state.worker = .idle)
      (queue : state.queue = job :: rest)
      (begins : job.type = .write ∧ worker = .streaming job ∨
        job.type ≠ .write ∧ (worker = .syncSend job ∨ worker = .controlSend job)) :
    Turn state { state with queue := rest, worker }
  | fails (job : Job) (outstanding : Nat) (failed stepFailed : Bool)
      (holds : state.worker.job = some job) (broken : failed = true) :
    Turn state
      { state with failed, stepFailed, outstanding, worker := .finishing job false }
  | streams (job : Job) (outstanding : Nat) (worker : Worker)
      (here : state.worker = .streaming job) (working : state.failed = false)
      (goes : worker = .syncSend job ∨ worker = .finishing job true) :
    Turn state { state with toClient := state.toClient ++ [job.frame], outstanding, worker }
  | syncs (job : Job) (here : state.worker = .syncSend job) (working : state.failed = false) :
    Turn state
      { state with toClient := state.toClient ++ [syncFrame], worker := .syncAwait job }
  | sends (job : Job) (here : state.worker = .controlSend job)
      (working : state.failed = false) :
    Turn state
      { state with toClient := state.toClient ++ [job.frame], worker := .controlAwait job }
  | synced (job : Job) (ack : Ack) (rest : List Ack) (worker : Worker)
      (here : state.worker = .syncAwait job) (arrives : state.toServer = ack :: rest)
      (good : ack.good = true)
      (goes : job.type = .write ∧ worker = .finishing job true ∨
        job.type ≠ .write ∧ worker = .controlSend job) :
    Turn state { state with toServer := rest, outstanding := 0, worker }
  | answered (job : Job) (ack : Ack) (rest : List Ack)
      (here : state.worker = .controlAwait job) (arrives : state.toServer = ack :: rest)
      (good : ack.good = true) :
    Turn state { state with toServer := rest, worker := .finishing job true }
  | settles (job : Job) (result : Bool) (queuedBytes : Nat)
      (here : state.worker = .finishing job result) :
    Turn state (settle { state with worker := .idle, queuedBytes } job result)

theorem settle_eq (state : State) (job : Job) (result : Bool) :
    ∃ encoder ending, settle state job result = { state with encoder, ending } := by
  simp only [settle]
  split
  · exact ⟨_, _, rfl⟩
  · exact ⟨_, _, rfl⟩
  · exact ⟨_, _, rfl⟩
  · exact ⟨_, _, rfl⟩
  · exact ⟨_, _, rfl⟩

theorem workerStep_turn {next : State} {good : Bool} (h : workerStep state good = some next) :
    Turn state next := by
  simp only [workerStep] at h
  split at h
  case h_1 idle =>
    split at h
    · cases h
    · next job rest queue =>
      cases h
      apply Turn.takes job rest _ idle queue
      split
      · next write => exact .inl ⟨write, rfl⟩
      · next control =>
        split
        · exact .inr ⟨control, .inl rfl⟩
        · exact .inr ⟨control, .inr rfl⟩
  case h_2 job here =>
    have holds : state.worker.job = some job := by rw [here]; rfl
    split at h
    · next broken =>
      cases h
      exact .fails job _ _ _ holds broken
    · next working =>
      split at h
      · cases h
        apply Turn.streams job _ _ here (Bool.eq_false_iff.mpr working)
        split
        · exact .inl rfl
        · exact .inr rfl
      · cases h
        exact .fails job _ true true holds rfl
  case h_3 job here =>
    have holds : state.worker.job = some job := by rw [here]; rfl
    split at h
    · next broken =>
      cases h
      exact .fails job _ _ _ holds broken
    · next working =>
      split at h
      · cases h
        exact .syncs job here (Bool.eq_false_iff.mpr working)
      · cases h
        exact .fails job _ true true holds rfl
  case h_4 job here =>
    have holds : state.worker.job = some job := by rw [here]; rfl
    split at h
    · split at h
      · cases h
      · cases h
        exact .fails job _ true true holds rfl
    · next ack rest arrives =>
      split at h
      · next accepted =>
        simp only [Bool.and_eq_true] at accepted
        cases h
        apply Turn.synced job ack rest _ here arrives accepted.1.2
        split
        · next write => exact .inl ⟨write, rfl⟩
        · next control => exact .inr ⟨control, rfl⟩
      · cases h
        exact .fails job _ true true holds rfl
  case h_5 job here =>
    have holds : state.worker.job = some job := by rw [here]; rfl
    split at h
    · next broken =>
      cases h
      exact .fails job _ _ _ holds broken
    · next working =>
      split at h
      · cases h
        exact .sends job here (Bool.eq_false_iff.mpr working)
      · cases h
        exact .fails job _ true true holds rfl
  case h_6 job here =>
    have holds : state.worker.job = some job := by rw [here]; rfl
    split at h
    · split at h
      · cases h
      · cases h
        exact .fails job _ true true holds rfl
    · next ack rest arrives =>
      split at h
      · next accepted =>
        simp only [Bool.and_eq_true] at accepted
        cases h
        exact .answered job ack rest here arrives accepted.1.2
      · cases h
        exact .fails job _ true true holds rfl
  case h_7 job result here =>
    cases h
    exact .settles job result _ here

inductive Heard (state : State) : State → Prop where
  | streamed (frame : Frame) (rest : List Frame) (session : Session)
      (alive : state.alive = true) (arrives : state.toClient = frame :: rest)
      (type : frame.type = .writeStream) (effect : Effect state.session session frame) :
    Heard state
      { state with
        toClient := rest
        alive := true
        session
        applied := state.applied ++ [frame]
        unflushed := flushed state.unflushed frame }
  | answered (frame : Frame) (rest : List Frame) (session : Session) (goesOn : Bool)
      (alive : state.alive = true) (arrives : state.toClient = frame :: rest)
      (type : frame.type ≠ .writeStream) (plain : frame.type ≠ .commit)
      (effect : goesOn = true → frame.type ≠ .abort ∧ Effect state.session session frame) :
    Heard state
      { state with
        toClient := rest
        toServer := state.toServer ++ [⟨frame.fileId, true⟩]
        alive := goesOn
        session
        applied := state.applied ++ [frame]
        unflushed := flushed state.unflushed frame }
  | committed (frame : Frame) (rest : List Frame) (session : Session)
      (alive : state.alive = true) (linked : state.linked = true)
      (arrives : state.toClient = frame :: rest) (commit : frame.type = .commit)
      (closed : ∀ id, (state.session.file id).wasOpened = true →
        (state.session.file id).stream = none ∧ (state.session.file id).wasClosed = true) :
    Heard state
      { state with
        toClient := rest
        toServer := state.toServer ++ [⟨frame.fileId, true⟩]
        alive := true
        session
        applied := state.applied ++ [frame]
        unflushed := flushed state.unflushed frame
        snapshot := some ⟨state.applied, state.unflushed, state.stepFailed⟩ }
  | stopped (frame : Frame) (rest : List Frame) (acks : List Ack) (session : Session)
      (applied : List Frame) (unflushed : Fin maxFiles → Bool) (snapshot : Option Snapshot)
      (alive : state.alive = true) (arrives : state.toClient = frame :: rest)
      (refusing : ∀ ack ∈ acks, ack.good = false)
      (kept : applied = state.applied ∧ snapshot = state.snapshot ∨
        applied = state.applied ++ [frame] ∧ (snapshot = state.snapshot ∨ frame.type = .commit)) :
    Heard state
      { state with
        toClient := rest
        toServer := state.toServer ++ acks
        alive := false
        session
        applied
        unflushed
        stepFailed := true
        snapshot }

theorem receiveFrame_heard {next : State} {ackSent : Bool}
    (h : receiveFrame state faults damaged ackSent = some next) : Heard state next := by
  simp only [receiveFrame] at h
  split at h
  · next frame rest alive arrives =>
    generalize outcome : applyFrame faults state.session frame damaged = result at h
    obtain ⟨session, good⟩ := result
    cases good with
    | false =>
      simp only [Bool.and_false, Bool.false_and, Bool.or_false, Bool.not_false, Bool.true_and,
        Bool.false_eq_true, if_false, Bool.or_true, Bool.true_or, Option.some.injEq] at h
      rw [← h]
      cases ackSent && state.linked with
      | false =>
        rw [if_neg Bool.false_ne_true, ← List.append_nil state.toServer]
        exact .stopped frame rest [] _ _ _ _ alive arrives (List.forall_mem_nil _)
          (.inl ⟨rfl, rfl⟩)
      | true =>
        rw [if_pos rfl]
        exact .stopped frame rest _ _ _ _ _ alive arrives (by simp) (.inl ⟨rfl, rfl⟩)
    | true =>
      by_cases type : frame.type = .writeStream
      · simp only [type, decide_true, Bool.and_true, Bool.true_and, Bool.true_or, Bool.not_true,
          Bool.false_and, Bool.or_false, Bool.false_eq_true, if_false, if_true, reduceCtorEq,
          decide_false, Option.some.injEq] at h
        rw [← h]
        have plain : frame.type ≠ .commit := by rw [type]; nofun
        exact .streamed frame rest session alive arrives type (applyFrame_effect outcome plain)
      · simp only [type, decide_false, Bool.and_true, Bool.true_and, Bool.false_or,
          Bool.not_false, Bool.not_true, Bool.or_false, if_true] at h
        cases sent : ackSent && state.linked with
        | false =>
          simp only [sent, Bool.false_and, Bool.false_eq_true, if_false, Bool.not_false,
            Bool.or_true, Option.some.injEq] at h
          rw [← h, ← List.append_nil state.toServer]
          apply Heard.stopped frame rest [] _ _ _ _ alive arrives (List.forall_mem_nil _)
          refine .inr ⟨rfl, ?_⟩
          split
          · next commit => exact .inr (of_decide_eq_true commit)
          · exact .inl rfl
        | true =>
          simp only [sent, Bool.true_and, if_true, Bool.not_true, Bool.or_false,
            Option.some.injEq] at h
          rw [← h]
          by_cases commit : frame.type = .commit
          · simp only [commit, decide_true, if_true, ne_eq, reduceCtorEq, not_false_eq_true]
            exact .committed frame rest _ alive ((Bool.and_eq_true _ _).mp sent).2 arrives commit
              (applyFrame_commit outcome commit)
          · simp only [commit, decide_false, Bool.false_eq_true, if_false]
            apply Heard.answered frame rest _ _ alive arrives type commit
            intro goesOn
            rw [if_pos goesOn]
            exact ⟨of_decide_eq_true goesOn, applyFrame_effect outcome commit⟩
  · cases h

inductive Move (state : State) : State → Prop where
  | asks {next : State} (request : Request state next) : Move state next
  | turns {next : State} (turn : Turn state next) : Move state next
  | hears {next : State} (heard : Heard state next) : Move state next
  | disconnects : Move state { state with linked := false, stepFailed := true }
  | detaches (free : state.worker.awaits = none) :
    Move state { state with failed := true, stepFailed := true }
  | stops (session : Session) :
    Move state { state with alive := false, session, stepFailed := true }

theorem step_move {next : State} {action : Action} (h : step state action = some next) :
    Move state next := by
  cases action with
  | «open» id name noMemory => exact .asks (openProxy_request h)
  | write id offset data noMemory => exact .asks (writeProxy_request h)
  | close id noMemory => exact .asks (closeProxy_request h)
  | abort id noMemory => exact .asks (abortProxy_request h)
  | finish noMemory => exact .asks (endRecording_request h)
  | worker good => exact .turns (workerStep_turn h)
  | receive faults damaged ackSent => exact .hears (receiveFrame_heard h)
  | disconnect =>
    cases h
    exact .disconnects
  | detach =>
    simp only [step] at h
    split at h
    · cases h
    · next free =>
      cases h
      exact .detaches (Option.not_isSome_iff_eq_none.mp free)
  | clientStops =>
    cases h
    exact .stops _

end MisrcGui.LocalSave.Delivery
