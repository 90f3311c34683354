import MisrcGui.LocalSave.Arrival

/-! What `gui_monitor_local_save_end(true)` says when it returns true: every job of the recording
was applied in its order, and flushed, before the client renamed the files. -/
namespace MisrcGui.LocalSave.Delivery
open Library

/-! The proxies and their jobs. -/

@[simp] def Encoder.awaiting : Encoder → List FrameType
  | .opening => [.open]
  | .closing => [.close]
  | .aborting => [.abort]
  | _ => []

@[simp] def Encoder.known : Encoder → Bool
  | .absent | .gone => false
  | _ => true

@[simp] def Encoder.early : Encoder → Bool
  | .absent | .opening | .ready _ => true
  | _ => false

@[simp] def Encoder.late : Encoder → Bool
  | .ready true | .failing | .aborting | .gone => true
  | _ => false

def Job.concerns (id : Fin maxFiles) (job : Job) : Bool :=
  decide (job.id = id) &&
    (decide (job.type = .open) || decide (job.type = .close) || decide (job.type = .abort))

def Opened (jobs : List Job) (id : Fin maxFiles) : Prop :=
  ∃ job ∈ jobs, job.type = .open ∧ job.id = id

def Unclosed (jobs : List Job) (id : Fin maxFiles) : Prop :=
  ∀ job ∈ jobs, job.type = .close → job.id ≠ id

structure Fit (failed : Bool) (held enqueued : List Job) (id : Fin maxFiles)
    (encoder : Encoder) : Prop where
  owned : (held.filter (Job.concerns id)).map Job.type = encoder.awaiting
  opened : encoder.known = true → Opened enqueued id
  unclosed : encoder.early = true → Unclosed enqueued id
  failing : encoder = .failing → failed = true ∨ Unclosed enqueued id

structure Spoiled (state : State) (id : Fin maxFiles) : Prop where
  opened : Opened state.enqueued id
  unclosed : Unclosed state.enqueued id
  late : (state.encoder id).late = true

structure Owners (state : State) : Prop where
  fit : ∀ id, Fit state.failed state.held state.enqueued id (state.encoder id)
  refusals : state.refused = true →
    state.failed = true ∨ state.ending = .returned false ∨ ∃ id, Spoiled state id
  ended : state.ending ≠ .running → ∀ id, (state.encoder id).unused = true
  commits : state.ending = .running → ∀ job ∈ state.enqueued, job.type ≠ .commit
  committing : state.ending = .committing → ∃ before commit,
    state.enqueued = before ++ [commit] ∧ commit.type = .commit ∧
      ∀ job ∈ before, job.type ≠ .commit
  owned : (state.held.filter fun job => decide (job.type = .commit)).map Job.type =
    if state.ending = .committing then [.commit] else []

structure Change (state : State) (id : Fin maxFiles) (after : Encoder) (jobs : List Job) :
    Prop where
  mine : ∀ job ∈ jobs, job.id = id ∧ job.type ≠ .commit
  free : (state.encoder id).awaiting = []
  awaits : after.awaiting = (jobs.filter (Job.concerns id)).map Job.type
  known : after.known = true → (state.encoder id).known = true ∨ Opened jobs id
  early : after.early = true → (state.encoder id).early = true ∧ Unclosed jobs id
  failing : after = .failing → (state.encoder id).early = true ∧ jobs = []
  late : (state.encoder id).late = true → after.late = true ∧ Unclosed jobs id
  running : (state.encoder id).unused = true → state.ending = .running

variable {jobs : List Job} {id : Fin maxFiles} {state : State}

theorem Opened.more (opened : Opened jobs id) (others : List Job) : Opened (jobs ++ others) id := by
  obtain ⟨job, member, type⟩ := opened
  exact ⟨job, List.mem_append_left _ member, type⟩

theorem Unclosed.more {others : List Job} (unclosed : Unclosed jobs id)
    (rest : Unclosed others id) : Unclosed (jobs ++ others) id := by
  intro job member
  rcases List.mem_append.mp member with member | member
  · exact unclosed job member
  · exact rest job member

theorem unclosed_other {other : Fin maxFiles} (different : other ≠ id)
    (mine : ∀ job ∈ jobs, job.id = id) : Unclosed jobs other := by
  intro job member _
  rw [mine job member]
  exact different.symm

theorem concerns_other {other : Fin maxFiles} (different : other ≠ id)
    (mine : ∀ job ∈ jobs, job.id = id) : jobs.filter (Job.concerns other) = [] := by
  apply List.filter_eq_nil_iff.mpr
  intro job member
  simp only [Job.concerns, mine job member, decide_eq_false different.symm, Bool.false_and]
  exact Bool.false_ne_true

theorem Fit.more {failed : Bool} {held enqueued : List Job} {encoder : Encoder}
    (fit : Fit failed held enqueued id encoder) (aside : jobs.filter (Job.concerns id) = [])
    (unclosed : Unclosed jobs id) :
    Fit failed (held ++ jobs) (enqueued ++ jobs) id encoder := by
  constructor
  · rw [List.filter_append, aside, List.append_nil]
    exact fit.owned
  · exact fun known => (fit.opened known).more jobs
  · exact fun early => (fit.unclosed early).more unclosed
  · exact fun failing => (fit.failing failing).imp_right fun before => before.more unclosed

theorem Fit.change {after : Encoder}
    (fit : Fit state.failed state.held state.enqueued id (state.encoder id))
    (change : Change state id after jobs) :
    Fit state.failed (state.held ++ jobs) (state.enqueued ++ jobs) id after := by
  constructor
  · rw [List.filter_append, List.map_append, fit.owned, change.free, change.awaits]
    rfl
  · intro known
    rcases change.known known with before | now
    · exact (fit.opened before).more jobs
    · obtain ⟨job, member, type⟩ := now
      exact ⟨job, List.mem_append_right _ member, type⟩
  · intro early
    obtain ⟨before, rest⟩ := change.early early
    exact (fit.unclosed before).more rest
  · intro failing
    obtain ⟨before, none⟩ := change.failing failing
    rw [none, List.append_nil]
    exact .inr (fit.unclosed before)

theorem Spoiled.change {next : State} {other : Fin maxFiles} {after : Encoder}
    (spoiled : Spoiled state other) (change : Change state id after jobs)
    (encoder : next.encoder = Function.update state.encoder id after)
    (enqueued : next.enqueued = state.enqueued ++ jobs) : Spoiled next other := by
  have rest : Unclosed jobs other ∧ (next.encoder other).late = true := by
    rw [encoder, Function.update_apply]
    split
    · next same =>
      rw [same] at spoiled ⊢
      exact (change.late spoiled.late).symm
    · next different =>
      exact ⟨unclosed_other different fun job member => (change.mine job member).1, spoiled.late⟩
  constructor
  · rw [enqueued]
    exact spoiled.opened.more jobs
  · rw [enqueued]
    exact spoiled.unclosed.more rest.1
  · exact rest.2

theorem Owners.change {next : State} (owners : Owners state) {after : Encoder}
    (change : Change state id after jobs)
    (encoder : next.encoder = Function.update state.encoder id after)
    (held : next.held = state.held ++ jobs) (enqueued : next.enqueued = state.enqueued ++ jobs)
    (failed : next.failed = state.failed) (ending : next.ending = state.ending)
    (refusing : next.refused = true → state.refused = true ∨ next.failed = true ∨ Spoiled next id) :
    Owners next := by
  have mine : ∀ job ∈ jobs, job.id = id := fun job member => (change.mine job member).1
  have running : state.ending = .running := by
    by_contra ended
    exact ended (change.running (owners.ended ended id))
  constructor
  · intro other
    rw [failed, held, enqueued, encoder, Function.update_apply]
    split
    · next same =>
      rw [same]
      exact (owners.fit id).change change
    · next different =>
      exact (owners.fit other).more (concerns_other different mine)
        (unclosed_other different mine)
  · intro refused
    rcases refusing refused with before | failed | spoiled
    · rcases owners.refusals before with before | returned | ⟨other, spoiled⟩
      · exact .inl (failed.trans before)
      · exact .inr (.inl (ending.trans returned))
      · exact .inr (.inr ⟨other, spoiled.change change encoder enqueued⟩)
    · exact .inl failed
    · exact .inr (.inr ⟨id, spoiled⟩)
  · intro ended
    exact absurd (ending.trans running) ended
  · intro _ job member
    rw [enqueued] at member
    rcases List.mem_append.mp member with member | member
    · exact owners.commits running job member
    · exact (change.mine job member).2
  · intro committing
    rw [ending, running] at committing
    cases committing
  · have none : jobs.filter (fun job => decide (job.type = .commit)) = [] := by
      apply List.filter_eq_nil_iff.mpr
      intro job member
      rw [decide_eq_false (change.mine job member).2]
      exact Bool.false_ne_true
    rw [held, ending, List.filter_append, none, List.append_nil]
    exact owners.owned

theorem Owners.ends (owners : Owners state) (running : state.ending = .running)
    (unused : ∀ id, (state.encoder id).unused = true) :
    Owners ({ state with ending := .committing }.enqueue ⟨.commit, syncId, 0, []⟩) := by
  have unclosed : ∀ id, Unclosed [⟨.commit, syncId, 0, []⟩] id := by
    intro id job member close
    rw [List.mem_singleton.mp member] at close
    cases close
  constructor
  · intro id
    simp only [State.held, State.enqueue, ← List.append_assoc]
    exact (owners.fit id).more (by simp [Job.concerns]) (unclosed id)
  · intro refused
    rcases owners.refusals refused with failed | returned | ⟨id, spoiled⟩
    · exact .inl failed
    · rw [running] at returned
      cases returned
    · exact .inr (.inr
        ⟨id, spoiled.opened.more _, spoiled.unclosed.more (unclosed id), spoiled.late⟩)
  · exact fun _ => unused
  · intro again
    cases again
  · exact fun _ => ⟨state.enqueued, _, rfl, rfl, owners.commits running⟩
  · have before := owners.owned
    rw [running, if_neg (by simp)] at before
    simp only [State.held] at before
    simp only [State.held, State.enqueue, ← List.append_assoc]
    rw [List.filter_append, List.map_append, before]
    rfl

theorem Owners.endsNot (owners : Owners state) (refused : Bool)
    (running : state.ending = .running) (unused : ∀ id, (state.encoder id).unused = true) :
    Owners { state with ending := .returned false, refused } := by
  have before := owners.owned
  rw [running, if_neg nofun] at before
  constructor
  · exact owners.fit
  · exact fun _ => .inr (.inl rfl)
  · exact fun _ => unused
  · intro again
    cases again
  · intro committing
    cases committing
  · exact before

theorem Owners.spoils (owners : Owners state) (ready : state.encoder id = .ready false)
    {after : Encoder} (late : after.late = true) :
    Spoiled { state.withEncoder id after with refused := true } id := by
  constructor
  · exact (owners.fit id).opened (by rw [ready]; rfl)
  · exact (owners.fit id).unclosed (by rw [ready]; rfl)
  · simp only [State.withEncoder, Function.update_self]
    exact late

theorem Owners.request {next : State} (owners : Owners state) (request : Request state next) :
    Owners next := by
  cases request with
  | opens id name absent running =>
    have change : Change state id .opening [⟨.open, id, 0, name⟩] := by
      constructor <;> simp [absent, running, Job.concerns, Unclosed, Opened]
    exact owners.change change rfl (List.append_assoc ..).symm rfl rfl rfl .inl
  | opensNot id absent running =>
    have change : Change state id .gone [] := by
      constructor <;> simp [absent, running, Unclosed]
    exact owners.change change rfl (List.append_nil _).symm (List.append_nil _).symm rfl rfl .inl
  | writes id offset data ready =>
    have change : Change state id (.ready false) [⟨.write, id, offset, data⟩] := by
      constructor <;> simp [ready, Job.concerns, Unclosed, Encoder.unused]
    refine owners.change change ?_ (List.append_assoc ..).symm rfl rfl rfl .inl
    rw [← ready, Function.update_eq_self]
    rfl
  | writesNot id ready =>
    have change : Change state id (.ready true) [] := by
      constructor <;> simp [ready, Unclosed, Encoder.unused]
    exact owners.change change rfl (List.append_nil _).symm (List.append_nil _).symm rfl rfl
      fun _ => .inr (.inr (owners.spoils ready rfl))
  | closes id ready =>
    have change : Change state id .closing [⟨.close, id, 0, []⟩] := by
      constructor <;> simp [ready, Job.concerns, Encoder.unused]
    exact owners.change change rfl (List.append_assoc ..).symm rfl rfl rfl .inl
  | closesNot id ready =>
    have change : Change state id .failing [] := by
      constructor <;> simp [ready, Unclosed, Encoder.unused]
    exact owners.change change rfl (List.append_nil _).symm (List.append_nil _).symm rfl rfl
      fun _ => .inr (.inr (owners.spoils ready rfl))
  | givesUp id bad ready why =>
    have change : Change state id .failing [] := by
      constructor <;> simp [ready, Unclosed, Encoder.unused]
    exact owners.change change rfl (List.append_nil _).symm (List.append_nil _).symm rfl rfl .inl
  | aborts id failing =>
    have change : Change state id .aborting [⟨.abort, id, 0, []⟩] := by
      constructor <;> simp [failing, Job.concerns, Unclosed, Encoder.unused]
    exact owners.change change rfl (List.append_assoc ..).symm rfl rfl rfl .inl
  | abortsNot id failing =>
    have change : Change state id .gone [] := by
      constructor <;> simp [failing, Unclosed, Encoder.unused]
    refine owners.change change rfl (List.append_nil _).symm (List.append_nil _).symm rfl rfl
      fun _ => .inr (((owners.fit id).failing failing).imp_right fun unclosed => ?_)
    refine ⟨(owners.fit id).opened (by rw [failing]; rfl), unclosed, ?_⟩
    simp only [State.withEncoder, Function.update_self]
    rfl
  | ends running unused => exact owners.ends running unused
  | endsNot refused running unused => exact owners.endsNot refused running unused

theorem Owners.keep {next : State} (owners : Owners state)
    (encoder : next.encoder = state.encoder) (held : next.held = state.held ∨
      ∃ job, state.held = job :: next.held ∧ ∀ id, job.concerns id = false ∧ job.type ≠ .commit)
    (enqueued : next.enqueued = state.enqueued) (ending : next.ending = state.ending)
    (refused : next.refused = state.refused) (failed : state.failed = true → next.failed = true) :
    Owners next := by
  have same : (∀ id, next.held.filter (Job.concerns id) = state.held.filter (Job.concerns id)) ∧
      next.held.filter (fun job => decide (job.type = .commit)) =
        state.held.filter (fun job => decide (job.type = .commit)) := by
    rcases held with held | ⟨job, held, aside⟩
    · rw [held]
      exact ⟨fun _ => rfl, rfl⟩
    · rw [held]
      refine ⟨fun id => ?_, ?_⟩
      · rw [List.filter_cons_of_neg (by rw [(aside id).1]; exact Bool.false_ne_true)]
      · rw [List.filter_cons_of_neg
          (by rw [decide_eq_false (aside syncId).2]; exact Bool.false_ne_true)]
  constructor
  · intro id
    rw [encoder, enqueued]
    have fit := owners.fit id
    exact ⟨(congrArg _ (same.1 id)).trans fit.owned, fit.opened, fit.unclosed,
      fun failing => (fit.failing failing).imp_left failed⟩
  · intro again
    rw [refused] at again
    rcases owners.refusals again with broken | returned | ⟨id, spoiled⟩
    · exact .inl (failed broken)
    · exact .inr (.inl (ending.trans returned))
    · refine .inr (.inr ⟨id, ?_, ?_, ?_⟩)
      · rw [enqueued]
        exact spoiled.opened
      · rw [enqueued]
        exact spoiled.unclosed
      · rw [encoder]
        exact spoiled.late
  · rw [ending, encoder]
    exact owners.ended
  · rw [ending, enqueued]
    exact owners.commits
  · rw [ending, enqueued]
    exact owners.committing
  · rw [same.2, ending]
    exact owners.owned

theorem awaiting_cons {encoder : Encoder} {type : FrameType} {rest : List FrameType}
    (awaits : type :: rest = encoder.awaiting) : rest = [] ∧ encoder.unused = false := by
  cases encoder with
  | opening | closing | aborting =>
    simp only [Encoder.awaiting, List.cons.injEq] at awaits
    exact ⟨awaits.2, rfl⟩
  | _ => cases awaits

theorem Owners.answer {next : State} (owners : Owners state) {job : Job} {after : Encoder}
    (concerns : job.concerns job.id = true) (plain : job.type ≠ .commit)
    (held : state.held = job :: next.held)
    (encoder : next.encoder = Function.update state.encoder job.id after)
    (enqueued : next.enqueued = state.enqueued) (ending : next.ending = state.ending)
    (refused : next.refused = state.refused) (failed : next.failed = state.failed)
    (becomes : ∀ before : Encoder, [job.type] = before.awaiting → after.awaiting = [] ∧
      (after.known = true → before.known = true) ∧ (after.early = true → before.early = true) ∧
      (after = .failing → state.failed = true) ∧ (before.late = true → after.late = true)) :
    Owners next := by
  have fit := owners.fit job.id
  have awaits := fit.owned
  rw [held, List.filter_cons_of_pos concerns, List.map_cons] at awaits
  obtain ⟨others, used⟩ := awaiting_cons awaits
  rw [others] at awaits
  obtain ⟨free, known, early, failing, late⟩ := becomes _ awaits
  have running : state.ending = .running := by
    by_contra ended
    rw [owners.ended ended job.id] at used
    cases used
  constructor
  · intro id
    rw [encoder, Function.update_apply, failed, enqueued]
    split
    · next same =>
      rw [same]
      exact ⟨others.trans free.symm, fun knows => fit.opened (known knows),
        fun before => fit.unclosed (early before), fun fails => .inl (failing fails)⟩
    · next different =>
      have other := owners.fit id
      have aside : job.concerns id = false := by
        rw [Job.concerns, decide_eq_false (Ne.symm different), Bool.false_and]
      rw [held] at other
      refine ⟨?_, other.opened, other.unclosed, other.failing⟩
      rw [← other.owned, List.filter_cons_of_neg (by rw [aside]; exact Bool.false_ne_true)]
  · intro again
    rw [refused] at again
    rcases owners.refusals again with broken | returned | ⟨id, spoiled⟩
    · exact .inl (failed.trans broken)
    · exact .inr (.inl (ending.trans returned))
    · refine .inr (.inr ⟨id, ?_, ?_, ?_⟩)
      · rw [enqueued]
        exact spoiled.opened
      · rw [enqueued]
        exact spoiled.unclosed
      · rw [encoder, Function.update_apply]
        split
        · next same =>
          rw [same] at spoiled
          exact late spoiled.late
        · exact spoiled.late
  · exact fun ended => absurd (ending.trans running) ended
  · rw [enqueued]
    exact fun _ => owners.commits running
  · intro committing
    rw [ending, running] at committing
    cases committing
  · rw [ending, ← owners.owned, held,
      List.filter_cons_of_neg (by rw [decide_eq_false plain]; exact Bool.false_ne_true)]

theorem Owners.committed (owners : Owners state) {job : Job}
    (held : state.held = job :: state.queue) (commit : job.type = .commit) (queuedBytes : Nat)
    (result : Bool) :
    Owners { state with worker := .idle, queuedBytes, ending := .returned result } := by
  have owned := owners.owned
  rw [held, List.filter_cons_of_pos (by rw [commit]; rfl), List.map_cons] at owned
  have committing : state.ending = .committing := by
    by_contra other
    rw [if_neg other] at owned
    cases owned
  rw [if_pos committing, List.cons.injEq] at owned
  have unused := owners.ended (by rw [committing]; nofun)
  constructor
  · intro id
    have fit := owners.fit id
    rw [held] at fit
    have aside : job.concerns id = false := by simp [Job.concerns, commit]
    refine ⟨?_, fit.opened, fit.unclosed, fit.failing⟩
    rw [← fit.owned, List.filter_cons_of_neg (by rw [aside]; exact Bool.false_ne_true)]
    rfl
  · intro refused
    rcases owners.refusals refused with failed | returned | ⟨id, spoiled⟩
    · exact .inl failed
    · rw [committing] at returned
      cases returned
    · exact .inr (.inr ⟨id, spoiled.opened, spoiled.unclosed, spoiled.late⟩)
  · exact fun _ => unused
  · intro again
    cases again
  · intro again
    cases again
  · exact owned.2

theorem Owners.settle (owners : Owners state) (posture : Posture state) {job : Job}
    {result : Bool} (here : state.worker = .finishing job result) (queuedBytes : Nat) :
    Owners (settle { state with worker := .idle, queuedBytes } job result) := by
  have held : state.held = job :: state.queue := by
    rw [State.held, here]
    rfl
  have broken : result = false → state.failed = true := by
    rintro rfl
    exact posture.failing job here
  simp only [Delivery.settle]
  split
  · next type =>
    refine owners.answer (by simp [Job.concerns, type]) (by simp [type]) held rfl rfl rfl rfl rfl
      fun before awaits => ?_
    rw [type] at awaits
    cases before <;> simp at awaits
    cases result <;> simp
  · next type =>
    refine owners.answer (by simp [Job.concerns, type]) (by simp [type]) held rfl rfl rfl rfl rfl
      fun before awaits => ?_
    rw [type] at awaits
    cases before <;> simp at awaits
    cases result with
    | false => simp [broken rfl]
    | true => simp
  · next type =>
    refine owners.answer (by simp [Job.concerns, type]) (by simp [type]) held rfl rfl rfl rfl rfl
      fun before awaits => ?_
    rw [type] at awaits
    cases before <;> simp at awaits
    simp
  · next type => exact owners.committed held type queuedBytes result
  · next notOpen notClose notAbort notCommit =>
    refine owners.keep rfl (.inr ⟨job, held, fun id => ⟨?_, notCommit⟩⟩) rfl rfl rfl id
    simp only [Job.concerns, decide_eq_false notOpen, decide_eq_false notClose,
      decide_eq_false notAbort, Bool.or_false, Bool.and_false]

theorem Owners.turn {next : State} (owners : Owners state) (posture : Posture state)
    (turn : Turn state next) : Owners next := by
  -- the job stays in the worker's hands
  have holding : ∀ worker : Worker, ∀ job, state.worker.job = some job →
      worker.job = some job → worker.job.toList ++ state.queue = state.held := by
    intro worker job before after
    rw [State.held, before, after]
  cases turn with
  | takes job rest worker idle queue begins =>
    refine owners.keep rfl (.inl ?_) rfl rfl rfl id
    have takes : worker.job = some job := by
      rcases begins with ⟨_, rfl⟩ | ⟨_, rfl | rfl⟩ <;> rfl
    simp only [State.held, takes, idle, queue]
    rfl
  | fails job outstanding failed stepFailed holds broken =>
    exact owners.keep rfl (.inl (holding (.finishing job false) job holds rfl)) rfl rfl rfl
      fun _ => broken
  | streams job outstanding worker here working goes =>
    have holds : state.worker.job = some job := by rw [here]; rfl
    refine owners.keep rfl (.inl (holding worker job holds ?_)) rfl rfl rfl id
    rcases goes with rfl | rfl <;> rfl
  | syncs job here working =>
    have holds : state.worker.job = some job := by rw [here]; rfl
    exact owners.keep rfl (.inl (holding (.syncAwait job) job holds rfl)) rfl rfl rfl id
  | sends job here working =>
    have holds : state.worker.job = some job := by rw [here]; rfl
    exact owners.keep rfl (.inl (holding (.controlAwait job) job holds rfl)) rfl rfl rfl id
  | synced job ack rest worker here arrives good goes =>
    have holds : state.worker.job = some job := by rw [here]; rfl
    refine owners.keep rfl (.inl (holding worker job holds ?_)) rfl rfl rfl id
    rcases goes with ⟨_, rfl⟩ | ⟨_, rfl⟩ <;> rfl
  | answered job ack rest here arrives good =>
    have holds : state.worker.job = some job := by rw [here]; rfl
    exact owners.keep rfl (.inl (holding (.finishing job true) job holds rfl)) rfl rfl rfl id
  | settles job result queuedBytes here => exact owners.settle posture here queuedBytes

theorem Owners.move {next : State} (owners : Owners state) (posture : Posture state)
    (move : Move state next) : Owners next := by
  cases move with
  | asks request => exact owners.request request
  | turns turn => exact owners.turn posture turn
  | hears heard =>
    cases heard with
    | streamed | answered | committed | stopped => exact owners.keep rfl (.inl rfl) rfl rfl rfl id
  | disconnects | stops => exact owners.keep rfl (.inl rfl) rfl rfl rfl id
  | detaches free => exact owners.keep rfl (.inl rfl) rfl rfl rfl fun _ => rfl

/-! The COMMIT. -/

/-- Every job before the COMMIT was applied in its order and flushed when the client performed
the renames, no job had been refused, and no step had failed. -/
def Delivered (state : State) : Prop :=
  ∃ snapshot before commit, state.snapshot = some snapshot ∧
    state.enqueued = before ++ [commit] ∧ commit.type = .commit ∧
    (∀ job ∈ before, job.type ≠ .commit) ∧ jobFrames snapshot.applied = before.map Job.frame ∧
    (∀ id, snapshot.unflushed id = false) ∧ snapshot.stepFailed = false ∧ state.refused = false

/-- Behind a COMMIT that the client has performed and acknowledged, nothing is left to do. -/
structure Settled (state : State) : Prop where
  ended : state.ending ≠ .running
  unused : ∀ id, (state.encoder id).unused = true
  queue : state.queue = []
  silent : state.toClient = []
  unsent : state.worker.unsent = []
  mine : ∀ job, state.worker.job = some job → job.type = .commit
  delivered : Delivered state

theorem Settled.request {next : State} (settled : Settled state) (request : Request state next) :
    False := by
  have used : ∀ id encoder, state.encoder id = encoder → encoder.unused = false → False := by
    rintro id encoder rfl used
    rw [settled.unused id] at used
    cases used
  cases request with
  | opens id name absent running => exact settled.ended running
  | opensNot id absent running => exact settled.ended running
  | writes id offset data ready => exact used id _ ready rfl
  | writesNot id ready => exact used id _ ready rfl
  | closes id ready => exact used id _ ready rfl
  | closesNot id ready => exact used id _ ready rfl
  | givesUp id bad ready => exact used id _ ready rfl
  | aborts id failing => exact used id _ failing rfl
  | abortsNot id failing => exact used id _ failing rfl
  | ends running => exact settled.ended running
  | endsNot refused running => exact settled.ended running

theorem Settled.turn {next : State} (settled : Settled state) (turn : Turn state next) :
    Settled next := by
  have unsent := settled.unsent
  -- a job that waits for its turn to be sent
  have control : ∀ job, state.worker.job = some job →
      (if job.type = .write then [] else [job]) ≠ [] := by
    intro job holds
    rw [settled.mine job holds, if_neg (by simp)]
    exact List.cons_ne_nil job []
  cases turn with
  | takes job rest worker idle queue begins =>
    rw [settled.queue] at queue
    cases queue
  | fails job outstanding failed stepFailed holds broken =>
    refine { settled with unsent := rfl, mine := ?_ }
    rintro other ⟨⟩
    exact settled.mine job holds
  | streams job outstanding worker here working goes =>
    rw [here] at unsent
    cases unsent
  | syncs job here working =>
    rw [here] at unsent
    exact absurd unsent (control job (by rw [here]; rfl))
  | sends job here working =>
    rw [here] at unsent
    cases unsent
  | synced job ack rest worker here arrives good goes =>
    rw [here] at unsent
    exact absurd unsent (control job (by rw [here]; rfl))
  | answered job ack rest here arrives good =>
    refine { settled with unsent := rfl, mine := ?_ }
    rintro other ⟨⟩
    exact settled.mine job (by rw [here]; rfl)
  | settles job result queuedBytes here =>
    have commit := settled.mine job (by rw [here]; rfl)
    simp only [settle, commit]
    exact { settled with ended := by simp, unsent := rfl, mine := by rintro _ ⟨⟩ }

theorem Settled.move {next : State} (settled : Settled state) (move : Move state next) :
    Settled next := by
  cases move with
  | asks request => exact (settled.request request).elim
  | turns turn => exact settled.turn turn
  | hears heard =>
    have silent : ∀ frame rest, state.toClient ≠ frame :: rest := by
      rw [settled.silent]
      exact fun _ _ => nofun
    cases heard with
    | streamed _ _ _ _ arrives => exact absurd arrives (silent _ _)
    | answered _ _ _ _ _ arrives => exact absurd arrives (silent _ _)
    | committed _ _ _ _ _ arrives => exact absurd arrives (silent _ _)
    | stopped _ _ _ _ _ _ _ _ arrives => exact absurd arrives (silent _ _)
  | disconnects | detaches | stops => exact { settled with }

theorem last_mark {α : Type*} (marked : α → Prop) {first rest before : List α} {mark last : α}
    (here : marked mark) (none : ∀ item ∈ before, ¬marked item)
    (h : first ++ mark :: rest = before ++ [last]) : rest = [] ∧ first = before := by
  rcases List.eq_nil_or_concat rest with rfl | ⟨others, final, rfl⟩
  · exact ⟨rfl, (List.append_inj' h rfl).1⟩
  · rw [List.concat_eq_append, ← List.cons_append, ← List.append_assoc] at h
    have same := (List.append_inj' h rfl).1
    refine absurd here (none mark ?_)
    rw [← same]
    exact List.mem_append_right first List.mem_cons_self

theorem Job.frame_type {job : Job} (type : FrameType) (notWrite : type ≠ .write)
    (notStream : type ≠ .writeStream) : job.frame.type = type ↔ job.type = type := by
  simp only [Job.frame]
  split
  · next write =>
    rw [write]
    exact ⟨fun same => absurd same.symm notStream, fun same => absurd same.symm notWrite⟩
  · rfl

/-- The COMMIT that is awaited has been performed and acknowledged, or its result says so. -/
structure Answers (state : State) : Prop where
  acked : ∀ job, state.worker = .controlAwait job → job.type = .commit →
    (∃ ack ∈ state.toServer, ack.good = true) → Settled state
  finished : ∀ job, state.worker = .finishing job true → job.type = .commit → Settled state
  returned : state.ending = .returned true → Settled state

structure Inv (state : State) : Prop where
  posture : Posture state
  wired : Wired state
  ordered : Ordered state
  received : Received state
  owners : Owners state
  answers : Answers state

theorem Inv.before_commit (inv : Inv state) (working : state.failed = false) {job : Job}
    {frame : Frame} {rest : List Frame} {before : List Job} {commit : Job}
    (here : state.worker = .controlAwait job) (alive : state.alive = true)
    (arrives : state.toClient = frame :: rest) (type : frame.type = .commit)
    (enqueued : state.enqueued = before ++ [commit]) (others : ∀ job ∈ before, job.type ≠ .commit) :
    rest = [] ∧ state.toServer = [] ∧ state.queue = [] ∧
      jobFrames state.applied = before.map Job.frame := by
  have wire := inv.wired working
  rw [here, alive, arrives] at wire
  obtain ⟨silent, ⟨write, _⟩ | ⟨awaited, last⟩⟩ := wire.hear
  · rw [type] at write
    cases write
  · have order := inv.ordered working alive
    have plain := inv.posture.plain job (by simp [State.held, here, Worker.job])
    cases awaited
    have ends : (before ++ [commit]).map Job.frame = before.map Job.frame ++ [commit.frame] :=
      List.map_append
    rw [arrives, last, here, enqueued, ends, jobFrames_append, plain.jobFrames,
      List.append_assoc] at order
    have none : ∀ frame ∈ before.map Job.frame, frame.type ≠ .commit := by
      intro frame member
      obtain ⟨other, queued, rfl⟩ := List.mem_map.mp member
      intro same
      exact others other queued ((Job.frame_type .commit (by simp) (by simp)).mp same)
    obtain ⟨queue, applied⟩ := last_mark (fun frame : Frame => frame.type = .commit) type none order
    exact ⟨last, silent, List.map_eq_nil_iff.mp queue, applied⟩

theorem Spoiled.refuses {before : List Job} {commit : Job} (spoiled : Spoiled state id)
    (enqueued : state.enqueued = before ++ [commit]) (last : commit.type = .commit)
    (applied : jobFrames state.applied = before.map Job.frame)
    (files : Files state.applied state.unflushed state.session)
    (closed : (state.session.file id).wasOpened = true → (state.session.file id).wasClosed = true) :
    False := by
  obtain ⟨job, member, type, here⟩ := spoiled.opened
  rw [enqueued] at member
  have early : job ∈ before := by
    rcases List.mem_append.mp member with member | member
    · exact member
    · rw [List.mem_singleton.mp member, last] at type
      cases type
  have opens : job.frame ∈ jobFrames state.applied := by
    rw [applied]
    exact List.mem_map_of_mem early
  have opened := files.opened job.frame (List.mem_of_mem_filter opens)
    ((Job.frame_type .open nofun nofun).mpr type) id (congrArg Fin.val here)
  obtain ⟨frame, member, close, about⟩ := files.closed id (closed opened)
  have closes : frame ∈ jobFrames state.applied :=
    List.mem_filter.mpr ⟨member, decide_eq_true (by rw [close]; nofun)⟩
  rw [applied] at closes
  obtain ⟨other, queued, rfl⟩ := List.mem_map.mp closes
  have member : other ∈ state.enqueued := by
    rw [enqueued]
    exact List.mem_append_left _ queued
  exact spoiled.unclosed other member ((Job.frame_type .close nofun nofun).mp close)
    (Fin.ext about)

theorem Inv.committed (inv : Inv state) {job : Job} {frame : Frame} {rest : List Frame}
    (session : Session) (here : state.worker = .controlAwait job) (commits : job.type = .commit)
    (alive : state.alive = true) (linked : state.linked = true)
    (arrives : state.toClient = frame :: rest) (type : frame.type = .commit)
    (closed : ∀ id, (state.session.file id).wasOpened = true →
      (state.session.file id).stream = none ∧ (state.session.file id).wasClosed = true) :
    Settled
      { state with
        toClient := rest
        toServer := state.toServer ++ [⟨frame.fileId, true⟩]
        alive := true
        session
        applied := state.applied ++ [frame]
        unflushed := flushed state.unflushed frame
        snapshot := some ⟨state.applied, state.unflushed, state.stepFailed⟩ } := by
  have working : state.failed = false := inv.posture.waiting (by rw [here]; rfl)
  have committing : state.ending = .committing := by
    by_contra other
    have owned := inv.owners.owned
    rw [if_neg other, State.held, here, Worker.job, Option.toList_some, List.singleton_append,
      List.filter_cons_of_pos (by rw [commits]; rfl)] at owned
    cases owned
  obtain ⟨before, commit, enqueued, last, others⟩ := inv.owners.committing committing
  obtain ⟨empty, silent, queue, applied⟩ :=
    inv.before_commit working here alive arrives type enqueued others
  -- a frame of a type that keeps its name, among those applied, is one of a job before the COMMIT
  have job_of : ∀ frame ∈ state.applied, frame.type ≠ .sync → ∃ job ∈ before, job.frame = frame := by
    intro frame member plain
    have among : frame ∈ jobFrames state.applied :=
      List.mem_filter.mpr ⟨member, decide_eq_true plain⟩
    rw [applied] at among
    exact List.mem_map.mp among
  have fresh : state.snapshot = none := by
    by_contra taken
    obtain ⟨frame, member, type⟩ := inv.received.committed taken
    obtain ⟨job, early, rfl⟩ := job_of frame member (by rw [type]; simp)
    exact others job early ((Job.frame_type .commit (by simp) (by simp)).mp type)
  have files := inv.received.files alive fresh
  have flushedAll : ∀ id, state.unflushed id = false := by
    intro id
    by_contra dirty
    have open' := files.dirty id (Bool.eq_true_of_not_eq_false dirty)
    rw [(closed id (files.streams id open')).1] at open'
    cases open'
  have whole : state.stepFailed = false := by
    by_contra broken
    rcases inv.received.errors (Bool.eq_true_of_not_eq_false broken) with failed | unlinked | dead
    · rw [working] at failed
      cases failed
    · rw [linked] at unlinked
      cases unlinked
    · rw [alive] at dead
      cases dead
  have taken : state.refused = false := by
    by_contra refused
    rcases inv.owners.refusals (Bool.eq_true_of_not_eq_false refused) with
      failed | returned | ⟨id, spoiled⟩
    · rw [working] at failed
      cases failed
    · rw [committing] at returned
      cases returned
    · exact spoiled.refuses enqueued last applied files fun opened => (closed id opened).2
  exact
    { ended := by
        dsimp only
        rw [committing]
        simp
      unused := inv.owners.ended (by rw [committing]; simp)
      queue
      silent := empty
      unsent := by
        dsimp only
        rw [here]
        rfl
      mine := by
        dsimp only
        rw [here]
        rintro other ⟨⟩
        exact commits
      delivered := ⟨_, before, commit, rfl, enqueued, last, others, applied, flushedAll, whole,
        taken⟩ }

theorem Answers.turn {next : State} (inv : Inv state) (turn : Turn state next) : Answers next := by
  have answers := inv.answers
  have after : Settled state → Settled next := fun settled => settled.turn turn
  cases turn with
  | takes job rest worker idle queue begins =>
    have begun : (∀ job, worker ≠ .controlAwait job) ∧ ∀ job, worker ≠ .finishing job true := by
      rcases begins with ⟨_, rfl⟩ | ⟨_, rfl | rfl⟩ <;> simp
    exact ⟨fun job here => absurd here (begun.1 job), fun job here => absurd here (begun.2 job),
      fun returned => after (answers.returned returned)⟩
  | fails | syncs =>
    exact ⟨nofun, nofun, fun returned => after (answers.returned returned)⟩
  | streams job outstanding worker here working goes =>
    have write := inv.posture.streaming job here
    refine ⟨fun other here => ?_, fun other here commit => ?_,
      fun returned => after (answers.returned returned)⟩
    · rcases goes with rfl | rfl <;> cases here
    · rcases goes with rfl | rfl
      · cases here
      · cases here
        rw [write] at commit
        cases commit
  | sends job here working =>
    refine ⟨fun other _ _ acked => ?_, nofun, fun returned => after (answers.returned returned)⟩
    have wire := inv.wired working
    rw [here] at wire
    obtain ⟨ack, member, good⟩ := acked
    rw [Wire.quiet wire ack member] at good
    cases good
  | synced job ack rest worker here arrives good goes =>
    refine ⟨fun other here => ?_, fun other here commit => ?_,
      fun returned => after (answers.returned returned)⟩
    · rcases goes with ⟨_, rfl⟩ | ⟨_, rfl⟩ <;> cases here
    · rcases goes with ⟨write, rfl⟩ | ⟨_, rfl⟩
      · cases here
        rw [write] at commit
        cases commit
      · cases here
  | answered job ack rest here arrives good =>
    refine ⟨nofun, ?_, fun returned => after (answers.returned returned)⟩
    rintro other ⟨⟩ commit
    refine after (answers.acked job here commit ⟨ack, ?_, good⟩)
    rw [arrives]
    exact List.mem_cons_self
  | settles job result queuedBytes here =>
    have idle : (settle { state with worker := .idle, queuedBytes } job result).worker = .idle := by
      obtain ⟨encoder, ending, settled⟩ :=
        settle_eq { state with worker := .idle, queuedBytes } job result
      rw [settled]
    refine ⟨fun other here => ?_, fun other here => ?_, fun returned => after ?_⟩
    · rw [idle] at here
      cases here
    · rw [idle] at here
      cases here
    · simp only [settle] at returned
      split at returned
      case h_4 commit =>
        cases returned
        exact answers.finished job here commit
      all_goals exact answers.returned returned

theorem Answers.heard {next : State} (inv : Inv state) (heard : Heard state next) :
    Answers next := by
  have answers := inv.answers
  have after : Settled state → Settled next := fun settled => settled.move (.hears heard)
  cases heard with
  | streamed =>
    exact ⟨fun job here commit acked => after (answers.acked job here commit acked),
      fun job here commit => after (answers.finished job here commit),
      fun returned => after (answers.returned returned)⟩
  | answered frame rest session goesOn alive arrives type plain effect =>
    refine ⟨fun job here commit acked => ?_,
      fun job here commit => after (answers.finished job here commit),
      fun returned => after (answers.returned returned)⟩
    dsimp only at here
    have wire := inv.wired (inv.posture.waiting (by rw [here]; rfl))
    rw [here, alive, arrives] at wire
    obtain ⟨_, ⟨write, _⟩ | ⟨awaited, _⟩⟩ := wire.hear
    · exact absurd write type
    · cases awaited
      exact absurd ((Job.frame_type .commit nofun nofun).mpr commit) plain
  | committed frame rest session alive linked arrives commit closed =>
    exact ⟨fun job here commits _ =>
        inv.committed session here commits alive linked arrives commit closed,
      fun job here commit => after (answers.finished job here commit),
      fun returned => after (answers.returned returned)⟩
  | stopped frame rest acks session applied unflushed snapshot alive arrives refusing kept =>
    refine ⟨fun job here commit acked => after (answers.acked job here commit ?_),
      fun job here commit => after (answers.finished job here commit),
      fun returned => after (answers.returned returned)⟩
    obtain ⟨ack, member, good⟩ := acked
    rcases List.mem_append.mp member with member | member
    · exact ⟨ack, member, good⟩
    · rw [refusing ack member] at good
      cases good

theorem Answers.move {next : State} (inv : Inv state) (move : Move state next) : Answers next := by
  have answers := inv.answers
  have after : Settled state → Settled next := fun settled => settled.move move
  cases move with
  | asks request =>
    have ending : next.ending = .returned true → state.ending = .returned true := by
      cases request with
      | ends => exact nofun
      | endsNot => exact nofun
      | _ => exact id
    cases request.asked with
    | aside | adds =>
      exact ⟨fun job here commit acked => after (answers.acked job here commit acked),
        fun job here commit => after (answers.finished job here commit),
        fun returned => after (answers.returned (ending returned))⟩
  | turns turn => exact Answers.turn inv turn
  | hears heard => exact Answers.heard inv heard
  | disconnects | detaches | stops =>
    exact ⟨fun job here commit acked => after (answers.acked job here commit acked),
      fun job here commit => after (answers.finished job here commit),
      fun returned => after (answers.returned returned)⟩

theorem Inv.move {next : State} (inv : Inv state) (move : Move state next) : Inv next where
  posture := inv.posture.move move
  wired := inv.wired.move inv.posture move
  ordered := inv.ordered.move inv.posture move
  received := inv.received.move move
  owners := inv.owners.move inv.posture move
  answers := Answers.move inv move

theorem begin_inv (directory : Path) (disk : Disk) : Inv (begin directory disk) where
  posture := ⟨List.forall_mem_nil _, nofun, nofun, nofun, nofun⟩
  wired := fun _ => .streaming [] (List.forall_mem_nil _)
  ordered := fun _ _ => rfl
  received := ⟨fun _ _ => ⟨nofun, nofun, nofun, nofun⟩, fun taken => absurd rfl taken, nofun⟩
  owners :=
    { fit := fun _ => ⟨rfl, nofun, fun _ => nofun, nofun⟩
      refusals := nofun
      ended := fun ended => absurd rfl ended
      commits := fun _ => nofun
      committing := nofun
      owned := rfl }
  answers := ⟨nofun, nofun, nofun⟩

theorem run_inv {directory : Path} {disk : Disk} {schedule : List Action} {last : State}
    (h : Machine.run step (begin directory disk) schedule = some last) : Inv last :=
  Machine.run_invariant Inv (fun _ _ _ inv taken => inv.move (step_move taken))
    (begin_inv directory disk) h

/-- When the end of a recording reports success, every job before its COMMIT was applied in the
order of the queue, and flushed, before the client renamed the files; no job had been refused and
no step had failed by then. -/
theorem complete_delivered {directory : Path} {disk : Disk} {schedule : List Action}
    {last : State} (h : Machine.run step (begin directory disk) schedule = some last)
    (complete : last.ending = .returned true) : Delivered last :=
  ((run_inv h).answers.returned complete).delivered

def firstId : Fin maxFiles := ⟨0, maxFiles_pos⟩
def secondId : Fin maxFiles := ⟨1, one_lt_maxFiles⟩

def savedUnanswered : List Action :=
  [.open firstId [97] false, .worker true, .worker true, .receive noFaults false true,
    .worker true, .worker true,
    .write firstId 0 [1, 2] false, .worker true, .worker true, .worker true,
    .receive noFaults false true,
    .close firstId false, .worker true, .worker true, .receive noFaults false true, .worker true,
    .worker true, .receive noFaults false true, .worker true, .worker true,
    .finish false, .worker true, .worker true, .receive noFaults false true]

theorem complete_delivered_file :
    ∃ last, Machine.run step (begin [47, 100] fun _ => none)
        (savedUnanswered ++ [.worker true, .worker true]) = some last ∧
      last.applied.length = 5 ∧ Delivered last := by
  have runs : (Machine.run step (begin [47, 100] fun _ => none)
      (savedUnanswered ++ [.worker true, .worker true])).any (fun last =>
        decide (last.ending = .returned true) && decide (last.applied.length = 5)) = true := by
    decide +kernel
  obtain ⟨last, h, facts⟩ := (Option.any_eq_true _ _).mp runs
  simp only [Bool.and_eq_true, decide_eq_true_eq] at facts
  exact ⟨last, h, facts.2, complete_delivered h facts.1⟩

/-- The end of a recording reports success although an OPEN was refused, and although the
connection broke behind the answer to the COMMIT. -/
theorem complete_despite_failures :
    (∃ last, Machine.run step (begin [47, 100] fun _ => none)
        (.open secondId [98] true :: savedUnanswered ++ [.worker true, .worker true]) =
          some last ∧ last.openRefused = true ∧ last.ending = .returned true) ∧
      ∃ last, Machine.run step (begin [47, 100] fun _ => none)
        (savedUnanswered ++ [.disconnect, .worker true, .worker true]) = some last ∧
          last.stepFailed = true ∧ last.ending = .returned true := by
  have refused : (Machine.run step (begin [47, 100] fun _ => none)
      (.open secondId [98] true :: savedUnanswered ++ [.worker true, .worker true])).any
        (fun last => last.openRefused && decide (last.ending = .returned true)) = true := by
    decide +kernel
  have broken : (Machine.run step (begin [47, 100] fun _ => none)
      (savedUnanswered ++ [.disconnect, .worker true, .worker true])).any
        (fun last => last.stepFailed && decide (last.ending = .returned true)) = true := by
    decide +kernel
  obtain ⟨one, oneRuns, first⟩ := (Option.any_eq_true _ _).mp refused
  obtain ⟨other, otherRuns, second⟩ := (Option.any_eq_true _ _).mp broken
  simp only [Bool.and_eq_true, decide_eq_true_eq] at first second
  exact ⟨⟨one, oneRuns, first⟩, other, otherRuns, second⟩

end MisrcGui.LocalSave.Delivery
