import MisrcGui.RfPreview.Streams

/-! The cuts of the preview's audio: what the audio sink hears after the flush of a cut, and when
the audio decoder is reset. -/
namespace MisrcGui.RfPreview.AudioCuts
open Library Worker

variable {sound more : Sound} {video : Video} {audio : Audio} {s next : State}

/-- Audio of this generation does not come from before a cut that this generation follows. -/
def Covered (sound : Sound) (generation source : Nat) : Prop :=
  generation ≤ sound.generation ∧
    ∀ cut ∈ sound.cuts, cut.generation ≤ generation → cut.source ≤ source

structure Marks (sound : Sound) : Prop where
  cuts : ∀ cut ∈ sound.cuts, cut.source ≤ sound.sourceGeneration
  slots : ∀ i, Covered sound (sound.slots i).generation (sound.slots i).source

structure AudioQueue (sound : Sound) : Prop where
  read : sound.readIndex ≤ sound.writeIndex
  room : sound.writeIndex ≤ sound.readIndex + audioQueueSlots

def Cutting (sound : Sound) : UiPc → Prop
  | .cutGeneration source _ => source ≤ sound.sourceGeneration
  | _ => True

def Submitting (sound : Sound) : ProducerPc → Prop
  | .cutGeneration source _ | .rejectGeneration source => source ≤ sound.sourceGeneration
  | _ => True

/-- The audio of an RF block of this source on its way to the audio queue. -/
def Sending (source : Nat) (sound : Sound) (video : Video) : VideoPc → Prop
  | .loadEnabled | .resample => video.generation ≤ sound.generation
  | .enqueue checks => video.generation ≤ sound.generation ∧
    (.source source ∈ checks ∨ Covered sound video.generation source)
  | .loadAudioRead => Covered sound video.generation source
  | .writeAudio => Covered sound video.generation source ∧
    sound.writeIndex + video.blocks ≤ sound.readIndex + audioQueueSlots
  | .storeAudioWrite => sound.writeIndex + video.blocks ≤ sound.readIndex + audioQueueSlots
  | _ => True

def Flushed (sound : Sound) (generation : Nat) : Prop :=
  ∀ flushed, .flush flushed ∈ sound.events → flushed ≤ generation

def Settled (sound : Sound) (audio : Audio) : Prop :=
  Flushed sound audio.generation ∧ audio.generation ≤ sound.generation ∧
    audio.applied = audio.generation

def Hearing (sound : Sound) (audio : Audio) : AudioPc → Prop
  | .loadGeneration => Flushed sound audio.applied ∧ audio.applied ≤ sound.generation
  | .flush | .storeApplied =>
    Flushed sound audio.generation ∧ audio.generation ≤ sound.generation
  | .loadWrite => Settled sound audio
  | .look | .refresh | .release => Settled sound audio ∧ sound.readIndex < sound.writeIndex
  | _ => (Settled sound audio ∧ sound.readIndex < sound.writeIndex) ∧
    sound.slot.generation = audio.generation

/-- The audio sink is not given audio of a generation older than its last flush. -/
def Ordered : Event → Event → Prop
  | .flush generation, .pcm slot => generation ≤ slot.generation
  | _, _ => True

/-- After every flush the decoder is reset or the reset is still to come. -/
def Owed (events : List Event) (needsReset : Bool) : Prop :=
  ∀ before between generation, events = before ++ .flush generation :: between →
    .reset ∈ between ∨ needsReset = true

structure Heard (sound : Sound) (needsReset : Bool) : Prop where
  ordered : sound.events.Pairwise Ordered
  covered : ∀ slot, .pcm slot ∈ sound.events → Covered sound slot.generation slot.source
  owed : Owed sound.events needsReset
  reset : ∀ before between after generation slot,
    sound.events = before ++ .flush generation :: (between ++ .process slot :: after) →
      .reset ∈ between

structure Inv (s : State) : Prop where
  marks : Marks s.sound
  queue : AudioQueue s.sound
  cutting : Cutting s.sound s.ui
  submitting : Submitting s.sound s.producer.pc
  sending : Sending s.input.slot.audioSourceGeneration s.sound s.video s.video.pc
  hearing : Hearing s.sound s.audio s.audio.pc
  heard : Heard s.sound s.audio.needsReset

/-- The generations go up, and what is new of the cuts follows every generation so far. -/
structure Later (sound more : Sound) : Prop where
  generation : sound.generation ≤ more.generation
  source : sound.sourceGeneration ≤ more.sourceGeneration
  cuts : ∀ cut ∈ more.cuts, cut ∈ sound.cuts ∨
    sound.generation < cut.generation ∧ cut.source ≤ more.sourceGeneration
  read : more.readIndex = sound.readIndex
  write : more.writeIndex = sound.writeIndex
  slots : more.slots = sound.slots
  events : more.events = sound.events

theorem Later.refl (sound : Sound) (ready enabled callbackInstalled : Bool) :
    Later sound { sound with ready, enabled, callbackInstalled } :=
  ⟨le_rfl, le_rfl, fun _ member => .inl member, rfl, rfl, rfl, rfl⟩

theorem Later.of_cutSource (sound : Sound) : Later sound sound.cutSource :=
  ⟨le_rfl, Nat.le_succ _, fun _ member => .inl member, rfl, rfl, rfl, rfl⟩

theorem Later.of_invalidate (sound : Sound) : Later sound sound.invalidate :=
  ⟨Nat.le_succ _, le_rfl, fun _ member => .inl member, rfl, rfl, rfl, rfl⟩

theorem Later.of_cutGeneration {source : Nat} (begun : source ≤ sound.sourceGeneration) :
    Later sound (sound.cutGeneration source) := by
  refine ⟨Nat.le_succ _, le_rfl, ?_, rfl, rfl, rfl, rfl⟩
  intro cut member
  rcases List.mem_append.mp member with earlier | last
  · exact .inl earlier
  · rw [List.mem_singleton.mp last]
    exact .inr ⟨Nat.lt_succ_self _, begun⟩

variable {generation : Nat} {requests : Requests} {event : Event}

theorem Covered.later {source : Nat} (covered : Covered sound generation source)
    (later : Later sound more) : Covered more generation source := by
  obtain ⟨below, follows⟩ := covered
  refine ⟨below.trans later.generation, ?_⟩
  intro cut member since
  rcases later.cuts cut member with earlier | ⟨fresh, _⟩
  · exact follows cut earlier since
  · omega

theorem Marks.later (marks : Marks sound) (later : Later sound more) : Marks more where
  cuts := by
    intro cut member
    rcases later.cuts cut member with earlier | ⟨_, begun⟩
    · exact (marks.cuts cut earlier).trans later.source
    · exact begun
  slots := by
    rw [later.slots]
    exact fun i => (marks.slots i).later later

theorem AudioQueue.later (queue : AudioQueue sound) (later : Later sound more) :
    AudioQueue more := by
  constructor
  · rw [later.read, later.write]
    exact queue.read
  · rw [later.read, later.write]
    exact queue.room

theorem Cutting.later {ui : UiPc} (cutting : Cutting sound ui) (later : Later sound more) :
    Cutting more ui := by
  cases ui with
  | cutGeneration source rest => exact Nat.le_trans cutting later.source
  | _ => trivial

theorem Submitting.later {pc : ProducerPc} (submitting : Submitting sound pc)
    (later : Later sound more) : Submitting more pc := by
  cases pc with
  | cutGeneration source block => exact Nat.le_trans submitting later.source
  | rejectGeneration source => exact Nat.le_trans submitting later.source
  | _ => trivial

theorem Sending.later {source : Nat} {pc : VideoPc} (sending : Sending source sound video pc)
    (later : Later sound more) : Sending source more video pc := by
  cases pc with
  | loadEnabled | resample => exact Nat.le_trans sending later.generation
  | enqueue checks =>
    exact ⟨sending.1.trans later.generation, sending.2.imp_right fun covered =>
      covered.later later⟩
  | loadAudioRead => exact Covered.later sending later
  | writeAudio =>
    rw [Sending, later.read, later.write]
    exact ⟨sending.1.later later, sending.2⟩
  | storeAudioWrite =>
    rw [Sending, later.read, later.write]
    exact sending
  | _ => trivial

theorem Flushed.later (flushed : Flushed sound generation) (later : Later sound more) :
    Flushed more generation := by
  rw [Flushed, later.events]
  exact flushed

theorem Settled.later (settled : Settled sound audio) (later : Later sound more) :
    Settled more audio :=
  ⟨settled.1.later later, settled.2.1.trans later.generation, settled.2.2⟩

theorem Later.slot (later : Later sound more) : more.slot = sound.slot := by
  rw [Sound.slot, Sound.slot, later.slots, later.read]

theorem Hearing.later {pc : AudioPc} (hearing : Hearing sound audio pc)
    (later : Later sound more) : Hearing more audio pc := by
  have busy : Settled sound audio ∧ sound.readIndex < sound.writeIndex →
      Settled more audio ∧ more.readIndex < more.writeIndex := by
    rintro ⟨settled, inside⟩
    rw [later.read, later.write]
    exact ⟨settled.later later, inside⟩
  cases pc with
  | loadGeneration | flush | storeApplied =>
    exact ⟨hearing.1.later later, hearing.2.trans later.generation⟩
  | loadWrite => exact Settled.later hearing later
  | look | refresh | release => exact busy hearing
  | _ => exact ⟨busy hearing.1, later.slot ▸ hearing.2⟩

theorem Heard.later {needsReset : Bool} (heard : Heard sound needsReset)
    (later : Later sound more) : Heard more needsReset where
  ordered := later.events ▸ heard.ordered
  covered := by
    rw [later.events]
    exact fun slot member => (heard.covered slot member).later later
  owed := later.events ▸ heard.owed
  reset := later.events ▸ heard.reset

theorem Inv.later {input : Input} {frames : Frames} {ui : UiPc} {producer : Producer}
    (inv : Inv s) (later : Later s.sound sound) (cutting : Cutting sound ui)
    (submitting : Submitting sound producer.pc)
    (sending : Sending input.slot.audioSourceGeneration s.sound s.video s.video.pc) :
    Inv { s with requests, input, sound, frames, ui, producer } where
  marks := inv.marks.later later
  queue := inv.queue.later later
  cutting := cutting
  submitting := submitting
  sending := sending.later later
  hearing := inv.hearing.later later
  heard := inv.heard.later later

theorem Inv.same {frames : Frames} {ui : UiPc} {producer : Producer}
    {enabled callbackInstalled : Bool} (inv : Inv s) (cutting : Cutting s.sound ui)
    (submitting : Submitting s.sound producer.pc) :
    Inv { s with
      requests, frames, ui, producer, sound := { s.sound with enabled, callbackInstalled } } :=
  inv.later (.refl s.sound _ _ _) cutting submitting inv.sending

theorem uiCall_inv (inv : Inv s) {call : Call}
    (stepped : uiCall s call = some next) : Inv next := by
  have quiet : Cutting s.sound .idle := trivial
  cases call with
  | setAudioCallback =>
    cases stepped
    exact inv.same inv.cutting inv.submitting
  | setAudioEnabled | setProfile =>
    rw [uiCall] at stepped
    split at stepped
    · cases stepped
      exact inv
    · cases stepped
      exact inv.same quiet inv.submitting
  | reset =>
    cases stepped
    have later := Later.of_cutSource s.sound
    exact inv.later later le_rfl (inv.submitting.later later) inv.sending
  | setPaused paused =>
    rw [uiCall] at stepped
    split at stepped
    · cases stepped
      exact inv
    · cases stepped
      exact inv.later (.refl s.sound _ _ _) quiet inv.submitting inv.sending
  | takeFrame generation fits =>
    cases stepped
    rw [takeFrame]
    split
    · exact inv.same inv.cutting inv.submitting
    · exact inv

theorem uiStep_inv (inv : Inv s) (stepped : uiStep s = some next) : Inv next := by
  have cutting := inv.cutting
  rw [uiStep] at stepped
  split at stepped
  · cases stepped
  · cases stepped
    exact inv.same trivial inv.submitting
  · cases stepped
    have later := Later.of_cutSource s.sound
    exact inv.later later le_rfl (inv.submitting.later later) inv.sending
  · rename_i source rest phase
    cases stepped
    rw [phase] at cutting
    have later := Later.of_cutGeneration cutting
    refine inv.later later ?_ (inv.submitting.later later) inv.sending
    cases rest with
    | nothing => trivial
    | control => trivial
  · cases stepped
    exact inv.later (.refl s.sound _ _ _) trivial inv.submitting inv.sending

theorem Inv.record (inv : Inv s) (streams : Streams.Inv s) {block : Submission}
    (phase : s.producer.pc = .record block) (slot : Slot) :
    Sending (Input.slot { s.input with
        slots := Function.update s.input.slots (s.input.writeIndex % queueSlots)
          slot }).audioSourceGeneration
      s.sound s.video s.video.pc := by
  have sending := inv.sending
  have placed := streams.placed
  have submitting := streams.submitting
  rw [phase] at submitting
  have same (fed : Streams.Fed s.input s.stream) : Input.slot { s.input with
      slots := Function.update s.input.slots (s.input.writeIndex % queueSlots) slot } =
        s.input.slot :=
    Function.update_of_ne (Streams.mod_ne fed.2 submitting.2).symm _ _
  cases pc : s.video.pc with
  | loadEnabled | resample | enqueue checks | loadAudioRead | writeAudio | storeAudioWrite =>
    rw [pc] at sending placed
    rw [same placed]
    exact sending
  | _ => trivial

theorem producerStep_inv (inv : Inv s) (streams : Streams.Inv s) {late : Bool}
    (stepped : producerStep s late = some next) : Inv next := by
  have submitting := inv.submitting
  have source := Later.of_cutSource s.sound
  rw [producerStep] at stepped
  split at stepped
  · cases stepped
  · split at stepped
    · cases stepped
      exact inv.same inv.cutting trivial
    · split at stepped
      · cases stepped
        exact inv.same inv.cutting trivial
      · cases stepped
        exact inv.same inv.cutting trivial
  · split at stepped
    · cases stepped
      exact inv.same inv.cutting trivial
    · cases stepped
      exact inv.same inv.cutting trivial
  · split at stepped
    · cases stepped
      exact inv.same inv.cutting trivial
    · cases stepped
      exact inv.same inv.cutting trivial
  · cases stepped
    apply inv.same inv.cutting
    dsimp only [Producer.goto]
    split
    · trivial
    · trivial
  · cases stepped
    apply inv.same inv.cutting
    dsimp only [Producer.goto]
    split
    · trivial
    · trivial
  · cases stepped
    exact inv.later source (inv.cutting.later source) le_rfl inv.sending
  · rename_i begun block phase
    cases stepped
    rw [phase] at submitting
    have later := Later.of_cutGeneration submitting
    exact inv.later later (inv.cutting.later later) trivial inv.sending
  · cases stepped
    exact inv.same inv.cutting trivial
  · rename_i block phase
    cases stepped
    exact inv.later (.refl s.sound _ _ _) inv.cutting trivial (inv.record streams phase _)
  · cases stepped
    exact inv.later (.refl s.sound _ _ _) inv.cutting trivial inv.sending
  · cases stepped
    apply inv.same inv.cutting
    dsimp only [Producer.goto]
    split
    · trivial
    · trivial
  · cases stepped
    exact inv.later source (inv.cutting.later source) le_rfl inv.sending
  · rename_i begun phase
    cases stepped
    rw [phase] at submitting
    have later := Later.of_cutGeneration submitting
    exact inv.later later (inv.cutting.later later) trivial inv.sending
  · cases stepped
    exact inv.same inv.cutting trivial

theorem Inv.goes {input : Input} {frames : Frames} {applied : Applied} {stream : Stream}
    (inv : Inv s) (later : Later s.sound sound)
    (sending : Sending input.slot.audioSourceGeneration sound video video.pc) :
    Inv { s with requests, input, sound, frames, applied, stream, video } where
  marks := inv.marks.later later
  queue := inv.queue.later later
  cutting := inv.cutting.later later
  submitting := inv.submitting.later later
  sending := sending
  hearing := inv.hearing.later later
  heard := inv.heard.later later

theorem writeBlocks_slots (sound : Sound) (slot : AudioSlot) (blocks i : Nat) :
    (sound.writeBlocks slot blocks).slots i = slot ∨
      (sound.writeBlocks slot blocks).slots i = sound.slots i := by
  rw [Sound.writeBlocks]
  dsimp only
  induction blocks with
  | zero => exact .inr rfl
  | succ blocks ih =>
    rw [List.range_succ, List.foldl_append, List.foldl_cons, List.foldl_nil]
    by_cases here : i = (sound.writeIndex + blocks) % audioQueueSlots
    · rw [here]
      exact .inl (Function.update_self ..)
    · rw [Function.update_of_ne here]
      exact ih

theorem writeBlocks_slot (slot : AudioSlot) {blocks : Nat}
    (inside : sound.readIndex < sound.writeIndex)
    (room : sound.writeIndex + blocks ≤ sound.readIndex + audioQueueSlots) :
    (sound.writeBlocks slot blocks).slot = sound.slot := by
  rw [Sound.slot, Sound.slot, Sound.writeBlocks]
  dsimp only
  induction blocks with
  | zero => rfl
  | succ blocks ih =>
    rw [List.range_succ, List.foldl_append, List.foldl_cons, List.foldl_nil]
    have other : sound.readIndex % audioQueueSlots ≠
        (sound.writeIndex + blocks) % audioQueueSlots := by
      intro same
      have gap := Nat.sub_mod_eq_zero_of_mod_eq same.symm
      rw [Nat.mod_eq_of_lt (by omega)] at gap
      omega
    rw [Function.update_of_ne other]
    exact ih (by omega)

theorem Hearing.write {pc : AudioPc} (hearing : Hearing sound audio pc) (slot : AudioSlot)
    {blocks : Nat} (room : sound.writeIndex + blocks ≤ sound.readIndex + audioQueueSlots) :
    Hearing (sound.writeBlocks slot blocks) audio pc := by
  cases pc with
  | loadGeneration | flush | storeApplied | loadWrite | look | refresh | release => exact hearing
  | _ =>
    refine ⟨hearing.1, ?_⟩
    rw [writeBlocks_slot slot hearing.1.2 room]
    exact hearing.2

theorem Hearing.publish {pc : AudioPc} (hearing : Hearing sound audio pc) (blocks : Nat) :
    Hearing { sound with writeIndex := sound.writeIndex + blocks } audio pc := by
  have busy : Settled sound audio ∧ sound.readIndex < sound.writeIndex →
      Settled sound audio ∧ sound.readIndex < sound.writeIndex + blocks :=
    And.imp_right fun inside => inside.trans_le (Nat.le_add_right _ _)
  cases pc with
  | loadGeneration | flush | storeApplied | loadWrite => exact hearing
  | look | refresh | release => exact busy hearing
  | _ => exact ⟨busy hearing.1, hearing.2⟩

theorem Marks.newest (marks : Marks sound) {source : Nat} (below : generation ≤ sound.generation)
    (newest : source = sound.sourceGeneration) :
    Covered sound generation source :=
  ⟨below, fun cut member _ => newest ▸ marks.cuts cut member⟩

theorem Sending.check {source : Nat} {check : Check} {rest : List Check} {input : Input}
    (marks : Marks sound) (sending : Sending source sound video (.enqueue (check :: rest)))
    (passes : check.passes requests input sound = true) :
    Sending source sound video (.enqueue rest) := by
  obtain ⟨below, ahead | covered⟩ := sending
  · rcases List.mem_cons.mp ahead with here | later
    · rw [← here] at passes
      exact ⟨below, .inr (marks.newest below (of_decide_eq_true passes))⟩
    · exact ⟨below, .inl later⟩
  · exact ⟨below, .inr covered⟩

theorem afterReset_inv (inv : Inv s) (after : After) : Inv (afterReset s after) := by
  have same := Later.refl s.sound s.sound.ready s.sound.enabled s.sound.callbackInstalled
  cases after with
  | boundary =>
    apply inv.goes same
    dsimp only [Video.goto, Worker.Stream.next]
    split
    · trivial
    · trivial
  | _ => exact inv.goes same trivial

theorem videoStep_inv (inv : Inv s) (choice : Choice) : Inv (videoStep s choice) := by
  have sending := inv.sending
  have same := Later.refl s.sound s.sound.ready s.sound.enabled s.sound.callbackInstalled
  have invalidated := Later.of_invalidate s.sound
  rw [videoStep]
  split <;> rename_i phase <;> rw [phase] at sending
  · -- loadControl
    apply inv.goes same
    dsimp only
    split <;> trivial
  · -- loadProfile
    exact inv.goes same trivial
  · -- startAudio
    exact inv.goes (.refl s.sound _ _ _) trivial
  · -- invalidate
    exact inv.goes invalidated trivial
  · -- clear
    apply afterReset_inv
    exact { inv with sending := inv.sending }
  · -- storeControl
    exact inv.goes same trivial
  · -- loadPause
    split
    · exact inv.goes same trivial
    · apply inv.goes same
      dsimp only
      split <;> trivial
  · -- scanPaused
    exact inv.goes same trivial
  · -- storePaused
    apply inv.goes same
    dsimp only [Video.goto]
    split <;> trivial
  · -- storeFlush
    exact inv.goes same trivial
  · -- storePause
    exact inv.goes same trivial
  · -- exchangeFlush
    split <;> exact inv.goes same trivial
  · -- loadQueued
    exact inv.goes same trivial
  · -- storeQueued
    exact inv.goes same trivial
  · -- loadWrite
    apply inv.goes same
    dsimp only [Video.goto]
    split <;> trivial
  · -- look
    split
    · exact inv.goes same trivial
    · split
      · exact inv.goes same trivial
      · split <;> exact inv.goes same trivial
  · -- budget
    apply inv.goes same
    dsimp only [Video.goto]
    split <;> trivial
  · -- recheckPause
    apply inv.goes same
    dsimp only [Video.goto]
    split <;> trivial
  · -- recheckControl
    apply inv.goes same
    dsimp only [Video.goto]
    split <;> trivial
  · -- abandon
    split <;> exact inv.goes same trivial
  · -- boundary
    split
    · exact inv.goes same trivial
    · apply inv.goes same
      dsimp only [Video.goto, Worker.Stream.next]
      split <;> trivial
  · -- loadGeneration
    apply inv.goes same
    dsimp only
    split <;> exact le_rfl
  · -- loadEnabled
    exact inv.goes same sending
  · -- resample
    split
    · exact inv.goes same trivial
    · split
      · refine inv.goes same ⟨sending, .inl ?_⟩
        rw [enqueueChecks]
        simp only [List.mem_cons, List.mem_append, true_or, or_true]
      · exact inv.goes same trivial
  · -- enqueue
    rename_i checks
    obtain ⟨below, ahead | covered⟩ := sending
    · cases ahead
    · exact inv.goes same covered
  · rename_i check rest
    apply inv.goes same
    dsimp only [Video.goto]
    split
    · rename_i passes
      exact sending.check inv.marks passes
    · trivial
  · -- loadAudioRead
    apply inv.goes same
    dsimp only [Video.goto]
    split
    · trivial
    · rename_i room
      have fits : s.sound.writeIndex + s.video.blocks ≤ s.sound.readIndex + audioQueueSlots := by
        have := inv.queue.room
        omega
      exact ⟨sending, fits⟩
  · -- dropAudio
    exact inv.goes invalidated trivial
  · -- writeAudio
    obtain ⟨covered, room⟩ := sending
    refine { inv with
      marks := ⟨inv.marks.cuts, ?_⟩
      queue := ⟨inv.queue.read, inv.queue.room⟩
      sending := room
      hearing := inv.hearing.write _ room
      heard := { inv.heard with } }
    intro i
    rcases writeBlocks_slots s.sound ⟨s.video.generation, s.input.slot.audioSourceGeneration⟩
      s.video.blocks i with new | old
    · rw [new]
      exact covered
    · rw [old]
      exact inv.marks.slots i
  · -- storeAudioWrite
    exact { inv with
      marks := ⟨inv.marks.cuts, inv.marks.slots⟩
      queue := ⟨inv.queue.read.trans (Nat.le_add_right _ _), sending⟩
      sending := trivial
      hearing := inv.hearing.publish _
      heard := { inv.heard with } }
  · -- decode
    apply inv.goes same
    dsimp only [Video.goto]
    split <;> trivial
  · -- callback
    exact inv.goes same trivial
  · apply inv.goes same
    dsimp only [Video.goto]
    split <;> trivial
  · -- storeFrame
    exact inv.goes same trivial
  · -- release
    exact inv.goes same trivial

theorem split_concat {events before between : List Event} {first : Event}
    (split : events ++ [event] = before ++ first :: between) :
    (between = [] ∧ event = first) ∨
      ∃ rest, between = rest ++ [event] ∧ events = before ++ first :: rest := by
  rcases List.eq_nil_or_concat' between with none | ⟨rest, last, ends⟩
  · rw [none] at split
    exact .inl ⟨none, List.singleton_inj.mp (List.append_inj' split rfl).2⟩
  · rw [ends, ← List.cons_append, ← List.append_assoc] at split
    obtain ⟨earlier, same⟩ := List.append_inj' split rfl
    rw [List.singleton_inj] at same
    exact .inr ⟨rest, same ▸ ends, earlier⟩

theorem Owed.record {events : List Event} {needs needsReset : Bool} (owed : Owed events needs)
    (kept : needs = true → event = .reset ∨ needsReset = true)
    (flush : ∀ generation, event = .flush generation → needsReset = true) :
    Owed (events ++ [event]) needsReset := by
  intro before between generation split
  rcases split_concat split with ⟨none, same⟩ | ⟨rest, ends, earlier⟩
  · exact .inr (flush generation same)
  · rw [ends]
    rcases owed before rest generation earlier with reset | needed
    · exact .inl (List.mem_append_left _ reset)
    · refine (kept needed).imp_left fun reset => ?_
      rw [reset]
      exact List.mem_append_right _ (List.mem_singleton_self _)

theorem Heard.record {needs needsReset : Bool} (heard : Heard sound needs)
    (ordered : ∀ before ∈ sound.events, Ordered before event)
    (covered : ∀ slot, event = .pcm slot → Covered sound slot.generation slot.source)
    (kept : needs = true → event = .reset ∨ needsReset = true)
    (flush : ∀ generation, event = .flush generation → needsReset = true)
    (process : ∀ slot, event = .process slot → needs = false) :
    Heard (sound.record [event]) needsReset where
  ordered := List.pairwise_append.mpr ⟨heard.ordered, List.pairwise_singleton _ _,
    fun before member last only => by
      rw [List.mem_singleton.mp only]
      exact ordered before member⟩
  covered := by
    intro slot member
    rcases List.mem_append.mp member with earlier | last
    · exact heard.covered slot earlier
    · exact covered slot (List.mem_singleton.mp last).symm
  owed := heard.owed.record kept flush
  reset := by
    intro before between after generation slot split
    rw [Sound.record] at split
    rcases split_concat split with ⟨none, _⟩ | ⟨rest, ends, earlier⟩
    · exact absurd none (by simp)
    · rcases List.eq_nil_or_concat' after with none | ⟨more, last, all⟩
      · rw [none] at ends
        obtain ⟨same, only⟩ := List.append_inj' ends rfl
        rw [List.singleton_inj] at only
        rcases heard.owed before rest generation earlier with reset | needed
        · exact same ▸ reset
        · rw [process slot only.symm] at needed
          cases needed
      · rw [all, ← List.cons_append, ← List.append_assoc] at ends
        obtain ⟨same, _⟩ := List.append_inj' ends rfl
        rw [← same] at earlier
        exact heard.reset before between more generation slot earlier

theorem Flushed.record (flushed : Flushed sound generation)
    (other : ∀ newer, event = .flush newer → newer ≤ generation) :
    Flushed (sound.record [event]) generation := by
  intro newer member
  rcases List.mem_append.mp member with earlier | last
  · exact flushed newer earlier
  · exact other newer (List.mem_singleton.mp last).symm

theorem Sending.record {source : Nat} {pc : VideoPc} (sending : Sending source sound video pc)
    (events : List Event) : Sending source (sound.record events) video pc := by
  cases pc <;> exact sending

theorem Inv.listens (inv : Inv s) (hearing : Hearing s.sound audio audio.pc)
    (heard : Heard s.sound audio.needsReset) : Inv { s with audio } :=
  { inv with hearing, heard }

theorem Inv.records {events : List Event} (inv : Inv s)
    (hearing : Hearing (s.sound.record events) audio audio.pc)
    (heard : Heard (s.sound.record events) audio.needsReset) :
    Inv { s with sound := s.sound.record events, audio } where
  marks := ⟨inv.marks.cuts, inv.marks.slots⟩
  queue := ⟨inv.queue.read, inv.queue.room⟩
  __ := inv
  sending := inv.sending.record events
  hearing := hearing
  heard := heard

theorem Sending.release {source : Nat} {pc : VideoPc} (sending : Sending source sound video pc) :
    Sending source { sound with readIndex := sound.readIndex + 1 } video pc := by
  cases pc with
  | writeAudio =>
    obtain ⟨covered, room⟩ := sending
    exact ⟨covered, room.trans (by dsimp only; omega)⟩
  | storeAudioWrite => exact Nat.le_trans sending (by dsimp only; omega)
  | _ => exact sending

theorem process_inv (inv : Inv s) (hearing : Hearing s.sound s.audio .process) :
    Inv { s with
      sound := s.sound.record
        ((if s.audio.needsReset then [.reset] else []) ++ [.process s.sound.slot])
      audio := { s.audio with needsReset := false, pc := .decode } } := by
  obtain ⟨⟨settled, inside⟩, same⟩ := hearing
  have heard : Heard (s.sound.record (if s.audio.needsReset then [.reset] else [])) false := by
    by_cases needs : s.audio.needsReset = true
    · rw [if_pos needs]
      apply inv.heard.record
      · intro before member
        cases before <;> trivial
      · intro slot other
        cases other
      · exact fun _ => .inl rfl
      · intro generation other
        cases other
      · intro slot other
        cases other
    · have none : s.audio.needsReset = false := Bool.eq_false_iff.mpr needs
      rw [if_neg needs, Sound.record, List.append_nil]
      exact none ▸ inv.heard
  have split : s.sound.record
      ((if s.audio.needsReset then [.reset] else []) ++ [.process s.sound.slot]) =
        (s.sound.record (if s.audio.needsReset then [.reset] else [])).record
          [.process s.sound.slot] := by
    rw [Sound.record, Sound.record, Sound.record, List.append_assoc]
  have flushed : Flushed (s.sound.record
      ((if s.audio.needsReset then [.reset] else []) ++ [.process s.sound.slot]))
        s.audio.generation := by
    intro generation member
    rcases List.mem_append.mp member with earlier | last
    · exact settled.1 generation earlier
    · split at last
      · simp at last
      · simp at last
  refine inv.records ⟨⟨⟨flushed, settled.2⟩, inside⟩, same⟩ ?_
  rw [split]
  apply heard.record
  · intro before member
    cases before <;> trivial
  · intro slot other
    cases other
  · exact fun needed => .inr needed
  · intro generation other
    cases other
  · exact fun _ _ => rfl

theorem audioStep_inv (inv : Inv s) (choice : Choice) : Inv (audioStep s choice) := by
  have hearing := inv.hearing
  rw [audioStep]
  split <;> rename_i phase <;> rw [phase] at hearing
  · -- loadGeneration
    obtain ⟨flushed, below⟩ := hearing
    refine inv.listens ?_ inv.heard
    have newer : Flushed s.sound s.sound.generation :=
      fun generation member => (flushed generation member).trans below
    dsimp only
    split
    · exact ⟨newer, le_rfl⟩
    · rename_i same
      exact ⟨newer, le_rfl, (not_not.mp same).symm⟩
  · -- flush
    obtain ⟨flushed, below⟩ := hearing
    by_cases installed : s.sound.callbackInstalled = true
    · rw [if_pos installed]
      refine inv.records ⟨flushed.record ?_, below⟩ (inv.heard.record ?_ ?_ ?_ ?_ ?_)
      · intro newer same
        cases same
        exact le_rfl
      · intro before member
        cases before <;> trivial
      · intro slot same
        cases same
      · exact fun _ => .inr rfl
      · exact fun _ _ => rfl
      · intro slot same
        cases same
    · rw [if_neg installed]
      have none : s.sound.record [] = s.sound := by rw [Sound.record, List.append_nil]
      rw [none]
      refine inv.listens ⟨flushed, below⟩ { inv.heard with owed := ?_ }
      exact fun before between generation split => .inr rfl
  · -- storeApplied
    exact inv.listens ⟨hearing.1, hearing.2, rfl⟩ inv.heard
  · -- loadWrite
    have settled : Settled s.sound s.audio := hearing
    refine inv.listens ?_ inv.heard
    dsimp only [Audio.goto]
    split
    · exact ⟨settled.2.2 ▸ settled.1, settled.2.2 ▸ settled.2.1⟩
    · rename_i more
      exact ⟨hearing, lt_of_le_of_ne inv.queue.read more⟩
  · -- look
    refine inv.listens ?_ inv.heard
    dsimp only [Audio.goto]
    split
    · exact hearing
    · rename_i same
      exact ⟨hearing, not_not.mp same⟩
  · -- refresh
    obtain ⟨settled, inside⟩ := hearing
    refine inv.listens ?_ inv.heard
    dsimp only [Audio.goto]
    split
    · exact ⟨settled.2.2 ▸ settled.1, settled.2.2 ▸ settled.2.1⟩
    · exact ⟨settled, inside⟩
  · -- current
    exact inv.listens hearing inv.heard
  · refine inv.listens ?_ inv.heard
    dsimp only [Audio.goto]
    split
    · exact hearing
    · exact hearing.1
  · -- age
    refine inv.listens ?_ inv.heard
    dsimp only [Audio.goto]
    split
    · exact hearing
    · exact hearing
  · -- invalidate
    have later := Later.of_invalidate s.sound
    have released : Hearing s.sound s.audio .release := hearing.1
    exact {
      marks := inv.marks.later later
      queue := inv.queue.later later
      cutting := inv.cutting.later later
      submitting := inv.submitting.later later
      sending := inv.sending.later later
      hearing := released.later later
      heard := inv.heard.later later }
  · -- budget
    obtain ⟨⟨settled, inside⟩, same⟩ := hearing
    refine inv.listens ?_ inv.heard
    dsimp only [Audio.goto]
    split
    · exact ⟨⟨settled, inside⟩, same⟩
    · exact ⟨settled.2.2 ▸ settled.1, settled.2.2 ▸ settled.2.1⟩
  · -- recheck
    refine inv.listens ?_ inv.heard
    dsimp only [Audio.goto]
    split
    · exact hearing.1
    · exact hearing
  · refine inv.listens ?_ inv.heard
    dsimp only [Audio.goto]
    split
    · exact hearing
    · exact hearing.1
  · -- process
    exact process_inv inv hearing
  · -- decode
    refine inv.listens ?_ inv.heard
    dsimp only [Audio.goto]
    split
    · exact hearing
    · exact hearing.1
  · -- callback
    obtain ⟨⟨settled, inside⟩, same⟩ := hearing
    refine inv.records ⟨⟨⟨settled.1.record ?_, settled.2⟩, inside⟩, same⟩
      (inv.heard.record ?_ ?_ ?_ ?_ ?_)
    · intro newer other
      cases other
    · intro before member
      cases before with
      | flush generation => exact (settled.1 generation member).trans same.ge
      | _ => trivial
    · intro slot only
      cases only
      exact inv.marks.slots _
    · exact fun needed => .inr needed
    · intro generation other
      cases other
    · intro slot other
      cases other
  · refine inv.listens ?_ inv.heard
    dsimp only [Audio.goto]
    split
    · exact hearing
    · exact hearing
  · -- release
    obtain ⟨settled, inside⟩ := hearing
    exact { inv with
      marks := ⟨inv.marks.cuts, inv.marks.slots⟩
      queue := ⟨inside, inv.queue.room.trans (by dsimp only; omega)⟩
      sending := inv.sending.release
      hearing := ⟨settled.2.2 ▸ settled.1, settled.2.2 ▸ settled.2.1⟩
      heard := { inv.heard with } }

theorem step_inv (inv : Inv s) (streams : Streams.Inv s) {action : Action}
    (stepped : step s action = some next) : Inv next := by
  cases action with
  | call call =>
    rw [step] at stepped
    split at stepped
    · exact uiCall_inv inv stepped
    · cases stepped
  | ui => exact uiStep_inv inv stepped
  | submit info count =>
    rw [step] at stepped
    split at stepped
    · cases stepped
      exact inv.same inv.cutting trivial
    · cases stepped
  | producer late => exact producerStep_inv inv streams stepped
  | video choice =>
    cases stepped
    exact videoStep_inv inv choice
  | audio choice =>
    rw [step] at stepped
    split at stepped
    · cases stepped
      exact audioStep_inv inv choice
    · cases stepped

theorem initial_inv (profile : Profile) (slots : Nat → Slot) (audioReady : Bool) :
    Inv (initial profile slots audioReady) where
  marks := ⟨fun cut member => (by cases member), fun i => ⟨Nat.zero_le _, fun cut member => by
    cases member⟩⟩
  queue := ⟨le_rfl, Nat.zero_le _⟩
  cutting := trivial
  submitting := trivial
  sending := trivial
  hearing := ⟨fun generation member => (by cases member), le_rfl⟩
  heard := {
    ordered := .nil
    covered := fun slot member => by cases member
    owed := fun before between generation split => by simp [initial] at split
    reset := fun before between after generation slot split => by simp [initial] at split }

theorem run_inv {profile : Profile} {slots : Nat → Slot} {audioReady : Bool}
    {actions : List Action}
    (ran : Machine.run step (initial profile slots audioReady) actions = some s) : Inv s := by
  have both : Streams.Inv s ∧ Inv s := Machine.run_invariant (fun s => Streams.Inv s ∧ Inv s)
    (fun _ _ _ inv stepped => ⟨Streams.step_inv inv.1 stepped, step_inv inv.2 inv.1 stepped⟩)
    ⟨Streams.initial_inv profile slots audioReady, initial_inv profile slots audioReady⟩ ran
  exact both.2

/-- After the flush of the generation a cut starts, or of a later one, no audio is heard of an RF
block submitted under an audio source generation older than the cut's; and between a flush and a
block processed after it the decoder is reset. -/
theorem cuts_clean (profile : Profile) (slots : Nat → Slot) (audioReady : Bool)
    (actions : List Action) (s : State)
    (ran : Machine.run step (initial profile slots audioReady) actions = some s) :
    (∀ before between after generation slot,
      s.sound.events = before ++ .flush generation :: (between ++ .pcm slot :: after) →
      ∀ cut ∈ s.sound.cuts, cut.generation ≤ generation → cut.source ≤ slot.source) ∧
    ∀ before between after generation slot,
      s.sound.events = before ++ .flush generation :: (between ++ .process slot :: after) →
      .reset ∈ between := by
  have heard := (run_inv ran).heard
  refine ⟨?_, heard.reset⟩
  intro before between after generation slot split cut member since
  have ordered := heard.ordered
  have covered := heard.covered slot
  rw [split] at ordered covered
  have below : generation ≤ slot.generation := by
    have later := (List.pairwise_append.mp ordered).2.1
    exact (List.pairwise_cons.mp later).1 (.pcm slot) (by simp)
  exact (covered (by simp)).2 cut member (since.trans below)

def resetThenBlock : List Action :=
  let work : Choice := ⟨false, true, true, true, true, 1, true⟩
  .call .setAudioCallback :: .call .reset :: .ui :: .ui ::
    .submit ⟨1, 40000000, 0, false⟩ 4 :: List.replicate 8 (.producer false) ++
    List.replicate 31 (.video work) ++ List.replicate 29 (.audio work)

theorem cuts_clean_heard : ∃ s,
    Machine.run step (initial .ntscBetamaxHifi (fun _ => ⟨⟨0, 0, 0, false⟩, 0, 0, 0, 0⟩) true)
      resetThenBlock = some s ∧
    s.sound.events = [.flush 4, .reset, .process ⟨4, 2⟩, .pcm ⟨4, 2⟩] ∧
    ((∀ before between after generation slot,
      s.sound.events = before ++ .flush generation :: (between ++ .pcm slot :: after) →
      ∀ cut ∈ s.sound.cuts, cut.generation ≤ generation → cut.source ≤ slot.source) ∧
    ∀ before between after generation slot,
      s.sound.events = before ++ .flush generation :: (between ++ .process slot :: after) →
      .reset ∈ between) := by
  have events : (Machine.run step
      (initial .ntscBetamaxHifi (fun _ => ⟨⟨0, 0, 0, false⟩, 0, 0, 0, 0⟩) true)
        resetThenBlock).map (fun s => s.sound.events) =
          some [.flush 4, .reset, .process ⟨4, 2⟩, .pcm ⟨4, 2⟩] := by
    decide +kernel
  obtain ⟨s, ran, heard⟩ := Option.map_eq_some_iff.mp events
  exact ⟨s, ran, heard, cuts_clean _ _ _ _ _ ran⟩

end MisrcGui.RfPreview.AudioCuts
