import MisrcGui.Library.Machine
import MisrcGui.Record.OutputFiles

/-! What a recording overwrites. -/
namespace MisrcGui.Record.OverwriteConsent
open Library OutputFiles
open AutoNames hiding Settings
open Library.Percent (ascii)

variable {s next : State} {o p : Output}

def Distinct (settings : Settings) (list : List Output) : Prop :=
  list.Pairwise fun p o => settings.enabled p → settings.enabled o →
    settings.filename o ≠ settings.filename p

theorem checkOutputs_ok {settings : Settings} {localSave : Bool} {disk : Disk}
    {before rest : List Output} {existing : List Text}
    (passed : checkOutputs settings localSave disk before rest = .ok existing) :
    (∀ o ∈ rest, settings.enabled o → ∀ p ∈ before, settings.enabled p →
      settings.filename o ≠ settings.filename p) ∧
    Distinct settings rest ∧
    ∀ o ∈ rest, settings.enabled o → localSave = false → (disk (settings.path o)).isSome →
      settings.path o ∈ existing := by
  induction rest generalizing before existing with
  | nil => exact ⟨nofun, .nil, nofun⟩
  | cons o rest ih =>
    rw [checkOutputs] at passed
    split at passed
    · next off =>
      rw [Bool.not_eq_true'] at off
      obtain ⟨apart, distinct, counted⟩ := ih passed
      refine ⟨?_, ?_, ?_⟩
      · intro q member on p earlier
        rcases List.mem_cons.mp member with same | later
        · rw [same, off] at on
          cases on
        · exact apart q later on p (List.mem_cons_of_mem _ earlier)
      · exact .cons (fun q later on => by rw [off] at on; cases on) distinct
      · intro q member on
        rcases List.mem_cons.mp member with same | later
        · rw [same, off] at on
          cases on
        · exact counted q later on
    split at passed
    · cases passed
    split at passed
    · cases passed
    next alone =>
    split at passed
    · cases passed
    have here : ∀ p ∈ before, settings.enabled p →
        settings.filename o ≠ settings.filename p := by
      intro p earlier on same
      refine alone (List.any_eq_true.mpr ⟨p, earlier, ?_⟩)
      rw [on, same, decide_eq_true rfl, Bool.true_and]
    obtain ⟨more, passed, kept, found⟩ : ∃ more,
        checkOutputs settings localSave disk (o :: before) rest = .ok more ∧
        (∀ path ∈ more, path ∈ existing) ∧
        (localSave = false → (disk (settings.path o)).isSome → settings.path o ∈ existing) := by
      split at passed
      · next onClient =>
        exact ⟨existing, passed, fun _ member => member, fun off => by
          rw [off] at onClient
          cases onClient⟩
      split at passed
      · cases passed
      · cases result : checkOutputs settings localSave disk (o :: before) rest with
        | error _ =>
          rw [result] at passed
          cases passed
        | ok more =>
          rw [result] at passed
          cases passed
          exact ⟨more, rfl, fun _ member => List.mem_cons_of_mem _ member,
            fun _ _ => List.mem_cons_self⟩
      · next absent =>
        refine ⟨existing, passed, fun _ member => member, fun _ there => ?_⟩
        rw [absent] at there
        cases there
    obtain ⟨apart, distinct, counted⟩ := ih passed
    refine ⟨?_, ?_, ?_⟩
    · intro q member on p earlier
      rcases List.mem_cons.mp member with same | later
      · rw [same]
        exact here p earlier
      · exact apart q later on p (List.mem_cons_of_mem _ earlier)
    · exact .cons (fun q later first on => apart q later on o List.mem_cons_self first) distinct
    · intro q member on server there
      rcases List.mem_cons.mp member with same | later
      · rw [same] at there ⊢
        exact found server there
      · exact kept _ (counted q later on server there)

theorem checkOutputPaths_ok {settings : Settings} {localSave : Bool} {disk : Disk}
    {existing : List Text} (passed : checkOutputPaths settings localSave disk = .ok existing) :
    Distinct settings outputs ∧
    ∀ o ∈ outputs, settings.enabled o → localSave = false → (disk (settings.path o)).isSome →
      settings.path o ∈ existing := by
  rw [checkOutputPaths] at passed
  split at passed
  · cases passed
  · exact (checkOutputs_ok passed).2

/-- The file of an output may be written: it does not exist, or there is consent. -/
def Allowed (s : State) (o : Output) : Prop :=
  s.settings.enabled o → s.localSave = false → (s.disk (s.settings.path o)).isSome →
    s.consent.overwrite ∨ s.settings.path o ∈ s.consent.confirmed

def Sound (s : State) : Prop :=
  ∀ opening ∈ s.opened, opening.existed →
    opening.consent.overwrite ∨ opening.path ∈ opening.consent.confirmed

structure Same (s next : State) : Prop where
  settings : next.settings = s.settings
  localSave : next.localSave = s.localSave
  consent : next.consent = s.consent
  phase : next.phase = s.phase
  finalizing : next.finalizing = s.finalizing
  overwritePending : next.overwritePending = s.overwritePending
  popup : next.popup = s.popup
  agreed : next.agreed = s.agreed
  audio : next.audio = s.audio

theorem Same.refl (s : State) : Same s s := ⟨rfl, rfl, rfl, rfl, rfl, rfl, rfl, rfl, rfl⟩

theorem Same.trans {middle : State} (first : Same s middle) (second : Same middle next) :
    Same s next where
  settings := second.settings.trans first.settings
  localSave := second.localSave.trans first.localSave
  consent := second.consent.trans first.consent
  phase := second.phase.trans first.phase
  finalizing := second.finalizing.trans first.finalizing
  overwritePending := second.overwritePending.trans first.overwritePending
  popup := second.popup.trans first.popup
  agreed := second.agreed.trans first.agreed
  audio := second.audio.trans first.audio

theorem path_inj {settings : Settings} (same : settings.path o = settings.path p) :
    settings.filename o = settings.filename p := by
  rw [Settings.path, Settings.path, List.append_cancel_left_eq, List.cons.injEq] at same
  exact same.2

theorem Allowed.opened (allowed : Allowed s p) {path : Text} {entry : Option Entry}
    (disk : next.disk = Function.update s.disk path entry) (same : Same s next)
    (apart : s.settings.enabled p → s.settings.path p ≠ path) : Allowed next p := by
  rw [Allowed, same.settings, same.localSave, same.consent, disk]
  intro on server there
  rw [Function.update_of_ne (apart on)] at there
  exact allowed on server there

theorem openEnabled_sound (sound : Sound s) (allowed : Allowed s o) (opens : Text → Bool) :
    Sound (openEnabled s opens o).1 ∧ Same s (openEnabled s opens o).1 ∧
      ∀ p, Allowed s p → (s.settings.enabled o → s.settings.enabled p →
        s.settings.filename p ≠ s.settings.filename o) → Allowed (openEnabled s opens o).1 p := by
  rw [openEnabled]
  split
  · next on =>
    rw [openFile]
    split
    · exact ⟨sound, .refl s, fun _ before _ => before⟩
    · next server =>
      rw [Bool.not_eq_true] at server
      split
      · have same : Same s { s with
            disk := Function.update s.disk (s.settings.path o) (some (.file 0))
            opened := s.opened ++
              [⟨s.settings.path o, (s.disk (s.settings.path o)).isSome, s.consent⟩] } :=
          ⟨rfl, rfl, rfl, rfl, rfl, rfl, rfl, rfl, rfl⟩
        refine ⟨?_, same, ?_⟩
        · intro opening member existed
          rcases List.mem_append.mp member with earlier | new
          · exact sound opening earlier existed
          · cases List.mem_singleton.mp new
            exact allowed on server existed
        · intro p before apart
          exact before.opened rfl same fun also clash => apart on also (path_inj clash)
      · exact ⟨sound, .refl s, fun _ before _ => before⟩
  · exact ⟨sound, .refl s, fun _ before _ => before⟩

theorem openAudio_sound {list : List Output} (sound : Sound s)
    (distinct : Distinct s.settings list) (allowed : ∀ o ∈ list, Allowed s o)
    (opens : Text → Bool) :
    Sound (openAudio opens list s).1 ∧ Same s (openAudio opens list s).1 := by
  induction list generalizing s with
  | nil => exact ⟨sound, .refl s⟩
  | cons o rest ih =>
    obtain ⟨first, later⟩ := List.pairwise_cons.mp distinct
    obtain ⟨opened, same, others⟩ :=
      openEnabled_sound sound (allowed o List.mem_cons_self) opens
    rw [openAudio]
    split
    · have remaining : ∀ p ∈ rest, Allowed (openEnabled s opens o).1 p := fun p member =>
        others p (allowed p (List.mem_cons_of_mem _ member)) (first p member)
      rw [← same.settings] at later
      obtain ⟨all, kept⟩ := ih opened later remaining
      exact ⟨all, same.trans kept⟩
    · exact ⟨opened, same⟩

/-- What a prompt does not ask about is not overwritten after it; no other popup replaces it; a
start does not fail while the audio thread opens its files; and nothing else is written under
their names. -/
def allowed (s : State) : Action → Bool
  | .inform => !s.overwritePending
  | .checkPopup _ => !s.overwritePending || s.popup.result ≠ .yes || outputs.all fun o =>
      !s.settings.enabled o || (s.disk (s.settings.path o)).isNone ||
        s.prompted.contains (s.settings.path o)
  | .started writers _ => writers || s.audio.opening.isEmpty
  | .otherFile path => s.phase = .idle || audioOutputs.all fun o =>
      !s.settings.enabled o || s.settings.path o ≠ path
  | _ => true

def due (s : State) : List Output :=
  if s.audio.wasRecording then s.audio.opening
  else if s.phase = .starting ∨ s.phase = .recording ∧ s.audio.running then audioOutputs
  else []

structure Inv (s : State) : Prop where
  sound : Sound s
  audio : ∀ o ∈ due s, o ∈ audioOutputs
  distinct : Distinct s.settings (due s)
  allowed : ∀ o ∈ due s, Allowed s o
  idle : s.phase = .idle → s.audio.opening = []
  opening : s.audio.wasRecording = false → s.audio.opening = []
  running : s.audio.running = false → s.audio.wasRecording = false
  finalizing : s.finalizing → s.phase = .idle
  pending : s.overwritePending → s.phase = .idle ∧ s.finalizing = false ∧
    s.popup.prompt ∧ (s.popup.result = .yes → s.agreed)

theorem due_idle (phase : s.phase = .idle) (opening : s.audio.opening = []) : due s = [] := by
  rw [due, opening, phase]
  split
  · rfl
  · exact if_neg (by simp)

theorem Inv.of_idle (sound : Sound s) (phase : s.phase = .idle) (opening : s.audio.opening = [])
    (running : s.audio.running = false → s.audio.wasRecording = false)
    (pending : s.overwritePending → s.finalizing = false ∧ s.popup.prompt ∧
      (s.popup.result = .yes → s.agreed)) : Inv s := by
  have none := due_idle phase opening
  exact {
    sound
    audio := by rw [none]; nofun
    distinct := by rw [none]; exact .nil
    allowed := by rw [none]; nofun
    idle := fun _ => opening
    opening := fun _ => opening
    running
    finalizing := fun _ => phase
    pending := fun waiting => ⟨phase, pending waiting⟩ }

theorem Inv.busy (inv : Inv s) (phase : s.phase ≠ .idle) :
    s.finalizing = false ∧ s.overwritePending = false := by
  constructor <;> by_contra on
  · exact phase (inv.finalizing (Bool.eq_true_of_not_eq_false on))
  · exact phase (inv.pending (Bool.eq_true_of_not_eq_false on)).1

theorem initial_inv (settings : Settings) (disk : Disk) : Inv (initial settings disk) :=
  .of_idle nofun rfl rfl (fun _ => rfl) nofun

/-- When `is_recording` is set, nothing is due, or all of the audio. -/
theorem due_starting (phase : s.phase = .starting) (opening : s.audio.opening = []) :
    due s = [] ∨ due s = audioOutputs := by
  rw [due, opening, if_pos (.inl phase : s.phase = .starting ∨ _)]
  split
  · exact .inl rfl
  · exact .inr rfl

theorem starting_inv {middle : State} (inv : Inv s) (phase : s.phase = .idle)
    (settled : s.finalizing = false) (answered : s.overwritePending = false)
    (sound : Sound middle) (same : Same s middle) (distinct : Distinct s.settings audioOutputs)
    (may : ∀ o ∈ audioOutputs, Allowed middle o) : Inv { middle with phase := .starting } := by
  have opening : middle.audio.opening = [] := same.audio ▸ inv.idle phase
  have all : due { middle with phase := .starting } = [] ∨
      due { middle with phase := .starting } = audioOutputs := due_starting rfl opening
  have within : ∀ o ∈ due { middle with phase := .starting }, o ∈ audioOutputs := by
    intro o member
    rcases all with none | some
    · rw [none] at member
      cases member
    · rwa [some] at member
  exact {
    sound
    audio := within
    distinct := by
      rcases all with none | some
      · rw [none]
        exact .nil
      · rw [some, same.settings]
        exact distinct
    allowed := fun o member => may o (within o member)
    idle := by simp
    opening := fun _ => opening
    running := same.audio ▸ inv.running
    finalizing := by
      rw [same.finalizing, settled]
      simp
    pending := by
      rw [same.overwritePending, answered]
      simp }

theorem startConfirmed_inv (inv : Inv s) (phase : s.phase = .idle) (settled : s.finalizing = false)
    (answered : s.overwritePending = false) (start : Start)
    (ready : ∀ existing, checkOutputPaths s.settings s.localSave s.disk = .ok existing →
      ∀ o ∈ outputs, Allowed s o) : Inv (startConfirmed s start) := by
  have failed {middle : State} (sound : Sound middle) (same : Same s middle) :
      Inv (fail middle) := by
    refine .of_idle sound (same.phase.trans phase) (same.audio ▸ inv.idle phase) ?_ ?_
    · rw [fail, same.audio]
      exact inv.running
    · rw [fail, same.overwritePending, answered]
      simp
  rw [startConfirmed]
  split
  · exact failed inv.sound (.refl s)
  next existing passed =>
  obtain ⟨distinct, -⟩ := checkOutputPaths_ok passed
  have may := ready existing passed
  split
  · obtain ⟨apartA, later⟩ := List.pairwise_cons.mp distinct
    obtain ⟨apartB, audio⟩ := List.pairwise_cons.mp later
    obtain ⟨soundA, sameA, othersA⟩ :=
      openEnabled_sound inv.sound (may (.rf 0) (by decide)) start.opens
    have mayB := othersA (.rf 1) (may _ (by decide)) (apartA _ List.mem_cons_self)
    obtain ⟨soundB, sameB, othersB⟩ := openEnabled_sound soundA mayB start.opens
    have same := sameA.trans sameB
    dsimp only
    split
    · refine starting_inv inv phase settled answered soundB same audio fun o member => ?_
      refine othersB o (othersA o (may o (.tail _ (.tail _ member))) (apartA o (.tail _ member))) ?_
      rw [sameA.settings]
      exact apartB o member
    · exact failed soundB same
  · exact failed inv.sound (.refl s)

theorem request_inv (inv : Inv s) (free : s.free) (r : Request) : Inv (request s r) := by
  rw [request]
  split
  · exact inv
  next off =>
  simp only [Bool.or_eq_true, not_or, Bool.not_eq_true] at off
  obtain ⟨⟨⟨settled, -⟩, stopped⟩, answered⟩ := off
  have phase : s.phase = .idle := by
    rw [State.isRecording, Bool.or_eq_false_iff] at stopped
    rw [State.free, stopped.2, Bool.or_false, decide_eq_true_eq] at free
    exact free
  have outside {settings : OutputFiles.Settings} {localSave : Bool} {consent : Consent} :
      Inv { s with settings, localSave, consent } :=
    .of_idle inv.sound phase (inv.idle phase) inv.running fun waiting => by
      rw [show s.overwritePending = false from answered] at waiting
      cases waiting
  split
  · exact outside
  next settings named =>
  dsimp only
  split
  · exact outside
  next existing passed =>
  split
  · split
    · exact outside
    · exact .of_idle inv.sound phase (inv.idle phase) inv.running
        fun _ => ⟨settled, rfl, nofun⟩
  next direct =>
  have base : Inv { s with
      settings, localSave := r.localSave, consent := ⟨settings.overwriteFiles, []⟩ } := outside
  refine startConfirmed_inv base phase settled answered _ ?_
  intro _ _ o member on server there
  cases overwrite : settings.overwriteFiles with
  | true => exact .inl rfl
  | false =>
    have none : existing = [] := by
      by_contra some
      exact direct ⟨some, by rw [overwrite]; rfl⟩
    have counted := (checkOutputPaths_ok passed).2 o member on server there
    rw [none] at counted
    cases counted

theorem checkPopup_inv (inv : Inv s) {start : Start} (safe : allowed s (.checkPopup start)) :
    Inv (checkPopup s start) := by
  rw [checkPopup]
  split
  · exact inv
  next answered =>
  rw [Bool.or_eq_true, not_or, Bool.not_eq_true', Bool.not_eq_false] at answered
  obtain ⟨phase, settled, -, agreed⟩ := inv.pending answered.1
  have outside {consent : Consent} : Inv { s with overwritePending := false, consent } :=
    .of_idle inv.sound phase (inv.idle phase) inv.running nofun
  split
  · next yes =>
    have base : Inv { s with
        overwritePending := false
        consent := ⟨false, if s.agreed then s.prompted else []⟩ } := outside
    refine startConfirmed_inv base phase settled rfl start ?_
    intro _ _ o member on _ there
    rw [allowed, answered.1, yes] at safe
    have listed := List.all_eq_true.mp safe o member
    right
    dsimp only at on there ⊢
    rw [agreed yes, if_pos rfl]
    rw [on, Option.isNone_eq_false_iff.mpr there] at listed
    exact List.contains_iff_mem.mp listed
  · exact outside

theorem audioStart_inv (inv : Inv s) (phase : s.phase = .starting) (opens : Text → Bool) :
    Inv (audioStart { s with phase := .recording } opens) := by
  obtain ⟨settled, answered⟩ := inv.busy (by rw [phase]; simp)
  rw [audioStart]
  split
  · next running =>
    have same : due { s with phase := .recording } = due s := by
      rw [due, due, phase]
      dsimp only at running ⊢
      rw [running]
      simp
    exact { inv with
      audio := same ▸ inv.audio
      distinct := same ▸ inv.distinct
      allowed := fun o member => inv.allowed o (same ▸ member)
      idle := by simp
      finalizing := by
        rw [settled]
        simp
      pending := by
        rw [answered]
        simp }
  · next stopped =>
    rw [Bool.not_eq_true] at stopped
    dsimp only at stopped
    have was := inv.running stopped
    have all : due s = audioOutputs := by
      rw [due, was, phase]
      rfl
    have before : Sound { s with phase := .recording } := inv.sound
    obtain ⟨sound, same⟩ := openAudio_sound before (all ▸ inv.distinct)
      (fun o member => inv.allowed o (all ▸ member)) opens
    generalize openAudio opens audioOutputs { s with phase := .recording } = opened at sound same
    have recording : opened.1.phase = .recording := same.phase
    have finalized : opened.1.finalizing = false := same.finalizing.trans settled
    have waits : opened.1.overwritePending = false := same.overwritePending.trans answered
    dsimp only
    split
    · -- with files open nothing is due; without, no output is recorded
      have none : ∀ o ∈ due { opened.1 with
          audio := ⟨true, audioOutputs.any s.settings.enabled, []⟩ },
          o ∈ audioOutputs ∧ s.settings.enabled o = false := by
        intro o member
        rw [due] at member
        dsimp only at member
        cases any : audioOutputs.any s.settings.enabled with
        | true =>
          rw [any, if_pos rfl] at member
          cases member
        | false =>
          rw [any, if_neg Bool.false_ne_true, if_pos (.inr ⟨recording, rfl⟩)] at member
          refine ⟨member, ?_⟩
          rw [List.any_eq_false] at any
          exact Bool.eq_false_of_not_eq_true (any o member)
      have settings : opened.1.settings = s.settings := same.settings
      exact {
        sound
        audio := fun o member => (none o member).1
        distinct := by
          refine List.pairwise_of_forall_mem_list fun p first o _ on _ => ?_
          dsimp only at on
          rw [settings, (none p first).2] at on
          cases on
        allowed := by
          intro o member on
          dsimp only at on
          rw [settings, (none o member).2] at on
          cases on
        idle := by
          dsimp only
          rw [recording]
          simp
        opening := fun _ => rfl
        running := by simp
        finalizing := by
          dsimp only
          rw [finalized]
          simp
        pending := by
          dsimp only
          rw [waits]
          simp }
    · have closed : opened.1.audio.wasRecording = false ∧ opened.1.audio.running = false ∧
          opened.1.audio.opening = [] := by
        rw [same.audio]
        exact ⟨was, stopped, inv.opening was⟩
      have none : due opened.1 = [] := by
        rw [due, closed.1, closed.2.1, recording]
        rfl
      exact {
        sound
        audio := by rw [none]; simp
        distinct := by rw [none]; exact .nil
        allowed := by rw [none]; simp
        idle := fun _ => closed.2.2
        opening := fun _ => closed.2.2
        running := fun _ => closed.1
        finalizing := by
          rw [finalized]
          simp
        pending := by
          rw [waits]
          simp }

theorem audioBlock_inv (inv : Inv s) (ran : s.audio.running) (opening : s.audio.opening = []) :
    Inv (audioBlock s) := by
  rw [audioBlock]
  split
  · next seen =>
    rw [Bool.and_eq_true, Bool.not_eq_true'] at seen
    obtain ⟨was, recording⟩ := seen
    rw [State.isRecording, Bool.or_eq_true, decide_eq_true_eq, decide_eq_true_eq] at recording
    have all : due s = audioOutputs := by
      rw [due, was, if_neg Bool.false_ne_true]
      exact if_pos (recording.imp_right fun phase => ⟨phase, ran⟩)
    exact { inv with
      audio := all ▸ inv.audio
      distinct := all ▸ inv.distinct
      allowed := fun o member => inv.allowed o (all ▸ member)
      idle := by
        intro phase
        dsimp only at phase
        rw [phase] at recording
        rcases recording with other | other <;> cases other
      opening := nofun
      running := fun stopped => by
        dsimp only at stopped
        rw [ran] at stopped
        cases stopped }
  · have none : due { s with audio := { s.audio with wasRecording := s.isRecording } } = [] := by
      rw [due]
      dsimp only
      rw [opening]
      cases recording : s.isRecording with
      | true => rfl
      | false =>
        rw [State.isRecording, Bool.or_eq_false_iff, decide_eq_false_iff_not,
          decide_eq_false_iff_not] at recording
        rw [if_neg Bool.false_ne_true]
        exact if_neg fun phase => phase.elim recording.1 fun both => recording.2 both.1
    exact { inv with
      audio := by rw [none]; nofun
      distinct := by rw [none]; exact .nil
      allowed := by rw [none]; nofun
      idle := fun _ => opening
      opening := fun _ => opening
      running := fun stopped => by
        dsimp only at stopped
        rw [ran] at stopped
        cases stopped }

theorem audioOpen_inv (inv : Inv s) {opens : Text → Bool} (taken : audioOpen s opens = some next) :
    Inv next := by
  rw [audioOpen] at taken
  split at taken
  · cases taken
  next o rest opening =>
  have was : s.audio.wasRecording = true := by
    by_contra off
    have := inv.opening (Bool.eq_false_of_not_eq_true off)
    rw [opening] at this
    cases this
  have all : due s = o :: rest := by
    rw [due, was, if_pos rfl, opening]
  have rest_due : due { (openEnabled s opens o).1 with audio := { s.audio with opening := rest } } =
      rest := by
    rw [due]
    exact if_pos was
  obtain ⟨first, later⟩ := List.pairwise_cons.mp (all ▸ inv.distinct)
  obtain ⟨sound, same, others⟩ :=
    openEnabled_sound inv.sound (inv.allowed o (all ▸ List.mem_cons_self)) opens
  rw [Option.some_inj] at taken
  rw [← taken]
  exact {
    sound
    audio := by
      rw [rest_due]
      exact fun p member => inv.audio p (all ▸ List.mem_cons_of_mem _ member)
    distinct := by
      rw [rest_due]
      dsimp only
      rw [same.settings]
      exact later
    allowed := by
      rw [rest_due]
      exact fun p member =>
        others p (inv.allowed p (all ▸ List.mem_cons_of_mem _ member)) (first p member)
    idle := by
      intro phase
      dsimp only at phase
      rw [same.phase] at phase
      have := inv.idle phase
      rw [opening] at this
      cases this
    opening := fun off => by
      dsimp only at off
      rw [was] at off
      cases off
    running := inv.running
    finalizing := by
      dsimp only
      rw [same.finalizing, same.phase]
      exact inv.finalizing
    pending := by
      dsimp only
      rw [same.overwritePending, same.finalizing, same.phase, same.popup, same.agreed]
      exact inv.pending }

theorem otherFile_inv (inv : Inv s) {path : Text} (safe : allowed s (.otherFile path)) :
    Inv { s with disk := Function.update s.disk path (some (.file 0)) } where
  __ := inv
  allowed := by
    intro o member
    refine (inv.allowed o member).opened rfl ⟨rfl, rfl, rfl, rfl, rfl, rfl, rfl, rfl, rfl⟩ ?_
    intro on same
    rw [allowed, Bool.or_eq_true, decide_eq_true_eq] at safe
    rcases safe with phase | apart
    · have here : o ∈ due s := member
      rw [due_idle phase (inv.idle phase)] at here
      cases here
    · have other := List.all_eq_true.mp apart o (inv.audio o member)
      rw [on, same] at other
      simp at other

theorem step_inv {action : Action} (inv : Inv s) (safe : allowed s action)
    (taken : step s action = some next) : Inv next := by
  cases action with
  | edit settings =>
    rw [step] at taken
    split at taken
    · next phase =>
      cases taken
      exact .of_idle inv.sound phase (inv.idle phase) inv.running
        fun waiting => (inv.pending waiting).2
    · cases taken
  | request r =>
    rw [step] at taken
    split at taken
    · next free =>
      cases taken
      exact request_inv inv free r
    · cases taken
  | answer result =>
    rw [step] at taken
    split at taken
    · cases taken
      exact { inv with
        pending := by
          intro waiting
          obtain ⟨phase, settled, prompt, -⟩ := inv.pending waiting
          refine ⟨phase, settled, prompt, fun yes => ?_⟩
          dsimp only at yes ⊢
          rw [prompt, if_pos rfl]
          exact decide_eq_true yes }
    · cases taken
  | inform =>
    rw [step] at taken
    split at taken
    · cases taken
      rw [allowed, Bool.not_eq_true'] at safe
      exact { inv with
        pending := by
          rw [safe]
          simp }
    · cases taken
  | checkPopup start =>
    rw [step] at taken
    split at taken
    · cases taken
      exact checkPopup_inv inv safe
    · cases taken
  | started writers opens =>
    rw [step] at taken
    split at taken
    · next phase =>
      obtain ⟨-, answered⟩ := inv.busy (by rw [phase]; simp)
      cases writers with
      | true =>
        rw [if_pos rfl, Option.some_inj] at taken
        rw [← taken]
        exact audioStart_inv inv phase opens
      | false =>
        cases taken
        rw [allowed, Bool.false_or, List.isEmpty_iff] at safe
        exact .of_idle inv.sound rfl safe inv.running fun waiting => by
          rw [fail, answered] at waiting
          cases waiting
    · cases taken
  | stop =>
    rw [step] at taken
    split at taken
    · next phase =>
      cases taken
      obtain ⟨settled, answered⟩ := inv.busy (by rw [phase]; simp)
      have fewer : ∀ o ∈ due { s with phase := .stopping }, o ∈ due s := by
        intro o member
        rw [due] at member ⊢
        dsimp only at member
        split at member
        · next was => rwa [if_pos was]
        · rw [if_neg (by simp)] at member
          cases member
      exact { inv with
        audio := fun o member => inv.audio o (fewer o member)
        distinct := by
          rw [due]
          dsimp only
          split
          · next was =>
            have distinct := inv.distinct
            rwa [due, if_pos was] at distinct
          · rw [if_neg (by simp)]
            exact .nil
        allowed := fun o member => inv.allowed o (fewer o member)
        idle := by simp
        finalizing := by
          rw [settled]
          simp
        pending := by
          rw [answered]
          simp }
    · cases taken
  | joined running =>
    rw [step] at taken
    split at taken
    · next ready =>
      cases taken
      obtain ⟨-, answered⟩ := inv.busy (by rw [ready.1]; simp)
      exact .of_idle inv.sound rfl rfl (fun _ => rfl) fun waiting => by
        rw [answered] at waiting
        cases waiting
    · cases taken
  | finalized =>
    rw [step] at taken
    split at taken
    · next finalizing =>
      cases taken
      have phase := inv.finalizing finalizing
      exact .of_idle inv.sound phase (inv.idle phase) inv.running
        fun waiting => ⟨rfl, (inv.pending waiting).2.2⟩
    · cases taken
  | audio running =>
    rw [step] at taken
    split at taken
    · next ready =>
      cases taken
      exact .of_idle inv.sound ready.1 rfl (fun _ => rfl) fun waiting => (inv.pending waiting).2
    · cases taken
  | audioBlock =>
    rw [step] at taken
    split at taken
    · next ready =>
      cases taken
      exact audioBlock_inv inv ready.1 ready.2
    · cases taken
  | audioOpen opens => exact audioOpen_inv inv taken
  | otherFile path =>
    cases taken
    exact otherFile_inv inv safe

/-- No recording overwrites a file without consent, in runs of allowed steps. -/
theorem no_overwrite {settings : OutputFiles.Settings} {disk : Disk} {schedule : List Action}
    {last : State}
    (ran : Machine.run (Machine.guarded allowed step) (initial settings disk) schedule =
      some last) :
    ∀ opening ∈ last.opened, opening.existed →
      opening.consent.overwrite ∨ opening.path ∈ opening.consent.confirmed := by
  have inv : Inv last := by
    refine Machine.run_invariant Inv ?_ (initial_inv settings disk) ran
    intro state action next inv taken
    obtain ⟨safe, taken⟩ := Machine.guarded_eq_some.mp taken
    exact step_inv inv safe taken
  exact inv.sound

def byHand (folder : String) (audio : Bool) : OutputFiles.Settings where
  outputPath := ascii folder
  names := ⟨fun _ => ascii "a.s8", ascii "q.wav", [], [], fun _ => []⟩
  overwriteFiles := false
  autoNamesEnabled := false
  naming :=
    { outputBaseName := []
      appendTimestamp := false
      useFlac := false
      channel := fun i => ⟨i = 0, 8, false, 0, []⟩
      audio4 := ⟨audio, []⟩
      audio12 := ⟨false, []⟩
      audio34 := ⟨false, []⟩
      audio1 := fun _ => ⟨false, []⟩ }

def folders : Disk := fun path =>
  if path = ascii "x" ∨ path = ascii "y" then some .directory
  else if path = ascii "x/a.s8" ∨ path = ascii "y/a.s8" then some (.file 9)
  else none

def plainStart : Start := ⟨true, fun _ => true, true⟩

def plainRequest : Request :=
  ⟨false, true, false, none, fun _ => false, ⟨fun _ => [], [], [], [], fun _ => []⟩, plainStart⟩

/-- A prompt is confirmed; the audio file is new. -/
theorem no_overwrite_confirmed : ∃ last,
    Machine.run (Machine.guarded allowed step) (initial (byHand "x" true) folders)
      [.audio true, .request plainRequest, .answer .yes, .checkPopup plainStart,
        .started true fun _ => true, .audioBlock, .audioOpen fun _ => true] = some last ∧
    last.opened.map (fun o => (o.path, o.existed)) =
      [(ascii "x/a.s8", true), (ascii "x/q.wav", false)] ∧
    ∀ opening ∈ last.opened, opening.existed →
      opening.consent.overwrite ∨ opening.path ∈ opening.consent.confirmed := by
  have ran : (Machine.run (Machine.guarded allowed step) (initial (byHand "x" true) folders)
      [.audio true, .request plainRequest, .answer .yes, .checkPopup plainStart,
        .started true fun _ => true, .audioBlock, .audioOpen fun _ => true]).map
      (fun s => s.opened.map fun o => (o.path, o.existed)) =
        some [(ascii "x/a.s8", true), (ascii "x/q.wav", false)] := by
    decide +kernel
  obtain ⟨last, taken, same⟩ := Option.map_eq_some_iff.mp ran
  have sound := no_overwrite taken
  exact ⟨last, taken, same, sound⟩

/-- The folder changes between the prompt and its answer. -/
theorem other_folder_overwritten : ∃ last opening,
    Machine.run step (initial (byHand "x" false) folders)
      [.request plainRequest, .edit (byHand "y" false), .answer .yes,
        .checkPopup plainStart] = some last ∧
    opening ∈ last.opened ∧ opening.path = ascii "y/a.s8" ∧ opening.existed ∧
      ¬(opening.consent.overwrite ∨ opening.path ∈ opening.consent.confirmed) := by
  have ran : (Machine.run step (initial (byHand "x" false) folders)
      [.request plainRequest, .edit (byHand "y" false), .answer .yes,
        .checkPopup plainStart]).map
      (fun s => s.opened.map fun o => (o.path, o.existed, o.consent.overwrite,
        o.consent.confirmed)) =
        some [(ascii "y/a.s8", true, false, [ascii "x/a.s8"])] := by
    decide +kernel
  obtain ⟨last, taken, same⟩ := Option.map_eq_some_iff.mp ran
  obtain ⟨opening, opened, facts⟩ := List.map_eq_singleton_iff.mp same
  simp only [Prod.mk.injEq] at facts
  obtain ⟨path, existed, overwrite, confirmed⟩ := facts
  refine ⟨last, opening, taken, by rw [opened]; exact List.mem_cons_self, path, existed, ?_⟩
  rw [path, overwrite, confirmed]
  decide

end MisrcGui.Record.OverwriteConsent
