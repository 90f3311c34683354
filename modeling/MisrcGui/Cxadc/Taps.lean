import MisrcGui.Cxadc.Capture

/-! The direct taps of the capture loop of `gui_cxadc.c`, for recordings in which both cards
are recorded directly. The control thread starts and stops them in `gui_record.c`; each load,
store, read and push is a step. What an iteration does behind its taps is left out. -/
namespace MisrcGui.Cxadc.Taps
open Library

/-- Places of the control thread, named by the access that comes next: `gui_record_start`
from `idle` to `recording`, `gui_record_stop` up to `waitB`, and the end of the finalization. -/
inductive Control where
  | idle
  | clearB
  | raiseA
  | raiseB
  | resetA
  | enableA
  | resetB
  | enableB
  | recording
  | disableB
  | waitA
  | waitB
  | lowerA
  | lowerB
  | disarmA
  | disarmB
deriving DecidableEq

inductive Place where
  | top
  | second
  | activeA
  | activeB
  | enterA
  | loadA
  | enterB
  | loadB
  | pushA
  | pushB
  | leaveA
  | leaveB
  | ended
deriving DecidableEq

/-- The locals of an iteration. `pushed` is ghost, and so is `covered`: both taps were enabled
when the iteration began and none has been disabled since. -/
structure Locals where
  data : Card → List UInt8
  tapACh : Bool
  tapBCh : Bool
  aOn : Bool
  bOn : Bool
  pushed : Card → Option (List UInt8)
  covered : Bool

def Locals.fresh : Locals :=
  ⟨fun _ => [], false, false, false, false, fun _ => none, false⟩

structure Entry where
  data : Card → List UInt8
  pushed : Card → Option (List UInt8)
  covered : Bool

structure Chunk where
  bytes : List UInt8
  frameIndex : Nat

/-- `active` is `s_direct_channel_a_active` and its sibling; `log` is ghost. -/
structure State where
  active : Card → Bool
  enabled : Card → Bool
  inflight : Card → Int
  tap : Card → List Chunk
  tapFrameIndex : Nat
  control : Control
  place : Place
  locals : Locals
  log : List Entry

def initial : State :=
  ⟨fun _ => false, fun _ => false, fun _ => 0, fun _ => [], 0, .idle, .top, .fresh, []⟩

inductive Action where
  | control
  | failStart
  | read (result : Read)
  | capture

def State.setActive (state : State) (card : Card) (value : Bool) (control : Control) : State :=
  { state with active := Function.update state.active card value, control }

/-- A store to `tap_enabled`. -/
def State.setEnabled (state : State) (card : Card) (value : Bool) (control : Control) : State :=
  { state with
    enabled := Function.update state.enabled card value
    control
    locals := { state.locals with covered := state.locals.covered && value } }

def State.setInflight (state : State) (card : Card) (value : Int) (control : Control) : State :=
  { state with inflight := Function.update state.inflight card value, control }

def controlStep (state : State) : State :=
  match state.control with
  | .idle => (state.setEnabled .a false .clearB).setInflight .a 0 .clearB
  | .clearB => (state.setEnabled .b false .raiseA).setInflight .b 0 .raiseA
  | .raiseA => state.setActive .a true .raiseB
  | .raiseB => state.setActive .b true .resetA
  | .resetA => state.setInflight .a 0 .enableA
  | .enableA => state.setEnabled .a true .resetB
  | .resetB => state.setInflight .b 0 .enableB
  | .enableB => state.setEnabled .b true .recording
  | .recording => state.setEnabled .a false .disableB
  | .disableB => state.setEnabled .b false .waitA
  | .waitA => if state.inflight .a ≠ 0 then state else { state with control := .waitB }
  | .waitB => if state.inflight .b ≠ 0 then state else { state with control := .lowerA }
  | .lowerA => state.setActive .a false .lowerB
  | .lowerB => state.setActive .b false .disarmA
  | .disarmA => state.setEnabled .a false .disarmB
  | .disarmB => state.setEnabled .b false .idle

/-- The iteration is over, and the thread goes on to the next one or ends. -/
def State.finish (state : State) (place : Place) : State :=
  { state with
    place
    locals := .fresh
    log := state.log ++ [⟨state.locals.data, state.locals.pushed, state.locals.covered⟩] }

def readStep (config : Config) (state : State) (result : Read) : Option State :=
  match state.place, result with
  | .top, .error => some (state.finish .ended)
  | .top, .bytes dataA =>
    let locals := { Locals.fresh with
      data := chunkOf dataA [], covered := state.control == .recording }
    let state := { state with locals }
    if dataA.length / config.inputBytesPerSample .a = 0 then some (state.finish .top)
    else if config.cardCount > 1 then some { state with place := .second }
    else some { state with place := .activeA }
  | .second, .error => some (state.finish .ended)
  | .second, .bytes dataB =>
    if dataB.length = 0 then some (state.finish .top)
    else
      let locals := { state.locals with data := chunkOf (state.locals.data .a) dataB }
      some { state with locals, place := .activeA }
  | _, _ => none

/-- `gui_record_direct_tap_push_latched` where the latched decision is on. -/
def State.push (state : State) (card : Card) (tapCh : Bool) (frameIndex : Nat)
    (place : Place) : State :=
  if tapCh && (state.locals.aOn && state.locals.bOn) then
    { state with
      tap := Function.update state.tap card
        (state.tap card ++ [⟨state.locals.data card, frameIndex⟩])
      locals := { state.locals with
        pushed := Function.update state.locals.pushed card (some (state.locals.data card)) }
      place }
  else { state with place }

def captureStep (config : Config) (state : State) : Option State :=
  let locals := state.locals
  match state.place with
  | .activeA =>
    some { state with locals := { locals with tapACh := state.active .a }, place := .activeB }
  | .activeB =>
    let tapBCh := decide (config.cardCount > 1) && state.active .b
    let state := { state with locals := { locals with tapBCh } }
    if locals.tapACh || tapBCh then some { state with place := .enterA }
    else some (state.finish .top)
  | .enterA =>
    if locals.tapACh then some { state.setInflight .a (state.inflight .a + 1) state.control with
      place := .loadA }
    else some { state with locals := { locals with aOn := true }, place := .enterB }
  | .loadA => some { state with locals := { locals with aOn := state.enabled .a }, place := .enterB }
  | .enterB =>
    if locals.tapBCh then some { state.setInflight .b (state.inflight .b + 1) state.control with
      place := .loadB }
    else some { state with locals := { locals with bOn := true }, place := .pushA }
  | .loadB => some { state with locals := { locals with bOn := state.enabled .b }, place := .pushA }
  | .pushA => some (state.push .a locals.tapACh state.tapFrameIndex .pushB)
  | .pushB => some (state.push .b locals.tapBCh (state.tapFrameIndex + 1) .leaveA)
  | .leaveA =>
    if locals.tapACh then some { state.setInflight .a (state.inflight .a - 1) state.control with
      place := .leaveB }
    else some { state with place := .leaveB }
  | .leaveB =>
    let state := if locals.tapBCh then state.setInflight .b (state.inflight .b - 1) state.control
      else state
    some ({ state with tapFrameIndex := state.tapFrameIndex + 2 }.finish .top)
  | .top | .second | .ended => none

def step (config : Config) (state : State) : Action → Option State
  | .control => some (controlStep state)
  | .failStart => if state.control = .resetA then some { state with control := .idle } else none
  | .read result => readStep config state result
  | .capture => captureStep config state

/-- Both taps receive a chunk from the iteration or none does, and in one between enabling and
disabling each receives what was read. -/
structure Entry.Complete (entry : Entry) : Prop where
  lockstep : (entry.pushed .a).isSome = (entry.pushed .b).isSome
  whole : entry.covered = true → ∀ card, (entry.pushed card).getD [] = entry.data card

def TapsComplete (state : State) : Prop := ∀ entry ∈ state.log, entry.Complete

/-- The iteration has seen an active flag down and is still before its pushes. -/
def stale (place : Place) (locals : Locals) : Bool :=
  match place with
  | .activeB => !locals.tapACh
  | .enterA | .loadA | .enterB | .loadB => !(locals.tapACh && locals.tapBCh)
  | _ => false

/-- While both taps are enabled card A delivers whole samples or nothing, and then card B
delivers some bytes; no tap is enabled while the iteration has seen an active flag down. -/
def steady (config : Config) (state : State) : Action → Bool
  | .control =>
    match state.control with
    | .enableA | .enableB => !stale state.place state.locals
    | _ => true
  | .failStart => true
  | .read result =>
    match state.place, result with
    | .top, .bytes dataA => state.control != .recording || dataA.isEmpty ||
        dataA.length / config.inputBytesPerSample .a != 0
    | .second, .bytes dataB => !state.locals.covered || !dataB.isEmpty
    | .second, .error => !state.locals.covered
    | _, _ => true
  | .capture => true

def armed : Control → Card → Bool
  | .resetB, .a | .enableB, .a | .recording, _ | .disableB, .b => true
  | _, _ => false

def raised : Control → Card → Bool
  | .raiseB, .a => true
  | .resetA, _ | .enableA, _ | .resetB, _ | .enableB, _ | .recording, _ => true
  | .disableB, _ | .waitA, _ | .waitB, _ | .lowerA, _ => true
  | _, _ => false

/-- What the locals of an iteration hold before its decision: it saw a flag up, and both of
them if it is covered. -/
structure Entered (locals : Locals) : Prop where
  pushed : ∀ card, locals.pushed card = none
  some : locals.tapACh = true ∨ locals.tapBCh = true
  both : locals.covered = true → locals.tapACh = true ∧ locals.tapBCh = true

/-- The decision: on only where both flags were seen up, and on where the iteration is
covered. -/
structure Decided (locals : Locals) : Prop where
  both : locals.aOn = true → locals.bOn = true → locals.tapACh = true ∧ locals.tapBCh = true
  on : locals.covered = true → locals.aOn = true ∧ locals.bOn = true

def Held (locals : Locals) : Place → Prop
  | .top | .ended => locals = .fresh
  | .second | .activeA => ∀ card, locals.pushed card = none
  | .activeB => (∀ card, locals.pushed card = none) ∧
      (locals.covered = true → locals.tapACh = true)
  | .enterA => Entered locals
  | .loadA => Entered locals ∧ locals.tapACh = true
  | .enterB => Entered locals ∧ (locals.covered = true → locals.aOn = true) ∧
      (locals.tapBCh = false → locals.aOn = false)
  | .loadB => Entered locals ∧ (locals.covered = true → locals.aOn = true) ∧
      locals.tapBCh = true
  | .pushA => Decided locals ∧ ∀ card, locals.pushed card = none
  | .pushB => Decided locals ∧ locals.pushed .b = none ∧
      locals.pushed .a = if locals.aOn && locals.bOn then some (locals.data .a) else none
  | .leaveA | .leaveB => (locals.pushed .a).isSome = (locals.pushed .b).isSome ∧
      (locals.covered = true → ∀ card, locals.pushed card = some (locals.data card))

structure Inv (state : State) : Prop where
  enabled : ∀ card, state.enabled card = armed state.control card
  active : ∀ card, raised state.control card = true → state.active card = true
  covered : state.locals.covered = true → state.control = .recording
  quiet : stale state.place state.locals = true → ∀ card, state.enabled card = false
  held : Held state.locals state.place
  log : TapsComplete state

variable {config : Config} {state next : State}

theorem initial_inv : Inv initial where
  enabled := fun _ => rfl
  active := nofun
  covered := nofun
  quiet := fun _ _ => rfl
  held := rfl
  log := nofun

theorem Held.uncover {locals : Locals} {place : Place} (held : Held locals place) (keep : Bool) :
    Held { locals with covered := locals.covered && keep } place := by
  cases keep with
  | true =>
    rw [Bool.and_true]
    exact held
  | false =>
    rw [Bool.and_false]
    cases place with
    | top | ended =>
      rw [held]
      rfl
    | second | activeA => exact held
    | activeB => exact ⟨held.1, nofun⟩
    | enterA => exact { held with both := nofun }
    | loadA => exact ⟨{ held.1 with both := nofun }, held.2⟩
    | enterB | loadB => exact ⟨{ held.1 with both := nofun }, nofun, held.2.2⟩
    | pushA | pushB => exact ⟨{ held.1 with on := nofun }, held.2⟩
    | leaveA | leaveB => exact ⟨held.1, nofun⟩

theorem stale_uncover {locals : Locals} {place : Place} {covered : Bool} :
    stale place { locals with covered := covered } = stale place locals := by
  cases place <;> rfl

theorem Inv.setEnabled (inv : Inv state) (card : Card) (value : Bool) (control : Control)
    (stored : ∀ other, Function.update state.enabled card value other = armed control other)
    (active : ∀ other, raised control other = true → raised state.control other = true)
    (covered : value = true → state.control ≠ .recording)
    (quiet : value = true → stale state.place state.locals = false) :
    Inv (state.setEnabled card value control) where
  enabled := stored
  active := fun other up => inv.active other (active other up)
  covered := by
    intro still
    obtain ⟨old, kept⟩ := Bool.and_eq_true_iff.mp still
    exact absurd (inv.covered old) (covered kept)
  quiet := by
    intro down other
    have before : stale state.place state.locals = true := by
      rw [← stale_uncover]
      exact down
    cases value with
    | true => rw [quiet rfl] at before; cases before
    | false =>
      by_cases own : other = card
      · subst own
        exact Function.update_self ..
      · exact (Function.update_of_ne own ..).trans (inv.quiet before other)
  held := inv.held.uncover value
  log := inv.log

theorem Inv.move (inv : Inv state) (inflight : Card → Int) (control : Control)
    (stored : ∀ card, armed state.control card = armed control card)
    (active : ∀ other, raised control other = true → raised state.control other = true)
    (covered : state.control ≠ .recording) :
    Inv { state with inflight := inflight, control := control } where
  enabled := fun card => (inv.enabled card).trans (stored card)
  active := fun other up => inv.active other (active other up)
  covered := fun still => absurd (inv.covered still) covered
  __ := inv

theorem Inv.setActive (inv : Inv state) (card : Card) (value : Bool) (control : Control)
    (stored : ∀ card, armed state.control card = armed control card)
    (up : ∀ other, raised control other = true →
      if other = card then value = true else raised state.control other = true)
    (covered : state.control ≠ .recording) :
    Inv (state.setActive card value control) where
  enabled := fun card => (inv.enabled card).trans (stored card)
  active := by
    intro other high
    have before := up other high
    split at before
    · rename_i own
      rw [own, before]
      exact Function.update_self ..
    · rename_i apart
      exact (Function.update_of_ne apart ..).trans (inv.active other before)
  covered := fun still => absurd (inv.covered still) covered
  __ := inv

theorem stored_armed {enabled : Card → Bool} {before after : Control} {card : Card} {value : Bool}
    (old : ∀ other, enabled other = armed before other)
    (new : ∀ other, Function.update (armed before) card value other = armed after other)
    (other : Card) : Function.update enabled card value other = armed after other := by
  rw [← new other, funext old]

theorem Inv.control (inv : Inv state) (calm : steady config state .control = true) :
    Inv (controlStep state) := by
  have enabled := inv.enabled
  have move := inv.move
  have setEnabled := inv.setEnabled
  have setActive := inv.setActive
  unfold steady at calm
  unfold controlStep
  cases place : state.control with
  | idle =>
    rw [place] at enabled setEnabled
    have cleared := setEnabled .a false .clearB
      (stored_armed enabled (by decide)) (by decide) (by decide) nofun
    exact cleared.move _ .clearB (fun _ => rfl) (fun _ => id) nofun
  | clearB =>
    rw [place] at enabled setEnabled
    have cleared := setEnabled .b false .raiseA
      (stored_armed enabled (by decide)) (by decide) (by decide) nofun
    exact cleared.move _ .raiseA (fun _ => rfl) (fun _ => id) nofun
  | raiseA =>
    rw [place] at setActive
    exact setActive .a true .raiseB (by decide) (by decide) nofun
  | raiseB =>
    rw [place] at setActive
    exact setActive .b true .resetA (by decide) (by decide) nofun
  | resetA =>
    rw [place] at move
    exact move _ .enableA (by decide) (by decide) nofun
  | enableA =>
    rw [place] at enabled setEnabled calm
    exact setEnabled .a true .resetB (stored_armed enabled (by decide)) (by decide) nofun
      fun _ => Bool.not_eq_true' _ ▸ calm
  | resetB =>
    rw [place] at move
    exact move _ .enableB (by decide) (by decide) nofun
  | enableB =>
    rw [place] at enabled setEnabled calm
    exact setEnabled .b true .recording (stored_armed enabled (by decide)) (by decide) nofun
      fun _ => Bool.not_eq_true' _ ▸ calm
  | recording =>
    rw [place] at enabled setEnabled
    exact setEnabled .a false .disableB (stored_armed enabled (by decide)) (by decide) nofun
      nofun
  | disableB =>
    rw [place] at enabled setEnabled
    exact setEnabled .b false .waitA (stored_armed enabled (by decide)) (by decide) nofun nofun
  | waitA =>
    rw [place] at move
    dsimp only
    split
    · exact inv
    · exact move state.inflight .waitB (by decide) (by decide) nofun
  | waitB =>
    rw [place] at move
    dsimp only
    split
    · exact inv
    · exact move state.inflight .lowerA (by decide) (by decide) nofun
  | lowerA =>
    rw [place] at setActive
    exact setActive .a false .lowerB (by decide) (by decide) nofun
  | lowerB =>
    rw [place] at setActive
    exact setActive .b false .disarmA (by decide) (by decide) nofun
  | disarmA =>
    rw [place] at enabled setEnabled
    exact setEnabled .a false .disarmB (stored_armed enabled (by decide)) (by decide) (by decide) nofun
  | disarmB =>
    rw [place] at enabled setEnabled
    exact setEnabled .b false .idle (stored_armed enabled (by decide)) (by decide) (by decide) nofun

theorem raised_of_armed {control : Control} {card other : Card}
    (on : armed control other = true) : raised control card = true := by
  revert on
  cases control <;> cases card <;> cases other <;> decide

theorem Inv.disabled (inv : Inv state) {card : Card} (down : state.active card = false)
    (other : Card) : state.enabled other = false := by
  rw [inv.enabled other]
  apply Bool.eq_false_iff.mpr
  intro on
  rw [inv.active card (raised_of_armed on)] at down
  cases down

theorem Inv.recording_enabled (inv : Inv state) (covered : state.locals.covered = true)
    (card : Card) : state.enabled card = true ∧ state.active card = true := by
  have recording := inv.covered covered
  refine ⟨(inv.enabled card).trans ?_, inv.active card ?_⟩ <;> rw [recording] <;> cases card <;> rfl

theorem Inv.advance (inv : Inv state) {inflight : Card → Int} {tap : Card → List Chunk}
    {tapFrameIndex : Nat} {place : Place} {locals : Locals}
    (covered : locals.covered = true → state.control = .recording)
    (quiet : stale place locals = true → ∀ card, state.enabled card = false)
    (held : Held locals place) :
    Inv { state with
      inflight := inflight
      tap := tap
      tapFrameIndex := tapFrameIndex
      place := place
      locals := locals } where
  __ := inv
  covered := covered
  quiet := quiet
  held := held

theorem Inv.finish (inv : Inv state) (locals : Locals) {place : Place}
    (outside : place = .top ∨ place = .ended)
    (complete : Entry.Complete ⟨locals.data, locals.pushed, locals.covered⟩) :
    Inv ({ state with locals := locals }.finish place) where
  __ := inv
  covered := nofun
  quiet := by
    rcases outside with rfl | rfl <;> nofun
  held := by
    rcases outside with rfl | rfl <;> rfl
  log := by
    intro entry member
    rcases List.mem_append.mp member with older | newest
    · exact inv.log entry older
    · rw [List.mem_singleton.mp newest]
      exact complete

theorem complete_unpushed {locals : Locals} (pushed : ∀ card, locals.pushed card = none)
    (read : locals.covered = true → ∀ card, locals.data card = []) :
    Entry.Complete ⟨locals.data, locals.pushed, locals.covered⟩ where
  lockstep := by
    dsimp only
    rw [pushed .a, pushed .b]
  whole := by
    intro covered card
    dsimp only
    rw [pushed card, read covered card]
    rfl

theorem Inv.read (inv : Inv state) (two : config.cardCount > 1) {result : Read}
    (calm : steady config state (.read result) = true)
    (taken : readStep config state result = some next) : Inv next := by
  have held := inv.held
  unfold readStep at taken
  unfold steady at calm
  cases place : state.place with
  | top =>
    rw [place] at taken calm held
    cases result with
    | error =>
      cases taken
      apply inv.finish _ (.inr rfl)
      rw [held]
      exact complete_unpushed (fun _ => rfl) nofun
    | bytes dataA =>
      dsimp only at taken calm
      rw [if_pos two] at taken
      by_cases none : dataA.length / config.inputBytesPerSample .a = 0
      · rw [if_pos none] at taken
        cases taken
        apply inv.finish _ (.inl rfl)
        apply complete_unpushed (fun _ => rfl)
        intro covered card
        have recording := eq_of_beq covered
        rw [none, recording] at calm
        have empty : dataA = [] := by simpa using calm
        rw [empty]
        cases card <;> rfl
      · rw [if_neg none] at taken
        cases taken
        exact inv.advance (fun covered => eq_of_beq covered) nofun fun _ => rfl
  | second =>
    rw [place] at taken calm held
    cases result with
    | error =>
      cases taken
      apply inv.finish _ (.inr rfl)
      apply complete_unpushed held
      intro covered
      rw [covered] at calm
      cases calm
    | bytes dataB =>
      dsimp only at taken calm
      by_cases none : dataB.length = 0
      · rw [if_pos none] at taken
        cases taken
        apply inv.finish _ (.inl rfl)
        apply complete_unpushed held
        intro covered
        rw [covered, List.eq_nil_of_length_eq_zero none] at calm
        cases calm
      · rw [if_neg none] at taken
        cases taken
        exact inv.advance inv.covered nofun held
  | _ =>
    rw [place] at taken
    cases taken

theorem push_eq {card : Card} {tapCh : Bool} {frameIndex : Nat} {place : Place}
    (tapped : state.locals.aOn = true → state.locals.bOn = true → tapCh = true) :
    ∃ tap, state.push card tapCh frameIndex place = { state with
      tap := tap
      place := place
      locals := { state.locals with
        pushed := if state.locals.aOn && state.locals.bOn then
            Function.update state.locals.pushed card (some (state.locals.data card))
          else state.locals.pushed } } := by
  unfold State.push
  cases on : state.locals.aOn && state.locals.bOn with
  | true =>
    obtain ⟨first, second⟩ := Bool.and_eq_true_iff.mp on
    rw [tapped first second, Bool.true_and, if_pos rfl]
    exact ⟨_, rfl⟩
  | false =>
    rw [Bool.and_false]
    exact ⟨state.tap, rfl⟩

theorem Inv.capture (inv : Inv state) (two : config.cardCount > 1)
    (taken : captureStep config state = some next) : Inv next := by
  have held := inv.held
  have quiet := inv.quiet
  unfold captureStep at taken
  cases place : state.place with
  | activeA =>
    rw [place] at taken held
    cases taken
    refine inv.advance inv.covered ?_ ?_
    · intro down
      exact inv.disabled (Bool.not_eq_true' _ ▸ down)
    · exact ⟨held, fun covered => (inv.recording_enabled covered .a).2⟩
  | activeB =>
    rw [place] at taken held quiet
    obtain ⟨pushed, seen⟩ := held
    dsimp only at taken
    rw [decide_eq_true two, Bool.true_and] at taken
    by_cases up : (state.locals.tapACh || state.active .b) = true
    · rw [if_pos up] at taken
      cases taken
      refine inv.advance inv.covered ?_ ?_
      · intro down
        cases first : state.locals.tapACh with
        | false => exact quiet (by rw [stale, first]; rfl)
        | true =>
          apply inv.disabled
          simpa [stale, first] using down
      · refine ⟨pushed, Bool.or_eq_true_iff.mp up, ?_⟩
        exact fun covered => ⟨seen covered, (inv.recording_enabled covered .b).2⟩
    · rw [if_neg up] at taken
      cases taken
      refine inv.finish _ (.inl rfl) (complete_unpushed pushed ?_)
      intro covered
      rw [seen covered] at up
      exact absurd rfl up
  | enterA =>
    rw [place] at taken held quiet
    dsimp only at taken
    cases own : state.locals.tapACh with
    | true =>
      rw [if_pos own] at taken
      cases taken
      exact inv.advance inv.covered quiet ⟨held, own⟩
    | false =>
      rw [if_neg (Bool.eq_false_iff.mp own)] at taken
      cases taken
      refine inv.advance inv.covered quiet ⟨{ held with }, fun _ => rfl, ?_⟩
      intro down
      rcases held.some with first | second
      · rw [own] at first
        cases first
      · exact absurd (down.symm.trans second) Bool.false_ne_true
  | loadA =>
    rw [place] at taken held quiet
    cases taken
    obtain ⟨entered, own⟩ := held
    refine inv.advance inv.covered quiet ⟨{ entered with }, ?_, ?_⟩
    · exact fun covered => (inv.recording_enabled covered .a).1
    · intro down
      dsimp only at down
      apply quiet
      rw [stale, down, Bool.and_false]
      rfl
  | enterB =>
    rw [place] at taken held quiet
    obtain ⟨entered, on, other⟩ := held
    dsimp only at taken
    cases own : state.locals.tapBCh with
    | true =>
      rw [if_pos own] at taken
      cases taken
      exact inv.advance inv.covered quiet ⟨entered, on, own⟩
    | false =>
      rw [if_neg (Bool.eq_false_iff.mp own)] at taken
      cases taken
      refine inv.advance inv.covered nofun ⟨?_, entered.pushed⟩
      constructor
      · intro first
        exact absurd ((other own).symm.trans first) Bool.false_ne_true
      · exact fun covered => ⟨on covered, rfl⟩
  | loadB =>
    rw [place] at taken held quiet
    cases taken
    obtain ⟨entered, on, own⟩ := held
    refine inv.advance inv.covered nofun ⟨?_, entered.pushed⟩
    constructor
    · intro first second
      dsimp only at first second
      refine ⟨?_, own⟩
      cases seen : state.locals.tapACh with
      | true => rfl
      | false =>
        have off := quiet (by rw [stale, seen]; rfl) .b
        exact absurd (off.symm.trans second) Bool.false_ne_true
    · exact fun covered => ⟨on covered, (inv.recording_enabled covered .b).1⟩
  | pushA =>
    rw [place] at taken held
    obtain ⟨decided, pushed⟩ := held
    obtain ⟨tap, push⟩ := push_eq fun first second => (decided.both first second).1
    dsimp only at taken
    rw [push] at taken
    cases taken
    refine inv.advance inv.covered nofun ⟨{ decided with }, ?_, ?_⟩
    · dsimp only
      split
      · exact (Function.update_of_ne (show Card.b ≠ .a from nofun) ..).trans (pushed .b)
      · exact pushed .b
    · dsimp only
      split
      · exact Function.update_self ..
      · exact pushed .a
  | pushB =>
    rw [place] at taken held
    obtain ⟨decided, pushedB, pushedA⟩ := held
    obtain ⟨tap, push⟩ := push_eq fun first second => (decided.both first second).2
    dsimp only at taken
    rw [push] at taken
    cases taken
    refine inv.advance inv.covered nofun ?_
    cases on : state.locals.aOn && state.locals.bOn with
    | true =>
      rw [on, if_pos rfl] at pushedA
      have both (card : Card) : Function.update state.locals.pushed .b
          (some (state.locals.data .b)) card = some (state.locals.data card) := by
        cases card with
        | a => exact (Function.update_of_ne (show Card.a ≠ .b from nofun) ..).trans pushedA
        | b => exact Function.update_self ..
      rw [if_pos rfl]
      exact ⟨(congrArg Option.isSome (both .a)).trans (congrArg Option.isSome (both .b)).symm,
        fun _ => both⟩
    | false =>
      rw [on] at pushedA
      refine ⟨congrArg Option.isSome (pushedA.trans pushedB.symm), ?_⟩
      intro covered
      obtain ⟨first, second⟩ := decided.on covered
      rw [first, second] at on
      cases on
  | leaveA =>
    rw [place] at taken held
    dsimp only at taken
    split at taken <;> cases taken
    · exact inv.advance inv.covered nofun held
    · exact inv.advance inv.covered nofun held
  | leaveB =>
    rw [place] at taken held
    cases taken
    have complete : Entry.Complete
        ⟨state.locals.data, state.locals.pushed, state.locals.covered⟩ := by
      refine ⟨held.1, ?_⟩
      intro covered card
      dsimp only
      rw [held.2 covered card]
      rfl
    have counted (inflight : Card → Int) : Inv { state with
        inflight := inflight, tapFrameIndex := state.tapFrameIndex + 2 } :=
      { inv with }
    split
    · exact (counted _).finish state.locals (.inl rfl) complete
    · exact (counted state.inflight).finish state.locals (.inl rfl) complete
  | _ =>
    rw [place] at taken
    cases taken

theorem Inv.step (inv : Inv state) (two : config.cardCount > 1) {action : Action}
    (calm : steady config state action = true) (taken : step config state action = some next) :
    Inv next := by
  cases action with
  | control =>
    cases taken
    exact inv.control calm
  | failStart =>
    unfold Taps.step at taken
    dsimp only at taken
    split at taken
    · rename_i place
      cases taken
      have move := inv.move state.inflight .idle
      rw [place] at move
      exact move (by decide) (by decide) nofun
    · cases taken
  | read result => exact inv.read two calm taken
  | capture => exact inv.capture two taken

/-- In a run whose steps are steady both taps are complete and in lockstep. -/
theorem taps_complete {config : Config} (two : config.cardCount > 1) {schedule : List Action}
    {last : State}
    (h : Machine.run (Machine.guarded (steady config) (step config)) initial schedule =
      some last) : TapsComplete last := by
  have inv := Machine.run_invariant Inv (fun _ _ _ inv taken =>
    inv.step two (Machine.guarded_eq_some.mp taken).1 (Machine.guarded_eq_some.mp taken).2)
    initial_inv h
  exact inv.log

def emptySecond : List Action :=
  List.replicate 8 .control ++ [.read (.bytes [1]), .read (.bytes [])]

theorem empty_second_unpushed :
    ¬∀ (config : Config), config.cardCount > 1 → ∀ schedule last,
      Machine.run (step config) initial schedule = some last → TapsComplete last := by
  intro claim
  have runs : (Machine.run (step (twoCards false)) initial emptySecond).any (fun last =>
      last.log.any fun entry => decide (entry.covered = true ∧
        (entry.pushed .a).getD [] ≠ entry.data .a)) = true := by
    decide +kernel
  obtain ⟨last, ran, found⟩ := (Option.any_eq_true _ _).mp runs
  obtain ⟨entry, member, fails⟩ := List.any_eq_true.mp found
  obtain ⟨covered, differs⟩ := of_decide_eq_true fails
  exact differs ((claim _ (by decide) _ last ran entry member).whole covered .a)

/-- A start in the middle of an iteration, one whole iteration, and a stop in the middle of
the next. -/
def startStop : List Action :=
  List.flatten [
    [.read (.bytes [1]), .read (.bytes [2])], List.replicate 4 .control,
    List.replicate 10 .capture, List.replicate 4 .control,
    [.read (.bytes [3, 4]), .read (.bytes [5])], List.replicate 10 .capture,
    [.read (.bytes [6]), .read (.bytes [7])], List.replicate 6 .capture,
    List.replicate 2 .control, List.replicate 4 .capture, List.replicate 6 .control]

theorem taps_complete_start_stop :
    ∃ last, Machine.run (Machine.guarded (steady (twoCards false)) (step (twoCards false)))
        initial startStop = some last ∧
      (last.tap .a).map Chunk.bytes = [[3, 4], [6]] ∧ (last.tap .b).map Chunk.bytes = [[5], [7]] ∧
      last.control = .idle ∧ TapsComplete last := by
  have runs : (Machine.run (Machine.guarded (steady (twoCards false)) (step (twoCards false)))
      initial startStop).any (fun last => decide ((last.tap .a).map Chunk.bytes = [[3, 4], [6]] ∧
        (last.tap .b).map Chunk.bytes = [[5], [7]] ∧ last.control = .idle)) = true := by
    decide +kernel
  obtain ⟨last, ran, taps⟩ := (Option.any_eq_true _ _).mp runs
  obtain ⟨first, second, idle⟩ := of_decide_eq_true taps
  exact ⟨last, ran, first, second, idle, taps_complete (by decide) ran⟩

end MisrcGui.Cxadc.Taps
