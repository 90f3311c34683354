import MisrcGui.Net.SettingsSync

/-! The user's own settings around monitor mode: what `gui_settings_save` keeps aside
and writes, and what the staged restore of `gui_monitor_client_stop` brings back. -/
namespace MisrcGui.Net.LocalProfile
open Library MonitorSettings
open MonitorMirror hiding Action step
open SettingsSync (editField storeResponse)

/-- The mirror of `client` is the live `app->settings`. -/
structure State where
  client : Client
  netMode : Nat
  running : Bool
  restorePending : Bool
  profile : Settings
  profileValid : Bool

def monitorClient : Nat := 4

def live (state : State) : Settings := fun i => (state.client.mirror i).value

/-- `gui_monitor_settings_copy` into the live settings. -/
def copyInto (mirror : Mirror) (settings : Settings) : Mirror :=
  fun i => { mirror i with value := settings i }

/-- `gui_settings_save`, with what it writes. -/
def save (state : State) : State × Settings :=
  if state.netMode = monitorClient ∧ state.profileValid then (state, state.profile)
  else if state.netMode ≠ monitorClient then
    ({ state with profile := live state, profileValid := true }, live state)
  else (state, live state)

def clientStop (state : State) : State :=
  if state.running then { state with running := false, restorePending := true } else state

/-- `gui_monitor_client_start`, with `mon_cfg_disconnect`. -/
def clientStart (state : State) : State :=
  { clientStop state with
    running := true
    restorePending := false
    client := { state.client with received := none, initialized := false, send := none } }

def takeRestore (state : State) : State :=
  if !state.restorePending then state
  else { state with
    restorePending := false
    client := if state.profileValid then
        { state.client with mirror := copyInto state.client.mirror state.profile }
      else state.client }

/-- `save` may fail to open its file; `start` and `stop` are steps of the transition
worker, `deliver` is one of the monitor's. -/
inductive Action where
  | edit (i : Field) (value : (desc i).kind.Value)
  | save (opened : Bool)
  | setMode (mode : Nat)
  | start
  | stop
  | deliver (response : Text)
  | sync (connected : Bool)
  | restore

/-- A run with its history: the user's own values, the fields that hold a value from a
server, the fields edited since the profile was captured, and what was written to a
file or restored, beside the user's own values then. -/
structure Session where
  state : State
  own : Settings
  foreign : Field → Bool
  unsaved : Field → Bool
  outcomes : List (Settings × Settings)

def step (session : Session) (action : Action) : Option Session :=
  let state := session.state
  match action with
  | .edit i value =>
    let next := { state with
      client := { state.client with mirror := editField state.client.mirror i value } }
    if state.netMode = monitorClient then
      some { session with
        state := next
        foreign := Function.update session.foreign i true }
    else
      some { session with
        state := next
        own := Function.update session.own i value
        foreign := Function.update session.foreign i false
        unsaved := Function.update session.unsaved i true }
  | .save opened =>
    some { session with
      state := (save state).1
      unsaved := if state.netMode = monitorClient then session.unsaved else fun _ => false
      outcomes := if opened then ((save state).2, session.own) :: session.outcomes
        else session.outcomes }
  | .setMode mode => some { session with state := { state with netMode := mode } }
  | .start => some { session with state := clientStart state }
  | .stop => some { session with state := clientStop state }
  | .deliver response =>
    some { session with state := { state with client := storeResponse state.client response } }
  | .sync connected =>
    if state.netMode = monitorClient then
      let next := { state with client := syncMain connected state.client }
      some { session with
        state := next
        foreign := fun i => session.foreign i || decide (live next i ≠ live state i) }
    else some session
  | .restore =>
    if state.restorePending then
      some { session with
        state := takeRestore state
        foreign := if state.profileValid then fun _ => false else session.foreign
        outcomes := (live (takeRestore state), session.own) :: session.outcomes }
    else some session

/-- After `gui_settings_load`. -/
def initial (mirror : Mirror) (mode : Nat) : Session where
  state := ⟨fresh mirror, mode, false, false, fun i => (mirror i).value, true⟩
  own := fun i => (mirror i).value
  foreign := fun _ => false
  unsaved := fun _ => false
  outcomes := []

/-- A save outside monitor mode finds no value from a server in a synced field; a save in
monitor mode and a restore find no synced field edited since the profile was captured. -/
def settled (session : Session) : Action → Bool
  | .save _ =>
    if session.state.netMode = monitorClient then synced.all fun i => !session.unsaved i
    else synced.all fun i => !session.foreign i
  | .restore => !session.state.restorePending || synced.all fun i => !session.unsaved i
  | _ => true

variable {session next : Session} {action : Action}

def Agree (shown own : Settings) : Prop := ∀ i ∈ synced, shown i = own i

structure Inv (session : Session) : Prop where
  valid : session.state.profileValid
  live : ∀ i ∈ synced, session.foreign i = false → live session.state i = session.own i
  profile : ∀ i ∈ synced, session.unsaved i = false → session.state.profile i = session.own i
  outcomes : ∀ outcome ∈ session.outcomes, Agree outcome.1 outcome.2

theorem initial_inv (mirror : Mirror) (mode : Nat) : Inv (initial mirror mode) where
  valid := rfl
  live := fun _ _ _ => rfl
  profile := fun _ _ _ => rfl
  outcomes := nofun

theorem all_not {p : Field → Bool} : (synced.all fun i => !p i) ↔ ∀ i ∈ synced, p i = false := by
  simp

/-- In monitor mode the profile is written, else it is captured from the live settings. -/
theorem save_eq {state : State} (valid : state.profileValid) :
    save state = if state.netMode = monitorClient then (state, state.profile)
      else ({ state with profile := live state, profileValid := true }, live state) := by
  rw [save]
  by_cases monitor : state.netMode = monitorClient
  · rw [if_pos ⟨monitor, valid⟩, if_pos monitor]
  · rw [if_neg (fun both => monitor both.1), if_pos monitor, if_neg monitor]

theorem takeRestore_live {state : State} (pending : state.restorePending)
    (valid : state.profileValid) : live (takeRestore state) = state.profile := by
  rw [takeRestore, pending, valid]
  rfl

theorem live_edit (mirror : Mirror) (i j : Field) (value : (desc i).kind.Value) :
    (editField mirror i value j).value = Function.update (fun k => (mirror k).value) i value j := by
  rw [editField]
  by_cases same : j = i
  · subst same
    rw [Function.update_self, Function.update_self]
  · rw [Function.update_of_ne same, Function.update_of_ne same]

theorem storeResponse_mirror (client : Client) (response : Text) :
    (storeResponse client response).mirror = client.mirror := by
  rw [storeResponse]
  split
  · rfl
  · split <;> rfl

theorem Inv.other (inv : Inv session) {state : State}
    (valid : state.profileValid = session.state.profileValid)
    (mirror : state.client.mirror = session.state.client.mirror)
    (profile : state.profile = session.state.profile) : Inv { session with state := state } where
  valid := valid.trans inv.valid
  live := by
    intro i listed own
    have same : LocalProfile.live state i = LocalProfile.live session.state i := by
      rw [LocalProfile.live, mirror]
      rfl
    exact same.trans (inv.live i listed own)
  profile := by
    rw [profile]
    exact inv.profile
  outcomes := inv.outcomes

theorem clientStop_same (state : State) :
    (clientStop state).profileValid = state.profileValid ∧
      (clientStop state).client = state.client ∧ (clientStop state).profile = state.profile := by
  rw [clientStop]
  split <;> exact ⟨rfl, rfl, rfl⟩

theorem edit_inv (inv : Inv session) (i : Field) (value : (desc i).kind.Value)
    (h : step session (.edit i value) = some next) : Inv next := by
  simp only [step] at h
  split at h
  · cases h
    refine ⟨inv.valid, fun j listed own => ?_, inv.profile, inv.outcomes⟩
    dsimp only at own
    have other : j ≠ i := by
      rintro rfl
      rw [Function.update_self] at own
      contradiction
    rw [Function.update_of_ne other] at own
    rw [live, live_edit, Function.update_of_ne other]
    exact inv.live j listed own
  · cases h
    refine ⟨inv.valid, fun j listed own => ?_, fun j listed saved => ?_, inv.outcomes⟩
    · dsimp only at own ⊢
      rw [live, live_edit]
      by_cases same : j = i
      · subst same
        rw [Function.update_self, Function.update_self]
      · rw [Function.update_of_ne same] at own
        rw [Function.update_of_ne same, Function.update_of_ne same]
        exact inv.live j listed own
    · dsimp only at saved ⊢
      have other : j ≠ i := by
        rintro rfl
        rw [Function.update_self] at saved
        contradiction
      rw [Function.update_of_ne other] at saved
      rw [Function.update_of_ne other]
      exact inv.profile j listed saved

theorem agree_cons {shown own : Settings} {outcomes : List (Settings × Settings)}
    (first : Agree shown own) (rest : ∀ outcome ∈ outcomes, Agree outcome.1 outcome.2) :
    ∀ outcome ∈ (shown, own) :: outcomes, Agree outcome.1 outcome.2 := by
  intro outcome listed
  rcases List.mem_cons.mp listed with rfl | later
  · exact first
  · exact rest outcome later

theorem save_inv (inv : Inv session) (opened : Bool) (allowed : settled session (.save opened))
    (h : step session (.save opened) = some next) : Inv next := by
  cases h
  rw [settled] at allowed
  have logged {shown : Settings} (agree : Agree shown session.own) :
      ∀ outcome ∈ (if opened then (shown, session.own) :: session.outcomes else session.outcomes),
        Agree outcome.1 outcome.2 := by
    split
    · exact agree_cons agree inv.outcomes
    · exact inv.outcomes
  by_cases monitor : session.state.netMode = monitorClient
  · rw [if_pos monitor, all_not] at allowed
    rw [save_eq inv.valid, if_pos monitor, if_pos monitor]
    exact ⟨inv.valid, inv.live, inv.profile,
      logged fun i listed => inv.profile i listed (allowed i listed)⟩
  · rw [if_neg monitor, all_not] at allowed
    have own : Agree (live session.state) session.own :=
      fun i listed => inv.live i listed (allowed i listed)
    rw [save_eq inv.valid, if_neg monitor, if_neg monitor]
    exact ⟨rfl, inv.live, fun i listed _ => own i listed, logged own⟩

theorem restore_inv (inv : Inv session) (allowed : settled session .restore)
    (h : step session .restore = some next) : Inv next := by
  simp only [step] at h
  split at h
  · rename_i pending
    cases h
    rw [settled, pending, Bool.not_true, Bool.false_or, all_not] at allowed
    have own : Agree session.state.profile session.own :=
      fun i listed => inv.profile i listed (allowed i listed)
    have shown := takeRestore_live pending inv.valid
    have kept : (takeRestore session.state).profile = session.state.profile ∧
        (takeRestore session.state).profileValid = session.state.profileValid := by
      rw [takeRestore]
      split <;> exact ⟨rfl, rfl⟩
    refine ⟨kept.2.trans inv.valid, fun i listed _ => ?_, ?_, ?_⟩
    · dsimp only
      rw [shown]
      exact own i listed
    · dsimp only
      rw [kept.1]
      exact inv.profile
    · dsimp only
      rw [shown]
      exact agree_cons own inv.outcomes
  · cases h
    exact inv

theorem sync_inv (inv : Inv session) (connected : Bool)
    (h : step session (.sync connected) = some next) : Inv next := by
  simp only [step] at h
  split at h
  · cases h
    refine ⟨inv.valid, fun i listed own => ?_, inv.profile, inv.outcomes⟩
    simp only [Bool.or_eq_false_iff, decide_eq_false_iff_not, not_not] at own
    exact own.2.trans (inv.live i listed own.1)
  · cases h
    exact inv

theorem step_inv (inv : Inv session) (allowed : settled session action)
    (h : step session action = some next) : Inv next := by
  cases action with
  | edit i value => exact edit_inv inv i value h
  | save opened => exact save_inv inv opened allowed h
  | setMode mode =>
    cases h
    exact inv.other rfl rfl rfl
  | start =>
    cases h
    obtain ⟨valid, -, profile⟩ := clientStop_same session.state
    exact inv.other valid rfl profile
  | stop =>
    cases h
    obtain ⟨valid, client, profile⟩ := clientStop_same session.state
    exact inv.other valid (congrArg Client.mirror client) profile
  | deliver response =>
    cases h
    exact inv.other rfl (storeResponse_mirror _ _) rfl
  | sync connected => exact sync_inv inv connected h
  | restore => exact restore_inv inv allowed h

/-- Whatever the run wrote to a file or restored held the user's own values then. -/
theorem profile_kept (mirror : Mirror) (mode : Nat) (schedule : List Action) (last : Session)
    (h : Machine.run (Machine.guarded settled step) (initial mirror mode) schedule = some last) :
    ∀ outcome ∈ last.outcomes, Agree outcome.1 outcome.2 := by
  have inv : Inv last := by
    refine Machine.run_invariant Inv (fun session action next inv taken => ?_)
      (initial_inv mirror mode) h
    obtain ⟨allowed, moved⟩ := Machine.guarded_eq_some.mp taken
    exact step_inv inv allowed moved
  exact inv.outcomes

theorem snapshot_adopted {s : Settings} {mirror : Mirror} {i : Field} (listed : i ∈ synced)
    (admitted : Admitted (desc i) (desc i).kind (s i)) :
    print (desc i).kind (applySnapshot true mirror (wire s) i).value =
      print (desc i).kind (s i) := by
  rw [applySnapshot_wire]
  dsimp only
  rw [if_pos listed]
  exact (adopt_admitted admitted (.inl rfl)).1

/-- The click that leaves monitor mode saves before the restore: what it writes are the
values adopted from the server. -/
theorem leaving_writes {mirror adopted : Mirror} {snapshot : Text}
    (adopts : syncMain false ⟨mirror, false, some snapshot, none⟩ = ⟨adopted, true, none, none⟩) :
    ∃ last shown own, Machine.run step (initial mirror 0) [.setMode monitorClient, .save true,
        .start, .deliver snapshot, .sync false, .setMode 0, .save true] = some last ∧
      (shown, own) ∈ last.outcomes ∧ ∀ i, shown i = (adopted i).value ∧ own i = (mirror i).value := by
  refine ⟨_, fun i => (adopted i).value, fun i => (mirror i).value, rfl, ?_, fun i => ⟨rfl, rfl⟩⟩
  have shown (state : State) : live state = fun i => (state.client.mirror i).value := rfl
  dsimp only [initial, save, clientStart, clientStop, storeResponse, fresh, monitorClient]
  simp [adopts, shown]

def ofDefaults : Mirror := fun i => ⟨initDefaults 8 i, []⟩

theorem ofDefaults_value (i : Field) : (ofDefaults i).value = initDefaults 8 i := rfl

def overwriteFiles : Field := ⟨4, by decide⟩

def overwrites : (desc overwriteFiles).kind.Value := true

def serverSettings : Settings := Function.update (initDefaults 8) overwriteFiles overwrites

/-- Local edits that are saved, a monitor session, and the restore before the first save
after it. -/
theorem profile_kept_session :
    ∃ last, Machine.run (Machine.guarded settled step) (initial ofDefaults 0)
        [.edit overwriteFiles overwrites, .save true,
          .setMode monitorClient, .save true, .start, .deliver (wire (initDefaults 8)), .sync true,
          .setMode 0, .stop, .restore, .save true] = some last ∧
      last.outcomes.length = 4 ∧ ∀ outcome ∈ last.outcomes, Agree outcome.1 outcome.2 := by
  have ran : ((Machine.run (Machine.guarded settled step) (initial ofDefaults 0)
      [.edit overwriteFiles overwrites, .save true,
        .setMode monitorClient, .save true, .start, .deliver (wire (initDefaults 8)), .sync true,
        .setMode 0, .stop, .restore, .save true]).map fun last => last.outcomes.length) =
          some 4 := by decide +kernel
  obtain ⟨last, reached, length⟩ := Option.map_eq_some_iff.mp ran
  exact ⟨last, reached, length, profile_kept ofDefaults 0 _ last reached⟩

theorem flag_differs : print (desc overwriteFiles).kind (initDefaults 8 overwriteFiles) ≠
    print (desc overwriteFiles).kind overwrites := by
  decide +kernel

/-- The user leaves monitor mode, and the click saves before the restore. -/
theorem server_value_saved :
    ¬∀ (mirror : Mirror) (mode : Nat) (schedule : List Action) (last : Session),
      Machine.run step (initial mirror mode) schedule = some last →
        ∀ outcome ∈ last.outcomes, Agree outcome.1 outcome.2 := by
  intro claim
  have listed : overwriteFiles ∈ synced := by
    rw [synced, List.mem_filter]
    exact ⟨List.mem_finRange _, by decide⟩
  have adopts : syncMain false ⟨ofDefaults, false, some (wire serverSettings), none⟩ =
      ⟨applySnapshot true ofDefaults (wire serverSettings), true, none, none⟩ := by
    rw [syncMain, receive_some rfl rfl]
    rfl
  obtain ⟨last, shown, own, reached, written, values⟩ := leaving_writes adopts
  have same : shown overwriteFiles = own overwriteFiles :=
    claim ofDefaults 0 _ last reached _ written overwriteFiles listed
  rw [(values _).1, (values _).2, ofDefaults_value] at same
  have admitted : Admitted (desc overwriteFiles) (desc overwriteFiles).kind
      (serverSettings overwriteFiles) := by
    rw [serverSettings, Function.update_self]
    change InRange _ 1
    rw [InRange]
    decide +kernel
  have prints : print (desc overwriteFiles).kind
      (applySnapshot true ofDefaults (wire serverSettings) overwriteFiles).value =
        print (desc overwriteFiles).kind (serverSettings overwriteFiles) :=
    snapshot_adopted listed admitted
  rw [same, serverSettings, Function.update_self] at prints
  exact flag_differs prints

end MisrcGui.Net.LocalProfile
