import Mathlib.Data.List.Infix
import MisrcGui.Net.MonitorMirror

/-! One monitor client and the server it edits: the client's main thread and worker,
the server's request handler and main thread, as steps over their mailboxes. Other
clients and the server's user act on the server. -/
namespace MisrcGui.Net.SettingsSync
open Library MonitorSettings MonitorMirror
open Library.Percent (ascii escape unreserved)

/-- `g_cfg_server` with the server's settings. -/
structure Server where
  settings : Settings
  snapshot : Text
  pending : Option (Text × Text)
  recording : Bool

/-- The server's main thread, between the two locked sections of
`gui_monitor_server_poll_settings` with the update it has taken. -/
inductive Main where
  | idle
  | polling (update : Option (Text × Text))
deriving DecidableEq

/-- Places of `mon_cfg_worker`: a request on its way, its answer, and the same for
the snapshot. -/
inductive Worker where
  | idle
  | requesting (key value : Text)
  | answered (key value : Text) (ok : Bool)
  | choosing
  | fetching
  | fetched (response : Text)
deriving DecidableEq

structure State where
  client : Client
  worker : Worker
  server : Server
  main : Main

def ampersand : UInt8 := 38

/-- The query of `/monitor/settings/set`. -/
def setQuery (key value : Text) : Option Text := do
  let key ← urlEncode (keyCap * 3 + 1) [] key
  let value ← urlEncode encodedCap [] value
  return ascii "key=" ++ key ++ ampersand :: (ascii "value=" ++ value)

/-- `mon_query_named`: the first parameter of the name decides. -/
def queryNamed (cap : Nat) (query name : Text) : Option Text :=
  match (query.splitOn ampersand).find? (name ++ [equals]).isPrefixOf with
  | none => none
  | some parameter => urlDecode cap (parameter.drop (name.length + 1))

/-- The settings/set handler; `true` for the answer 200. -/
def handleSet (server : Server) (query : Text) : Server × Bool :=
  match queryNamed keyCap query (ascii "key"), queryNamed valueCap query (ascii "value") with
  | some name, some value =>
    match find name with
    | none => (server, false)
    | some i =>
      if localAudio (desc i).key || (set i value).isNone || server.recording then (server, false)
      else if server.pending.isSome then (server, false)
      else ({ server with pending := some (name, value) }, true)
  | _, _ => (server, false)

def store (settings : Settings) (name value : Text) : Settings :=
  match find name with
  | none => settings
  | some i =>
    match set i value with
    | none => settings
    | some v => Function.update settings i v

/-- The settings after the update that the server's main thread has taken. -/
def updated (server : Server) : Option (Text × Text) → Settings
  | none => server.settings
  | some (name, value) =>
    if server.recording then server.settings else store server.settings name value

/-- The second half of `gui_monitor_server_poll_settings`, with `mon_cfg_snapshot`. -/
def applyUpdate (server : Server) (update : Option (Text × Text)) : Server :=
  let settings := updated server update
  { server with
    settings := settings
    snapshot := (pack settings).getD server.snapshot }

def echoed (request : Request) (response : Text) : Bool :=
  match urlEncode encodedCap [] request.value with
  | none => false
  | some encoded => decide (request.key ++ equals :: encoded ++ [newline] <:+: response)

/-- The worker's last section: the echo clears the update, and without an update the
snapshot goes to the main thread. -/
def storeResponse (client : Client) (response : Text) : Client :=
  match client.send with
  | none => { client with received := some response }
  | some request =>
    if request.sent && echoed request response then
      { client with send := none, received := some response }
    else client

def markSent (client : Client) (key value : Text) : Client :=
  match client.send with
  | some request =>
    if request.key = key ∧ request.value = value then
      { client with send := some { request with sent := true } }
    else client
  | none => client

def editField (mirror : Mirror) (i : Field) (value : (desc i).kind.Value) : Mirror :=
  Function.update mirror i { mirror i with value := value }

/-- `serve` answers the worker's request and `lose` loses it, before or after it has
reached the server. -/
inductive Action where
  | edit (i : Field) (value : (desc i).kind.Value)
  | sync (connected : Bool)
  | look
  | serve
  | lose (arrived : Bool)
  | mark
  | skip
  | poll
  | keep
  | take
  | apply
  | record (on : Bool)
  | serverEdit (i : Field) (value : (desc i).kind.Value)
  | otherSet (query : Text)

def clientStep (state : State) : Action → Option State
  | .edit i value =>
    some { state with
      client := { state.client with mirror := editField state.client.mirror i value } }
  | .sync connected => some { state with client := syncMain connected state.client }
  | .look =>
    match state.worker with
    | .idle =>
      match state.client.send with
      | some ⟨key, value, false⟩ =>
        if (setQuery key value).isSome then some { state with worker := .requesting key value }
        else some { state with worker := .choosing }
      | _ => some { state with worker := .choosing }
    | _ => none
  | .mark =>
    match state.worker with
    | .answered key value ok =>
      some { state with
        client := if ok then markSent state.client key value else state.client
        worker := .choosing }
    | _ => none
  | .skip => if state.worker = .choosing then some { state with worker := .idle } else none
  | .poll => if state.worker = .choosing then some { state with worker := .fetching } else none
  | .keep =>
    match state.worker with
    | .fetched response =>
      some { state with client := storeResponse state.client response, worker := .idle }
    | _ => none
  | _ => none

def requestStep (state : State) : Action → Option State
  | .serve =>
    match state.worker with
    | .requesting key value =>
      let (server, ok) := handleSet state.server ((setQuery key value).getD [])
      some { state with server := server, worker := .answered key value ok }
    | .fetching => some { state with worker := .fetched state.server.snapshot }
    | _ => none
  | .lose arrived =>
    match state.worker with
    | .requesting key value =>
      let server := if arrived then (handleSet state.server ((setQuery key value).getD [])).1
        else state.server
      some { state with server := server, worker := .answered key value false }
    | .fetching => some { state with worker := .idle }
    | _ => none
  | _ => none

/-- Recording starts and stops, and the user edits, on the server's main thread. -/
def serverStep (state : State) : Action → Option State
  | .take =>
    if state.main = .idle then
      some { state with
        server := { state.server with pending := none }
        main := .polling state.server.pending }
    else none
  | .apply =>
    match state.main with
    | .polling update => some { state with server := applyUpdate state.server update, main := .idle }
    | .idle => none
  | .record on =>
    if state.main = .idle then
      some { state with server := { state.server with recording := on } }
    else none
  | .serverEdit i value =>
    if state.main = .idle then
      some { state with server := { state.server with
        settings := Function.update state.server.settings i value } }
    else none
  | .otherSet query => some { state with server := (handleSet state.server query).1 }
  | _ => none

def step (state : State) (action : Action) : Option State :=
  match action with
  | .serve | .lose _ => requestStep state action
  | .take | .apply | .record _ | .serverEdit _ _ | .otherSet _ => serverStep state action
  | _ => clientStep state action

/-- A client that has just connected to a server that publishes its settings. -/
def initial (mirror : Mirror) (s : Settings) (recording : Bool) : State :=
  ⟨fresh mirror, .idle, ⟨s, (pack s).getD [], none, recording⟩, .idle⟩

def calm (_ : State) : Action → Bool
  | .edit _ _ | .lose _ | .serverEdit _ _ | .otherSet _ => false
  | .sync connected => connected
  | .record on => !on
  | _ => true

/-- Nothing waits to be sent and both sides hold the same values. -/
def InSync (state : State) : Prop :=
  state.client.send = none ∧ ∀ i ∈ synced,
    print (desc i).kind (state.client.mirror i).value =
      print (desc i).kind (state.server.settings i)

def Recovers (state : State) : Prop := Machine.CanReach (Machine.guarded calm step) state InSync

def textOf (s : Settings) (i : Field) : Text := print (desc i).kind (s i)

def mirrorText (mirror : Mirror) (i : Field) : Text := print (desc i).kind (mirror i).value

def clean (text : Text) : Bool := text.all fun c => !control c

def admits (i : Field) (text : Text) : Bool :=
  clean text && match set i text with
    | none => false
    | some value => print (desc i).kind value == text

/-- The text passes `mon_url_decode`, and what the validator makes of it, if it takes
it at all, is admitted. -/
def tame (i : Field) (text : Text) : Bool :=
  clean text && match set i text with
    | none => true
    | some value => admits i (print (desc i).kind value)

def tameUpdate : Option (Text × Text) → Bool
  | none => true
  | some (name, value) =>
    match find name with
    | none => true
    | some i => !decide (i ∈ synced) || match set i value with
      | none => true
      | some stored => tame i (print (desc i).kind stored)

/-- The client's update that the server has accepted and whose echo is not seen. -/
def outstanding (state : State) : Option (Text × Text) :=
  match state.client.send with
  | none => none
  | some request =>
    if request.sent || state.worker = .answered request.key request.value true then
      some (request.key, request.value)
    else none

/-- An outstanding update that is no longer on its way in the server's mailbox. -/
def applied (state : State) : Option (Text × Text) :=
  match outstanding state with
  | none => none
  | some update =>
    if state.server.pending = some update ∨ state.main = .polling (some update) then none
    else some update

/-- New settings of the server keep the value whose echo the client waits for. -/
def keepsEcho (state : State) (settings : Settings) : Bool :=
  match applied state with
  | none => true
  | some (name, value) =>
    match find name with
    | none => true
    | some i => textOf settings i == value

/-- The client's own values are admitted and the server's are tame; the server does
not take up the client's accepted update while it records; nobody else changes the
field between the apply of the update and its echo. -/
def uncontested (state : State) : Action → Bool
  | .edit i value => !decide (i ∈ synced) || admits i (print (desc i).kind value)
  | .serverEdit i value =>
    (!decide (i ∈ synced) || tame i (print (desc i).kind value)) &&
      keepsEcho state (Function.update state.server.settings i value)
  | .otherSet query => tameUpdate (handleSet state.server query).1.pending
  | .take =>
    !state.server.recording || state.server.pending.isNone ||
      state.server.pending != outstanding state
  | .apply =>
    match state.main with
    | .idle => true
    | .polling update => keepsEcho state (updated state.server update)
  | _ => true

end MisrcGui.Net.SettingsSync
