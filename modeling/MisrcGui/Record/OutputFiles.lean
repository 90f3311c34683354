import MisrcGui.Record.AutoNames

/-! How a recording names, checks and opens its output files (`gui_record.c`, `gui_audio.c`), with
the overwrite prompt, the settings that change around it, and the audio thread that opens its
files in its own time. What is written and the prompt's text are left out. -/
namespace MisrcGui.Record.OutputFiles
open AutoNames
open Library.Percent (ascii)

def pathMax : Nat := 4096 + maxFilenameLen

def slash : UInt8 := 47

inductive Output where
  | rf (i : Fin 2)
  | audio4
  | audio12
  | audio34
  | audio1 (i : Fin 4)
deriving DecidableEq

def audioOutputs : List Output :=
  [.audio4, .audio12, .audio34, .audio1 0, .audio1 1, .audio1 2, .audio1 3]

def outputs : List Output := .rf 0 :: .rf 1 :: audioOutputs

structure Settings where
  outputPath : Text
  names : Names
  overwriteFiles : Bool
  autoNamesEnabled : Bool
  naming : AutoNames.Settings

def Settings.filename (s : Settings) : Output → Text
  | .rf i => s.names.rf i
  | .audio4 => s.names.audio4
  | .audio12 => s.names.audio12
  | .audio34 => s.names.audio34
  | .audio1 i => s.names.audio1 i

def Settings.enabled (s : Settings) : Output → Bool
  | .rf i => (s.naming.channel i).capture
  | .audio4 => s.naming.audio4.enabled
  | .audio12 => s.naming.audio12.enabled
  | .audio34 => s.naming.audio34.enabled
  | .audio1 i => (s.naming.audio1 i).enabled

def Settings.path (s : Settings) (o : Output) : Text := s.outputPath ++ slash :: s.filename o

inductive Entry where
  | file (bytes : Nat)
  | directory
deriving DecidableEq

/-- What `file_path_info_utf8` finds at a path. -/
abbrev Disk := Text → Option Entry

/-- `gui_record_valid_filename`, but on Windows. -/
def validFilename (name : Text) : Bool :=
  name ≠ [] && name ≠ ascii "." && name ≠ ascii ".." && slash ∉ name

/-- The loop of `gui_record_check_output_paths`, after the outputs `before`. -/
def checkOutputs (s : Settings) (localSave : Bool) (disk : Disk) :
    List Output → List Output → Except Text (List Text)
  | _, [] => .ok []
  | before, o :: rest =>
    if !s.enabled o then checkOutputs s localSave disk (o :: before) rest
    else if !validFilename (s.filename o) then .error (ascii "Output filename is empty or invalid")
    else if before.any fun p => s.enabled p && s.filename o = s.filename p then
      .error (ascii "Recording outputs must have different filenames")
    else if pathMax ≤ (s.path o).length then .error (ascii "Output path is too long")
    else if localSave then checkOutputs s localSave disk (o :: before) rest
    else match disk (s.path o) with
      | some .directory => .error (ascii "Output filename refers to a directory")
      | some (.file _) => (checkOutputs s localSave disk (o :: before) rest).map (s.path o :: ·)
      | none => checkOutputs s localSave disk (o :: before) rest

/-- The existing files that are counted, or what is wrong. A Local Save recording has its
files on the client. -/
def checkOutputPaths (s : Settings) (localSave : Bool) (disk : Disk) : Except Text (List Text) :=
  if !localSave && disk s.outputPath ≠ some .directory then
    .error (ascii "Output directory does not exist or cannot be read")
  else checkOutputs s localSave disk [] outputs

def applyNames (s : Settings) (clock : Option Clock) (available : Fin 2 → Bool) :
    Option Settings :=
  if s.autoNamesEnabled then
    (applyAutoNames s.naming clock available).map fun names => { s with names }
  else some s

/-- Where the main thread is: outside, between `is_recording` and the end of the start, in a
recording, or in a stop that waits for the audio thread. -/
inductive Phase where
  | idle
  | starting
  | recording
  | stopping
deriving DecidableEq

inductive Result where
  | none
  | yes
  | no
  | dismissed
deriving DecidableEq

/-- `s_popup`: whether there has been one, whether it is the overwrite prompt, its result. -/
structure Popup where
  shown : Bool
  prompt : Bool
  result : Result

/-- The audio thread: `was_recording`, and the outputs it has yet to open. -/
structure Audio where
  running : Bool
  wasRecording : Bool
  opening : List Output

structure Consent where
  overwrite : Bool
  confirmed : List Text

structure Opening where
  path : Text
  existed : Bool
  consent : Consent

/-- Ghost: the files counted for the last prompt, whether the user has confirmed it, the consent
of the current start, and the files opened. -/
structure State where
  settings : Settings
  disk : Disk
  phase : Phase
  finalizing : Bool
  localSave : Bool
  overwritePending : Bool
  popup : Popup
  audio : Audio
  prompted : List Text
  agreed : Bool
  consent : Consent
  opened : List Opening

def initial (settings : Settings) (disk : Disk) : State where
  settings
  disk
  phase := .idle
  finalizing := false
  localSave := false
  overwritePending := false
  popup := ⟨false, false, .none⟩
  audio := ⟨false, false, []⟩
  prompted := []
  agreed := false
  consent := ⟨false, []⟩
  opened := []

def State.isRecording (s : State) : Bool := s.phase = .starting || s.phase = .recording

/-- What a start meets outside: extraction and buffers, the paths that can be opened for
writing, the encoders. -/
structure Start where
  ready : Bool
  opens : Text → Bool
  encoders : Bool

structure Request where
  localSave : Bool
  capturing : Bool
  headlessServer : Bool
  clock : Option Clock
  available : Fin 2 → Bool
  left : Names
  start : Start

/-- `file_open_utf8` for writing, or the proxy of a Local Save. -/
def openFile (s : State) (opens : Text → Bool) (o : Output) : State × Bool :=
  let path := s.settings.path o
  if s.localSave then (s, opens path)
  else if opens path ∧ s.disk path ≠ some .directory then
    ({ s with
      disk := Function.update s.disk path (some (.file 0))
      opened := s.opened ++ [⟨path, (s.disk path).isSome, s.consent⟩] }, true)
  else (s, false)

def openEnabled (s : State) (opens : Text → Bool) (o : Output) : State × Bool :=
  if s.settings.enabled o then openFile s opens o else (s, true)

def fail (s : State) : State := { s with localSave := false }

/-- `gui_record_start_confirmed`, until `is_recording`. -/
def startConfirmed (s : State) (start : Start) : State :=
  match checkOutputPaths s.settings s.localSave s.disk with
  | .error _ => fail s
  | .ok _ =>
    if start.ready then
      let a := openEnabled s start.opens (.rf 0)
      let b := openEnabled a.1 start.opens (.rf 1)
      if a.2 && b.2 && (!s.settings.naming.useFlac || start.encoders) then
        { b.1 with phase := .starting }
      else fail b.1
    else fail s

/-- `gui_record_start`. -/
def request (s : State) (r : Request) : State :=
  if s.finalizing || !r.capturing || s.isRecording || s.overwritePending then s
  else match applyNames s.settings r.clock r.available with
    | none => { s with settings := { s.settings with names := r.left } }
    | some settings =>
      let s := { s with settings, localSave := r.localSave }
      match checkOutputPaths settings s.localSave s.disk with
      | .error _ => fail s
      | .ok existing =>
        if existing ≠ [] ∧ !settings.overwriteFiles then
          if r.headlessServer then fail s
          else { fail s with
            overwritePending := true
            popup := ⟨true, true, .none⟩
            prompted := existing
            agreed := false }
        else startConfirmed { s with consent := ⟨settings.overwriteFiles, []⟩ } r.start

def checkPopup (s : State) (start : Start) : State :=
  if !s.overwritePending || s.popup.result = .none then s
  else if s.popup.result = .yes then
    startConfirmed { s with
      overwritePending := false
      consent := ⟨false, if s.agreed then s.prompted else []⟩ } start
  else { s with overwritePending := false }

/-- The files `gui_audio_start` opens, up to one that it cannot. -/
def openAudio (opens : Text → Bool) : List Output → State → State × Bool
  | [], s => (s, true)
  | o :: rest, s =>
    let opened := openEnabled s opens o
    if opened.2 then openAudio opens rest opened.1 else opened

/-- `gui_audio_start` in a recording. -/
def audioStart (s : State) (opens : Text → Bool) : State :=
  if s.audio.running then s
  else
    let opened := openAudio opens audioOutputs s
    if opened.2 then
      { opened.1 with audio := ⟨true, audioOutputs.any s.settings.enabled, []⟩ }
    else opened.1

inductive Action where
  | edit (settings : Settings)
  | request (r : Request)
  | answer (result : Result)
  | inform
  | checkPopup (start : Start)
  | started (writers : Bool) (opens : Text → Bool)
  | stop
  | joined (running : Bool)
  | finalized
  | audio (running : Bool)
  | audioBlock
  | audioOpen (opens : Text → Bool)
  | otherFile (path : Text)

/-- One pass of the audio thread over what `is_recording` says. -/
def audioBlock (s : State) : State :=
  if !s.audio.wasRecording && s.isRecording then
    { s with audio := { s.audio with wasRecording := true, opening := audioOutputs } }
  else { s with audio := { s.audio with wasRecording := s.isRecording } }

def audioOpen (s : State) (opens : Text → Bool) : Option State :=
  match s.audio.opening with
  | [] => none
  | o :: rest =>
    some { (openEnabled s opens o).1 with audio := { s.audio with opening := rest } }

def State.free (s : State) : Bool := s.phase = .idle || s.phase = .recording

def step (s : State) : Action → Option State
  | .edit settings => if s.phase = .idle then some { s with settings } else none
  | .request r => if s.free then some (request s r) else none
  | .answer result =>
    if s.free ∧ s.popup.shown ∧ s.popup.result = .none ∧ result ≠ .none then
      some { s with
        popup := { s.popup with result }
        agreed := if s.popup.prompt then decide (result = .yes) else s.agreed }
    else none
  | .inform => if s.free then some { s with popup := ⟨true, false, .none⟩ } else none
  | .checkPopup start => if s.free then some (checkPopup s start) else none
  | .started writers opens =>
    if s.phase = .starting then
      if writers then some (audioStart { s with phase := .recording } opens)
      else some { fail s with phase := .idle }
    else none
  | .stop => if s.phase = .recording then some { s with phase := .stopping } else none
  | .joined running =>
    if s.phase = .stopping ∧ s.audio.opening = [] then
      some { s with phase := .idle, finalizing := true, audio := ⟨running, false, []⟩ }
    else none
  | .finalized =>
    if s.finalizing then some { s with finalizing := false, localSave := false } else none
  | .audio running =>
    if s.phase = .idle ∧ s.audio.opening = [] then
      some { s with audio := ⟨running, false, []⟩ }
    else none
  | .audioBlock =>
    if s.audio.running ∧ s.audio.opening = [] then some (audioBlock s) else none
  | .audioOpen opens => audioOpen s opens
  | .otherFile path => some { s with disk := Function.update s.disk path (some (.file 0)) }

end MisrcGui.Record.OutputFiles
