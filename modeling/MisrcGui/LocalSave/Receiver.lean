import MisrcGui.Library.Renames
import MisrcGui.Library.SparseFile

/-! The client's side of a local save, `monitor_local_save_files.c`: a directory of files that
are written under a partial name and renamed together when the recording is committed. -/
namespace MisrcGui.LocalSave
open Library
open Renames (rename)

def maxFiles : Nat := 16

theorem maxFiles_pos : 0 < maxFiles := by decide
theorem one_lt_maxFiles : 1 < maxFiles := by decide

def maxPayload : Nat := 1024 * 1024
def pathMax : Nat := 4096
def int64Max : Nat := 2 ^ 63 - 1

abbrev Bytes := List UInt8
abbrev Path := Bytes
abbrev Disk := Renames.Store Path Bytes

inductive FrameType where
  | open
  | write
  | seek
  | close
  | ack
  | abort
  | commit
  | writeStream
  | sync
deriving DecidableEq

/-- `mls_frame_t` and its payload. -/
structure Frame where
  type : FrameType
  fileId : Nat
  offset : Nat
  payload : Bytes
  crc : UInt32

def crcEntry (index : UInt32) : UInt32 :=
  (List.range 8).foldl
    (fun value _ => if value &&& 1 != 0 then value >>> 1 ^^^ 0xedb88320 else value >>> 1) index

def crc32 (data : Bytes) : UInt32 :=
  data.foldl (fun crc byte => crcEntry ((crc ^^^ byte.toUInt32) &&& 0xff) ^^^ crc >>> 8)
    0xffffffff ^^^ 0xffffffff

example : crcEntry 1 = 0x77073096 ∧ crcEntry 255 = 0x2d02ef8d := by decide

/-- `mls_file_t`; `stream` is the position of `fp`. -/
structure SavedFile where
  stream : Option Nat
  nextOffset : Nat
  incompletePath : Path
  finalPath : Path
  bad : Bool
  wasOpened : Bool
  wasClosed : Bool

def noFile : SavedFile := ⟨none, 0, [], [], false, false, false⟩

structure Receiver where
  directory : Path
  overwrite : Bool
  hadError : Bool
  files : Fin maxFiles → SavedFile

def receiverInit (directory : Path) (overwrite : Bool) : Receiver :=
  ⟨directory, overwrite, false, fun _ => noFile⟩

/-- The calls of the C library that fail while a frame is applied; a short write leaves the
bytes it has written. -/
structure Faults where
  fopen : Bool
  shortWrite : Option Nat
  fseek : Bool
  fflush : Fin maxFiles → Bool
  fclose : Bool
  rename : Fin maxFiles → Bool
  restore : Fin maxFiles → Bool

def noFaults : Faults :=
  ⟨false, none, false, fun _ => false, false, fun _ => false, fun _ => false⟩

structure Session where
  receiver : Receiver
  disk : Disk

def Session.file (session : Session) (id : Fin maxFiles) : SavedFile := session.receiver.files id

def Session.withFile (session : Session) (id : Fin maxFiles) (file : SavedFile) : Session :=
  { session with
    receiver := { session.receiver with files := Function.update session.receiver.files id file } }

def pathExists (disk : Disk) (path : Path) : Bool := (disk path).isSome

def slashByte : UInt8 := 47
def backslashByte : UInt8 := 92
def colonByte : UInt8 := 58
def dotByte : UInt8 := 46
def spaceByte : UInt8 := 32

def reservedBytes : Bytes := [slashByte, backslashByte, colonByte, 42, 63, 34, 60, 62, 124]

def upperCase (byte : UInt8) : UInt8 := if 97 ≤ byte ∧ byte ≤ 122 then byte - 32 else byte

/-- The part of a name before its first dot, at most eight bytes of it. -/
def deviceName (name : Bytes) : Bytes :=
  (((name.take 8).takeWhile (· != dotByte)).map upperCase)

/-- CON, PRN, AUX and NUL, and COM or LPT with a digit from 1 to 9. -/
def isDevice (name : Bytes) : Bool :=
  let part := deviceName name
  part == [67, 79, 78] || part == [80, 82, 78] || part == [65, 85, 88] || part == [78, 85, 76] ||
    part.length == 4 && (part.take 3 == [67, 79, 77] || part.take 3 == [76, 80, 84]) &&
      decide (49 ≤ part.getD 3 0) && decide (part.getD 3 0 ≤ 57)

def safeFilename (name : Bytes) : Bool :=
  !(name.isEmpty || decide (name.length > 255) || name.head? == some dotByte ||
      name.getLast? == some spaceByte || name.getLast? == some dotByte) &&
    name[1]? != some colonByte &&
    name.all (fun byte => decide (byte ≥ 32) && byte != 127 && !reservedBytes.contains byte) &&
    !isDevice name

def partialSuffix : Bytes := [46, 112, 97, 114, 116, 105, 97, 108]

/-- The directory with its own kind of separator before the name. -/
def joinPath (directory name : Path) : Path :=
  let windows := directory.contains backslashByte || directory[1]? == some colonByte
  let slash :=
    if directory.getLast? == some slashByte || directory.getLast? == some backslashByte then []
    else if windows then [backslashByte] else [slashByte]
  directory ++ slash ++ name

def openFile (faults : Faults) (session : Session) (id : Fin maxFiles) (name : Bytes) :
    Session × Bool :=
  let file := session.file id
  let finalPath := joinPath session.receiver.directory name
  let incompletePath := finalPath ++ partialSuffix
  if file.stream.isSome || file.wasOpened || name.isEmpty || decide (name.length > 255) ||
      name.contains 0 || !safeFilename name then (session, false)
  else
    let named := session.withFile id { file with finalPath, incompletePath }
    if finalPath.length ≥ pathMax then
      (session.withFile id { file with finalPath := finalPath.take (pathMax - 1) }, false)
    else if incompletePath.length ≥ pathMax then (session.withFile id { file with finalPath }, false)
    else if pathExists session.disk incompletePath ||
        !session.receiver.overwrite && pathExists session.disk finalPath then (named, false)
    else if faults.fopen then (named, false)
    else
      ({ session.withFile id
          { file with finalPath, incompletePath, stream := some 0, wasOpened := true } with
        disk := Function.update session.disk incompletePath (some []) }, true)

/-- The stream of a file, positioned for a write or a seek to an offset. -/
def positioned (faults : Faults) (file : SavedFile) (offset : Nat) : Option Nat :=
  if offset = file.nextOffset then file.stream
  else if faults.fseek then none
  else file.stream.map fun _ => offset

def writeFile (faults : Faults) (session : Session) (id : Fin maxFiles) (offset : Nat)
    (data : Bytes) (flushNow : Bool) : Session × Bool :=
  let file := session.file id
  if file.stream.isNone || file.bad || data.isEmpty || decide (offset > int64Max) ||
      decide (data.length > int64Max - offset) then (session, false)
  else
    match positioned faults file offset with
    | none => (session, false)
    | some position =>
      let written := data.take (faults.shortWrite.getD data.length)
      let content := SparseFile.pwrite 0 ((session.disk file.incompletePath).getD []) position written
      let disk := Function.update session.disk file.incompletePath (some content)
      let stream := some (position + written.length)
      if written.length < data.length then
        ({ session.withFile id { file with stream } with disk }, false)
      else
        ({ session.withFile id { file with stream, nextOffset := offset + data.length } with
          disk }, !(flushNow && faults.fflush id))

def seekFile (faults : Faults) (session : Session) (id : Fin maxFiles) (offset : Nat) :
    Session × Bool :=
  let file := session.file id
  if file.stream.isNone || file.bad || decide (offset > int64Max) || faults.fseek then
    (session, false)
  else
    (session.withFile id { file with stream := some offset, nextOffset := offset }, true)

def closeFile (faults : Faults) (session : Session) (id : Fin maxFiles) : Session × Bool :=
  let file := session.file id
  if file.stream.isNone || file.bad then (session, false)
  else
    let good := !faults.fflush id && !faults.fclose
    (session.withFile id
      { file with stream := none, wasClosed := file.wasClosed || good, bad := file.bad || !good },
      good)

/-- `MLS_SYNC`: every open stream is flushed. -/
def syncFiles (faults : Faults) (session : Session) : Bool :=
  (List.finRange maxFiles).all fun id => !((session.file id).stream.isSome && faults.fflush id)

def openedFiles (receiver : Receiver) : List (Fin maxFiles) :=
  (List.finRange maxFiles).filter fun id => (receiver.files id).wasOpened

def refusesCommit (session : Session) : Bool :=
  (openedFiles session.receiver).isEmpty ||
    (openedFiles session.receiver).any fun id =>
      let file := session.file id
      file.stream.isSome || !file.wasClosed || file.bad ||
        !session.receiver.overwrite && pathExists session.disk file.finalPath

/-- One `rename` of the C library; a missing source is a failure. -/
def tryRename (failed : Bool) (disk : Disk) (source target : Path) : Option Disk :=
  if failed || (disk source).isNone then none else some (rename disk source target)

/-- The renames of the files in the list, with those done before for the roll-back. -/
def commitRenames (faults : Faults) (files : Fin maxFiles → SavedFile) :
    List (Fin maxFiles) → List (Fin maxFiles) → Disk → Disk × Bool
  | _, [], disk => (disk, true)
  | done, id :: rest, disk =>
    match tryRename (faults.rename id) disk (files id).incompletePath (files id).finalPath with
    | some disk => commitRenames faults files (done ++ [id]) rest disk
    | none =>
      (done.foldl (fun disk earlier =>
        (tryRename (faults.restore earlier) disk (files earlier).finalPath
          (files earlier).incompletePath).getD disk) disk, false)

def commitFiles (faults : Faults) (session : Session) : Session × Bool :=
  if refusesCommit session then (session, false)
  else
    let (disk, committed) :=
      commitRenames faults session.receiver.files [] (openedFiles session.receiver) session.disk
    ({ session with disk }, committed)

def abortFiles (session : Session) : Session :=
  { session with
    receiver := { session.receiver with
      files := fun id => { session.file id with stream := none } } }

/-- The frame types of `mls_receiver_apply` for a file in range and a payload with a good CRC. -/
def applyType (faults : Faults) (session : Session) (id : Fin maxFiles) (frame : Frame) :
    Session × Bool :=
  let bare := frame.payload.isEmpty
  match frame.type with
  | .open => openFile faults session id frame.payload
  | .write => writeFile faults session id frame.offset frame.payload true
  | .writeStream => writeFile faults session id frame.offset frame.payload false
  | .sync => (session, bare && syncFiles faults session)
  | .seek => if bare then seekFile faults session id frame.offset else (session, false)
  | .close => if bare then closeFile faults session id else (session, false)
  | .commit => if bare then commitFiles faults session else (session, false)
  | .abort => (abortFiles session, true)
  | .ack => (session, false)

def Session.fail (session : Session) : Session :=
  { session with receiver := { session.receiver with hadError := true } }

def receiverApply (faults : Faults) (session : Session) (frame : Frame) : Session × Bool :=
  if inside : frame.fileId < maxFiles then
    if session.receiver.hadError || decide (frame.payload.length > maxPayload) then (session, false)
    else if !frame.payload.isEmpty && crc32 frame.payload != frame.crc then (session.fail, false)
    else
      match applyType faults session ⟨frame.fileId, inside⟩ frame with
      | (session, true) => (if frame.type = .abort then session.fail else session, true)
      | (session, false) => (session.fail, false)
  else (session, false)

end MisrcGui.LocalSave
