import MisrcGui.Library.BigEndian
import MisrcGui.Library.Layout
import MisrcGui.Library.NumberText
import MisrcGui.Library.Percent
import MisrcGui.Library.Renames

/-! The cache of sample counts, `gui_playback_length_cache.c`, over files by their paths. A record
is published by a rename from a temporary name. -/
namespace MisrcGui.Playback.LengthCache
open Library
open Library.Layout (field)
open Library.Percent (ascii)

abbrev Bytes := List UInt8
abbrev Path := Bytes

inductive Node where
  | regular (bytes : Bytes)
  | directory
  | special
deriving DecidableEq

abbrev Files := Renames.Store Path Node

def cachePathCap : Nat := 4096
def cacheFingerprintBytes : Nat := 4096
def cacheRecordBytes : Nat := 96
def cacheVersion : UInt32 := 2

structure Key where
  fileSize : UInt64
  fileDevice : UInt64
  fileId : UInt64
  mtimeSeconds : Int64
  mtimeNanoseconds : UInt32
  headBytes : UInt32
  tailBytes : UInt32
  headHash : UInt64
  tailHash : UInt64
deriving DecidableEq

def cacheHash (bytes : Bytes) : UInt64 :=
  bytes.foldl (fun hash byte => (hash ^^^ byte.toUInt64) * 1099511628211) 14695981039346656037

def cachePut32 (value : UInt32) : Bytes := (BigEndian.encode 4 value.toNat).reverse

def cachePut64 (value : UInt64) : Bytes := (BigEndian.encode 8 value.toNat).reverse

def cacheGet32 (bytes : Bytes) : UInt32 := UInt32.ofNat (BigEndian.decode bytes.reverse)

def cacheGet64 (bytes : Bytes) : UInt64 := UInt64.ofNat (BigEndian.decode bytes.reverse)

def cacheValidKey (key : Key) : Bool :=
  if key.fileSize = 0 || key.mtimeNanoseconds ≥ 1000000000 then false
  else
    let count := if key.fileSize.toNat < cacheFingerprintBytes then key.fileSize.toUInt32
      else UInt32.ofNat cacheFingerprintBytes
    key.headBytes == count && key.tailBytes == count

def cacheEncodeKey (key : Key) : Bytes :=
  cachePut64 key.fileSize ++ (cachePut64 key.fileDevice ++ (cachePut64 key.fileId ++
    (cachePut64 key.mtimeSeconds.toUInt64 ++ (cachePut32 key.mtimeNanoseconds ++
      (cachePut32 key.headBytes ++ (cachePut32 key.tailBytes ++ (cachePut32 0 ++
        (cachePut64 key.headHash ++ cachePut64 key.tailHash))))))))

/-- `%016x`. -/
def hex16 (value : UInt64) : Bytes :=
  (List.range 16).map fun i =>
    let digit := value.toNat / 16 ^ (15 - i) % 16
    UInt8.ofNat (if digit < 10 then 48 + digit else 87 + digit)

/-- The directory is that of `cache_directory`, which has none where the environment does not
allow one. -/
def cachePath (directory : Option Path) (key : Key) : Option Path :=
  if cacheValidKey key then
    directory.bind fun directory =>
      let path := directory ++ (ascii "/" ++ (hex16 (cacheHash (cacheEncodeKey key)) ++
        ascii ".bin"))
      if path.length < cachePathCap then some path else none
  else none

def recordMagic : Bytes := ascii "MISRCPLC"

def recordBody (key : Key) (samples : UInt64) : Bytes :=
  recordMagic ++ (cachePut32 cacheVersion ++ (cachePut32 (UInt32.ofNat cacheRecordBytes) ++
    (cacheEncodeKey key ++ cachePut64 samples)))

def recordOf (key : Key) (samples : UInt64) : Bytes :=
  recordBody key samples ++ cachePut64 (cacheHash (recordBody key samples))

/-- `cache_read_record`, where the reads of a regular file may fail. -/
def cacheReadRecord (files : Files) (path : Path) (readable : Bool) : Option Bytes :=
  match files path with
  | some (.regular bytes) =>
    if bytes.length = cacheRecordBytes && readable then some bytes else none
  | _ => none

def recordSamples (key : Key) (record : Bytes) : Option UInt64 :=
  if field record 0 8 ≠ recordMagic || cacheGet32 (field record 8 4) ≠ cacheVersion ||
      cacheGet32 (field record 12 4) ≠ UInt32.ofNat cacheRecordBytes ||
      field record 16 64 ≠ cacheEncodeKey key ||
      cacheGet64 (field record 88 8) ≠ cacheHash (record.take 88) then none
  else
    let count := cacheGet64 (field record 80 8)
    if count = 0 then none else some count

/-- `gui_playback_length_cache_lookup`; `none` is the return value `false`. -/
def guiPlaybackLengthCacheLookup (directory : Option Path) (files : Files) (key : Key)
    (readable : Bool) : Option UInt64 := do
  let path ← cachePath directory key
  let record ← cacheReadRecord files path readable
  recordSamples key record

/-- What a call of `write` returns. -/
inductive WriteResult where
  | wrote (count : Nat)
  | interrupted
  | failed

/-- What the system does in a store. Of the directory it may fail to make one. -/
structure Conditions where
  directoryMade : Bool
  opens : Bool
  writes : List WriteResult
  syncs : Bool
  closes : Bool
  renames : Bool
  unlinks : Bool

/-- The bytes that are written, and whether they are all; no call is left where the writes fail
from then on. -/
def writeLoop : List WriteResult → Nat → Nat × Bool
  | [], total => (total, decide (total ≥ cacheRecordBytes))
  | result :: rest, total =>
    if total < cacheRecordBytes then
      match result with
      | .interrupted => writeLoop rest total
      | .failed => (total, false)
      | .wrote count =>
        if count = 0 then (total, false)
        else writeLoop rest (total + min count (cacheRecordBytes - total))
    else (total, true)

/-- `cache_write_record`; the last result is `created`. -/
def cacheWriteRecord (conditions : Conditions) (files : Files) (temporary : Path)
    (record : Bytes) : Files × Bool × Bool :=
  if conditions.opens && (files temporary).isNone then
    let (total, ok) := writeLoop conditions.writes 0
    (Function.update files temporary (some (.regular (record.take total))),
      ok && conditions.syncs && conditions.closes, true)
  else (files, false, false)

def cacheRemoveTemporary (conditions : Conditions) (files : Files) (path : Path) : Files :=
  if conditions.unlinks then Function.update files path none else files

def cacheReplace (conditions : Conditions) (files : Files) (temporary path : Path) :
    Files × Bool :=
  if conditions.renames && files path ≠ some .directory then
    (Renames.rename files temporary path, true)
  else (files, false)

def temporaryPath (path : Path) (pid : Nat) (sequence : UInt64) : Path :=
  path ++ (ascii ".tmp-" ++ (NumberText.decimal pid ++ (ascii "-" ++ hex16 sequence)))

/-- The files, and the process with its `cache_temporary_sequence`. -/
structure State where
  files : Files
  pid : Nat
  sequence : UInt64

/-- `gui_playback_length_cache_store` behind the choice of its temporary name. -/
def publish (conditions : Conditions) (files : Files) (temporary path : Path) (record : Bytes) :
    Files × Bool :=
  match cacheWriteRecord conditions files temporary record with
  | (files, true, _) =>
    match cacheReplace conditions files temporary path with
    | (files, true) => (files, true)
    | (files, false) => (cacheRemoveTemporary conditions files temporary, false)
  | (files, false, true) => (cacheRemoveTemporary conditions files temporary, false)
  | (files, false, false) => (files, false)

def guiPlaybackLengthCacheStore (directory : Option Path) (conditions : Conditions)
    (state : State) (key : Key) (samples : UInt64) : State × Bool :=
  if samples = 0 then (state, false)
  else
    match cachePath directory key with
    | none => (state, false)
    | some path =>
      if !conditions.directoryMade then (state, false)
      else
        let temporary := temporaryPath path state.pid state.sequence
        let state := { state with sequence := state.sequence + 1 }
        if temporary.length < cachePathCap then
          let (files, ok) := publish conditions state.files temporary path (recordOf key samples)
          ({ state with files }, ok)
        else (state, false)

end MisrcGui.Playback.LengthCache
