import MisrcGui.Library.Renames
import MisrcGui.Library.Search
import MisrcGui.Update.Commands

/-! `gui_updater_install_asset`: the download, its payload, the archive of the old binary. -/
namespace MisrcGui.Update.Install
open Library Renames
open Library.Percent (ascii)

inductive Node where
  | file (bytes : List UInt8)
  | folder (entries : List (Text × List UInt8))
deriving DecidableEq

abbrev Disk := Store Text Node

/-- One call, with the answers of everything outside the updater. `fetched` is what curl
leaves at the download path, `unpacked` what the extraction finds in the asset, in its
order, `listing` the names `readdir` reports. The last three flags tell whether the
system performs the three renames. -/
structure Attempt where
  assetUrl : Text
  assetName : Text
  currentVersion : Text
  executable : Option Text
  updatesDir : Option Text
  fetched : Option (List UInt8)
  curlRc : Int
  dirsReady : Bool
  systemDir : Option Text
  mountRc : Int
  unpacked : List (Text × Node)
  extractRc : Int
  listing : List Text
  archives : Bool
  installs : Bool
  restores : Bool

/-- How a call ends. Only `installed` returns true. -/
inductive Ending where
  | refused (status : Text)
  | installed (archive : Text)
  | restored (download : Text)
  | stranded (archive download : Text)
deriving DecidableEq

def Ending.returns : Ending → Bool
  | .installed _ => true
  | _ => false

/-- What `status_out` receives. -/
def Ending.status : Ending → Text
  | .refused status => status
  | .installed archive =>
    ascii "Update installed - restart MISRC to run it. Old version archived at " ++ archive
  | .restored download =>
    ascii "install failed at the final step; the old version was restored. Download kept at " ++
      download
  | .stranded archive download =>
    ascii "install failed AND the old version could not be restored; " ++
      ascii "the old version is archived at " ++ archive ++ ascii ". Download kept at " ++ download

def Ending.archivePath : Ending → Text
  | .installed archive => archive
  | _ => []

def isFile (disk : Disk) (path : Text) : Bool :=
  match disk path with
  | some (.file _) => true
  | _ => false

def hyphen : UInt8 := 45

/-- `gui_updater_build_archive_path`: at most 63 bytes of the version. -/
def buildArchivePath (target version : Text) : Option Text :=
  if target = [] then none
  else
    let safe := (version.take 63).map fun c => if Percent.unreserved c then c else hyphen
    let path := target ++ ascii ".archived-" ++ safe
    if fits pathMax path then some path else none

def macosAppRoot (exe : Text) : Option Text :=
  match Search.breakAt (ascii "/Contents/MacOS/") exe with
  | some (root, _) => if root = [] ∨ !fits pathMax root then none else some root
  | none => if fits pathMax exe then some exe else none

def appName : Text := ascii "MISRC.app"

def inPayload (updatesDir name : Text) : Text := payloadDir updatesDir ++ slash :: name

structure Plan where
  exe : Text
  updatesDir : Text
  download : Text

def plan (platform : Platform) (a : Attempt) : Except Text Plan :=
  if a.assetUrl = [] ∨ a.assetName = [] ∨ a.currentVersion = [] then
    .error (ascii "invalid update asset")
  else match a.executable with
    | none => .error (ascii "unable to resolve the running app path")
    | some exe => match a.updatesDir with
      | none => .error (ascii "unable to create the updates directory")
      | some updatesDir =>
        let download := join updatesDir a.assetName
        if !fits pathMax download then .error (ascii "download path too long")
        else if !fits (pathMax + urlMax + 64) (downloadCommand platform download a.assetUrl) then
          .error (ascii "download command too long")
        else .ok ⟨exe, updatesDir, download⟩

def targetPath (platform : Platform) (p : Plan) : Option Text :=
  if platform = .macos then macosAppRoot p.exe
  else if fits pathMax p.exe then some p.exe else none

def fetch (a : Attempt) (p : Plan) (disk : Disk) : Disk :=
  match a.fetched with
  | none => disk
  | some bytes => Function.update disk p.download (some (.file bytes))

def kept (text : String) (p : Plan) : Text :=
  ascii text ++ ascii " (download kept at " ++ p.download ++ ascii ")"

def mountReady (a : Attempt) (p : Plan) : Except Text Unit :=
  let mount := mountDir p.updatesDir
  let payload := payloadDir p.updatesDir
  if !fits pathMax mount ∨ !fits pathMax payload then .error (kept "payload path too long" p)
  else if !a.dirsReady then .error (kept "unable to create payload dirs" p)
  else if !fits (pathMax * 2 + 64) (mountCommand mount p.download) then
    .error (kept "mount command too long" p)
  else if a.mountRc ≠ 0 then
    .error (ascii "unable to mount the downloaded DMG (kept at " ++ p.download ++ ascii ")")
  else
    let app := mount ++ slash :: appName
    if !fits pathMax app ∨
        !fits (pathMax * 2 + 64) (copyCommand app (payload ++ slash :: appName)) then
      .error (kept "copy command too long" p)
    else .ok ()

def unpackReady (platform : Platform) (a : Attempt) (p : Plan) : Except Text Unit :=
  let payload := payloadDir p.updatesDir
  if !fits pathMax payload then .error (kept "payload path too long" p)
  else if !a.dirsReady then .error (kept "unable to create the payload dir" p)
  else if platform = .windows then
    match a.systemDir with
    | none => .error (ascii "unable to locate Windows tar")
    | some system =>
      if !fits pathMax system then .error (ascii "unable to locate Windows tar")
      else if !fits (pathMax * 2 + 64) (tarCommand system p.download payload) then
        .error (kept "extract command too long" p)
      else .ok ()
  else if !fits (pathMax * 2 + 64) (unzipCommand p.download payload) then
    .error (kept "extract command too long" p)
  else .ok ()

def extractReady (platform : Platform) (a : Attempt) (p : Plan) (disk : Disk) :
    Except Text Unit :=
  if a.curlRc ≠ 0 ∨ !isFile disk p.download then
    .error (ascii "update download failed (curl rc=" ++ ascii (toString a.curlRc) ++
      ascii "); use the Releases Page button")
  else if platform = .macos then mountReady a p
  else unpackReady platform a p

/-- `cp -R` puts the source into a folder that is already there. -/
def copyInto (existing : Option Node) (source : Node) : Node :=
  match existing, source with
  | some (.folder old), .folder new =>
    let nested := new.map fun entry => (appName ++ slash :: entry.1, entry.2)
    .folder (old.filter (fun entry => entry.1 ∉ nested.map Prod.fst) ++ nested)
  | some (.folder old), .file bytes =>
    .folder (old.filter (fun entry => entry.1 ≠ appName) ++ [(appName, bytes)])
  | some (.file bytes), .folder _ => .file bytes
  | _, source => source

def payload (platform : Platform) (a : Attempt) : List (Text × Node) :=
  if platform = .macos then a.unpacked.find? (fun entry => entry.1 = appName) |>.toList
  else a.unpacked

def unpack (platform : Platform) (updatesDir : Text) (disk : Disk) (entry : Text × Node) : Disk :=
  let path := inPayload updatesDir entry.1
  Function.update disk path
    (some (if platform = .macos then copyInto (disk path) entry.2 else entry.2))

def extract (platform : Platform) (a : Attempt) (p : Plan) (disk : Disk) : Disk :=
  (payload platform a).foldl (unpack platform p.updatesDir) disk

/-- `gui_updater_first_file_in_dir` on the payload folder. -/
def firstFileInDir (disk : Disk) (updatesDir : Text) (listing : List Text) : Option Text :=
  ((listing.filter fun name => name ≠ ascii "." ∧ name ≠ ascii "..").map
    (inPayload updatesDir)).find? fun candidate => fits pathMax candidate ∧ isFile disk candidate

def stage (platform : Platform) (a : Attempt) (p : Plan) (disk : Disk) : Except Text Text :=
  if platform = .macos then
    let staged := inPayload p.updatesDir appName
    if a.extractRc ≠ 0 then .error (kept "unable to stage the new app" p)
    else if !fits pathMax staged then .error (ascii "staged app path too long")
    else .ok staged
  else if a.extractRc ≠ 0 then
    .error (ascii "unable to extract the download (kept at " ++ p.download ++
      ascii "); install it manually")
  else match firstFileInDir disk p.updatesDir a.listing with
    | none => .error (kept "extracted payload not found" p)
    | some staged => .ok staged

/-- `rename` over something: never on Windows, elsewhere a file by a file and an empty
folder by a folder. -/
def replaces (platform : Platform) (moved existing : Node) : Bool :=
  platform ≠ .windows &&
    match moved, existing with
    | .file _, .file _ => true
    | .folder _, .folder entries => entries.isEmpty
    | _, _ => false

def moveTo (platform : Platform) (disk : Disk) (source target : Text) (performed : Bool) :
    Option Disk :=
  match disk source with
  | none => none
  | some moved =>
    if performed && (disk target).all (replaces platform moved) then
      some (rename disk source target)
    else none

def replaceTarget (platform : Platform) (a : Attempt) (p : Plan) (staged : Text) (disk : Disk) :
    Disk × Ending :=
  match targetPath platform p with
  | none => (disk, .refused (if platform = .macos then ascii "unable to resolve the app bundle path"
      else ascii "app path too long"))
  | some target => match buildArchivePath target a.currentVersion with
    | none => (disk, .refused (ascii "unable to build the archive path for the old version"))
    | some archive => match moveTo platform disk target archive a.archives with
      | none => (disk, .refused (ascii "unable to archive the old version " ++
          ascii "(rename failed; nothing was changed). Download kept at " ++ p.download))
      | some archived => match moveTo platform archived staged target a.installs with
        | some installed => (installed, .installed archive)
        | none => match moveTo platform archived archive target a.restores with
          | some restored => (restored, .restored p.download)
          | none => (archived, .stranded archive p.download)

def installAsset (platform : Platform) (a : Attempt) (disk : Disk) : Disk × Ending :=
  match plan platform a with
  | .error status => (disk, .refused status)
  | .ok p =>
    let fetched := fetch a p disk
    match extractReady platform a p fetched with
    | .error status => (fetched, .refused status)
    | .ok () =>
      let extracted := extract platform a p fetched
      match stage platform a p extracted with
      | .error status => (extracted, .refused status)
      | .ok staged => replaceTarget platform a p staged extracted

variable {platform : Platform} {a : Attempt} {p : Plan} {disk next : Disk}
  {source target archive staged path : Text}

theorem fetch_other (apart : a.fetched.isSome → path ≠ p.download) :
    fetch a p disk path = disk path := by
  unfold fetch
  cases fetched : a.fetched with
  | none => rfl
  | some bytes =>
    rw [fetched] at apart
    exact Function.update_of_ne (apart rfl) _ _

theorem foldl_unpack_other {updatesDir : Text} {entries : List (Text × Node)}
    (apart : ∀ entry ∈ entries, inPayload updatesDir entry.1 ≠ path) :
    entries.foldl (unpack platform updatesDir) disk path = disk path := by
  induction entries generalizing disk with
  | nil => rfl
  | cons entry entries ih =>
    rw [List.foldl_cons, ih fun other member => apart other (List.mem_cons_of_mem _ member)]
    have here := apart entry (List.mem_cons_self ..)
    exact Function.update_of_ne here.symm _ _

theorem extract_other
    (apart : ∀ entry ∈ payload platform a, inPayload p.updatesDir entry.1 ≠ path) :
    extract platform a p disk path = disk path :=
  foldl_unpack_other apart

theorem foldl_unpack_written {updatesDir : Text} {entries : List (Text × Node)}
    (other : platform ≠ .macos) (written : ∃ entry ∈ entries, inPayload updatesDir entry.1 = path) :
    ∃ entry ∈ entries,
      entries.foldl (unpack platform updatesDir) disk path = some entry.2 := by
  induction entries generalizing disk with
  | nil =>
    obtain ⟨entry, member, -⟩ := written
    cases member
  | cons entry entries ih =>
    by_cases later : ∃ entry ∈ entries, inPayload updatesDir entry.1 = path
    · have found : ∃ last ∈ entries, entries.foldl (unpack platform updatesDir)
          (unpack platform updatesDir disk entry) path = some last.2 := ih later
      obtain ⟨last, member, stands⟩ := found
      exact ⟨last, List.mem_cons_of_mem _ member, stands⟩
    · obtain ⟨first, member, here⟩ := written
      rcases List.mem_cons.mp member with rfl | tail
      · refine ⟨first, List.mem_cons_self .., ?_⟩
        have untouched : ∀ entry ∈ entries, inPayload updatesDir entry.1 ≠ path :=
          fun entry member same => later ⟨entry, member, same⟩
        rw [List.foldl_cons, foldl_unpack_other untouched, unpack, here, Function.update_self,
          if_neg other]
      · exact absurd ⟨first, tail, here⟩ later

theorem moveTo_some {performed : Bool}
    (moved : moveTo platform disk source target performed = some next) :
    ∃ node, disk source = some node ∧ (∀ existing, disk target = some existing →
      replaces platform node existing) ∧ next = rename disk source target := by
  unfold moveTo at moved
  split at moved
  · contradiction
  · rename_i node there
    split at moved
    · rename_i granted
      cases moved
      refine ⟨node, there, fun existing taken => ?_, rfl⟩
      rw [taken, Bool.and_eq_true] at granted
      exact granted.2
    · contradiction

theorem buildArchivePath_ne {version : Text}
    (built : buildArchivePath target version = some archive) : archive ≠ target := by
  unfold buildArchivePath at built
  split at built
  · contradiction
  · dsimp only at built
    split at built
    · cases built
      intro same
      have lengths := congrArg List.length same
      rw [List.length_append, List.length_append] at lengths
      have suffix : (ascii ".archived-").length = 10 := by decide
      omega
    · contradiction

theorem buildArchivePath_ne_app {version updatesDir : Text}
    (built : buildArchivePath target version = some archive) :
    archive ≠ inPayload updatesDir appName := by
  unfold buildArchivePath at built
  split at built
  · contradiction
  · dsimp only at built
    split at built
    · cases built
      intro same
      rw [List.append_assoc] at same
      have long : (slash :: appName).length ≤
          (ascii ".archived-" ++ (version.take 63).map fun c =>
            if Percent.unreserved c then c else hyphen).length := by
        rw [List.length_append]
        have suffix : (ascii ".archived-").length = 10 := by decide
        have name : (slash :: appName).length = 10 := by decide
        omega
      have inside := List.suffix_of_suffix_length_le ⟨_, rfl⟩ ⟨_, same⟩ long
      have member := inside.subset (List.mem_cons_self ..)
      rcases List.mem_append.mp member with suffix | version
      · exact absurd suffix (by decide)
      · obtain ⟨c, -, same⟩ := List.mem_map.mp version
        split at same
        · rename_i plain
          rw [same] at plain
          exact absurd plain (by decide)
        · exact absurd same (by decide)
    · contradiction

theorem firstFileInDir_some {updatesDir : Text} {listing : List Text}
    (found : firstFileInDir disk updatesDir listing = some staged) :
    ∃ name ∈ listing, staged = inPayload updatesDir name ∧ isFile disk staged := by
  unfold firstFileInDir at found
  have sound := List.find?_some found
  have member := List.mem_of_find?_eq_some found
  obtain ⟨name, listed, same⟩ := List.mem_map.mp member
  rw [decide_eq_true_eq] at sound
  exact ⟨name, (List.mem_filter.mp listed).1, same.symm, sound.2⟩

end MisrcGui.Update.Install
