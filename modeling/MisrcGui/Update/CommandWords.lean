import Mathlib.Data.Bool.AllAny
import MisrcGui.Library.ShellWords
import MisrcGui.Update.Manifest

/-! The command lines made from a manifest and a tag, as a POSIX shell reads them. -/
namespace MisrcGui.Update.CommandWords
open Library ShellWords
open Library.Percent (ascii)

def options (platform : Platform) (texts : List String) : List Piece :=
  .bare (curl platform) :: texts.map fun text => .bare (ascii text)

def tagLookupPieces (platform : Platform) (url : Text) : List Piece :=
  options platform ["-fsSI", "--max-time", "10"] ++ [.quoted url]

def downloadPieces (platform : Platform) (path url : Text) : List Piece :=
  options platform ["-fsSL", "--max-time", "900", "-o"] ++ [.quoted path, .quoted url]

def unzipPieces (download payload : Text) : List Piece :=
  [.bare (ascii "unzip"), .bare (ascii "-o"), .bare (ascii "-j"), .quoted download,
    .bare (ascii "-d"), .quoted payload]

def mountPieces (mount download : Text) : List Piece :=
  [.bare (ascii "hdiutil"), .bare (ascii "attach"), .bare (ascii "-nobrowse"),
    .bare (ascii "-readonly"), .bare (ascii "-mountpoint"), .quoted mount, .quoted download]

def copyPieces (source target : Text) : List Piece :=
  [.bare (ascii "cp"), .bare (ascii "-R"), .quoted source, .quoted target]

def detachPieces (mount : Text) : List Piece :=
  [.bare (ascii "hdiutil"), .bare (ascii "detach"), .quoted mount]

/-- A command line and its pieces, whose texts are the intended words. -/
structure Line where
  command : Text
  pieces : List Piece

def Line.Intended (line : Line) : Prop :=
  words line.command = some (line.pieces.map Piece.text)

def extractionLines (platform : Platform) (dir download : Text) : List Line :=
  let payload := payloadDir dir
  let mount := mountDir dir
  if platform = .macos then
    if !fits pathMax mount ∨ !fits pathMax payload then []
    else
      let app := mount ++ ascii "/MISRC.app"
      ⟨mountCommand mount download, mountPieces mount download⟩ ::
        if !fits pathMax app then []
        else
          [⟨copyCommand app (payload ++ ascii "/MISRC.app"),
              copyPieces app (payload ++ ascii "/MISRC.app")⟩,
            ⟨detachCommand mount, detachPieces mount⟩]
  else if !fits pathMax payload then []
  else [⟨unzipCommand download payload, unzipPieces download payload⟩]

/-- The path of the download and its address, when there are any. -/
def download (platform : Platform) (arm64 : Bool) (m : Manifest) (tag home : Text) :
    Option (Text × Text × Text) :=
  match buildAssetUrl platform arm64 m tag, updatesDir platform home with
  | some (url, name), some dir =>
    if fits pathMax (join dir name) then some (dir, join dir name, url) else none
  | _, _ => none

/-- The tag lookup, then the download and the extraction. Windows starts its commands
without a shell. -/
def commandLines (platform : Platform) (arm64 : Bool) (m : Manifest) (tag home : Text) :
    List Line :=
  if platform = .windows then [] else
  ⟨tagLookupCommand platform m.tagLookupUrl, tagLookupPieces platform m.tagLookupUrl⟩ ::
    match download platform arm64 m tag home with
    | none => []
    | some (dir, path, url) =>
      ⟨downloadCommand platform path url, downloadPieces platform path url⟩ ::
        extractionLines platform dir path

variable {platform : Platform} {arm64 : Bool} {m : Manifest}
  {text tag home url path dir front rest : Text}

theorem tagLookupCommand_eq :
    tagLookupCommand platform url = render (tagLookupPieces platform url) := by
  cases platform <;> rfl

theorem downloadCommand_eq :
    downloadCommand platform path url = render (downloadPieces platform path url) := by
  unfold downloadCommand
  rw [List.append_assoc, List.append_assoc]
  cases platform <;> rfl

theorem unzipCommand_eq : unzipCommand path dir = render (unzipPieces path dir) := by
  unfold unzipCommand
  rw [List.append_assoc, List.append_assoc]
  rfl

theorem mountCommand_eq : mountCommand dir path = render (mountPieces dir path) := by
  unfold mountCommand
  rw [List.append_assoc, List.append_assoc]
  rfl

theorem copyCommand_eq : copyCommand dir path = render (copyPieces dir path) := by
  unfold copyCommand
  rw [List.append_assoc, List.append_assoc]
  rfl

theorem detachCommand_eq : detachCommand dir = render (detachPieces dir) := rfl

structure Line.Valid (line : Line) : Prop where
  command : line.command = render line.pieces
  plain : ∀ piece ∈ line.pieces, piece.Plain

theorem Line.Valid.intended_iff {line : Line} (valid : line.Valid) :
    line.Intended ↔ ∀ text, Piece.quoted text ∈ line.pieces → harmless text := by
  unfold Line.Intended
  rw [valid.command]
  exact words_iff valid.plain

theorem plain_quoted {rest : List Piece} (plain : ∀ piece ∈ rest, piece.Plain) :
    ∀ piece ∈ Piece.quoted text :: rest, piece.Plain :=
  List.forall_mem_cons.mpr ⟨trivial, plain⟩

theorem plain_bare {rest : List Piece} (some : text ≠ [] ∧ text.all ordinary)
    (plain : ∀ piece ∈ rest, piece.Plain) : ∀ piece ∈ Piece.bare text :: rest, piece.Plain :=
  List.forall_mem_cons.mpr ⟨⟨some.1, List.all_eq_true.mp some.2⟩, plain⟩

theorem plain_nil : ∀ piece ∈ ([] : List Piece), piece.Plain := nofun

theorem curl_plain : curl platform ≠ [] ∧ (curl platform).all ordinary := by
  cases platform <;> decide

theorem tagLookup_valid :
    Line.Valid ⟨tagLookupCommand platform url, tagLookupPieces platform url⟩ where
  command := tagLookupCommand_eq
  plain := plain_bare curl_plain <| plain_bare (by decide) <| plain_bare (by decide) <|
    plain_bare (by decide) <| plain_quoted plain_nil

theorem download_valid :
    Line.Valid ⟨downloadCommand platform path url, downloadPieces platform path url⟩ where
  command := downloadCommand_eq
  plain := plain_bare curl_plain <| plain_bare (by decide) <| plain_bare (by decide) <|
    plain_bare (by decide) <| plain_bare (by decide) <| plain_quoted <| plain_quoted plain_nil

theorem unzip_valid : Line.Valid ⟨unzipCommand path dir, unzipPieces path dir⟩ where
  command := unzipCommand_eq
  plain := plain_bare (by decide) <| plain_bare (by decide) <| plain_bare (by decide) <|
    plain_quoted <| plain_bare (by decide) <| plain_quoted plain_nil

theorem mount_valid : Line.Valid ⟨mountCommand dir path, mountPieces dir path⟩ where
  command := mountCommand_eq
  plain := plain_bare (by decide) <| plain_bare (by decide) <| plain_bare (by decide) <|
    plain_bare (by decide) <| plain_bare (by decide) <| plain_quoted <| plain_quoted plain_nil

theorem copy_valid : Line.Valid ⟨copyCommand dir path, copyPieces dir path⟩ where
  command := copyCommand_eq
  plain := plain_bare (by decide) <| plain_bare (by decide) <| plain_quoted <|
    plain_quoted plain_nil

theorem detach_valid : Line.Valid ⟨detachCommand dir, detachPieces dir⟩ where
  command := detachCommand_eq
  plain := plain_bare (by decide) <| plain_bare (by decide) <| plain_quoted plain_nil

/-! The quoted texts in terms of the manifest, the tag and the home folder. -/

theorem tag_plain (safe : isReleaseTagSafe tag) : ∀ c ∈ tag, escapable c = false := by
  intro c member
  unfold isReleaseTagSafe at safe
  rw [Bool.and_eq_true, List.all_eq_true] at safe
  have unreserved := safe.2 c member
  cases special : escapable c with
  | false => rfl
  | true =>
    unfold escapable at special
    simp only [Bool.or_eq_true, beq_iff_eq] at special
    rcases special with (((rfl | rfl) | rfl) | rfl) | rfl <;>
    exact absurd unreserved (by decide)

theorem asset_harmless_iff {pattern asset : Text} (valid : assetPatternValid pattern)
    (built : buildAssetFilename pattern tag = some asset) : harmless asset ↔ harmless pattern := by
  obtain ⟨safe, front, rest, found, rfl⟩ := buildAssetFilename_some built
  have shape := Search.breakAt_eq found
  have bytes := assetPatternValid_bytes valid
  have noBackslash : ShellWords.backslash ∉ pattern := fun member => (bytes _ member).2 rfl
  have tagPlain := tag_plain safe
  have noBackslashAsset : ShellWords.backslash ∉ front ++ tag ++ rest := by
    rw [shape] at noBackslash
    simp only [List.mem_append, not_or] at noBackslash ⊢
    refine ⟨⟨noBackslash.1.1, fun member => ?_⟩, noBackslash.2⟩
    exact absurd (tagPlain _ member) (by decide)
  have middle {text : Text} (plain : ∀ c ∈ text, escapable c = false) : ∀ c ∈ text,
      c ≠ ShellWords.doubleQuote ∧ c ≠ dollar ∧ c ≠ backtick := by
    intro c member
    have special := plain c member
    refine ⟨?_, ?_, ?_⟩ <;>
    · rintro rfl
      exact absurd special (by decide)
  rw [harmless_iff noBackslashAsset, harmless_iff noBackslash, shape]
  simp only [List.forall_mem_append]
  constructor
  · rintro ⟨⟨first, -⟩, last⟩
    exact ⟨⟨first, middle (List.all_iff_forall_prop.mp (by decide))⟩, last⟩
  · rintro ⟨⟨first, -⟩, last⟩
    exact ⟨⟨first, middle tagPlain⟩, last⟩

theorem url_harmless_iff {base asset : Text} (safe : isReleaseTagSafe tag) :
    harmless (base ++ Update.slash :: (tag ++ Update.slash :: asset)) ↔
      harmless (base ++ [Update.slash]) ∧ harmless asset := by
  have tagPlain : harmless (tag ++ [Update.slash]) := by
    apply harmless_of_plain
    intro c member
    rcases List.mem_append.mp member with own | last
    · exact tag_plain safe c own
    · rw [List.mem_singleton.mp last]
      decide
  have second : harmless (tag ++ Update.slash :: asset) =
      (harmless (tag ++ [Update.slash]) && harmless asset) := harmless_split (by decide)
  rw [harmless_split (by decide), Bool.and_eq_true, second, tagPlain, Bool.true_and]

theorem home_harmless {below : Text} (plain : below.all fun c => !escapable c) :
    harmless (home ++ Update.slash :: below) = harmless (home ++ [Update.slash]) := by
  have safe : harmless below := by
    apply harmless_of_plain
    intro c member
    simpa using List.all_eq_true.mp plain c member
  rw [harmless_split (by decide), safe, Bool.and_true]

/-- What `updatesDir` puts below the home folder. -/
def updatesTail (platform : Platform) : Text :=
  if platform = .macos then ascii "Library/Application Support/misrc/updates"
  else ascii ".local/share/misrc/updates"

theorem updatesTail_plain : (updatesTail platform).all fun c => !escapable c := by
  cases platform <;> decide

theorem updatesDir_some (found : updatesDir platform home = some dir) :
    dir = home ++ Update.slash :: updatesTail platform := by
  unfold updatesDir at found
  dsimp only at found
  rw [Option.ite_none_right_eq_some] at found
  rw [← Option.some.inj found.2]
  cases platform <;> rfl

theorem join_updatesDir (name : Text) :
    join (home ++ Update.slash :: updatesTail platform) name =
      home ++ Update.slash :: (updatesTail platform ++ Update.slash :: name) := by
  have last : (home ++ Update.slash :: updatesTail platform).getLast? = some 115 := by
    rw [List.getLast?_append]
    cases platform <;> rfl
  unfold join
  rw [last, if_neg (by decide), List.append_assoc, List.append_assoc]
  rfl

theorem path_harmless_iff {name : Text} :
    harmless (home ++ Update.slash :: (updatesTail platform ++ Update.slash :: name)) ↔
      harmless (home ++ [Update.slash]) ∧ harmless name := by
  have tail : harmless (updatesTail platform ++ [Update.slash]) := by
    cases platform <;> decide
  have second : harmless (updatesTail platform ++ Update.slash :: name) =
      (harmless (updatesTail platform ++ [Update.slash]) && harmless name) :=
    harmless_split (by decide)
  rw [harmless_split (by decide), Bool.and_eq_true, second, tail, Bool.true_and]

theorem download_some (found : download platform arm64 m tag home = some (dir, path, url)) :
    ∃ asset, buildAssetFilename (platformAssetPattern platform arm64 m) tag = some asset ∧
      url = m.downloadBaseUrl ++ Update.slash :: (tag ++ Update.slash :: asset) ∧
      dir = home ++ Update.slash :: updatesTail platform ∧
      path = home ++ Update.slash :: (updatesTail platform ++ Update.slash :: asset) := by
  unfold download at found
  split at found
  · rename_i address name folder built placed
    split at found
    · cases found
      unfold buildAssetUrl at built
      split at built
      · contradiction
      · rename_i asset named
        dsimp only at built
        split at built
        · cases built
          have place := updatesDir_some placed
          exact ⟨name, named, rfl, place, by rw [place, join_updatesDir]⟩
        · contradiction
    · contradiction
  · contradiction

theorem extraction_valid : ∀ line ∈ extractionLines platform dir path, line.Valid := by
  intro line member
  unfold extractionLines at member
  dsimp only at member
  split at member
  · split at member
    · contradiction
    · rcases List.mem_cons.mp member with rfl | member
      · exact mount_valid
      · split at member
        · contradiction
        · rcases List.mem_cons.mp member with rfl | member
          · exact copy_valid
          · rw [List.mem_singleton.mp member]
            exact detach_valid
  · split at member
    · contradiction
    · rw [List.mem_singleton.mp member]
      exact unzip_valid

theorem extraction_harmless (safe : harmless (home ++ [Update.slash])) (known : harmless path) :
    ∀ line ∈ extractionLines platform (home ++ Update.slash :: updatesTail platform) path,
      ∀ text, Piece.quoted text ∈ line.pieces → harmless text := by
  have below (rest : Text) (plain : rest.all fun c => !escapable c) :
      harmless (home ++ Update.slash :: updatesTail platform ++ rest) := by
    have all : (updatesTail platform ++ rest).all fun c => !escapable c := by
      rw [List.all_append, updatesTail_plain, plain, Bool.true_and]
    rw [List.append_assoc, List.cons_append, home_harmless all]
    exact safe
  have payload := below (ascii "/payload") (by decide)
  have mount := below (ascii "/dmgmount") (by decide)
  have app := below (ascii "/dmgmount" ++ ascii "/MISRC.app") (by decide)
  have staged := below (ascii "/payload" ++ ascii "/MISRC.app") (by decide)
  rw [← List.append_assoc] at app staged
  intro line member text quoted
  unfold extractionLines at member
  dsimp only at member
  split at member
  · split at member
    · contradiction
    · rcases List.mem_cons.mp member with rfl | member
      · simp only [mountPieces, List.mem_cons, reduceCtorEq, Piece.quoted.injEq, List.not_mem_nil,
          or_false, false_or] at quoted
        rcases quoted with rfl | rfl
        · exact mount
        · exact known
      · split at member
        · contradiction
        · rcases List.mem_cons.mp member with rfl | member
          · simp only [copyPieces, List.mem_cons, reduceCtorEq, Piece.quoted.injEq,
              List.not_mem_nil, or_false, false_or] at quoted
            rcases quoted with rfl | rfl
            · exact app
            · exact staged
          · rw [List.mem_singleton.mp member] at quoted
            simp only [detachPieces, List.mem_cons, reduceCtorEq, Piece.quoted.injEq,
              List.not_mem_nil, or_false, false_or] at quoted
            rw [quoted]
            exact mount
  · split at member
    · contradiction
    · rw [List.mem_singleton.mp member] at quoted
      simp only [unzipPieces, List.mem_cons, reduceCtorEq, Piece.quoted.injEq, List.not_mem_nil,
        or_false, false_or] at quoted
      rcases quoted with rfl | rfl
      · exact known
      · exact payload

/-- The texts that reach a command line from outside: the two addresses and the pattern of
the manifest, and the home folder. -/
def Safe (platform : Platform) (arm64 : Bool) (m : Manifest) (tag home : Text) : Prop :=
  platform ≠ .windows → harmless m.tagLookupUrl ∧ ((download platform arm64 m tag home).isSome →
    harmless (m.downloadBaseUrl ++ [Update.slash]) ∧
      harmless (platformAssetPattern platform arm64 m) ∧ harmless (home ++ [Update.slash]))

theorem tagLookup_iff :
    Line.Intended ⟨tagLookupCommand platform url, tagLookupPieces platform url⟩ ↔
      harmless url := by
  rw [tagLookup_valid.intended_iff]
  simp [tagLookupPieces, options]

theorem download_iff :
    Line.Intended ⟨downloadCommand platform path url, downloadPieces platform path url⟩ ↔
      harmless path ∧ harmless url := by
  rw [download_valid.intended_iff]
  simp [downloadPieces, options]

/-- Every command line made from an accepted manifest reads as it is meant if and only if
nothing in the addresses, the pattern and the home folder has a meaning in double quotes. -/
theorem lines_intended_iff (text : Text) (m : Manifest) (platform : Platform) (arm64 : Bool)
    (tag home : Text) (accepted : parseManifestText text = some m) :
    (∀ line ∈ commandLines platform arm64 m tag home, line.Intended) ↔
      Safe platform arm64 m tag home := by
  unfold commandLines Safe
  by_cases shell : platform = .windows
  · rw [if_pos shell]
    exact iff_of_true nofun (absurd shell)
  rw [if_neg shell, List.forall_mem_cons, tagLookup_iff, forall_prop_of_true shell]
  apply and_congr_right
  intro _
  cases found : download platform arm64 m tag home with
  | none => exact iff_of_true nofun nofun
  | some line =>
    obtain ⟨dir, path, url⟩ := line
    obtain ⟨asset, named, rfl, rfl, rfl⟩ := download_some found
    have safe := (buildAssetFilename_some named).1
    have pattern := asset_harmless_iff (parseManifestText_patterns accepted platform arm64) named
    dsimp only
    rw [List.forall_mem_cons, download_iff, path_harmless_iff, url_harmless_iff safe, pattern]
    constructor
    · rintro ⟨⟨⟨folder, named⟩, base, -⟩, -⟩ -
      exact ⟨base, named, folder⟩
    · intro all
      obtain ⟨base, named, folder⟩ := all rfl
      refine ⟨⟨⟨folder, named⟩, base, named⟩, fun line member => ?_⟩
      rw [(extraction_valid line member).intended_iff]
      refine extraction_harmless folder ?_ line member
      rw [path_harmless_iff, pattern]
      exact ⟨folder, named⟩

def field (key : String) (value : Text) : Text :=
  quoted (ascii key) ++ ascii ": " ++ value ++ ascii ",\n"

def manifestText (lookup pattern : String) : Text :=
  field "schema" (ascii "1") ++
    field "releases_page" (quoted (ascii "https://h/r")) ++
    field "tag_lookup_url" (quoted (ascii lookup)) ++
    field "download_base_url" (quoted (ascii "https://h/d")) ++
    ["asset_android", "asset_macos", "asset_windows_x86", "asset_windows_arm64",
      "asset_linux_x86", "asset_linux_arm64"].flatMap fun key =>
        field key (quoted (ascii pattern))

def manifestOf (lookup pattern : String) : Manifest :=
  ⟨ascii "https://h/r", ascii lookup, ascii "https://h/d", ascii pattern, ascii pattern,
    ascii pattern, ascii pattern, ascii pattern, ascii pattern⟩

theorem lines_intended_plain :
    parseManifestText (manifestText "https://h/l" "m_\x7btag\x7d.zip") =
        some (manifestOf "https://h/l" "m_\x7btag\x7d.zip") ∧
      ∀ line ∈ commandLines .linux false (manifestOf "https://h/l" "m_\x7btag\x7d.zip")
        (ascii "v1.2") (ascii "/home/u"), line.Intended := by
  have accepted : parseManifestText (manifestText "https://h/l" "m_\x7btag\x7d.zip") =
      some (manifestOf "https://h/l" "m_\x7btag\x7d.zip") := by decide +kernel
  refine ⟨accepted, ?_⟩
  rw [lines_intended_iff _ _ .linux false _ _ accepted]
  intro _
  refine ⟨by decide, fun _ => ⟨by decide, by decide, by decide⟩⟩

/-- An address with a command substitution in it is accepted, and so is a pattern. -/
theorem substitution_accepted :
    ¬∀ (text : Text) (m : Manifest) (platform : Platform) (arm64 : Bool) (tag home : Text),
      parseManifestText text = some m → isReleaseTagSafe tag →
        ∀ line ∈ commandLines platform arm64 m tag home, line.Intended := by
  intro claim
  have accepted : parseManifestText (manifestText "https://h/$(id)" "m_\x7btag\x7d`id`") =
      some (manifestOf "https://h/$(id)" "m_\x7btag\x7d`id`") := by decide +kernel
  have intended := claim _ _ .linux false (ascii "v1.2") (ascii "/home/u") accepted (by decide)
    _ (List.mem_cons_self ..)
  unfold Line.Intended at intended
  exact absurd intended (by decide +kernel)

end MisrcGui.Update.CommandWords
