import MisrcGui.Library.NumberText
import MisrcGui.Library.Search
import MisrcGui.Update.Commands

/-! The update manifest, and the names and addresses made from it. -/
namespace MisrcGui.Update
open Library
open Library.Percent (ascii)
open Library.NumberText (isDigit isSpace digitsValue)

structure Manifest where
  releasesPage : Text
  tagLookupUrl : Text
  downloadBaseUrl : Text
  assetAndroid : Text
  assetMacos : Text
  assetWindowsX86 : Text
  assetWindowsArm64 : Text
  assetLinuxX86 : Text
  assetLinuxArm64 : Text
deriving DecidableEq

def assetPatternMax : Nat := 128

def colon : UInt8 := 58

def afterKey (text : Text) (key : String) : Option Text :=
  match Search.breakAt (quoted (ascii key)) text with
  | none => none
  | some (_, rest) => match rest.dropWhile isSpace with
    | [] => none
    | c :: rest => if c = colon then some (rest.dropWhile isSpace) else none

/-- The bytes up to the closing quote, on one line and fewer than `room`. -/
def stringBody (room : Nat) : Text → Option Text
  | [] => none
  | c :: text =>
    if c = doubleQuote then some []
    else if c = 10 ∨ c = 13 then none
    else if room ≤ 1 then none
    else (stringBody (room - 1) text).map (c :: ·)

def findString (text : Text) (key : String) (outLen : Nat) : Option Text :=
  match afterKey text key with
  | some (c :: body) =>
    if c = doubleQuote then (stringBody outLen body).filter (· ≠ []) else none
  | _ => none

def findInt (text : Text) (key : String) : Option Nat :=
  match afterKey text key with
  | some (c :: rest) =>
    if isDigit c then some (digitsValue ((c :: rest).takeWhile isDigit)) else none
  | _ => none

def toLower (c : UInt8) : UInt8 := if 65 ≤ c ∧ c ≤ 90 then c + 32 else c

def ciStartsWith (value front : Text) : Bool :=
  (front.map toLower).isPrefixOf (value.map toLower)

def urlSchemeOk (url : Text) : Bool :=
  if ciStartsWith url (ascii "https://") then true
  else if ciStartsWith url (ascii "http://") then
    let host := ((url.drop 7).take 64).takeWhile fun c => c ≠ colon ∧ c ≠ slash
    host = ascii "127.0.0.1" || host = ascii "localhost" || host = ascii "[::1]"
  else false

def placeholder : Text := ascii "\x7btag\x7d"

def assetPatternValid (pattern : Text) : Bool :=
  (Search.breakAt placeholder pattern).isSome && fits assetPatternMax pattern &&
    pattern.all fun c => !isSpace c && c != doubleQuote && c != 39 && c != backslash

/-- `gui_updater_parse_manifest_text`. The text is a C string. -/
def parseManifestText (text : Text) : Option Manifest := do
  let text := text.takeWhile (· ≠ 0)
  let schema ← findInt text "schema"
  if schema ≠ 1 then none else
  let releasesPage ← findString text "releases_page" urlMax
  let tagLookupUrl ← findString text "tag_lookup_url" urlMax
  let downloadBaseUrl ← findString text "download_base_url" urlMax
  let assetAndroid ← findString text "asset_android" assetPatternMax
  let assetMacos ← findString text "asset_macos" assetPatternMax
  let assetWindowsX86 ← findString text "asset_windows_x86" assetPatternMax
  let assetWindowsArm64 ← findString text "asset_windows_arm64" assetPatternMax
  let assetLinuxX86 ← findString text "asset_linux_x86" assetPatternMax
  let assetLinuxArm64 ← findString text "asset_linux_arm64" assetPatternMax
  if [releasesPage, tagLookupUrl, downloadBaseUrl].all urlSchemeOk &&
      [assetAndroid, assetMacos, assetWindowsX86, assetWindowsArm64, assetLinuxX86,
        assetLinuxArm64].all assetPatternValid then
    some ⟨releasesPage, tagLookupUrl, downloadBaseUrl, assetAndroid, assetMacos, assetWindowsX86,
      assetWindowsArm64, assetLinuxX86, assetLinuxArm64⟩
  else none

def platformAssetPattern (platform : Platform) (arm64 : Bool) (m : Manifest) : Text :=
  match platform, arm64 with
  | .macos, _ => m.assetMacos
  | .windows, true => m.assetWindowsArm64
  | .windows, false => m.assetWindowsX86
  | .linux, true => m.assetLinuxArm64
  | .linux, false => m.assetLinuxX86

def isReleaseTagSafe (tag : Text) : Bool := tag ≠ [] && tag.all Percent.unreserved

/-- `gui_updater_build_asset_filename`, for a buffer of 192 bytes. -/
def buildAssetFilename (pattern tag : Text) : Option Text :=
  if !isReleaseTagSafe tag then none
  else match Search.breakAt placeholder pattern with
    | none => none
    | some (front, rest) =>
      if fits 192 (front ++ tag ++ rest) then some (front ++ tag ++ rest) else none

/-- `gui_updater_build_asset_url`, with the buffer sizes of its callers: the address and the
name of the asset. -/
def buildAssetUrl (platform : Platform) (arm64 : Bool) (m : Manifest) (tag : Text) :
    Option (Text × Text) :=
  match buildAssetFilename (platformAssetPattern platform arm64 m) tag with
  | none => none
  | some asset =>
    let url := m.downloadBaseUrl ++ slash :: (tag ++ slash :: asset)
    if fits urlMax url then some (url, asset) else none

/-- `gui_updater_get_updates_dir` outside Windows, once the folder exists. -/
def updatesDir (platform : Platform) (home : Text) : Option Text :=
  let dir := home ++ (if platform = .macos then ascii "/Library/Application Support/misrc/updates"
    else ascii "/.local/share/misrc/updates")
  if home ≠ [] ∧ fits pathMax dir then some dir else none

variable {text pattern tag asset : Text} {m : Manifest}

theorem parseManifestText_patterns (accepted : parseManifestText text = some m)
    (platform : Platform) (arm64 : Bool) :
    assetPatternValid (platformAssetPattern platform arm64 m) := by
  unfold parseManifestText at accepted
  obtain ⟨schema, -, accepted⟩ := Option.bind_eq_some_iff.mp accepted
  split at accepted
  · contradiction
  · simp only [Option.bind_eq_bind, Option.bind_eq_some_iff] at accepted
    obtain ⟨_, -, _, -, _, -, _, -, _, -, _, -, _, -, _, -, _, -, accepted⟩ := accepted
    split at accepted
    · rename_i valid
      cases accepted
      simp only [Bool.and_eq_true, List.all_cons] at valid
      obtain ⟨-, -, macos, windowsX86, windowsArm64, linuxX86, linuxArm64, -⟩ := valid
      cases platform with
      | macos => exact macos
      | windows =>
        cases arm64 with
        | true => exact windowsArm64
        | false => exact windowsX86
      | linux =>
        cases arm64 with
        | true => exact linuxArm64
        | false => exact linuxX86
    · contradiction

theorem assetPatternValid_bytes (valid : assetPatternValid pattern) :
    ∀ c ∈ pattern, c ≠ doubleQuote ∧ c ≠ backslash := by
  intro c member
  unfold assetPatternValid at valid
  rw [Bool.and_eq_true, List.all_eq_true] at valid
  have plain := valid.2 c member
  simp only [Bool.and_eq_true, bne_iff_ne] at plain
  exact ⟨plain.1.1.2, plain.2⟩

theorem buildAssetFilename_some (built : buildAssetFilename pattern tag = some asset) :
    isReleaseTagSafe tag ∧ ∃ front rest, Search.breakAt placeholder pattern = some (front, rest) ∧
      asset = front ++ tag ++ rest := by
  unfold buildAssetFilename at built
  split at built
  · contradiction
  · rename_i safe
    split at built
    · contradiction
    · rename_i front rest found
      split at built
      · cases built
        rw [Bool.not_eq_true', Bool.not_eq_false] at safe
        exact ⟨safe, front, rest, found, rfl⟩
      · contradiction

end MisrcGui.Update
