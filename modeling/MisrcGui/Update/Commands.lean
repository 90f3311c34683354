import MisrcGui.Library.Percent

/-! The command lines of `gui_updater.c`. Paths and addresses stand between double quotes. -/
namespace MisrcGui.Update
open Library.Percent (ascii)

abbrev Text := List UInt8

inductive Platform where
  | windows
  | macos
  | linux
deriving DecidableEq

def pathMax : Nat := 1024

def urlMax : Nat := 512

def doubleQuote : UInt8 := 34

def slash : UInt8 := 47

def backslash : UInt8 := 92

def quoted (text : Text) : Text := doubleQuote :: (text ++ [doubleQuote])

/-- `GUI_UPDATER_CURL_EXE`. -/
def curl : Platform → Text
  | .windows => ascii "curl.exe"
  | _ => ascii "curl"

def manifestCommand (platform : Platform) (source : Text) : Text :=
  curl platform ++ ascii " -fsSL --max-time 15 " ++ quoted source

def tagLookupCommand (platform : Platform) (url : Text) : Text :=
  curl platform ++ ascii " -fsSI --max-time 10 " ++ quoted url

def downloadCommand (platform : Platform) (path url : Text) : Text :=
  curl platform ++ ascii " -fsSL --max-time 900 -o " ++ quoted path ++ ascii " " ++ quoted url

def mountCommand (mountDir download : Text) : Text :=
  ascii "hdiutil attach -nobrowse -readonly -mountpoint " ++ quoted mountDir ++ ascii " " ++
    quoted download

def copyCommand (source target : Text) : Text :=
  ascii "cp -R " ++ quoted source ++ ascii " " ++ quoted target

def detachCommand (mountDir : Text) : Text := ascii "hdiutil detach " ++ quoted mountDir

def tarCommand (systemDir download payloadDir : Text) : Text :=
  quoted (systemDir ++ ascii "\\tar.exe") ++ ascii " -xf " ++ quoted download ++ ascii " -C " ++
    quoted payloadDir

def unzipCommand (download payloadDir : Text) : Text :=
  ascii "unzip -o -j " ++ quoted download ++ ascii " -d " ++ quoted payloadDir

/-- `snprintf` into a buffer of this size cuts nothing off. -/
def fits (size : Nat) (text : Text) : Bool := text.length < size

def join (dir name : Text) : Text :=
  dir ++ (if dir.getLast? = some slash ∨ dir.getLast? = some backslash then [] else [slash]) ++ name

def payloadDir (updatesDir : Text) : Text := updatesDir ++ ascii "/payload"

def mountDir (updatesDir : Text) : Text := updatesDir ++ ascii "/dmgmount"

end MisrcGui.Update
