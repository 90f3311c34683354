import Mathlib.Data.List.Sort
import MisrcGui.Net.MonitorSettings

/-! The folders that a server shows to a remote browser (`gui_remote_fs.c`, the branch for
POSIX systems). -/
namespace MisrcGui.Net.RemoteFolders
open MonitorSettings (Text control)

/-- `GUI_REMOTE_FS_PATH`. -/
def pathCap : Nat := 4096

/-- `GUI_REMOTE_FS_NAME`. -/
def nameCap : Nat := 256

/-- `GUI_REMOTE_FS_PAGE`. -/
def pageSize : Nat := 12

def listLimit : Nat := 8192

def maxPage : Nat := 100000

def dot : UInt8 := 46
def slash : UInt8 := 47
def backslash : UInt8 := 92
def tilde : UInt8 := 126

structure FileSystem where
  home : Option Text
  /-- `lstat` succeeds and finds a directory. -/
  isDir : Text → Bool
  /-- The names that `readdir` yields, if the directory opens. -/
  entries : Text → Option (List Text)
  allocates : Bool

/-- `gui_remote_fs_result_t`; the names from the first on, the others are empty. -/
structure Listing where
  path : Text
  parent : Text
  names : List Text
  count : Nat
  page : Nat
  hasMore : Bool
  computer : Bool
  recovered : Bool
deriving DecidableEq

def segmentOk (segment : Text) : Bool :=
  segment ≠ [] && segment ≠ [dot] && segment ≠ [dot, dot] &&
    segment.all fun c => !control c && c != backslash

/-- The loop of `fs_valid_path`; `partialPath` has been found to be a directory. -/
def walk (fs : FileSystem) (partialPath : Text) : List Text → Bool
  | [] => true
  | segment :: rest =>
    -- a final slash
    if segment = [] ∧ rest = [] then true
    else if !segmentOk segment then false
    else if segment.length + 1 ≥ pathCap - partialPath.length then false
    else if !fs.isDir (partialPath ++ slash :: segment) then false
    else walk fs (partialPath ++ slash :: segment) rest

def validPath (fs : FileSystem) : Text → Bool
  | [] => false
  | c :: rest =>
    if c ≠ slash ∨ rest.length + 1 ≥ pathCap then false
    else if rest = [] then true
    else walk fs [] (rest.splitOn slash)

def dropSlashes : Text → Text
  | [] => []
  | [c] => [c]
  | c :: rest => if c = slash then dropSlashes rest else c :: rest

/-- `fs_parent`. -/
def parentOf (path : Text) : Text :=
  match (dropSlashes (path.take (pathCap - 1)).reverse).dropWhile (· != slash) with
  | [] => [slash]
  | [_] => [slash]
  | _ :: front => front.reverse

def childOf (path name : Text) : Text :=
  path ++ (if path = [slash] then [] else [slash]) ++ name

/-- The entries that `fs_collect` lists. -/
def listed (fs : FileSystem) (path name : Text) : Bool :=
  name ≠ [dot] && name ≠ [dot, dot] && name.length < nameCap &&
    (childOf path name).length < pathCap && fs.isDir (childOf path name)

def collect (fs : FileSystem) (path : Text) : Option (List Text) :=
  (fs.entries path).map fun names => (names.filter (listed fs path)).take listLimit

def requestedPath (fs : FileSystem) (requested : Option Text) : Text :=
  let input := requested.getD []
  let input := if input = [tilde] then fs.home.getD [] else input
  let input := if input = [] then [slash] else input
  input.take (pathCap - 1)

def listPage (target : Text) (page : Nat) (recovered : Bool) (all : List Text) : Listing :=
  let sorted := all.insertionSort fun a b => a ≤ b
  let first := page * pageSize
  let names := (sorted.drop first).take pageSize
  { path := target
    parent := parentOf target
    names := names
    count := names.length
    page := page
    hasMore := first + names.length < sorted.length
    computer := false
    recovered := recovered }

def browse (fs : FileSystem) (requested : Option Text) (page : Nat) : Option Listing :=
  if page > maxPage then none
  else
    let input := requestedPath fs requested
    let recovered := !validPath fs input
    let target := if recovered then [slash] else input
    if !fs.allocates then none
    else (collect fs target).map (listPage target page recovered)

variable {fs : FileSystem}

def Clean (text : Text) : Prop := ∀ c ∈ text, control c = false

theorem clean_slash : Clean [slash] := by
  intro c listed
  rw [List.mem_singleton.mp listed]
  decide

theorem segmentOk_clean {segment : Text} (fine : segmentOk segment) : Clean segment := by
  intro c member
  rw [segmentOk, Bool.and_eq_true] at fine
  have checked := List.all_eq_true.mp fine.2 c member
  rw [Bool.and_eq_true] at checked
  simpa using checked.1

theorem walk_clean {partialPath : Text} {segments : List Text}
    (valid : walk fs partialPath segments) : ∀ segment ∈ segments, Clean segment := by
  induction segments generalizing partialPath with
  | nil => exact nofun
  | cons segment rest ih =>
    rw [walk] at valid
    split at valid
    · rename_i last
      rw [last.1, last.2]
      intro other member
      rw [List.mem_singleton.mp member]
      exact nofun
    · split at valid
      · contradiction
      rename_i fine
      split at valid
      · contradiction
      split at valid
      · contradiction
      intro other member
      rcases List.mem_cons.mp member with same | later
      · rw [same]
        exact segmentOk_clean (by simpa using fine)
      · exact ih valid other later

theorem mem_intercalate {c separator : UInt8} {parts : List Text}
    (member : c ∈ [separator].intercalate parts) : c = separator ∨ ∃ part ∈ parts, c ∈ part := by
  induction parts with
  | nil => exact absurd member nofun
  | cons part rest ih =>
    cases rest with
    | nil =>
      rw [List.intercalate_singleton] at member
      exact .inr ⟨part, List.mem_cons_self, member⟩
    | cons next rest =>
      rw [List.intercalate_cons_cons, List.append_assoc, List.mem_append] at member
      rcases member with here | later
      · exact .inr ⟨part, List.mem_cons_self, here⟩
      · rcases List.mem_append.mp later with sign | later
        · exact .inl (List.mem_singleton.mp sign)
        · rcases ih later with same | ⟨other, found, inside⟩
          · exact .inl same
          · exact .inr ⟨other, List.mem_cons_of_mem _ found, inside⟩

theorem validPath_clean {path : Text} (valid : validPath fs path) :
    Clean path ∧ path.length < pathCap := by
  cases path with
  | nil => cases valid
  | cons c rest =>
    rw [validPath] at valid
    split at valid
    · contradiction
    rename_i first
    rw [not_or, not_not, not_le] at first
    rw [List.length_cons]
    refine ⟨?_, first.2⟩
    have others : Clean rest := by
      split at valid
      · rename_i root
        rw [root]
        exact nofun
      · intro d member
        have whole : [slash].intercalate (rest.splitOn slash) = rest :=
          List.intercalate_splitOn slash
        rw [← whole] at member
        rcases mem_intercalate member with sign | ⟨part, found, inside⟩
        · exact sign ▸ clean_slash slash (List.mem_singleton.mpr rfl)
        · exact walk_clean valid part found d inside
    intro d member
    rcases List.mem_cons.mp member with same | later
    · rw [same, first.1]
      decide
    · exact others d later

theorem dropSlashes_suffix (path : Text) : dropSlashes path <:+ path := by
  induction path with
  | nil => exact List.suffix_refl _
  | cons c rest ih =>
    cases rest with
    | nil => exact List.suffix_refl _
    | cons d rest =>
      rw [dropSlashes]
      split
      · exact ih.trans (List.suffix_cons _ _)
      · exact List.suffix_refl _
      · exact nofun

theorem parentOf_eq (path : Text) : parentOf path = [slash] ∨ parentOf path <+: path := by
  have suffix : (dropSlashes (path.take (pathCap - 1)).reverse).dropWhile (· != slash) <:+
      (path.take (pathCap - 1)).reverse :=
    (List.dropWhile_suffix _).trans (dropSlashes_suffix _)
  rw [parentOf]
  split
  · exact .inl rfl
  · exact .inl rfl
  · rename_i c front _ shape
    rw [shape] at suffix
    have inside := (List.suffix_cons c front).trans suffix
    have start := List.reverse_prefix.mpr inside
    rw [List.reverse_reverse] at start
    exact .inr (start.trans (List.take_prefix _ _))

structure Shown (listing : Listing) : Prop where
  path : Clean listing.path ∧ listing.path.length < pathCap
  parent : Clean listing.parent ∧ listing.parent.length < pathCap
  count : listing.count = listing.names.length
  few : listing.names.length ≤ pageSize
  short : ∀ name ∈ listing.names, name.length < nameCap

theorem collect_short {path : Text} {all : List Text} (found : collect fs path = some all) :
    ∀ name ∈ all, name.length < nameCap := by
  intro name member
  obtain ⟨names, -, same⟩ := Option.map_eq_some_iff.mp found
  subst same
  have kept := (List.mem_filter.mp (List.mem_of_mem_take member)).2
  simp only [listed, Bool.and_eq_true, decide_eq_true_eq] at kept
  exact kept.1.1.2

theorem listPage_shown {target : Text} {page : Nat} {recovered : Bool} {all : List Text}
    (clean : Clean target ∧ target.length < pathCap) (short : ∀ name ∈ all, name.length < nameCap) :
    Shown (listPage target page recovered all) where
  path := clean
  parent := by
    show Clean (parentOf target) ∧ (parentOf target).length < pathCap
    rcases parentOf_eq target with root | start
    · rw [root]
      exact ⟨clean_slash, by decide⟩
    · refine ⟨fun c member => clean.1 c (start.subset member), ?_⟩
      exact lt_of_le_of_lt start.length_le clean.2
  count := rfl
  few := List.length_take_le _ _
  short := by
    intro name member
    apply short
    exact (List.mem_insertionSort _).mp (List.mem_of_mem_drop (List.mem_of_mem_take member))

theorem browse_shown {requested : Option Text} {page : Nat} {listing : Listing}
    (browsed : browse fs requested page = some listing) : Shown listing := by
  rw [browse] at browsed
  split at browsed
  · contradiction
  dsimp only at browsed
  split at browsed
  · contradiction
  obtain ⟨all, found, rfl⟩ := Option.map_eq_some_iff.mp browsed
  refine listPage_shown ?_ (collect_short found)
  cases valid : validPath fs (requestedPath fs requested) with
  | false =>
    show Clean [slash] ∧ [slash].length < pathCap
    exact ⟨clean_slash, by decide⟩
  | true => exact validPath_clean valid

end MisrcGui.Net.RemoteFolders
