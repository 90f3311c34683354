import Mathlib.Algebra.Order.BigOperators.Group.List
import Mathlib.Data.List.FinRange
import MisrcGui.Library.NumberText
import MisrcGui.Library.Percent

/-! The synchronised settings of `gui_monitor_settings.c`, and the snapshot text of
`gui_monitor_transport.c` in which they travel. -/
namespace MisrcGui.Net.MonitorSettings
open Library
open Library.NumberText Library.Percent

abbrev Text := List UInt8

/-- The letters of the descriptor table; `I` by its width in bits, `S` with its size. -/
inductive Kind where
  | B
  | I8
  | I32
  | U
  | F
  | S (size : Nat)

structure Desc where
  key : String
  kind : Kind
  lo : ℚ
  hi : ℚ

def fields : List Desc :=
  [⟨"capture_a", .B, 0, 1⟩, ⟨"capture_b", .B, 0, 1⟩, ⟨"auto_names_enabled", .B, 0, 1⟩,
    ⟨"append_timestamp_on_capture_start", .B, 0, 1⟩, ⟨"overwrite_files", .B, 0, 1⟩,
    ⟨"stop_on_dropout", .B, 0, 1⟩, ⟨"use_flac", .B, 0, 1⟩, ⟨"flac_verification", .B, 0, 1⟩,
    ⟨"enable_resample_a", .B, 0, 1⟩, ⟨"enable_resample_b", .B, 0, 1⟩,
    ⟨"enable_audio_4ch", .B, 0, 1⟩, ⟨"enable_audio_2ch_12", .B, 0, 1⟩,
    ⟨"enable_audio_2ch_34", .B, 0, 1⟩, ⟨"misrc_mode", .B, 0, 1⟩,
    ⟨"misrc_v15_v25_ab_swap", .B, 0, 1⟩, ⟨"audio_monitor_playback", .B, 0, 1⟩,
    ⟨"audio_monitor_ch34", .B, 0, 1⟩, ⟨"level_autostop_enabled", .B, 0, 1⟩,
    ⟨"enable_audio_1ch_1", .B, 0, 1⟩, ⟨"enable_audio_1ch_2", .B, 0, 1⟩,
    ⟨"enable_audio_1ch_3", .B, 0, 1⟩, ⟨"enable_audio_1ch_4", .B, 0, 1⟩, ⟨"rf_bits_a", .I8, 8, 16⟩,
    ⟨"rf_bits_b", .I8, 8, 16⟩, ⟨"flac_level", .I32, 0, 8⟩, ⟨"flac_threads", .I32, 1, 32⟩,
    ⟨"resample_quality_a", .I32, 0, 4⟩, ⟨"resample_quality_b", .I32, 0, 4⟩,
    ⟨"rf_preview_budget_percent", .I32, 50, 300⟩, ⟨"capture_limit_seconds", .U, 0, 864000⟩,
    ⟨"record_limit_seconds", .U, 0, 864000⟩, ⟨"resample_rate_a", .F, 1, 100000⟩,
    ⟨"resample_rate_b", .F, 1, 100000⟩, ⟨"resample_gain_a", .F, -48, 48⟩,
    ⟨"resample_gain_b", .F, -48, 48⟩, ⟨"level_autostop_vpp", .F, 1 / 2, 4⟩,
    ⟨"level_autostop_vpp_hsdaoh", .F, 1 / 2, 4⟩, ⟨"output_base_name", .S 256, 0, 0⟩,
    ⟨"output_filename_a", .S 256, 0, 0⟩, ⟨"output_filename_b", .S 256, 0, 0⟩,
    ⟨"capture_time", .S 32, 0, 0⟩, ⟨"audio_4ch_filename", .S 256, 0, 0⟩,
    ⟨"audio_2ch_12_filename", .S 256, 0, 0⟩, ⟨"audio_2ch_34_filename", .S 256, 0, 0⟩,
    ⟨"level_autostop_level_str", .S 16, 0, 0⟩, ⟨"level_autostop_duration_str", .S 16, 0, 0⟩,
    ⟨"ingest_project", .S 128, 0, 0⟩, ⟨"ingest_tape_id", .S 128, 0, 0⟩,
    ⟨"ingest_tape_format", .S 128, 0, 0⟩, ⟨"ingest_tape_size", .S 128, 0, 0⟩,
    ⟨"ingest_tape_speed", .S 128, 0, 0⟩, ⟨"ingest_tape_condition", .S 128, 0, 0⟩,
    ⟨"ingest_operator", .S 128, 0, 0⟩, ⟨"ingest_location", .S 128, 0, 0⟩,
    ⟨"ingest_notes", .S 256, 0, 0⟩, ⟨"rf_tag_0", .S 32, 0, 0⟩, ⟨"rf_tag_1", .S 32, 0, 0⟩,
    ⟨"audio_label_0", .S 32, 0, 0⟩, ⟨"audio_file_0", .S 256, 0, 0⟩, ⟨"audio_label_1", .S 32, 0, 0⟩,
    ⟨"audio_file_1", .S 256, 0, 0⟩, ⟨"audio_label_2", .S 32, 0, 0⟩, ⟨"audio_file_2", .S 256, 0, 0⟩,
    ⟨"audio_label_3", .S 32, 0, 0⟩, ⟨"audio_file_3", .S 256, 0, 0⟩, ⟨"audio_tag_0", .S 32, 0, 0⟩,
    ⟨"audio_tag_1", .S 32, 0, 0⟩, ⟨"audio_tag_2", .S 32, 0, 0⟩]

abbrev Field := Fin fields.length

def desc (i : Field) : Desc := fields.get i

def key (i : Field) : Text := ascii (desc i).key

/-- A magnitude that a `float` can have. -/
def IsSingle (q : ℚ) : Prop := q = 0 ∨ 2 ^ (-149 : Int) ≤ q ∧ q < 2 ^ 128

instance (q : ℚ) : Decidable (IsSingle q) := inferInstanceAs (Decidable (_ ∨ _))

inductive Single where
  | finite (x : Signed) (inside : IsSingle x.magnitude)
  | infinity (negative : Bool)
  | nan (negative : Bool)
deriving DecidableEq

/-- `(float)` of a `double`; what is too large becomes infinite. -/
def Single.ofDouble (x : Signed) : Single :=
  if inside : IsSingle (toSingle x).magnitude then .finite (toSingle x) inside
  else .infinity x.negative

/-- A terminated string in an array of `size` bytes. -/
structure CString (size : Nat) where
  bytes : Text
  fits : bytes.length < size
  terminated : 0 ∉ bytes
deriving DecidableEq

/-- What a field of a kind holds. Of an `int` it is the bits, which `%u` prints. -/
def Kind.Value : Kind → Type
  | .B => Bool
  | .I8 => Fin (2 ^ 8)
  | .I32 | .U => Fin (2 ^ 32)
  | .F => Single
  | .S size => CString size

instance : (kind : Kind) → DecidableEq kind.Value
  | .B => inferInstanceAs (DecidableEq Bool)
  | .I8 => inferInstanceAs (DecidableEq (Fin (2 ^ 8)))
  | .I32 | .U => inferInstanceAs (DecidableEq (Fin (2 ^ 32)))
  | .F => inferInstanceAs (DecidableEq Single)
  | .S size => inferInstanceAs (DecidableEq (CString size))

abbrev Settings := (i : Field) → (desc i).kind.Value

def printSingle : Single → Text
  | .finite x _ => print7g x
  | .infinity negative => (if negative then [minus] else []) ++ ascii "inf"
  | .nan negative => (if negative then [minus] else []) ++ ascii "nan"

def printFlag (on : Bool) : Text := if on then ascii "1" else ascii "0"

def print : (kind : Kind) → kind.Value → Text
  | .B, on => printFlag on
  | .I8, n => decimal n.val
  | .I32, n => decimal n.val
  | .U, n => decimal n.val
  | .F, x => printSingle x
  | .S _, text => text.bytes

def valueCap : Nat := 512
def keyCap : Nat := 64

/-- `gui_monitor_settings_get` into a buffer of `valueCap` bytes. -/
def get (i : Field) (value : (desc i).kind.Value) : Option Text :=
  let text := print (desc i).kind value
  if text.length < valueCap then some text else none

def control (c : UInt8) : Bool := c < 32 || c == 127

def rfBits (key : String) : Bool := key == "rf_bits_a" || key == "rf_bits_b"

/-- The checks of `gui_monitor_settings_set` on a number; `whole` for every kind
but `F`. -/
def number (d : Desc) (whole : Bool) (text : Text) : Option Signed :=
  match strtod text with
  | none => none
  | some v =>
    if v.value < d.lo ∨ d.hi < v.value then none
    else if whole ∧ (⌊v.value⌋ : ℚ) ≠ v.value then none
    else if rfBits d.key ∧ v.value ≠ 8 ∧ v.value ≠ 12 ∧ v.value ≠ 16 then none
    else some v

theorem not_mem_of_not_control {text : Text} (clean : text.all fun c => !control c) :
    0 ∉ text := by
  intro listed
  exact absurd (List.all_eq_true.mp clean 0 listed) (by decide)

def storeFlag (v : Signed) : Option Bool :=
  if v.value = 0 then some false else if v.value = 1 then some true else none

def storeNat (width : Nat) (v : Signed) : Fin (2 ^ width) := Fin.ofNat _ ⌊v.value⌋.toNat

def setString (size : Nat) (text : Text) : Option (CString size) :=
  if fits : text.length < size then
    if clean : text.all fun c => !control c then
      some ⟨text, fits, not_mem_of_not_control clean⟩
    else none
  else none

def setValue (d : Desc) : (kind : Kind) → Text → Option kind.Value
  | .B, text => (number d true text).bind storeFlag
  | .I8, text => (number d true text).map (storeNat 8)
  | .I32, text => (number d true text).map (storeNat 32)
  | .U, text => (number d true text).map (storeNat 32)
  | .F, text => (number d false text).map Single.ofDouble
  | .S size, text => setString size text

/-- `gui_monitor_settings_set` for the field that the key names. -/
def set (i : Field) (text : Text) : Option (desc i).kind.Value := setValue (desc i) (desc i).kind text

/-- `mon_local_audio_setting`: these two stay with the listener. -/
def localAudio (key : String) : Bool :=
  key == "audio_monitor_playback" || key == "audio_monitor_ch34"

def synced : List Field := (List.finRange fields.length).filter fun i => !localAudio (desc i).key

def encodedCap : Nat := valueCap * 3 + 1

/-- The loop of `mon_url_encode`. -/
def urlEncode (cap : Nat) (encoded : Text) : Text → Option Text
  | [] => some encoded
  | c :: rest =>
    if encoded.length + 4 ≥ cap then none
    else urlEncode cap (encoded ++ escapeByte unreserved c) rest

/-- `mon_url_decode`; it refuses control characters. -/
def urlDecode (cap : Nat) (text : Text) : Option Text :=
  match unescape text with
  | none => none
  | some decoded =>
    if decoded.all (fun c => !control c) ∧ decoded.length < cap then some decoded else none

def newline : UInt8 := 10
def equals : UInt8 := 61

def packLine (s : Settings) (i : Field) : Option Text := do
  let value ← get i (s i)
  let encoded ← urlEncode encodedCap [] value
  return key i ++ equals :: encoded ++ [newline]

def wireCap : Nat := 16384

def packFrom (s : Settings) (used : Text) : List Field → Option Text
  | [] => some used
  | i :: rest => do
    let line ← packLine s i
    if line.length ≥ wireCap - used.length then none else packFrom s (used ++ line) rest

def pack (s : Settings) : Option Text := packFrom s [] synced

def readLine (line : Text) : Option (Text × Text) :=
  if equals ∈ line then
    some (line.takeWhile (· != equals), (line.dropWhile (· != equals)).tail)
  else none

/-- The lines of a snapshot that `gui_monitor_client_sync_main` looks at. -/
def readLines (wire : Text) : List (Text × Text) :=
  (wire.splitOn newline).filterMap readLine

def Kind.room : Kind → Nat
  | .B => 1
  | .I8 => 3
  | .I32 | .U => 10
  | .F => 30
  | .S size => size - 1

theorem length_printSingle (x : Single) : (printSingle x).length ≤ 30 := by
  cases x with
  | finite x inside =>
    refine length_print7g (k := 149) (by decide) (inside.imp_right fun ⟨low, high⟩ => ⟨?_, ?_⟩)
    · refine le_trans ?_ low
      rw [zpow_neg, zpow_neg]
      exact inv_anti₀ (by positivity) (zpow_le_zpow_left₀ (by norm_num) (by norm_num) (by norm_num))
    · refine lt_of_lt_of_le high ?_
      exact_mod_cast (by norm_num : (2 : ℚ) ^ 128 ≤ 10 ^ 149)
  | infinity negative | nan negative => cases negative <;> decide

theorem length_print (kind : Kind) (value : kind.Value) :
    (print kind value).length ≤ kind.room := by
  cases kind with
  | B => cases (value : Bool) <;> decide
  | I8 => exact length_decimal _ (by decide) (lt_trans value.isLt (by decide))
  | I32 | U => exact length_decimal _ (by decide) (lt_trans value.isLt (by decide))
  | F => exact length_printSingle value
  | S size =>
    have fits := CString.fits value
    show (CString.bytes value).length ≤ size - 1
    omega

/-- What is evaluated over the keys, on their spellings. -/
theorem keys_spelled :
    ∃ table, fields.map (fun d => ascii d.key) = table ∧ table.Nodup ∧
      (∀ key ∈ table, newline ∉ key ∧ equals ∉ key ∧
        key.all (fun c => !control c) ∧ key.length < keyCap) ∧
      (∀ d ∈ fields, d.kind.room < valueCap) ∧
      (table.map List.length).sum + (fields.map fun d => 3 * d.kind.room + 2).sum < wireCap := by
  apply Exists.intro
  constructor
  · simp only [fields, List.map_cons, List.map_nil]
    repeat apply congrArg₂ List.cons (Spelling.ascii_eq ⟨_, rfl⟩)
    exact rfl
  · decide +kernel

theorem sum_rooms (listed : List Desc) :
    (listed.map fun d => (ascii d.key).length + 3 * d.kind.room + 2).sum =
      ((listed.map fun d => ascii d.key).map List.length).sum +
        (listed.map fun d => 3 * d.kind.room + 2).sum := by
  simp only [Nat.add_assoc, List.sum_map_add, List.map_map, Function.comp_def]

/-- The facts about the table that the protocol rests on. -/
theorem table_checked :
    (fields.map fun d => ascii d.key).Nodup ∧
      (∀ d ∈ fields, newline ∉ ascii d.key ∧ equals ∉ ascii d.key ∧
        (ascii d.key).all (fun c => !control c) ∧ (ascii d.key).length < keyCap) ∧
      (∀ d ∈ fields, d.kind.room < valueCap) ∧
      (fields.map fun d => (ascii d.key).length + 3 * d.kind.room + 2).sum < wireCap := by
  obtain ⟨table, spelled, nodup, plain, rooms, total⟩ := keys_spelled
  refine ⟨?_, fun d listed => plain _ ?_, rooms, ?_⟩
  · rw [spelled]
    exact nodup
  · rw [← spelled]
    exact List.mem_map_of_mem listed
  · rw [sum_rooms, spelled]
    exact total

variable (i : Field) (s : Settings)

theorem desc_mem : desc i ∈ fields := List.get_mem fields i

theorem room_lt : (desc i).kind.room < valueCap :=
  table_checked.2.2.1 _ (desc_mem i)

theorem key_plain : newline ∉ key i ∧ equals ∉ key i :=
  ⟨(table_checked.2.1 _ (desc_mem i)).1, (table_checked.2.1 _ (desc_mem i)).2.1⟩

theorem key_clean : ((key i).all fun c => !control c) ∧ (key i).length < keyCap :=
  (table_checked.2.1 _ (desc_mem i)).2.2

theorem keys_eq : (List.finRange fields.length).map key = fields.map fun d => ascii d.key := by
  have same : key = (fun d => ascii d.key) ∘ desc := rfl
  have whole : (List.finRange fields.length).map desc = fields := List.map_get_finRange fields
  rw [same, ← List.map_map, whole]

theorem key_injective : Function.Injective key := by
  have nodup := table_checked.1
  rw [← keys_eq] at nodup
  intro i j same
  exact List.inj_on_of_nodup_map nodup (List.mem_finRange i) (List.mem_finRange j) same

theorem get_eq (value : (desc i).kind.Value) : get i value = some (print (desc i).kind value) :=
  if_pos (lt_of_le_of_lt (length_print _ value) (room_lt i))

theorem urlEncode_eq {cap : Nat} {encoded text : Text}
    (fits : encoded.length + 3 * text.length + 1 < cap) :
    urlEncode cap encoded text = some (encoded ++ escape unreserved text) := by
  induction text generalizing encoded with
  | nil =>
    rw [urlEncode]
    exact congrArg some (List.append_nil encoded).symm
  | cons c rest ih =>
    rw [List.length_cons] at fits
    have step : (escapeByte unreserved c).length ≤ 3 := length_escapeByte c
    rw [urlEncode, if_neg (by omega), ih (by rw [List.length_append]; omega), escape_cons,
      List.append_assoc]

theorem urlDecode_escape (cap : Nat) (text : Text) :
    urlDecode cap (escape unreserved text) =
      if text.all (fun c => !control c) ∧ text.length < cap then some text else none := by
  rw [urlDecode, unescape_escape rfl]

def line (s : Settings) (i : Field) : Text :=
  key i ++ equals :: escape unreserved (print (desc i).kind (s i)) ++ [newline]

theorem packLine_eq (i : Field) : packLine s i = some (line s i) := by
  have room := length_print _ (s i)
  have small := room_lt i
  have encoded : urlEncode encodedCap [] (print (desc i).kind (s i)) =
      some (escape unreserved (print (desc i).kind (s i))) :=
    urlEncode_eq (by rw [encodedCap, List.length_nil]; omega)
  rw [packLine, get_eq]
  simp only [Option.bind_eq_bind, Option.bind_some, encoded]
  rfl

def lineRoom (i : Field) : Nat := (key i).length + 3 * (desc i).kind.room + 2

theorem length_line (i : Field) : (line s i).length ≤ lineRoom i := by
  have room := length_print _ (s i)
  have escaped : (escape unreserved (print (desc i).kind (s i))).length ≤
    3 * (print (desc i).kind (s i)).length := length_escape _
  rw [line, lineRoom, List.length_append, List.length_append, List.length_cons,
    List.length_singleton]
  omega

theorem packFrom_eq (used : Text) (rest : List Field)
    (fits : used.length + (rest.map lineRoom).sum < wireCap) :
    packFrom s used rest = some (used ++ rest.flatMap (line s)) := by
  induction rest generalizing used with
  | nil =>
    rw [packFrom]
    exact congrArg some (List.append_nil used).symm
  | cons i rest ih =>
    rw [List.map_cons, List.sum_cons] at fits
    have room := length_line s i
    rw [packFrom, packLine_eq]
    simp only [Option.bind_eq_bind, Option.bind_some]
    rw [if_neg (by omega), ih _ (by rw [List.length_append]; omega), List.flatMap_cons,
      List.append_assoc]

def wire (s : Settings) : Text := synced.flatMap (line s)

theorem synced_room : (synced.map lineRoom).sum < wireCap := by
  have total : ((List.finRange fields.length).map lineRoom).sum < wireCap := by
    have same : lineRoom = (fun d => (ascii d.key).length + 3 * d.kind.room + 2) ∘ desc := rfl
    have whole : (List.finRange fields.length).map desc = fields := List.map_get_finRange fields
    rw [same, ← List.map_map, whole]
    exact table_checked.2.2.2
  have part : (synced.map lineRoom).Sublist ((List.finRange fields.length).map lineRoom) :=
    List.filter_sublist.map _
  exact lt_of_le_of_lt (List.Sublist.sum_le_sum part fun _ _ => Nat.zero_le _) total

theorem pack_eq : pack s = some (wire s) := by
  have fits : ([] : Text).length + (synced.map lineRoom).sum < wireCap := by
    rw [List.length_nil, Nat.zero_add]
    exact synced_room
  rw [pack, packFrom_eq s [] synced fits, List.nil_append, wire]

theorem synced_nodup : synced.Nodup := (List.nodup_finRange _).filter _

theorem escape_plain (text : Text) :
    newline ∉ escape unreserved text ∧ equals ∉ escape unreserved text :=
  ⟨not_mem_escape rfl (by decide) (by decide) text,
    not_mem_escape rfl (by decide) (by decide) text⟩

theorem splitOn_lines (lines : List Text) (single : ∀ line ∈ lines, newline ∉ line) :
    (lines.flatMap fun line => line ++ [newline]).splitOn newline = lines ++ [[]] := by
  induction lines with
  | nil => rfl
  | cons first rest ih =>
    rw [List.flatMap_cons, List.append_assoc, List.singleton_append,
      List.splitOn_append_cons_self, List.splitOn_eq_singleton (single first List.mem_cons_self),
      ih fun line listed => single line (List.mem_cons_of_mem first listed)]
    rfl

theorem readLine_append {name : Text} (plain : equals ∉ name) (text : Text) :
    readLine (name ++ equals :: text) = some (name, text) := by
  have before : ∀ c ∈ name, (c != equals) = true := by
    intro c listed
    exact bne_iff_ne.mpr fun same => plain (same ▸ listed)
  rw [readLine, if_pos (List.mem_append_right _ List.mem_cons_self),
    List.takeWhile_append_of_pos before, List.dropWhile_append_of_pos before,
    List.takeWhile_cons_of_neg (by simp), List.dropWhile_cons_of_neg (by simp), List.append_nil]
  rfl

theorem readLines_wire :
    readLines (wire s) = synced.map fun i =>
      (key i, escape unreserved (print (desc i).kind (s i))) := by
  let body (i : Field) : Text := key i ++ equals :: escape unreserved (print (desc i).kind (s i))
  have lines : wire s = (synced.map body).flatMap fun line => line ++ [newline] := by
    rw [wire, List.flatMap_map]
    rfl
  have single : ∀ line ∈ synced.map body, newline ∉ line := by
    intro line listed
    obtain ⟨i, -, rfl⟩ := List.mem_map.mp listed
    intro inside
    rcases List.mem_append.mp inside with early | late
    · exact (key_plain i).1 early
    · rcases List.mem_cons.mp late with sign | text
      · exact absurd sign (by decide)
      · exact (escape_plain _).1 text
  rw [readLines, lines, splitOn_lines _ single, List.filterMap_append, List.filterMap_map]
  have last : [([] : Text)].filterMap readLine = [] := by decide
  rw [last, List.append_nil, ← List.filterMap_eq_map]
  congr 1
  funext i
  exact readLine_append (key_plain i).2 _

/-- The range of a descriptor, with the extra rule for the bit depths. -/
def InRange (d : Desc) (n : Nat) : Prop :=
  d.lo ≤ n ∧ (n : ℚ) ≤ d.hi ∧ (rfBits d.key → n = 8 ∨ n = 12 ∨ n = 16)

/-- The text of a `float` is accepted, and what is stored prints the same. -/
def Survives (d : Desc) (x : Single) : Prop :=
  ∃ v, number d false (printSingle x) = some v ∧ printSingle (Single.ofDouble v) = printSingle x

/-- The values that `gui_monitor_settings_set` admits. -/
def Admitted (d : Desc) : (kind : Kind) → kind.Value → Prop
  | .B, on => InRange d (Bool.toNat on)
  | .I8, n => InRange d n.val
  | .I32, n => InRange d n.val
  | .U, n => InRange d n.val
  | .F, x => Survives d x
  | .S _, text => text.bytes.all fun c => !control c

variable {d : Desc}

@[simp] theorem value_natCast (n : Nat) : (Signed.mk false n).value = n := rfl

theorem number_decimal {n : Nat} (fits : n < 2 ^ 53) (v : Signed) :
    number d true (decimal n) = some v ↔ InRange d n ∧ v = ⟨false, n⟩ := by
  have eight : (n : ℚ) = 8 ↔ n = 8 := by exact_mod_cast Iff.rfl
  have twelve : (n : ℚ) = 12 ↔ n = 12 := by exact_mod_cast Iff.rfl
  have sixteen : (n : ℚ) = 16 ↔ n = 16 := by exact_mod_cast Iff.rfl
  rw [number, strtod_decimal fits]
  simp only [value_natCast, Int.floor_natCast, Int.cast_natCast, ne_eq, not_true_eq_false,
    and_false, if_false, eight, twelve, sixteen, InRange]
  by_cases outside : (n : ℚ) < d.lo ∨ d.hi < n
  · rw [if_pos outside]
    refine iff_of_false nofun ?_
    rintro ⟨⟨low, high, -⟩, -⟩
    rcases outside with under | above
    · exact absurd low (not_le.mpr under)
    · exact absurd high (not_le.mpr above)
  · rw [if_neg outside]
    rw [not_or, not_lt, not_lt] at outside
    split
    · rename_i depth
      refine iff_of_false nofun ?_
      rintro ⟨⟨-, -, known⟩, -⟩
      have := known depth.1
      omega
    · rename_i depth
      rw [Option.some.injEq, eq_comm]
      refine (and_iff_right ⟨outside.1, outside.2, fun bits => ?_⟩).symm
      by_contra unknown
      exact depth ⟨bits, by omega⟩

theorem storeNat_natCast {width n : Nat} (fits : n < 2 ^ width) :
    (storeNat width ⟨false, n⟩).val = n := by
  rw [storeNat, value_natCast, Int.floor_natCast, Int.toNat_natCast, Fin.val_ofNat,
    Nat.mod_eq_of_lt fits]

theorem set_decimal {width n : Nat} (small : width ≤ 53) (fits : n < 2 ^ width) :
    (∃ v, (number d true (decimal n)).map (storeNat width) = some v ∧ decimal v.val = decimal n) ↔
      InRange d n := by
  have small : n < 2 ^ 53 := lt_of_lt_of_le fits (Nat.pow_le_pow_right (by decide) small)
  constructor
  · rintro ⟨v, stored, -⟩
    obtain ⟨x, read, -⟩ := Option.map_eq_some_iff.mp stored
    exact ((number_decimal small x).mp read).1
  · intro inside
    rw [(number_decimal small ⟨false, n⟩).mpr ⟨inside, rfl⟩]
    exact ⟨_, rfl, congrArg decimal (storeNat_natCast fits)⟩

theorem printFlag_eq (on : Bool) : printFlag on = decimal on.toNat := by
  cases on <;> decide

theorem set_flag (on : Bool) :
    (∃ v, (number d true (printFlag on)).bind storeFlag = some v ∧ printFlag v = printFlag on) ↔
      InRange d on.toNat := by
  have small : on.toNat < 2 ^ 53 := lt_of_le_of_lt (Bool.toNat_le on) (by decide)
  rw [printFlag_eq]
  constructor
  · rintro ⟨v, stored, -⟩
    obtain ⟨x, read, -⟩ := Option.bind_eq_some_iff.mp stored
    exact ((number_decimal small x).mp read).1
  · intro inside
    rw [(number_decimal small ⟨false, on.toNat⟩).mpr ⟨inside, rfl⟩]
    refine ⟨on, ?_, printFlag_eq on⟩
    cases on <;> simp [storeFlag, Signed.value]

theorem set_string {size : Nat} (text : CString size) :
    (∃ v, setString size text.bytes = some v ∧ v.bytes = text.bytes) ↔
      text.bytes.all fun c => !control c := by
  rw [setString, dif_pos text.fits]
  by_cases clean : text.bytes.all fun c => !control c
  · rw [dif_pos clean]
    exact iff_of_true ⟨_, rfl, rfl⟩ clean
  · rw [dif_neg clean]
    exact iff_of_false (fun ⟨_, taken, _⟩ => nomatch taken) clean

theorem set_print_iff (kind : Kind) (value : kind.Value) :
    (∃ v, setValue d kind (print kind value) = some v ∧ print kind v = print kind value) ↔
      Admitted d kind value := by
  cases kind with
  | B => exact set_flag value
  | I8 => exact set_decimal (by decide) value.isLt
  | I32 | U => exact set_decimal (by decide) value.isLt
  | F =>
    show (∃ v, (number d false (printSingle value)).map Single.ofDouble = some v ∧ _) ↔
      Survives d value
    constructor
    · rintro ⟨v, stored, same⟩
      obtain ⟨x, read, rfl⟩ := Option.map_eq_some_iff.mp stored
      exact ⟨x, read, same⟩
    · rintro ⟨x, read, same⟩
      exact ⟨_, by rw [read]; rfl, same⟩
  | S size => exact set_string value

theorem not_control {c : UInt8} (low : 32 ≤ c.toNat) (high : c.toNat < 127) :
    control c = false := by
  rw [control, Bool.or_eq_false_iff]
  refine ⟨decide_eq_false ?_, beq_eq_false_iff_ne.mpr ?_⟩
  · rw [UInt8.lt_iff_toNat_lt, not_lt]
    exact low
  · rintro rfl
    exact absurd high (by decide)

theorem clean_of_numeral {text : Text} (numeral : ∀ c ∈ text, isNumeral c) :
    text.all fun c => !control c := by
  refine List.all_eq_true.mpr fun c listed => ?_
  have bounds := isNumeral_bounds (numeral c listed)
  rw [not_control (by omega) (by omega)]
  rfl

theorem printSingle_clean (x : Single) : (printSingle x).all fun c => !control c := by
  cases x with
  | finite x inside => exact clean_of_numeral (print7g_isNumeral x)
  | infinity negative | nan negative => cases negative <;> decide

theorem printFlag_clean (on : Bool) : (printFlag on).all fun c => !control c := by
  cases on <;> decide

theorem print_clean (kind : Kind) (value : kind.Value) (admitted : Admitted d kind value) :
    (print kind value).all fun c => !control c := by
  cases kind with
  | B => exact printFlag_clean value
  | I8 => exact clean_of_numeral (decimal_isNumeral _)
  | I32 | U => exact clean_of_numeral (decimal_isNumeral _)
  | F => exact printSingle_clean value
  | S size => exact admitted

theorem urlDecode_print (value : (desc i).kind.Value)
    (admitted : Admitted (desc i) (desc i).kind value) :
    urlDecode valueCap (escape unreserved (print (desc i).kind value)) =
      some (print (desc i).kind value) := by
  have room := length_print _ value
  have small := room_lt i
  rw [urlDecode_escape, if_pos ⟨print_clean _ value admitted, by omega⟩]

end MisrcGui.Net.MonitorSettings
