import MisrcGui.Library.NumberText
import MisrcGui.Library.Percent
import MisrcGui.Library.Search

/-! The device list that the server of the network mirror prints and its client stages
(`gui_net.c`). -/
namespace MisrcGui.Net.DeviceMirror
open Library Library.NumberText Library.Percent
open Library.Search (breakAt Clear)

def maxDevices : Nat := 16

/-- The room for a name in `device_info_t`, with its end. -/
def nameCap : Nat := 64

def replyLen : Nat := 8192

def quote : UInt8 := 34

/-- `device_info_t`, as far as the reply shows it. -/
structure Device where
  name : List UInt8
  type : Nat
  text : 0 ∉ name
  fits : name.length < nameCap
  int32 : type < 2 ^ 31

/-- `devices` and `selected_device`. -/
structure DeviceList where
  devices : List Device
  selected : Int
  few : devices.length ≤ maxDevices
  int32 : -2 ^ 31 ≤ selected ∧ selected < 2 ^ 31

/-- A buffer with the text in it, and the offset that `snprintf` has come to. -/
structure Buffer where
  text : List UInt8
  off : Nat

/-- `snprintf` at the offset. -/
def Buffer.print (buffer : Buffer) (len : Nat) (piece : List UInt8) : Buffer :=
  ⟨buffer.text ++ piece.take (len - buffer.off - 1), buffer.off + piece.length⟩

def listHead (list : DeviceList) : List UInt8 :=
  ascii "\x7b\"count\":" ++ printInt list.devices.length ++
    (ascii ",\"selected\":" ++ printInt list.selected ++ ascii ",\"devices\":[")

def entry (index : Nat) (device : Device) : List UInt8 :=
  ascii (if index = 0 then "" else ",") ++
    (ascii "\x7b\"index\":" ++ printInt index ++
      (ascii ",\"type\":" ++ printInt device.type ++
        (ascii ",\"name\":\"" ++ (device.name ++ ascii "\"\x7d"))))

def printEntries (len : Nat) (buffer : Buffer) : Nat → List Device → Buffer
  | _, [] => buffer
  | index, device :: rest =>
    if buffer.off + 64 < len then
      printEntries len (buffer.print len (entry index device)) (index + 1) rest
    else buffer

def serverBuildDevices (list : DeviceList) (len : Nat) : List UInt8 :=
  let buffer := printEntries len (Buffer.print ⟨[], 0⟩ len (listHead list)) 0 list.devices
  if buffer.off < len - 2 then buffer.text ++ ascii "]\x7d" else buffer.text.take (len - 1)

def jsonInt (json : List UInt8) (key : String) (default : Int) : Int :=
  match breakAt (ascii "\"" ++ ascii key ++ ascii "\":") json with
  | none => default
  | some (_, value) => atoi value

/-- `json_str` into a buffer of `cap` bytes. -/
def jsonStr (json : List UInt8) (key : String) (cap : Nat) : List UInt8 :=
  match breakAt (ascii "\"" ++ ascii key ++ ascii "\":\"") json with
  | none => []
  | some (_, value) =>
    match breakAt [quote] value with
    | none => []
    | some (string, _) => string.take (cap - 1)

def indexKey : List UInt8 := ascii "\"index\":"

def nameKey : List UInt8 := ascii "\"name\":\""

structure Staged where
  name : List UInt8
  index : Int
deriving DecidableEq

/-- The loop over the entries; `count` are left. -/
def stageEntries : Nat → Nat → List UInt8 → List Staged
  | 0, _, _ => []
  | count + 1, i, p =>
    match breakAt nameKey p with
    | none => []
    | some (_, rest) =>
      let index : Int := match breakAt indexKey p with
        | none => i
        | some (_, number) => atoi number
      let name := jsonStr (nameKey ++ rest) "name" 80
      ⟨name.take (nameCap - 1), index⟩ :: stageEntries count (i + 1) rest

def stage (reply : List UInt8) : List Staged × Int :=
  let count := jsonInt reply "count" 0
  let selected := jsonInt reply "selected" (-1)
  let count := if count < 0 then 0 else count
  let count : Int := if (maxDevices : Int) < count then maxDevices else count
  (stageEntries count.toNat 0 reply, selected)

def mirrored (index : Nat) : List Device → List Staged
  | [] => []
  | device :: rest => ⟨device.name, index⟩ :: mirrored (index + 1) rest

def Mirrors (list : DeviceList) (staged : List Staged × Int) : Prop :=
  staged = (mirrored 0 list.devices, list.selected)

instance (list : DeviceList) (staged : List Staged × Int) : Decidable (Mirrors list staged) :=
  inferInstanceAs (Decidable (_ = _))

def entries (index : Nat) : List Device → List UInt8
  | [] => []
  | device :: rest => entry index device ++ entries (index + 1) rest

theorem length_entry {index : Nat} (device : Device) (small : index < 100) :
    (entry index device).length ≤ 130 := by
  have number : (printInt index).length ≤ 3 := length_printInt (by decide) (by omega)
  have kind : (printInt device.type).length ≤ 11 := by
    have := device.int32
    exact length_printInt (by decide) (by omega)
  have comma : (ascii (if index = 0 then "" else ",")).length ≤ 1 := by
    split <;> decide
  have texts : (ascii "\x7b\"index\":").length = 9 ∧ (ascii ",\"type\":").length = 8 ∧
      (ascii ",\"name\":\"").length = 9 ∧ (ascii "\"\x7d").length = 2 := by decide
  have name := device.fits
  unfold nameCap at name
  simp only [entry, List.length_append]
  omega

theorem length_entries {index : Nat} {devices : List Device}
    (few : index + devices.length ≤ 100) :
    (entries index devices).length ≤ 130 * devices.length := by
  induction devices generalizing index with
  | nil => exact Nat.le_refl 0
  | cons device rest ih =>
    rw [List.length_cons] at few
    have short := length_entry device (show index < 100 by omega)
    have others := ih (show index + 1 + rest.length ≤ 100 by omega)
    rw [entries, List.length_append, List.length_cons]
    omega

theorem printEntries_fits {len index : Nat} {buffer : Buffer} {devices : List Device}
    (start : buffer.text.length = buffer.off) (few : index + devices.length ≤ 100)
    (space : buffer.off + 130 * devices.length + 64 < len) :
    printEntries len buffer index devices =
      ⟨buffer.text ++ entries index devices, buffer.off + (entries index devices).length⟩ := by
  induction devices generalizing buffer index with
  | nil => rw [printEntries, entries, List.append_nil, List.length_nil, Nat.add_zero]
  | cons device rest ih =>
    rw [List.length_cons] at few space
    have short : (entry index device).length ≤ 130 := length_entry device (by omega)
    have whole : buffer.print len (entry index device) =
        ⟨buffer.text ++ entry index device, buffer.off + (entry index device).length⟩ := by
      rw [Buffer.print, List.take_of_length_le (by omega)]
    have room : buffer.off + 64 < len := by omega
    rw [printEntries, if_pos room, whole, ih]
    · rw [entries, List.append_assoc, List.length_append, Nat.add_assoc]
    · rw [List.length_append, start]
    · omega
    · dsimp only
      omega

theorem length_listHead (list : DeviceList) : (listHead list).length ≤ 60 := by
  have few := list.few
  unfold maxDevices at few
  have count : (printInt list.devices.length).length ≤ 3 :=
    length_printInt (by decide) (by omega)
  have selected : (printInt list.selected).length ≤ 11 := by
    have := list.int32
    exact length_printInt (by decide) (by omega)
  have texts : (ascii "\x7b\"count\":").length = 9 ∧ (ascii ",\"selected\":").length = 12 ∧
      (ascii ",\"devices\":[").length = 12 := by decide
  simp only [listHead, List.length_append]
  omega

theorem serverBuildDevices_eq (list : DeviceList) :
    serverBuildDevices list replyLen =
      listHead list ++ (entries 0 list.devices ++ ascii "]\x7d") := by
  have few := list.few
  have front := length_listHead list
  have reply : replyLen = 8192 := rfl
  have first : Buffer.print ⟨[], 0⟩ replyLen (listHead list) =
      ⟨listHead list, (listHead list).length⟩ := by
    rw [Buffer.print, List.take_of_length_le (by dsimp only; omega), List.nil_append,
      Nat.zero_add]
  unfold maxDevices at few
  have filled : printEntries replyLen ⟨listHead list, (listHead list).length⟩ 0 list.devices =
      ⟨listHead list ++ entries 0 list.devices,
        (listHead list).length + (entries 0 list.devices).length⟩ :=
    printEntries_fits rfl (by omega) (by dsimp only; omega)
  have short : (entries 0 list.devices).length ≤ 130 * list.devices.length :=
    length_entries (by omega)
  rw [serverBuildDevices, first, filled]
  dsimp only
  rw [if_pos (by omega), List.append_assoc]

theorem printInt_plain (z : Int) : quote ∉ printInt z := by
  intro inside
  rw [printInt] at inside
  rcases List.mem_append.mp inside with sign | digits
  · split at sign
    · exact absurd (List.mem_singleton.mp sign) (by decide)
    · cases sign
  · exact absurd (decimal_isDigit _ _ digits) (by decide)

variable {needle : List UInt8}

theorem clear_plain {text : List UInt8} (key : needle.head? = some quote) (plain : quote ∉ text) :
    Clear needle text := Search.clear_of_first key plain

def untilName (index : Nat) (device : Device) : List UInt8 :=
  ascii (if index = 0 then "" else ",") ++
    (ascii "\x7b\"index\":" ++ printInt index ++
      (ascii ",\"type\":" ++ printInt device.type ++ ascii ","))

theorem entry_split (index : Nat) (device : Device) :
    entry index device =
      untilName index device ++ (nameKey ++ (device.name ++ ascii "\"\x7d")) := by
  have key : ascii ",\"name\":\"" = ascii "," ++ nameKey := by decide
  simp only [entry, untilName, key, List.append_assoc]

theorem clear_untilName (index : Nat) (device : Device) :
    Clear nameKey (untilName index device) := by
  have comma : Clear nameKey (ascii (if index = 0 then "" else ",")) := by
    split
    · exact Search.clear_of_apart (by decide)
    · exact Search.clear_of_apart (by decide)
  have key : Clear nameKey (ascii "\x7b\"index\":") := Search.clear_of_apart (by decide)
  have kind : Clear nameKey (ascii ",\"type\":") := Search.clear_of_apart (by decide)
  have last : Clear nameKey (ascii ",") := Search.clear_of_apart (by decide)
  have number : Clear nameKey (printInt index) := clear_plain rfl (printInt_plain index)
  have type : Clear nameKey (printInt device.type) := clear_plain rfl (printInt_plain device.type)
  exact comma.append ((key.append number).append ((kind.append type).append last))

theorem breakAt_quote (text rest : List UInt8) :
    ∃ after, breakAt [quote] (text ++ quote :: rest) =
      some (text.takeWhile (· ≠ quote), after) := by
  induction text with
  | nil => exact ⟨rest, if_pos rfl⟩
  | cons c text ih =>
    obtain ⟨after, found⟩ := ih
    by_cases same : c = quote
    · subst same
      exact ⟨text ++ quote :: rest, if_pos rfl⟩
    · have elsewhere : ¬ [quote].isPrefixOf (c :: (text ++ quote :: rest)) = true := by
        rw [List.isPrefixOf_iff_prefix]
        rintro ⟨tail, shape⟩
        exact same (List.cons.inj shape).1.symm
      have keep : (c :: text).takeWhile (· ≠ quote) = c :: text.takeWhile (· ≠ quote) :=
        List.takeWhile_cons_of_pos (decide_eq_true same)
      refine ⟨after, ?_⟩
      rw [List.cons_append, breakAt, if_neg elsewhere, found, keep]
      rfl

theorem jsonStr_name (device : Device) (rest : List UInt8) :
    jsonStr (nameKey ++ (device.name ++ (ascii "\"\x7d" ++ rest))) "name" 80 =
      device.name.takeWhile (· ≠ quote) := by
  have key : ascii "\"" ++ ascii "name" ++ ascii "\":\"" = nameKey := by decide
  have opened := (Search.clear_nil nameKey).found (device.name ++ (ascii "\"\x7d" ++ rest))
  have ending : ascii "\"\x7d" ++ rest = quote :: (ascii "\x7d" ++ rest) := rfl
  obtain ⟨after, found⟩ := breakAt_quote device.name (ascii "\x7d" ++ rest)
  have short := (device.name.takeWhile_prefix (· ≠ quote)).length_le
  have fits := device.fits
  unfold nameCap at fits
  rw [List.nil_append] at opened
  rw [jsonStr, key, opened]
  dsimp only
  rw [ending, found]
  exact List.take_of_length_le (by omega)

structure Passed (text : List UInt8) : Prop where
  name : Clear nameKey text
  index : Clear indexKey text

theorem stageEntries_entry {front : List UInt8} (passed : Passed front) (device : Device)
    (rest : List UInt8) (count i index : Nat) :
    stageEntries (count + 1) i (front ++ (entry index device ++ rest)) =
      ⟨device.name.takeWhile (· ≠ quote), index⟩ ::
        stageEntries count (i + 1) (device.name ++ (ascii "\"\x7d" ++ rest)) := by
  have named : breakAt nameKey (front ++ (entry index device ++ rest)) =
      some (front ++ untilName index device, device.name ++ (ascii "\"\x7d" ++ rest)) := by
    rw [entry_split, List.append_assoc, List.append_assoc, List.append_assoc, ← List.append_assoc]
    exact (passed.name.append (clear_untilName index device)).found _
  have numbered : ∃ before after, breakAt indexKey (front ++ (entry index device ++ rest)) =
      some (before, printInt index ++ (ascii ",\"type\":" ++ after)) := by
    have comma : Clear indexKey (ascii (if index = 0 then "" else ",") ++ ascii "\x7b") := by
      split
      · exact Search.clear_of_apart (by decide)
      · exact Search.clear_of_apart (by decide)
    have key : ascii "\x7b\"index\":" = ascii "\x7b" ++ indexKey := by decide
    have found := (passed.index.append comma).found (printInt index ++ (ascii ",\"type\":" ++
      (printInt device.type ++ (ascii ",\"name\":\"" ++
        (device.name ++ (ascii "\"\x7d" ++ rest))))))
    refine ⟨_, _, Eq.trans ?_ found⟩
    simp only [entry, key, List.append_assoc]
  obtain ⟨before, after, found⟩ := numbered
  have number : atoi (printInt index ++ (ascii ",\"type\":" ++ after)) = index := by
    apply atoi_printInt
    intro c first
    cases first
    decide
  have short := (device.name.takeWhile_prefix (· ≠ quote)).length_le
  have fits := device.fits
  rw [stageEntries, named]
  dsimp only
  rw [found, jsonStr_name, List.take_of_length_le (by omega)]
  dsimp only
  rw [number]

theorem stageEntries_iff {front : List UInt8} (passed : Passed front) (devices : List Device)
    (rest : List UInt8) (i index : Nat) :
    stageEntries devices.length i (front ++ (entries index devices ++ rest)) =
        mirrored index devices ↔
      ∀ device ∈ devices, quote ∉ device.name := by
  induction devices generalizing front i index with
  | nil => simp [stageEntries, mirrored]
  | cons device others ih =>
    rw [List.length_cons, entries, List.append_assoc, stageEntries_entry passed, mirrored]
    by_cases plain : quote ∈ device.name
    · have cut : device.name.takeWhile (· ≠ quote) ≠ device.name := by
        intro same
        have all := List.takeWhile_eq_self_iff.mp same quote plain
        simp at all
      refine iff_of_false ?_ ?_
      · intro same
        exact cut (congrArg Staged.name (List.cons.inj same).1)
      · intro every
        exact every device List.mem_cons_self plain
    · have whole : device.name.takeWhile (· ≠ quote) = device.name := by
        apply List.takeWhile_eq_self_iff.mpr
        intro c inside
        exact decide_eq_true fun same => plain (same ▸ inside)
      have next : Passed (device.name ++ ascii "\"\x7d") := by
        constructor
        · exact (clear_plain rfl plain).append (Search.clear_of_apart (by decide))
        · exact (clear_plain rfl plain).append (Search.clear_of_apart (by decide))
      rw [whole, ← List.append_assoc device.name, List.cons.injEq, ih next]
      simp [plain]

theorem jsonInt_found {front : List UInt8} {key : String}
    (clear : Clear (ascii "\"" ++ ascii key ++ ascii "\":") front) (value : Int)
    {rest : List UInt8} (ended : ∀ c, rest.head? = some c → isDigit c = false) (default : Int) :
    jsonInt (front ++ (ascii "\"" ++ ascii key ++ ascii "\":" ++ (printInt value ++ rest))) key
      default = value := by
  rw [jsonInt, clear.found]
  exact atoi_printInt value ended

theorem listHead_count (list : DeviceList) (rest : List UInt8) :
    jsonInt (listHead list ++ rest) "count" 0 = list.devices.length := by
  have key : ascii "\x7b\"count\":" =
      ascii "\x7b" ++ (ascii "\"" ++ ascii "count" ++ ascii "\":") := by
    decide
  have shape : listHead list ++ rest =
      ascii "\x7b" ++ (ascii "\"" ++ ascii "count" ++ ascii "\":" ++ (printInt list.devices.length ++
        (ascii ",\"selected\":" ++ (printInt list.selected ++
          (ascii ",\"devices\":[" ++ rest))))) := by
    simp only [listHead, key, List.append_assoc]
  rw [shape]
  apply jsonInt_found (Search.clear_of_apart (by decide))
  intro c first
  cases first
  decide

theorem listHead_selected (list : DeviceList) (rest : List UInt8) :
    jsonInt (listHead list ++ rest) "selected" (-1) = list.selected := by
  have key : ascii ",\"selected\":" =
      ascii "," ++ (ascii "\"" ++ ascii "selected" ++ ascii "\":") := by decide
  have shape : listHead list ++ rest =
      (ascii "\x7b\"count\":" ++ (printInt list.devices.length ++ ascii ",")) ++
        (ascii "\"" ++ ascii "selected" ++ ascii "\":" ++ (printInt list.selected ++
          (ascii ",\"devices\":[" ++ rest))) := by
    simp only [listHead, key, List.append_assoc]
  have counted : Clear (ascii "\"" ++ ascii "selected" ++ ascii "\":") (ascii "\x7b\"count\":") :=
    Search.clear_of_apart (by decide)
  have number : Clear (ascii "\"" ++ ascii "selected" ++ ascii "\":")
      (printInt list.devices.length) := clear_plain rfl (printInt_plain _)
  rw [shape]
  apply jsonInt_found (counted.append (number.append (Search.clear_of_apart (by decide))))
  intro c first
  cases first
  decide

theorem listHead_passed (list : DeviceList) : Passed (listHead list) := by
  have count := printInt_plain list.devices.length
  have selected := printInt_plain list.selected
  constructor
  · have first : Clear nameKey (ascii "\x7b\"count\":") := Search.clear_of_apart (by decide)
    have second : Clear nameKey (ascii ",\"selected\":") := Search.clear_of_apart (by decide)
    have third : Clear nameKey (ascii ",\"devices\":[") := Search.clear_of_apart (by decide)
    exact (first.append (clear_plain rfl count)).append
      ((second.append (clear_plain rfl selected)).append third)
  · have first : Clear indexKey (ascii "\x7b\"count\":") := Search.clear_of_apart (by decide)
    have second : Clear indexKey (ascii ",\"selected\":") := Search.clear_of_apart (by decide)
    have third : Clear indexKey (ascii ",\"devices\":[") := Search.clear_of_apart (by decide)
    exact (first.append (clear_plain rfl count)).append
      ((second.append (clear_plain rfl selected)).append third)

/-- The client stages the server's list exactly when no name has a double quote. -/
theorem mirrors_iff (list : DeviceList) :
    Mirrors list (stage (serverBuildDevices list replyLen)) ↔
      ∀ device ∈ list.devices, quote ∉ device.name := by
  have few := list.few
  have staged := stageEntries_iff (listHead_passed list) list.devices (ascii "]\x7d") 0 0
  rw [serverBuildDevices_eq, Mirrors, stage, listHead_count, listHead_selected]
  rw [if_neg (by omega), if_neg (by omega), Int.toNat_natCast, Prod.mk.injEq, staged]
  exact and_iff_left rfl

def quotedList : DeviceList where
  devices := [⟨ascii "MS2130", 1, by decide, by decide, by decide⟩,
    ⟨ascii "7\" CRT", 2, by decide, by decide, by decide⟩]
  selected := 1
  few := by decide
  int32 := by decide

/-- The client shows the name up to the quote. -/
theorem mirror_cuts_name :
    stage (serverBuildDevices quotedList replyLen) =
        ([⟨ascii "MS2130", 0⟩, ⟨ascii "7", 1⟩], 1) ∧
      ¬ Mirrors quotedList (stage (serverBuildDevices quotedList replyLen)) := by
  have shown : stage (serverBuildDevices quotedList replyLen) =
      ([⟨ascii "MS2130", 0⟩, ⟨ascii "7", 1⟩], 1) := by decide +kernel
  refine ⟨shown, fun same => ?_⟩
  rw [shown] at same
  exact absurd same (by decide)

end MisrcGui.Net.DeviceMirror
