import Mathlib.Order.Interval.Finset.Nat
import MisrcGui.Library.NumberText
import MisrcGui.Library.Terminated

/-! The CPU list of the FLAC writer, `flac_writer_parse_affinity_cpu_list_linux`. A text is the
bytes in front of its terminator; both callers pass one, and a set of their own. -/
namespace MisrcGui.Record.AffinityList
open Library.NumberText (isDigit isSpace digitsValue)
open Library.Terminated (Checked loop)

abbrev Text := List UInt8

def cpuSetsize : Nat := 1024
def intMax : Nat := 2 ^ 31 - 1
def comma : UInt8 := 44
def minus : UInt8 := 45

inductive AffinityError
  | empty
  | near (c : UInt8)
  | index
  | rangeEnd
  | rangeReversed
  | outOfRange (maxCpuIndex : Int)
  | exceedsSetsize
  | separator (c : UInt8)
  | trailingComma
  | noTargets
  | notAvailable (cpu : Nat)
deriving DecidableEq

def byteText (c : UInt8) : String := String.singleton (Char.ofNat c.toNat)

def AffinityError.message : AffinityError → String
  | .empty => "FLAC affinity CPU list is empty"
  | .near c => "Invalid FLAC affinity CPU list near '" ++ byteText c ++ "'"
  | .index => "Invalid FLAC affinity CPU index"
  | .rangeEnd => "Invalid FLAC affinity range end"
  | .rangeReversed => "FLAC affinity range end is smaller than start"
  | .outOfRange maxCpuIndex =>
    "FLAC affinity CPU index out of range (max available index: " ++ toString maxCpuIndex ++ ")"
  | .exceedsSetsize =>
    "FLAC affinity CPU index exceeds CPU_SETSIZE (" ++ toString (cpuSetsize - 1) ++ ")"
  | .separator c => "Invalid FLAC affinity separator near '" ++ byteText c ++ "'"
  | .trailingComma => "FLAC affinity list cannot end with ','"
  | .noTargets => "FLAC affinity list produced no CPU targets"
  | .notAvailable cpu => "FLAC affinity CPU " ++ toString cpu ++
    " is not available in current process affinity mask"

/-- What `sysconf` reports, and the mask of `sched_getaffinity` where it does not fail. -/
structure System where
  cpuConf : Int
  allowed : Option (Finset Nat)

def System.maxCpuIndex (system : System) : Int :=
  if system.cpuConf > 0 then system.cpuConf - 1 else cpuSetsize - 1

/-- `while (*p && isspace(*p)) p++`. -/
def skipSpace (text : Text) : Text := text.dropWhile isSpace

def startsDigit : Text → Bool
  | [] => false
  | c :: _ => isDigit c

/-- `strtol` at a digit, with the checks of what it returns: a value above `LONG_MAX` sets `errno`,
and is above `INT_MAX` too. -/
def readIndex (text : Text) : Option (Nat × Text) :=
  let value := digitsValue (text.takeWhile isDigit)
  if value > intMax then none else some (value, text.dropWhile isDigit)

/-- What follows the `-` of a range. -/
def readRangeEnd (start : Nat) (text : Text) : Except AffinityError ((Nat × Nat) × Text) :=
  if startsDigit (skipSpace text) then
    match readIndex (skipSpace text) with
    | none => .error .rangeEnd
    | some (last, rest) =>
      if last < start then .error .rangeReversed else .ok ((start, last), rest)
  else .error .rangeEnd

def readRange (start : Nat) : Text → Except AffinityError ((Nat × Nat) × Text)
  | [] => .ok ((start, start), [])
  | c :: rest =>
    if c = minus then readRangeEnd start rest else .ok ((start, start), c :: rest)

def readItem (text : Text) : Except AffinityError ((Nat × Nat) × Text) :=
  match readIndex text with
  | none => .error .index
  | some (start, rest) => readRange start (skipSpace rest)

def takeItem (system : System) (text : Text) : Except AffinityError ((Nat × Nat) × Text) :=
  match readItem text with
  | .error error => .error error
  | .ok ((start, last), rest) =>
    if start > system.maxCpuIndex ∨ last > system.maxCpuIndex then
      .error (.outOfRange system.maxCpuIndex)
    else if last ≥ cpuSetsize then .error .exceedsSetsize
    else .ok ((start, last), rest)

/-- `for (cpu = start_cpu; cpu <= end_cpu; cpu++) CPU_SET(cpu, target_set)`. -/
def setCpus (range : Nat × Nat) (set : Finset Nat) : Finset Nat :=
  (List.range' range.1 (range.2 + 1 - range.1)).foldl (fun set cpu => insert cpu set) set

structure Scan where
  text : Text
  set : Finset Nat
  parsedAny : Bool

/-- How the loop is left: with an error, or with `parsed_any` at a `break`. -/
structure ScanEnd where
  set : Finset Nat
  outcome : Except AffinityError Bool

def behindItem (set : Finset Nat) (rest : Text) : Scan ⊕ ScanEnd :=
  match skipSpace rest with
  | [] => .inr ⟨set, .ok true⟩
  | c :: rest =>
    if c ≠ comma then .inr ⟨set, .error (.separator c)⟩
    else if skipSpace rest = [] then .inr ⟨set, .error .trailingComma⟩
    else .inl ⟨skipSpace rest, set, true⟩

/-- A round of `while (1)`. -/
def scanRound (system : System) (scan : Scan) : Scan ⊕ ScanEnd :=
  match skipSpace scan.text with
  | [] => .inr ⟨scan.set, .ok scan.parsedAny⟩
  | c :: rest =>
    if isDigit c then
      match takeItem system (c :: rest) with
      | .error error => .inr ⟨scan.set, .error error⟩
      | .ok (range, rest) => behindItem (setCpus range scan.set) rest
    else .inr ⟨scan.set, .error (.near c)⟩

def cpuCountSet (set : Finset Nat) : Nat := ((List.range cpuSetsize).filter (· ∈ set)).length

def unavailable (system : System) (set : Finset Nat) : Option Nat :=
  match system.allowed with
  | none => none
  | some allowed => (List.range cpuSetsize).find? fun cpu => cpu ∈ set && cpu ∉ allowed

/-- The target set when the parser returns, and what it complains of; `true` is no complaint. -/
structure Parsed where
  set : Finset Nat
  error : Option AffinityError
deriving DecidableEq

def finish (system : System) (scanEnd : ScanEnd) : Parsed :=
  match scanEnd.outcome with
  | .error error => ⟨scanEnd.set, some error⟩
  | .ok parsedAny =>
    if !parsedAny || cpuCountSet scanEnd.set = 0 then ⟨scanEnd.set, some .noTargets⟩
    else ⟨scanEnd.set, (unavailable system scanEnd.set).map .notAvailable⟩

def parseAffinityCpuList (system : System) (cpuList : Text) (target : Finset Nat) :
    Checked Parsed :=
  if cpuList = [] then .ok ⟨target, some .empty⟩
  else do
    let scanEnd ← loop (fun scan => .ok (scanRound system scan)) (cpuList.length + 1)
      ⟨cpuList, ∅, false⟩
    return finish system scanEnd

end MisrcGui.Record.AffinityList
