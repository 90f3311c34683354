import MisrcGui.Library.BigEndian
import Mathlib.Data.List.Basic

/-! The IO layer under the playback decoder (`gui_playback.c`): the callbacks that libFLAC reads
a capture through, and the STREAMINFO total they patch. -/
namespace MisrcGui.Playback.DecoderIo
open Library

def headLen : Nat := 26

def totalOff : Nat := 18

def totalMod : Nat := 2 ^ 36

def int64Max : Nat := 2 ^ 63 - 1

/-- An open regular file of the C library, with its end-of-file indicator. -/
structure Handle where
  bytes : List UInt8
  offset : Nat
  eof : Bool

def Handle.fread (handle : Handle) (want : Nat) : List UInt8 × Handle :=
  let data := (handle.bytes.drop handle.offset).take want
  (data, { handle with
    offset := handle.offset + data.length
    eof := handle.eof || data.length < want })

def Handle.fseek (handle : Handle) (offset : Nat) : Handle := { handle with offset, eof := false }

inductive Stage where
  | off
  | serving
  | seekFile
deriving DecidableEq

/-- `playback_io_t`; the owner and `header_total` are left out. -/
structure Io where
  file : Handle
  head : List UInt8
  bytesServed : Nat
  stage : Stage

/-- `fLaC`. -/
def magic : List UInt8 := [0x66, 0x4C, 0x61, 0x43]

/-- The stream marker, and a first metadata block that is STREAMINFO. -/
def startsFlac (head : List UInt8) : Bool :=
  head.take 4 = magic && head.getD 4 0 &&& 0x7F = 0

def fieldTotal (patchTotal : Nat) : Nat := if totalMod ≤ patchTotal then 0 else patchTotal

def patchHead (head : List UInt8) (patchTotal : Nat) : List UInt8 :=
  let v := BigEndian.decode (head.drop totalOff)
  head.take totalOff ++
    BigEndian.encode 8 (v / totalMod * totalMod + fieldTotal patchTotal % totalMod)

def reset (file : Handle) (patchTotal : Nat) : Io :=
  if patchTotal = 0 then ⟨file, [], 0, .off⟩
  else
    let (head, file) := (file.fseek 0).fread headLen
    let file := file.fseek 0
    if head.length ≠ headLen || !startsFlac head then ⟨file, [], 0, .off⟩
    else ⟨file, patchHead head patchTotal, 0, .serving⟩

/-- A callback; `cancelled` is what it sees of the cancel flag. -/
inductive Call where
  | read (want : Nat) (cancelled : Bool)
  | seek (offset : Nat) (cancelled : Bool)
  | tell
  | length
  | eof

inductive Answer where
  | data (bytes : List UInt8)
  | endOfStream
  | abort
  | done
  | error
  | position (offset : Nat)
  | size (length : Nat)
  | atEnd (eof : Bool)
deriving DecidableEq

def finish (io : Io) (data : List UInt8) : Answer × Io :=
  if data = [] then (if io.file.eof then .endOfStream else .abort, io)
  else (.data data, { io with bytesServed := io.bytesServed + data.length })

def readCb (io : Io) (want : Nat) (cancelled : Bool) : Answer × Io :=
  if want = 0 ∨ cancelled then (.abort, io)
  else if io.stage = .serving ∧ io.bytesServed < io.head.length then
    let data := (io.head.drop io.bytesServed).take want
    finish { io with
      stage := if io.head.length ≤ io.bytesServed + data.length then .seekFile else io.stage } data
  else
    let io := if io.stage = .seekFile then
      { io with file := io.file.fseek io.head.length, stage := .off } else io
    let (data, file) := io.file.fread want
    finish { io with file } data

def seekCb (io : Io) (offset : Nat) (cancelled : Bool) : Answer × Io :=
  if cancelled ∨ int64Max < offset then (.error, io)
  else (.done, { io with file := io.file.fseek offset, stage := .off })

def tellCb (io : Io) : Answer :=
  .position (if io.stage ≠ .off then io.bytesServed else io.file.offset)

/-- `gui_playback_io_length_cb`: the handle goes to the end and back. -/
def lengthCb (io : Io) : Answer × Io :=
  let current := io.file.offset
  let file := io.file.fseek io.file.bytes.length
  (.size file.offset, { io with file := file.fseek current })

def callback (io : Io) : Call → Answer × Io
  | .read want cancelled => readCb io want cancelled
  | .seek offset cancelled => seekCb io offset cancelled
  | .tell => (tellCb io, io)
  | .length => lengthCb io
  | .eof => (.atEnd io.file.eof, io)

def answers (io : Io) : List Call → List (Call × Answer)
  | [] => []
  | call :: rest => (call, (callback io call).1) :: answers (callback io call).2 rest

/-- Its position, whether it was ever sought in, and whether a read met its end since the last
seek or length query. -/
structure Plain where
  position : Nat
  sought : Bool
  ended : Bool

def Plain.next (plain : Plain) : Call → Answer → Plain
  | .read _ _, .data bytes => { plain with position := plain.position + bytes.length }
  | .read _ _, .endOfStream => { plain with ended := true }
  | .seek offset _, .done => ⟨offset, true, false⟩
  | .length, _ => { plain with ended := false }
  | _, _ => plain

/-- The answers of a file of these bytes. A read may be short, but not empty before the end. -/
def Allowed (file : List UInt8) (plain : Plain) : Call → Answer → Prop
  | .read want cancelled, answer =>
    if want = 0 ∨ cancelled then answer = .abort
    else if file.length ≤ plain.position then answer = .endOfStream
    else ∃ count, 0 < count ∧ count ≤ want ∧ plain.position + count ≤ file.length ∧
      answer = .data ((file.drop plain.position).take count)
  | .seek offset cancelled, answer =>
    answer = if cancelled ∨ int64Max < offset then .error else .done
  | .tell, answer => answer = .position plain.position
  | .length, answer => answer = .size file.length
  | .eof, answer => ∃ eof, answer = .atEnd eof ∧ (plain.ended = true → eof = true) ∧
    (eof = true → file.length ≤ plain.position)

/-- Every answer is one of the file that is served at that moment. -/
def Follows (served : Bool → List UInt8) : Plain → List (Call × Answer) → Prop
  | _, [] => True
  | plain, (call, answer) :: rest =>
    Allowed (served plain.sought) plain call answer ∧ Follows served (plain.next call answer) rest

/-- The 64 bits that end in the 36 bits of the total. -/
def totalWord (file : List UInt8) : Nat := BigEndian.decode ((file.drop totalOff).take 8)

def patched (input : List UInt8) (patchTotal : Nat) : List UInt8 :=
  patchHead (input.take headLen) patchTotal ++ input.drop headLen

/-- A file that differs from the input in the 36 bits of the total only. -/
structure IsPatched (input : List UInt8) (patchTotal : Nat) (file : List UInt8) : Prop where
  length : file.length = input.length
  same : ∀ i, i < totalOff ∨ headLen ≤ i → file[i]? = input[i]?
  above : totalWord file / totalMod = totalWord input / totalMod
  total : totalWord file % totalMod = if patchTotal < totalMod then patchTotal else 0

variable {input : List UInt8} {patchTotal : Nat}

theorem length_patchHead {head : List UInt8} (full : head.length = headLen) :
    (patchHead head patchTotal).length = headLen := by
  rw [patchHead, List.length_append, List.length_take, BigEndian.length_encode, full]
  rfl

theorem length_head (long : headLen ≤ input.length) :
    (patchHead (input.take headLen) patchTotal).length = headLen := by
  apply length_patchHead
  rw [List.length_take]
  omega

theorem length_patched (long : headLen ≤ input.length) :
    (patched input patchTotal).length = input.length := by
  rw [patched, List.length_append, length_head long, List.length_drop]
  omega

theorem drop_patched (long : headLen ≤ input.length) {position : Nat}
    (behind : headLen ≤ position) :
    (patched input patchTotal).drop position = input.drop position := by
  have split : position = headLen + (position - headLen) := by omega
  rw [split, ← List.drop_drop, patched, List.drop_append_of_le_length (length_head long).ge,
    List.drop_of_length_le (length_head long).le, List.nil_append, List.drop_drop]

theorem fieldTotal_lt : fieldTotal patchTotal < totalMod := by
  unfold fieldTotal
  split
  · decide
  · omega

theorem totalWord_patched (long : headLen ≤ input.length) :
    totalWord (patched input patchTotal) =
      totalWord input / totalMod * totalMod + fieldTotal patchTotal := by
  have behind : ((input.take headLen).take totalOff).length = totalOff := by
    rw [List.length_take, List.length_take]
    have : totalOff ≤ headLen := by decide
    omega
  have word : (input.take headLen).drop totalOff = (input.drop totalOff).take 8 := by
    rw [List.drop_take]
    rfl
  have bound : totalWord input < 256 ^ 8 := by
    refine (BigEndian.decode_lt _).trans_le (Nat.pow_le_pow_right (by decide) ?_)
    rw [List.length_take]
    omega
  have fits : totalWord input / totalMod * totalMod + fieldTotal patchTotal < 256 ^ 8 := by
    have low : fieldTotal patchTotal < totalMod := fieldTotal_lt
    unfold totalMod at low bound ⊢
    omega
  rw [totalWord, patched, patchHead, List.append_assoc,
    List.drop_append_of_le_length behind.ge, List.drop_of_length_le behind.le, List.nil_append,
    List.take_append_of_le_length (BigEndian.length_encode _ _).ge,
    List.take_of_length_le (BigEndian.length_encode _ _).le, BigEndian.decode_encode, word,
    Nat.mod_eq_of_lt fieldTotal_lt]
  exact Nat.mod_eq_of_lt fits

theorem patched_isPatched (long : headLen ≤ input.length) :
    IsPatched input patchTotal (patched input patchTotal) where
  length := length_patched long
  same := by
    intro i place
    rcases place with before | behind
    · have inside : i < headLen := before.trans (by decide)
      rw [patched, patchHead, List.append_assoc, List.getElem?_append_left]
      · rw [List.getElem?_take_of_lt before, List.getElem?_take_of_lt inside]
      · rw [List.length_take, List.length_take]
        omega
    · have rest : (patched input patchTotal).drop i = input.drop i := drop_patched long behind
      have at_i := congrArg (·[0]?) rest
      simpa using at_i
  above := by
    rw [totalWord_patched long, Nat.mul_comm, Nat.mul_add_div (by decide),
      Nat.div_eq_of_lt fieldTotal_lt, Nat.add_zero]
  total := by
    rw [totalWord_patched long, Nat.mul_comm, Nat.mul_add_mod,
      Nat.mod_eq_of_lt fieldTotal_lt, fieldTotal]
    split <;> split <;> omega

/-- What the layer serves: the patched file until the first seek. -/
def served (input : List UInt8) (patchTotal : Nat) (sought : Bool) : List UInt8 :=
  if patchTotal = 0 ∨ sought then input else patched input patchTotal

theorem length_served (long : headLen ≤ input.length) (sought : Bool) :
    (served input patchTotal sought).length = input.length := by
  unfold served
  split
  · rfl
  · exact length_patched long

variable (input patchTotal) in
/-- Where the layer stands when the plain file stands at `plain`. -/
def Stands (plain : Plain) (io : Io) : Prop :=
  match io.stage with
  | .off => io.file.offset = plain.position ∧
    (patchTotal = 0 ∨ plain.sought = true ∨ headLen ≤ plain.position)
  | .serving => plain.sought = false ∧ patchTotal ≠ 0 ∧ io.file.offset = 0 ∧
    io.head = patchHead (input.take headLen) patchTotal ∧
    io.bytesServed = plain.position ∧ plain.position < headLen
  | .seekFile => plain.sought = false ∧ patchTotal ≠ 0 ∧ io.file.offset = 0 ∧
    io.head.length = headLen ∧ io.bytesServed = plain.position ∧ plain.position = headLen

variable (input patchTotal) in
structure Serves (plain : Plain) (io : Io) : Prop where
  bytes : io.file.bytes = input
  met : io.file.eof = true → input.length ≤ io.file.offset
  ended : plain.ended = true → io.file.eof = true
  stands : Stands input patchTotal plain io

variable {plain : Plain} {io : Io}

theorem drop_served (long : headLen ≤ input.length)
    (agrees : patchTotal = 0 ∨ plain.sought = true ∨ headLen ≤ plain.position) :
    (served input patchTotal plain.sought).drop plain.position =
      input.drop plain.position := by
  unfold served
  split
  · rfl
  · rename_i patches
    apply drop_patched long
    tauto

theorem finish_file (long : headLen ≤ input.length) (serves : Serves input patchTotal plain io)
    (off : io.stage = .off) {want : Nat} (wanted : 0 < want) :
    let result := finish { io with file := (io.file.fread want).2 } (io.file.fread want).1
    Allowed (served input patchTotal plain.sought) plain (.read want false) result.1 ∧
      Serves input patchTotal (plain.next (.read want false) result.1) result.2 := by
  have stands := serves.stands
  unfold Stands at stands
  rw [off] at stands
  obtain ⟨offset, agrees⟩ := stands
  obtain ⟨data, same⟩ : ∃ data, data = (input.drop plain.position).take want := ⟨_, rfl⟩
  have count : data.length = min want (input.length - plain.position) := by
    rw [same, List.length_take, List.length_drop]
  have here : ¬ (want = 0 ∨ false = true) := by
    rintro (empty | cancelled)
    · omega
    · cases cancelled
  have read : io.file.fread want = (data, { io.file with
      offset := plain.position + data.length
      eof := io.file.eof || data.length < want }) := by
    simp only [Handle.fread, serves.bytes, offset, ← same]
  simp only [read, finish, Allowed, if_neg here, length_served long]
  by_cases past : input.length ≤ plain.position
  · have none_left : data = [] := by
      apply List.eq_nil_of_length_eq_zero
      omega
    have met : (io.file.eof || decide (data.length < want)) = true := by
      rw [none_left, List.length_nil, decide_eq_true wanted, Bool.or_true]
    rw [if_pos none_left, if_pos past, if_pos met]
    refine ⟨rfl, serves.bytes, ?_, fun _ => met, ?_⟩
    · intro _
      exact past.trans (Nat.le_add_right _ _)
    · unfold Stands
      rw [off, none_left]
      exact ⟨rfl, agrees⟩
  · have some_left : data ≠ [] := by
      apply List.ne_nil_of_length_pos
      omega
    rw [if_neg some_left, if_neg past]
    refine ⟨⟨data.length, ?_, ?_, ?_, ?_⟩, serves.bytes, ?_, ?_, ?_⟩
    · omega
    · omega
    · omega
    · rw [drop_served long agrees, count, ← List.length_drop, ← List.take_eq_take_min, same]
    · intro met
      rcases Bool.or_eq_true_iff.mp met with before | short
      · have := serves.met before
        omega
      · have := of_decide_eq_true short
        dsimp only
        omega
    · intro ended
      rw [serves.ended ended]
      rfl
    · unfold Stands
      rw [off]
      refine ⟨rfl, agrees.imp_right (Or.imp_right ?_)⟩
      intro behind
      exact behind.trans (Nat.le_add_right _ _)

theorem finish_head (long : headLen ≤ input.length) (serves : Serves input patchTotal plain io)
    (serving : io.stage = .serving) {want : Nat} (wanted : 0 < want) :
    let data := (io.head.drop io.bytesServed).take want
    let result := finish { io with
      stage := if io.head.length ≤ io.bytesServed + data.length then .seekFile else io.stage } data
    Allowed (served input patchTotal plain.sought) plain (.read want false) result.1 ∧
      Serves input patchTotal (plain.next (.read want false) result.1) result.2 := by
  have stands := serves.stands
  unfold Stands at stands
  rw [serving] at stands
  obtain ⟨sought, patches, offset, head, position, inside⟩ := stands
  obtain ⟨data, same⟩ : ∃ data, data = (io.head.drop io.bytesServed).take want := ⟨_, rfl⟩
  have full : io.head.length = headLen := by
    rw [head, length_head long]
  have count : data.length = min want (headLen - plain.position) := by
    rw [same, List.length_take, List.length_drop, full, position]
  have here : ¬ (want = 0 ∨ false = true) := by
    rintro (empty | cancelled)
    · omega
    · cases cancelled
  have some_left : data ≠ [] := by
    apply List.ne_nil_of_length_pos
    omega
  have more : ¬ input.length ≤ plain.position := by omega
  simp only [← same, finish, Allowed, if_neg here, if_neg some_left, length_served long,
    if_neg more]
  refine ⟨⟨data.length, ?_, ?_, ?_, ?_⟩, serves.bytes, serves.met, serves.ended, ?_⟩
  · omega
  · omega
  · omega
  · have from_head : served input patchTotal plain.sought = io.head ++ input.drop headLen := by
      rw [served, sought, if_neg (by tauto), patched, head]
    rw [from_head, List.drop_append_of_le_length (by omega),
      List.take_append_of_le_length (by rw [List.length_drop]; omega), count, ← full,
      ← List.length_drop, ← List.take_eq_take_min, same, position]
  · by_cases whole : io.head.length ≤ io.bytesServed + data.length
    · rw [if_pos whole]
      unfold Stands
      dsimp only [Plain.next]
      refine ⟨sought, patches, offset, full, ?_, ?_⟩ <;> omega
    · rw [if_neg whole, serving]
      unfold Stands
      dsimp only [Plain.next]
      refine ⟨sought, patches, offset, head, ?_, ?_⟩ <;> omega

theorem Serves.unended (long : headLen ≤ input.length)
    (serves : Serves input patchTotal plain io) (offset : io.file.offset = 0) :
    plain.ended = false := by
  rw [Bool.eq_false_iff]
  intro ended
  have past := serves.met (serves.ended ended)
  have : 0 < headLen := by decide
  omega

theorem Serves.resume (long : headLen ≤ input.length)
    (serves : Serves input patchTotal plain io) (seekFile : io.stage = .seekFile) :
    Serves input patchTotal plain
      { io with file := io.file.fseek io.head.length, stage := .off } := by
  have stands := serves.stands
  unfold Stands at stands
  rw [seekFile] at stands
  obtain ⟨-, -, offset, full, -, position⟩ := stands
  have unended := serves.unended long offset
  refine ⟨serves.bytes, ?_, ?_, ?_, ?_⟩
  · intro met
    cases met
  · intro ended
    rw [unended] at ended
    cases ended
  · dsimp only [Handle.fseek]
    omega
  · exact .inr (.inr position.ge)

theorem readCb_step (long : headLen ≤ input.length) (serves : Serves input patchTotal plain io)
    (want : Nat) (cancelled : Bool) :
    let result := readCb io want cancelled
    Allowed (served input patchTotal plain.sought) plain (.read want cancelled) result.1 ∧
      Serves input patchTotal (plain.next (.read want cancelled) result.1) result.2 := by
  unfold readCb
  by_cases refused : want = 0 ∨ cancelled = true
  · simp only [Allowed, if_pos refused]
    exact ⟨trivial, serves⟩
  obtain ⟨some_want, running⟩ := not_or.mp refused
  have wanted := Nat.pos_of_ne_zero some_want
  rw [Bool.not_eq_true] at running
  subst running
  rw [if_neg refused]
  by_cases serving : io.stage = .serving ∧ io.bytesServed < io.head.length
  · rw [if_pos serving]
    exact finish_head long serves serving.1 wanted
  rw [if_neg serving]
  by_cases seekFile : io.stage = .seekFile
  · rw [if_pos seekFile]
    exact finish_file long (serves.resume long seekFile) rfl wanted
  · rw [if_neg seekFile]
    apply finish_file long serves _ wanted
    have stands := serves.stands
    unfold Stands at stands
    cases stage : io.stage with
    | off => rfl
    | seekFile => exact absurd stage seekFile
    | serving =>
      rw [stage] at stands
      obtain ⟨-, -, -, head, position, inside⟩ := stands
      refine absurd ⟨stage, ?_⟩ serving
      rw [head, length_head long]
      omega

theorem seekCb_step (serves : Serves input patchTotal plain io) (offset : Nat)
    (cancelled : Bool) :
    let result := seekCb io offset cancelled
    Allowed (served input patchTotal plain.sought) plain (.seek offset cancelled) result.1 ∧
      Serves input patchTotal (plain.next (.seek offset cancelled) result.1) result.2 := by
  unfold seekCb
  by_cases refused : cancelled = true ∨ int64Max < offset
  · simp only [Allowed, if_pos refused]
    exact ⟨trivial, serves⟩
  · simp only [Allowed, if_neg refused]
    refine ⟨trivial, serves.bytes, ?_, ?_, rfl, .inr (.inl rfl)⟩
    · intro met
      cases met
    · intro ended
      cases ended

theorem lengthCb_step (long : headLen ≤ input.length) (serves : Serves input patchTotal plain io) :
    Allowed (served input patchTotal plain.sought) plain .length (lengthCb io).1 ∧
      Serves input patchTotal (plain.next .length (lengthCb io).1) (lengthCb io).2 := by
  refine ⟨?_, serves.bytes, ?_, ?_, serves.stands⟩
  · rw [Allowed, length_served long, lengthCb]
    exact congrArg (Answer.size ·.length) serves.bytes
  · intro met
    cases met
  · intro ended
    cases ended

theorem tellCb_stands (serves : Serves input patchTotal plain io) :
    tellCb io = .position plain.position := by
  have stands := serves.stands
  unfold Stands at stands
  rw [tellCb]
  cases stage : io.stage with
  | off =>
    rw [stage] at stands
    rw [if_neg (by simp), stands.1]
  | serving | seekFile =>
    rw [stage] at stands
    rw [if_pos (by simp), stands.2.2.2.2.1]

theorem callback_step (long : headLen ≤ input.length) (serves : Serves input patchTotal plain io)
    (call : Call) :
    Allowed (served input patchTotal plain.sought) plain call (callback io call).1 ∧
      Serves input patchTotal (plain.next call (callback io call).1) (callback io call).2 := by
  cases call with
  | read want cancelled => exact readCb_step long serves want cancelled
  | seek offset cancelled => exact seekCb_step serves offset cancelled
  | tell => exact ⟨tellCb_stands serves, serves⟩
  | length => exact lengthCb_step long serves
  | eof =>
    refine ⟨⟨io.file.eof, rfl, serves.ended, ?_⟩, serves⟩
    intro met
    rw [length_served long]
    have past := serves.met met
    have stands := serves.stands
    unfold Stands at stands
    split at stands <;> omega

/-- `gui_playback_io_reset` on a freshly opened file. -/
theorem reset_serves (long : headLen ≤ input.length) (flac : startsFlac (input.take headLen)) :
    Serves input patchTotal ⟨0, false, false⟩ (reset ⟨input, 0, false⟩ patchTotal) := by
  unfold reset
  by_cases none : patchTotal = 0
  · rw [if_pos none]
    exact ⟨rfl, nofun, nofun, rfl, .inl none⟩
  · have full : (input.take headLen).length = headLen := by
      rw [List.length_take]
      omega
    have staged : ¬ ((input.take headLen).length ≠ headLen ||
        !startsFlac (input.take headLen)) = true := by
      rw [flac, full]
      decide
    rw [if_neg none]
    simp only [Handle.fread, Handle.fseek, List.drop_zero, if_neg staged]
    exact ⟨rfl, nofun, nofun, rfl, none, rfl, rfl, rfl, by decide⟩

theorem answers_follow (long : headLen ≤ input.length) (serves : Serves input patchTotal plain io)
    (calls : List Call) :
    Follows (served input patchTotal) plain (answers io calls) := by
  induction calls generalizing plain io with
  | nil => trivial
  | cons call rest ih =>
    obtain ⟨allowed, after⟩ := callback_step long serves call
    exact ⟨allowed, ih after⟩

/-- Until the first seek the layer is the patched file, and afterwards the input: a seek ends the
staged head. A total of 0 patches nothing. -/
theorem layer_follows (input : List UInt8) (patchTotal : Nat) (calls : List Call)
    (long : headLen ≤ input.length) (flac : startsFlac (input.take headLen)) :
    IsPatched input patchTotal (patched input patchTotal) ∧
      Follows (served input patchTotal) ⟨0, false, false⟩
        (answers (reset ⟨input, 0, false⟩ patchTotal) calls) :=
  ⟨patched_isPatched long, answers_follow long (reset_serves long flac) calls⟩

/-- A marker, a STREAMINFO block that claims 0 samples, and two more bytes. -/
def claimsNothing : List UInt8 := magic ++ List.replicate 24 0

theorem layer_follows_claimsNothing :
    IsPatched claimsNothing 5 (patched claimsNothing 5) ∧
      Follows (served claimsNothing 5) ⟨0, false, false⟩
        (answers (reset ⟨claimsNothing, 0, false⟩ 5)
          [.read 20 false, .length, .read 20 false, .tell, .read 20 false, .read 1 false, .eof,
            .seek 18 false, .read 8 false]) :=
  layer_follows claimsNothing 5 _ (by decide) (by decide)

/-- After a seek back into the head a read meets the total that the file claims. -/
theorem seek_reads_claimed : ¬ Follows (fun _ => patched claimsNothing 5) ⟨0, false, false⟩
    (answers (reset ⟨claimsNothing, 0, false⟩ 5) [.seek 18 false, .read 8 false]) := by
  rintro ⟨-, allowed, -⟩
  obtain ⟨count, -, few, -, same⟩ := allowed
  have read : (readCb (seekCb (reset ⟨claimsNothing, 0, false⟩ 5) 18 false).2 8 false).1 =
      .data (List.replicate 8 0) := by decide
  have bytes : List.replicate 8 0 = ((patched claimsNothing 5).drop 18).take count :=
    Answer.data.inj (read.symm.trans same)
  have exact_count : ∀ n ≤ 8, List.replicate 8 0 ≠ ((patched claimsNothing 5).drop 18).take n := by
    decide
  exact exact_count count few bytes

end MisrcGui.Playback.DecoderIo
