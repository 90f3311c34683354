import MisrcGui.Library.HeadBlock
import MisrcGui.Library.NumberText
import MisrcGui.Library.Percent

/-! The responses that the network clients read: `client_get` of the mirror (`gui_net.c`) and
`mon_get` of the monitor (`gui_monitor_transport.c`). -/
namespace MisrcGui.Net.Responses
open Library Library.Percent Library.NumberText

def cr : UInt8 := 13

def lf : UInt8 := 10

def endMark : List UInt8 := [cr, lf, cr, lf]

def cString (buffer : List UInt8) : List UInt8 := buffer.takeWhile (· ≠ 0)

def printable (c : UInt8) : Bool := 32 ≤ c && c ≤ 126

def Shown (line : List UInt8) : Prop := line ≠ [] ∧ line.all printable

structure Answer where
  status : List UInt8
  fields : List (List UInt8)
  body : List UInt8
  long : 13 ≤ status.length
  shown : ∀ line ∈ status :: fields, Shown line

def Answer.head (answer : Answer) : List UInt8 :=
  HeadBlock.block cr lf (answer.status :: answer.fields)

def Answer.bytes (answer : Answer) : List UInt8 := answer.head ++ answer.body

inductive MediaType where
  | textPlain
  | textJson
  | applicationJson

def MediaType.text : MediaType → List UInt8
  | .textPlain => ascii "text/plain"
  | .textJson => ascii "text/json"
  | .applicationJson => ascii "application/json"

theorem decimal_printable (n : Nat) : (decimal n).all printable := by
  rw [List.all_eq_true]
  intro c inside
  have digit := decimal_isDigit n c inside
  simp only [isDigit, printable, Bool.and_eq_true, decide_eq_true_eq, UInt8.le_iff_toNat_le] at *
  exact ⟨le_trans (by decide) digit.1, digit.2.trans (by decide)⟩

theorem printable_append {first rest : List UInt8} (left : first.all printable)
    (right : rest.all printable) : (first ++ rest).all printable := by
  rw [List.all_append, left, right]
  rfl

theorem mediaType_printable (type : MediaType) : type.text.all printable := by
  cases type <;> decide

def monAnswer (code : Nat) (type : MediaType) (body : List UInt8) : Answer where
  status := ascii "HTTP/1.0 " ++ (decimal code ++ ascii
    (if code = 200 then " OK" else if code = 404 then " Not Found" else " Bad Request"))
  fields := [ascii "Content-Type: " ++ type.text, ascii "Content-Length: " ++ decimal body.length,
    ascii "Connection: close"]
  body := body
  long := by
    have digits := List.length_pos_of_ne_nil (decimal_ne_nil code)
    have reason : 3 ≤ (ascii (if code = 200 then " OK" else if code = 404 then " Not Found"
        else " Bad Request")).length := by
      split
      · decide
      · split <;> decide
    have version : (ascii "HTTP/1.0 ").length = 9 := by decide
    rw [List.length_append, List.length_append]
    omega
  shown := by
    intro line inside
    simp only [List.mem_cons, List.not_mem_nil, or_false] at inside
    rcases inside with rfl | rfl | rfl | rfl
    · refine ⟨nofun, printable_append (by decide) (printable_append (decimal_printable code) ?_)⟩
      split
      · decide
      · split <;> decide
    · exact ⟨nofun, printable_append (by decide) (mediaType_printable type)⟩
    · exact ⟨nofun, printable_append (by decide) (decimal_printable _)⟩
    · exact ⟨nofun, by decide⟩

/-- A good answer of `server_handle_request`; some have no length. -/
def netAnswer (type : MediaType) (counted : Bool) (body : List UInt8) : Answer where
  status := ascii "HTTP/1.0 200 OK"
  fields := (ascii "Content-Type: " ++ type.text) ::
    if counted then [ascii "Content-Length: " ++ decimal body.length] else []
  body := body
  long := by decide
  shown := by
    have typed : Shown (ascii "Content-Type: " ++ type.text) :=
      ⟨nofun, printable_append (by decide) (mediaType_printable type)⟩
    have sized : Shown (ascii "Content-Length: " ++ decimal body.length) :=
      ⟨nofun, printable_append (by decide) (decimal_printable _)⟩
    intro line inside
    simp only [List.mem_cons] at inside
    rcases inside with rfl | rfl | inside
    · exact ⟨nofun, by decide⟩
    · exact typed
    · split at inside
      · rw [List.mem_singleton.mp inside]
        exact sized
      · cases inside

/-- The answers of `server_handle_request` without a body. -/
inductive Refusal where
  | badRequest
  | notFound
  | methodNotAllowed
  | internalError

def Refusal.text : Refusal → List UInt8
  | .badRequest => ascii "HTTP/1.0 400 Bad Request"
  | .notFound => ascii "HTTP/1.0 404 Not Found"
  | .methodNotAllowed => ascii "HTTP/1.0 405 Method Not Allowed"
  | .internalError => ascii "HTTP/1.0 500 Internal Error"

def netRefusal (refusal : Refusal) : Answer where
  status := refusal.text
  fields := []
  body := []
  long := by cases refusal <;> decide
  shown := by
    intro line inside
    rw [List.mem_singleton.mp inside]
    cases refusal <;> exact ⟨nofun, by decide⟩

/-- What `recv` finds next; the connection ends, or fails, where nothing is left. -/
inductive Arrival where
  | bytes (data : List UInt8)
  | interrupted

/-- The bytes that arrive before the end, for a reader that goes on after an interruption. -/
def arrived : List Arrival → List UInt8
  | [] => []
  | .interrupted :: rest => arrived rest
  | .bytes data :: rest => if data = [] then [] else data ++ arrived rest

def arrivedAtOnce : List Arrival → List UInt8
  | [] => []
  | .interrupted :: _ => []
  | .bytes data :: rest => if data = [] then [] else data ++ arrivedAtOnce rest

def leftover (data : List UInt8) (rest : List Arrival) : List Arrival :=
  if data = [] then rest else .bytes data :: rest

/-- The room for text in `hbuf`. -/
def headRoom : Nat := 2047

/-- The first loop of `client_get`: the buffer, the offset of the body, and what is yet to come. -/
def readHead (buffer : List UInt8) : List Arrival → Option (List UInt8 × Nat × List Arrival)
  | [] => none
  | .interrupted :: rest => readHead buffer rest
  | .bytes data :: rest =>
    if data = [] then none
    else
      let room := headRoom - buffer.length
      let buffer := buffer ++ data.take room
      match Search.breakAt endMark (cString buffer) with
      | some (front, _) => some (buffer, front.length + 4, leftover (data.drop room) rest)
      -- a piece that does not fit fills the buffer and ends the loop
      | none => if buffer.length < headRoom then readHead buffer rest else none

def readBody (cap : Nat) (body : List UInt8) : List Arrival → List UInt8
  | [] => body
  | .interrupted :: rest => if body.length < cap - 1 then readBody cap body rest else body
  | .bytes data :: rest =>
    if body.length < cap - 1 ∧ data ≠ [] then
      readBody cap (body ++ data.take (cap - 1 - body.length)) rest
    else body

/-- `client_get` on an open connection: the body it stores, unless it fails. Without a buffer it
stores nothing. -/
def clientGet (out : Option Nat) (arrivals : List Arrival) : Option (List UInt8) :=
  (readHead [] arrivals).bind fun (buffer, offset, rest) =>
    if (ascii "HTTP/1.0 200").isPrefixOf buffer ∨ (ascii "HTTP/1.1 200").isPrefixOf buffer then
      let cap := out.getD 0
      if cap = 0 then some []
      else
        let bytes := buffer.drop offset
        some (readBody cap (bytes.take (if bytes.length < cap then bytes.length else cap - 1)) rest)
    else none

/-- The loop of `mon_get`. -/
def readAll (cap : Nat) (used : List UInt8) : List Arrival → List UInt8
  | [] => used
  | .interrupted :: _ => used
  | .bytes data :: rest =>
    if data = [] then used
    else
      let used := used ++ data.take (cap - used.length - 1)
      if cap - 1 ≤ used.length then used else readAll cap used rest

/-- `mon_get` on an open connection. -/
def monGet (cap : Nat) (arrivals : List Arrival) : Option (List UInt8) :=
  if cap < 2 then none
  else
    let text := cString (readAll cap [] arrivals)
    if (ascii "HTTP/1.0 200 ").isPrefixOf text ∨ (ascii "HTTP/1.1 200 ").isPrefixOf text then
      (Search.breakAt endMark text).map Prod.snd
    else none

variable {answer : Answer} {buffer : List UInt8}

theorem Answer.lines_proper (answer : Answer) :
    ∀ line ∈ answer.status :: answer.fields, HeadBlock.Proper cr line := by
  intro line inside
  obtain ⟨started, shown⟩ := answer.shown line inside
  exact ⟨started, fun here => absurd (List.all_eq_true.mp shown _ here) (by decide)⟩

theorem Answer.head_text (answer : Answer) : ∀ c ∈ answer.head, c ≠ 0 := by
  intro c inside zero
  subst zero
  rcases List.mem_append.mp inside with line | last
  · obtain ⟨line, listed, here⟩ := List.mem_flatMap.mp line
    rcases List.mem_append.mp here with shown | ending
    · exact absurd (List.all_eq_true.mp (answer.shown line listed).2 _ shown) (by decide)
    · exact absurd ending (by decide)
  · exact absurd last (by decide)

theorem cString_text {text : List UInt8} (plain : ∀ c ∈ text, c ≠ 0) (rest : List UInt8) :
    cString (text ++ rest) = text ++ cString rest := by
  apply List.takeWhile_append_of_pos
  intro c inside
  exact decide_eq_true (plain c inside)

theorem found_head (answer : Answer) (rest : List UInt8) :
    ∃ front, front.length + 4 = answer.head.length ∧
      Search.breakAt endMark (cString (answer.head ++ rest)) = some (front, cString rest) := by
  have apart : cr ≠ lf := by decide
  obtain ⟨front, shape, found⟩ :=
    HeadBlock.breakAt_block apart (List.cons_ne_nil _ _) answer.lines_proper (cString rest)
  refine ⟨front, ?_, ?_⟩
  · have lengths := congrArg List.length shape
    rw [List.length_append] at lengths
    exact lengths.symm
  · rw [cString_text answer.head_text]
    exact found

theorem not_found (inside : buffer <+: answer.bytes) (short : buffer.length < answer.head.length) :
    Search.breakAt endMark (cString buffer) = none := by
  have within : buffer <+: answer.head :=
    List.prefix_of_prefix_length_le inside (List.prefix_append _ _) short.le
  have whole : cString buffer = buffer := by
    have plain : ∀ c ∈ buffer, c ≠ 0 := fun c here => answer.head_text c (within.subset here)
    have same := cString_text plain []
    rwa [List.append_nil, show cString [] = [] from rfl, List.append_nil] at same
  rw [whole]
  exact HeadBlock.breakAt_short (by decide) (List.cons_ne_nil _ _) answer.lines_proper within short

theorem split_head (inside : buffer <+: answer.bytes)
    (long : answer.head.length ≤ buffer.length) :
    buffer = answer.head ++ buffer.drop answer.head.length := by
  have front : answer.head <+: buffer :=
    List.prefix_of_prefix_length_le (List.prefix_append _ _) inside long
  obtain ⟨rest, same⟩ := front
  rw [← same, List.drop_left]

theorem arrived_leftover (data : List UInt8) (rest : List Arrival) (room : Nat) :
    data.take room ++ arrived (leftover (data.drop room) rest) = data ++ arrived rest := by
  unfold leftover
  split
  · rename_i fits
    have whole := List.take_append_drop room data
    rw [fits, List.append_nil] at whole
    rw [whole]
  · rename_i more
    rw [arrived, if_neg more, ← List.append_assoc, List.take_append_drop]

theorem readHead_spec (small : answer.head.length ≤ headRoom) (buffer : List UInt8)
    {arrivals : List Arrival}
    (inside : buffer ++ arrived arrivals <+: answer.bytes)
    (short : buffer.length < answer.head.length) :
    if (buffer ++ arrived arrivals).length < answer.head.length then
      readHead buffer arrivals = none
    else ∃ filled rest, readHead buffer arrivals = some (filled, answer.head.length, rest) ∧
      filled ++ arrived rest = buffer ++ arrived arrivals ∧
      answer.head.length ≤ filled.length := by
  induction arrivals generalizing buffer with
  | nil =>
    rw [arrived, List.append_nil, if_pos short]
    rfl
  | cons first rest ih =>
    cases first with
    | interrupted => exact ih buffer inside short
    | bytes data =>
      by_cases ended : data = []
      · have none_more : arrived (.bytes data :: rest) = [] := if_pos ended
        rw [none_more, List.append_nil, if_pos short]
        exact if_pos ended
      have more : arrived (.bytes data :: rest) = data ++ arrived rest := if_neg ended
      rw [more] at inside ⊢
      obtain ⟨room, same⟩ : ∃ room, room = headRoom - buffer.length := ⟨_, rfl⟩
      have split := arrived_leftover data rest room
      have within : buffer ++ data.take room <+: answer.bytes := by
        refine List.IsPrefix.trans ?_ inside
        rw [← split, ← List.append_assoc]
        exact List.prefix_append _ _
      rw [readHead, if_neg ended]
      dsimp only
      rw [← same]
      by_cases long : answer.head.length ≤ (buffer ++ data.take room).length
      · obtain ⟨front, place, found⟩ :=
          found_head answer ((buffer ++ data.take room).drop answer.head.length)
        rw [← split_head within long] at found
        have enough : ¬ (buffer ++ (data ++ arrived rest)).length < answer.head.length := by
          rw [← split, ← List.append_assoc, List.length_append]
          omega
        rw [if_neg enough, found]
        refine ⟨_, _, by rw [← place], ?_, long⟩
        rw [List.append_assoc, split]
      · have missing := Nat.lt_of_not_le long
        have fits : data.take room = data := by
          apply List.take_of_length_le
          rw [List.length_append, List.length_take] at missing
          omega
        rw [not_found within missing, fits]
        rw [fits] at missing within
        have free : (buffer ++ data).length < headRoom := by omega
        rw [if_pos free, ← List.append_assoc]
        rw [← List.append_assoc] at inside
        exact ih _ inside missing

theorem take_filled {body : List UInt8} {cap room : Nat} (fits : body.length + room = cap)
    (data rest : List UInt8) :
    (body ++ data.take room ++ rest).take cap = (body ++ (data ++ rest)).take cap := by
  by_cases whole : data.length ≤ room
  · rw [List.take_of_length_le whole, List.append_assoc]
  · have filled : (body ++ data.take room).length = cap := by
      rw [List.length_append, List.length_take]
      omega
    have left : (body ++ data.take room ++ rest).take cap = body ++ data.take room := by
      rw [List.take_append_of_le_length filled.ge, List.take_of_length_le filled.le]
    rw [left, ← fits, List.take_length_add_append, List.take_append_of_le_length (by omega)]

theorem readBody_eq {cap : Nat} {body : List UInt8} (fits : body.length ≤ cap - 1)
    (arrivals : List Arrival) :
    readBody cap body arrivals = (body ++ arrived arrivals).take (cap - 1) := by
  induction arrivals generalizing body with
  | nil => rw [arrived, List.append_nil, List.take_of_length_le fits, readBody]
  | cons first rest ih =>
    have full (later : List UInt8) (none_left : ¬ body.length < cap - 1) :
        body = (body ++ later).take (cap - 1) := by
      rw [List.take_append_of_le_length (by omega), List.take_of_length_le fits]
    cases first with
    | interrupted =>
      rw [readBody]
      split
      · exact ih fits
      · rename_i none_left
        exact full _ none_left
    | bytes data =>
      rw [readBody, arrived]
      by_cases ended : data = []
      · rw [if_neg fun more => more.2 ended, if_pos ended, List.append_nil,
          List.take_of_length_le fits]
      rw [if_neg ended]
      by_cases left : body.length < cap - 1
      · have within : (body ++ data.take (cap - 1 - body.length)).length ≤ cap - 1 := by
          rw [List.length_append, List.length_take]
          omega
        rw [if_pos ⟨left, ended⟩, ih within, take_filled (by omega)]
      · rw [if_neg fun more => left more.1]
        exact full _ left

/-- A good status, as `client_get` sees it. -/
def Good (answer : Answer) : Prop :=
  (ascii "HTTP/1.0 200").isPrefixOf answer.head ∨ (ascii "HTTP/1.1 200").isPrefixOf answer.head

instance (answer : Answer) : Decidable (Good answer) := inferInstanceAs (Decidable (_ ∨ _))

theorem isPrefixOf_head (word : List UInt8) (inside : buffer <+: answer.bytes)
    (long : answer.head.length ≤ buffer.length) (short : word.length ≤ answer.head.length) :
    word.isPrefixOf buffer = word.isPrefixOf answer.head := by
  rw [Bool.eq_iff_iff, List.isPrefixOf_iff_prefix, List.isPrefixOf_iff_prefix,
    split_head inside long]
  constructor
  · intro front
    exact List.prefix_of_prefix_length_le front (List.prefix_append _ _) short
  · intro front
    exact front.trans (List.prefix_append _ _)

theorem length_head (answer : Answer) : 13 ≤ answer.head.length := by
  have long := answer.long
  rw [Answer.head, HeadBlock.block, List.flatMap_cons, List.length_append, List.length_append,
    List.length_append]
  omega

theorem clientGet_eq (small : answer.head.length ≤ headRoom) {arrivals : List Arrival}
    (inside : arrived arrivals <+: answer.bytes) (out : Option Nat) :
    clientGet out arrivals =
      if answer.head.length ≤ (arrived arrivals).length ∧ Good answer then
        some (((arrived arrivals).drop answer.head.length).take (out.getD 0 - 1))
      else none := by
  have long := length_head answer
  have read := readHead_spec small [] inside (by rw [List.length_nil]; omega)
  rw [List.nil_append] at read
  split at read
  · rename_i short
    rw [clientGet, read, if_neg fun enough => by omega]
    rfl
  rename_i enough
  obtain ⟨filled, rest, found, total, whole⟩ := read
  have within : filled <+: answer.bytes := by
    refine List.IsPrefix.trans ?_ inside
    rw [← total]
    exact List.prefix_append _ _
  have twelve : 12 ≤ answer.head.length := by omega
  rw [clientGet, found, Option.bind_some]
  dsimp only
  rw [isPrefixOf_head (ascii "HTTP/1.0 200") within whole twelve,
    isPrefixOf_head (ascii "HTTP/1.1 200") within whole twelve]
  change (if Good answer then _ else none) = _
  by_cases good : Good answer
  · have both : answer.head.length ≤ (arrived arrivals).length ∧ Good answer :=
      ⟨Nat.le_of_not_lt enough, good⟩
    rw [if_pos good, if_pos both]
    obtain ⟨cap, same⟩ : ∃ cap, cap = out.getD 0 := ⟨_, rfl⟩
    have body : (arrived arrivals).drop answer.head.length =
        filled.drop answer.head.length ++ arrived rest := by
      rw [← total, List.drop_append_of_le_length whole]
    rw [← same, body]
    split
    · rename_i none_stored
      rw [none_stored]
      rfl
    · obtain ⟨front, copied⟩ : ∃ front, front = filled.drop answer.head.length := ⟨_, rfl⟩
      rw [← copied]
      have fits : (front.take (if front.length < cap then front.length else cap - 1)).length ≤
          cap - 1 := by
        rw [List.length_take]
        split <;> omega
      rw [readBody_eq fits]
      split
      · rw [List.take_length]
      · rw [List.take_append_of_le_length (by rw [List.length_take]; omega),
          List.take_append_of_le_length (by omega), List.take_take, Nat.min_self]
  · rw [if_neg good, if_neg fun both => good both.2]

theorem readAll_eq {cap : Nat} (arrivals : List Arrival) {used : List UInt8}
    (free : used.length < cap - 1) :
    readAll cap used arrivals = (used ++ arrivedAtOnce arrivals).take (cap - 1) := by
  have nothing : used = (used ++ []).take (cap - 1) := by
    rw [List.append_nil, List.take_of_length_le free.le]
  induction arrivals generalizing used with
  | nil => exact nothing
  | cons first rest ih =>
    cases first with
    | interrupted => exact nothing
    | bytes data =>
      rw [readAll, arrivedAtOnce]
      by_cases ended : data = []
      · rw [if_pos ended, if_pos ended]
        exact nothing
      rw [if_neg ended, if_neg ended]
      have room : used.length + (cap - used.length - 1) = cap - 1 := by omega
      dsimp only
      rw [← take_filled room]
      split
      · rename_i full
        have exact_length : (used ++ data.take (cap - used.length - 1)).length = cap - 1 := by
          rw [List.length_append, List.length_take] at full ⊢
          omega
        rw [List.take_append_of_le_length exact_length.ge, List.take_of_length_le exact_length.le]
      · rename_i more
        have free := Nat.lt_of_not_le more
        apply ih free
        rw [List.append_nil, List.take_of_length_le free.le]

/-- A good status, as `mon_get` sees it. -/
def MonGood (answer : Answer) : Prop :=
  (ascii "HTTP/1.0 200 ").isPrefixOf answer.head ∨ (ascii "HTTP/1.1 200 ").isPrefixOf answer.head

instance (answer : Answer) : Decidable (MonGood answer) := inferInstanceAs (Decidable (_ ∨ _))

theorem monGet_eq {cap : Nat} {arrivals : List Arrival}
    (inside : arrivedAtOnce arrivals <+: answer.bytes) (text : ∀ c ∈ answer.body, c ≠ 0) :
    monGet cap arrivals =
      if answer.head.length ≤ min (arrivedAtOnce arrivals).length (cap - 1) ∧ MonGood answer then
        some (((arrivedAtOnce arrivals).take (cap - 1)).drop answer.head.length)
      else none := by
  have long := length_head answer
  by_cases tiny : cap < 2
  · rw [monGet, if_pos tiny, if_neg fun enough => by omega]
  have plain : ∀ c ∈ answer.bytes, c ≠ 0 := by
    intro c here
    rcases List.mem_append.mp here with head | body
    · exact answer.head_text c head
    · exact text c body
  obtain ⟨kept, same⟩ : ∃ kept, kept = (arrivedAtOnce arrivals).take (cap - 1) := ⟨_, rfl⟩
  have within : kept <+: answer.bytes := same ▸ (List.take_prefix _ _).trans inside
  have read : readAll cap [] arrivals = kept := by
    rw [readAll_eq arrivals (by rw [List.length_nil]; omega), List.nil_append, same]
  have string {part : List UInt8} (inside : ∀ c ∈ part, c ∈ answer.bytes) :
      cString part = part := by
    have same := cString_text (fun c here => plain c (inside c here)) []
    rwa [List.append_nil, show cString [] = [] from rfl, List.append_nil] at same
  have length : kept.length = min (arrivedAtOnce arrivals).length (cap - 1) := by
    rw [same, List.length_take, Nat.min_comm]
  rw [monGet, if_neg tiny, read, ← same, ← length]
  dsimp only
  rw [string fun c here => within.subset here]
  by_cases whole : answer.head.length ≤ kept.length
  · rw [isPrefixOf_head (ascii "HTTP/1.0 200 ") within whole long,
      isPrefixOf_head (ascii "HTTP/1.1 200 ") within whole long]
    change (if MonGood answer then _ else none) = _
    by_cases good : MonGood answer
    · obtain ⟨front, -, found⟩ := found_head answer (kept.drop answer.head.length)
      rw [← split_head within whole, string fun c here => within.subset here,
        string fun c here => within.subset (List.mem_of_mem_drop here)] at found
      rw [if_pos good, if_pos ⟨whole, good⟩, found]
      rfl
    · rw [if_neg good, if_neg fun both => good both.2]
  · have missing := not_found within (Nat.lt_of_not_le whole)
    rw [string fun c here => within.subset here] at missing
    have not_both : ¬ (answer.head.length ≤ kept.length ∧ MonGood answer) :=
      fun both => whole both.1
    rw [missing, if_neg not_both]
    split <;> rfl

theorem arrivedAtOnce_initial (arrivals : List Arrival) :
    arrivedAtOnce arrivals <+: arrived arrivals := by
  induction arrivals with
  | nil => exact List.prefix_rfl
  | cons first rest ih =>
    cases first with
    | interrupted => exact List.nil_prefix
    | bytes data =>
      rw [arrivedAtOnce, arrived]
      split
      · exact List.prefix_rfl
      · exact (List.prefix_append_right_inj data).mpr ih

def Refused (good : Prop) (answer : Answer) (received : Nat) : Prop :=
  ¬ good ∨ received < answer.head.length

theorem drop_take_body {received : List UInt8} (inside : received <+: answer.bytes)
    (long : answer.head.length ≤ received.length) :
    received.drop answer.head.length =
      answer.body.take (received.length - answer.head.length) := by
  obtain ⟨rest, same⟩ := inside
  have body : answer.body = received.drop answer.head.length ++ rest := by
    have dropped := congrArg (List.drop answer.head.length) same
    rw [List.drop_append_of_le_length long, Answer.bytes, List.drop_left] at dropped
    exact dropped.symm
  rw [body, List.take_append_of_le_length (by rw [List.length_drop]),
    List.take_of_length_le (by rw [List.length_drop])]

theorem stored_iff {good : Prop} [Decidable good] {received kept : Nat} {fits : Prop}
    (enough : answer.head.length ≤ received → (answer.body.length ≤ kept ↔ fits)) :
    (∀ stored, (if answer.head.length ≤ received ∧ good then some (answer.body.take kept)
        else none) = some stored → stored = answer.body) ↔
      Refused good answer received ∨ fits := by
  split
  · rename_i accepted
    have accepts : ¬ Refused good answer received := by
      rintro (bad | short)
      · exact bad accepted.2
      · omega
    rw [← enough accepted.1]
    simp only [Option.some.injEq, forall_eq', accepts, false_or, List.take_eq_self_iff]
  · rename_i refused
    refine iff_of_true nofun (.inl ?_)
    by_cases okay : good
    · exact .inr (Nat.lt_of_not_le fun long => refused ⟨long, okay⟩)
    · exact .inl okay

/-- A body that a client stores is the whole one exactly when all of it arrives and fits, or the
client refuses the response anyway. -/
theorem whole_response_iff (answer : Answer) (small : answer.head.length ≤ headRoom)
    (arrivals : List Arrival) (cut : arrived arrivals <+: answer.bytes) (out : Option Nat)
    (cap : Nat) (text : ∀ c ∈ answer.body, c ≠ 0) :
    ((∀ stored, clientGet out arrivals = some stored → stored = answer.body) ↔
        Refused (Good answer) answer (arrived arrivals).length ∨
          (answer.bytes.length ≤ (arrived arrivals).length ∧
            answer.body.length ≤ out.getD 0 - 1)) ∧
      ((∀ stored, monGet cap arrivals = some stored → stored = answer.body) ↔
        Refused (MonGood answer) answer (min (arrivedAtOnce arrivals).length (cap - 1)) ∨
          answer.bytes.length ≤ min (arrivedAtOnce arrivals).length (cap - 1)) := by
  have lengths : answer.bytes.length = answer.head.length + answer.body.length :=
    List.length_append
  have atOnce : arrivedAtOnce arrivals <+: answer.bytes :=
    (arrivedAtOnce_initial arrivals).trans cut
  refine ⟨?_, ?_⟩
  · have stored : clientGet out arrivals =
        if answer.head.length ≤ (arrived arrivals).length ∧ Good answer then
          some (answer.body.take
            (min (out.getD 0 - 1) ((arrived arrivals).length - answer.head.length)))
        else none := by
      rw [clientGet_eq small cut]
      split
      · rename_i accepted
        rw [drop_take_body cut accepted.1, List.take_take]
      · rfl
    rw [stored]
    apply stored_iff
    omega
  · have kept : ((arrivedAtOnce arrivals).take (cap - 1)).length =
        min (arrivedAtOnce arrivals).length (cap - 1) := by
      rw [List.length_take, Nat.min_comm]
    have stored : monGet cap arrivals =
        if answer.head.length ≤ min (arrivedAtOnce arrivals).length (cap - 1) ∧
            MonGood answer then
          some (answer.body.take
            (min (arrivedAtOnce arrivals).length (cap - 1) - answer.head.length))
        else none := by
      rw [monGet_eq atOnce text, ← kept]
      split
      · rename_i accepted
        rw [drop_take_body ((List.take_prefix _ _).trans atOnce) accepted.1]
      · rfl
    rw [stored]
    apply stored_iff
    omega

/-- A device reply of the monitor, whole in two pieces and cut between them. -/
def deviceReply : Answer := monAnswer 200 .textPlain (ascii "devices 2\n")

def firstPiece : List UInt8 := deviceReply.bytes.take (deviceReply.bytes.length - 4)

def lastPiece : List UInt8 := deviceReply.bytes.drop (deviceReply.bytes.length - 4)

theorem whole_response_deviceReply :
    (∀ stored, clientGet (some 64) [.bytes firstPiece, .interrupted, .bytes lastPiece] =
        some stored → stored = deviceReply.body) ∧
      ∀ stored, monGet 256 [.bytes firstPiece, .bytes lastPiece] = some stored →
        stored = deviceReply.body := by
  have small : deviceReply.head.length ≤ headRoom := by decide +kernel
  have text : ∀ c ∈ deviceReply.body, c ≠ 0 := by decide +kernel
  have whole : arrived [.bytes firstPiece, .interrupted, .bytes lastPiece] = deviceReply.bytes := by
    decide +kernel
  have atOnce : arrived [.bytes firstPiece, .bytes lastPiece] = deviceReply.bytes := by
    decide +kernel
  refine ⟨?_, ?_⟩
  · have cut : arrived [.bytes firstPiece, .interrupted, .bytes lastPiece] <+: deviceReply.bytes :=
      ⟨[], by rw [List.append_nil, whole]⟩
    refine (whole_response_iff deviceReply small _ cut (some 64) 0 text).1.mpr ?_
    rw [whole]
    exact .inr ⟨le_rfl, by decide⟩
  · have cut : arrived [.bytes firstPiece, .bytes lastPiece] <+: deviceReply.bytes :=
      ⟨[], by rw [List.append_nil, atOnce]⟩
    refine (whole_response_iff deviceReply small _ cut none 256 text).2.mpr (.inr ?_)
    decide +kernel

/-- Without the last piece both clients report success. -/
theorem cut_response_stored :
    (¬ ∀ stored, clientGet (some 64) [.bytes firstPiece] = some stored →
        stored = deviceReply.body) ∧
      ¬ ∀ stored, monGet 256 [.bytes firstPiece] = some stored → stored = deviceReply.body := by
  have mirror : clientGet (some 64) [.bytes firstPiece] = some (ascii "device") := by
    decide +kernel
  have monitor : monGet 256 [.bytes firstPiece] = some (ascii "device") := by decide +kernel
  refine ⟨fun whole => ?_, fun whole => ?_⟩
  · exact absurd (whole _ mirror) (by decide)
  · exact absurd (whole _ monitor) (by decide)

end MisrcGui.Net.Responses
