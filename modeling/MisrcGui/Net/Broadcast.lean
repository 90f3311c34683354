import Mathlib.Data.UInt
import MisrcGui.Library.Chain
import MisrcGui.Library.Machine

/-! The fanout of the network server: one bounded queue of chunks, read by any number
of subscribers through cursors of their own. -/
namespace MisrcGui.Net.Broadcast
open Library
open Library.Chain (ids suffix)

variable {α : Type*}

/-- A `net_chunk_t` by the identity of its allocation. -/
abbrev Chunk (α : Type*) := Nat × List α

/-- A `net_fanout_sub_t`. `call` is the remaining capacity and the bytes copied of a
`net_fanout_read` that waits; `results` are its returns (`none` for -1) and `sent` is
what was pushed since it subscribed. -/
structure Sub (α : Type*) where
  id : Nat
  cur : Option Nat
  off : Nat
  overflowed : Bool
  call : Option (Nat × List α)
  results : List (Option (List α))
  sent : List α
deriving DecidableEq

structure Fanout (α : Type*) where
  queue : List (Chunk α)
  allocations : Nat
  subs : List (Sub α)
  subscribers : Nat
  queuedBytes : Nat
  shutdown : Bool
deriving DecidableEq

def init : Fanout α := ⟨[], 0, [], 0, 0, false⟩

def inUse (subs : List (Sub α)) (chunk : Nat) : Bool := subs.any fun s => s.cur == some chunk

def trimQueue (subs : List (Sub α)) : List (Chunk α) → Nat → List (Chunk α) × Nat
  | [], bytes => ([], bytes)
  | head :: rest, bytes =>
    if inUse subs head.1 then (head :: rest, bytes)
    else trimQueue subs rest (bytes - head.2.length)

def trim (f : Fanout α) : Fanout α :=
  let (queue, bytes) := trimQueue f.subs f.queue f.queuedBytes
  { f with queue := queue, queuedBytes := bytes }

def store (f : Fanout α) (s : Sub α) : Fanout α :=
  { f with subs := f.subs.map fun t => if t.id = s.id then s else t }

def subscribe (f : Fanout α) (id : Nat) : Fanout α :=
  if f.shutdown then f
  else { f with
    subs := ⟨id, none, 0, false, none, [], []⟩ :: f.subs
    subscribers := f.subscribers + 1 }

def unsubscribe (f : Fanout α) (id : Nat) : Fanout α :=
  trim { f with
    subs := f.subs.filter fun s => s.id != id
    subscribers := if f.subs.any fun s => s.id == id then f.subscribers - 1 else f.subscribers }

def drop (s : Sub α) : Sub α := { s with overflowed := true, cur := none }

/-- The overflow loop of `net_fanout_push`; each turn frees a chunk. -/
def evict (maxBytes : Nat) : Nat → Fanout α → Fanout α
  | 0, f => f
  | fuel + 1, f =>
    match f.queue with
    | [] => f
    | head :: _ =>
      if f.queuedBytes ≤ maxBytes then f
      else if !inUse f.subs head.1 then f
      else evict maxBytes fuel (trim { f with
        subs := f.subs.map fun s => if s.cur = some head.1 then drop s else s })

def sizeMax : Nat := 2 ^ 64 - 1
def chunkHeader : Nat := 16

def enqueue (maxBytes : Nat) (f : Fanout α) (data : List α) (allocated : Bool) : Fanout α :=
  if data.length ≤ maxBytes ∧ data.length ≤ sizeMax - chunkHeader ∧ allocated then
    { f with
      queue := f.queue ++ [(f.allocations, data)]
      allocations := f.allocations + 1
      queuedBytes := f.queuedBytes + data.length
      subs := f.subs.map fun s =>
        if !s.overflowed && s.cur.isNone then { s with cur := some f.allocations } else s }
  else { f with subs := f.subs.map drop }

/-- `net_fanout_push` on an initialised fanout. -/
def push (maxBytes : Nat) (f : Fanout α) (data : List α) (allocated : Bool) : Fanout α :=
  if data = [] then f
  else if f.shutdown ∨ f.subscribers = 0 then f
  else
    let f := trim (enqueue maxBytes f data allocated)
    evict maxBytes f.queue.length f

/-- The loop of `net_fanout_read` under the lock, along the chunks from the cursor on:
copying, and advancing from a chunk that is used up. -/
def copyLoop (f : Fanout α) (s : Sub α) (cap : Nat) (copied : List α) :
    List (Chunk α) → Fanout α × Sub α × Nat × List α
  | [] => (f, s, cap, copied)
  | chunk :: rest =>
    let piece := (chunk.2.drop s.off).take cap
    let s := { s with off := s.off + piece.length }
    if piece.length = cap then (store f s, s, 0, copied ++ piece)
    else
      let s := { s with cur := rest.head?.map Prod.fst, off := 0 }
      copyLoop (trim (store f s)) s (cap - piece.length) (copied ++ piece) rest

/-- The end of `net_fanout_read`. -/
def finish (f : Fanout α) (s : Sub α) (copied : List α) : Fanout α :=
  store f { s with
    call := none
    results := s.results ++ [if f.shutdown || s.overflowed then none else some copied] }

/-- One stretch of `net_fanout_read` under the lock; `waits` is false when the timeout
is. A cursor at a freed chunk has no next state. -/
def stretch (f : Fanout α) (s : Sub α) (cap : Nat) (copied : List α) (waits : Bool) :
    Option (Fanout α) :=
  if f.shutdown || s.overflowed then some (finish f s [])
  else
    let stop (f : Fanout α) (s : Sub α) (cap : Nat) (copied : List α) : Fanout α :=
      if cap = 0 ∨ waits = false then finish f s copied
      else store f { s with call := some (cap, copied) }
    match s.cur with
    | none => some (stop f s cap copied)
    | some chunk =>
      match suffix chunk f.queue with
      | [] => none
      | chunks =>
        let (f, s, cap, copied) := copyLoop f s cap copied chunks
        some (stop f s cap copied)

def find (f : Fanout α) (id : Nat) : Option (Sub α) := f.subs.find? fun s => s.id == id

/-- A `read` that finds no data waits; it is woken or its time is up. -/
inductive Action (α : Type*) where
  | subscribe (id : Nat)
  | unsubscribe (id : Nat)
  | push (data : List α) (allocated : Bool)
  | read (id cap : Nat) (waits : Bool)
  | wake (id : Nat)
  | expire (id : Nat)
  | shutdown

def note (f : Fanout α) (data : List α) : Fanout α :=
  { f with subs := f.subs.map fun s => { s with sent := s.sent ++ data } }

def step (maxBytes : Nat) (f : Fanout α) : Action α → Option (Fanout α)
  | .subscribe id => if (find f id).isSome then none else some (subscribe f id)
  | .unsubscribe id =>
    match find f id with
    | some ⟨_, _, _, _, some _, _, _⟩ => none
    | _ => some (unsubscribe f id)
  | .push data allocated => some (push maxBytes (note f data) data allocated)
  | .read id cap waits =>
    match find f id with
    | none => some f
    | some s =>
      if s.call.isSome then none
      else if cap = 0 then some (finish f s [])
      else stretch f s cap [] waits
  | .wake id =>
    match find f id with
    | some s =>
      match s.call with
      | some (cap, copied) => stretch f s cap copied true
      | none => none
    | none => none
  | .expire id =>
    match find f id with
    | some s =>
      match s.call with
      | some (_, copied) => some (finish f s copied)
      | none => none
    | none => none
  | .shutdown => some { f with shutdown := true }

variable {f next : Fanout α} {s t : Sub α} {maxBytes : Nat}

/-- The bytes that the calls of a subscriber have returned, and those that the call in
progress has copied. -/
def returned (s : Sub α) : List α := (s.results.filterMap fun result => result).flatten

def copied (s : Sub α) : List α :=
  match s.call with
  | none => []
  | some (_, bytes) => bytes

def chunksFrom (queue : List (Chunk α)) (s : Sub α) : List (Chunk α) :=
  match s.cur with
  | none => []
  | some chunk => suffix chunk queue

def remaining (queue : List (Chunk α)) (s : Sub α) : List α :=
  match chunksFrom queue s with
  | [] => []
  | head :: rest => head.2.drop s.off ++ rest.flatMap Prod.snd

def size (chunks : List (Chunk α)) : Nat := (chunks.map fun chunk => chunk.2.length).sum

/-- A subscriber that is neither dropped nor shut down has read, and has before it, what
was pushed since it subscribed. -/
structure Ok (queue : List (Chunk α)) (shutdown : Bool) (s : Sub α) : Prop where
  cursor : ∀ chunk, s.cur = some chunk → chunk ∈ ids queue
  dropped : s.overflowed → s.cur = none
  start : s.cur = none → s.overflowed = false → s.off = 0
  whole : s.overflowed = false → shutdown = false →
    returned s ++ copied s ++ remaining queue s = s.sent
  part : returned s ++ copied s <+: s.sent

structure Frame (f : Fanout α) : Prop where
  distinct : (ids f.queue).Nodup
  allocated : ∀ chunk ∈ ids f.queue, chunk < f.allocations
  bytes : f.queuedBytes = size f.queue
  subs : (f.subs.map Sub.id).Nodup
  counted : f.subscribers = f.subs.length

structure Inv (maxBytes : Nat) (f : Fanout α) : Prop where
  frame : Frame f
  ok : ∀ s ∈ f.subs, Ok f.queue f.shutdown s
  bounded : f.queuedBytes ≤ maxBytes

@[simp] theorem size_nil : size ([] : List (Chunk α)) = 0 := rfl

@[simp] theorem size_cons (chunk : Chunk α) (rest : List (Chunk α)) :
    size (chunk :: rest) = chunk.2.length + size rest := List.sum_cons

@[simp] theorem size_append (front rest : List (Chunk α)) :
    size (front ++ rest) = size front + size rest := by simp [size]

theorem init_inv : Inv maxBytes (init : Fanout α) where
  frame := ⟨List.nodup_nil, nofun, rfl, List.nodup_nil, rfl⟩
  ok := nofun
  bounded := Nat.zero_le _

theorem inUse_of_cur {subs : List (Sub α)} {chunk : Nat} (listed : s ∈ subs)
    (place : s.cur = some chunk) : inUse subs chunk = true :=
  List.any_eq_true.mpr ⟨s, listed, beq_iff_eq.mpr place⟩

theorem trimQueue_spec (subs : List (Sub α)) (queue : List (Chunk α)) (bytes : Nat) :
    ∃ front, queue = front ++ (trimQueue subs queue bytes).1 ∧
      (∀ chunk ∈ ids front, inUse subs chunk = false) ∧
      (trimQueue subs queue bytes).2 = bytes - size front ∧
      ∀ head ∈ (trimQueue subs queue bytes).1.head?, inUse subs head.1 := by
  induction queue generalizing bytes with
  | nil => exact ⟨[], rfl, nofun, rfl, nofun⟩
  | cons head rest ih =>
    rw [trimQueue]
    split
    · rename_i used
      refine ⟨[], rfl, nofun, rfl, fun first same => ?_⟩
      rw [List.head?_cons, Option.mem_some_iff] at same
      rw [← same]
      exact used
    · rename_i free
      obtain ⟨front, split, unused, left, first⟩ := ih (bytes - head.2.length)
      refine ⟨head :: front, congrArg (head :: ·) split, fun chunk listed => ?_, ?_, first⟩
      · rcases List.mem_cons.mp listed with rfl | later
        · exact Bool.eq_false_iff.mpr free
        · exact unused chunk later
      · rw [left, size_cons, Nat.sub_sub]

theorem trim_spec (f : Fanout α) :
    ∃ front, f.queue = front ++ (trim f).queue ∧
      (∀ chunk ∈ ids front, inUse f.subs chunk = false) ∧
      (trim f).queuedBytes = f.queuedBytes - size front ∧
      ∀ head ∈ (trim f).queue.head?, inUse f.subs head.1 :=
  trimQueue_spec f.subs f.queue f.queuedBytes

@[simp] theorem trim_subs (f : Fanout α) : (trim f).subs = f.subs := rfl
theorem Frame.trim (frame : Frame f) : Frame (trim f) := by
  obtain ⟨front, split, -, left, -⟩ := trim_spec f
  have tail : (Broadcast.trim f).queue <:+ f.queue := ⟨front, split.symm⟩
  refine ⟨?_, fun chunk listed => ?_, ?_, frame.subs, frame.counted⟩
  · exact frame.distinct.sublist (tail.sublist.map Prod.fst)
  · exact frame.allocated chunk ((tail.sublist.map Prod.fst).subset listed)
  · have total := frame.bytes
    rw [split, size_append] at total
    omega

theorem trim_bytes (f : Fanout α) : (trim f).queuedBytes ≤ f.queuedBytes := by
  obtain ⟨front, -, -, left, -⟩ := trim_spec f
  omega

theorem chunksFrom_trim (listed : s ∈ f.subs) :
    chunksFrom (trim f).queue s = chunksFrom f.queue s := by
  obtain ⟨front, split, unused, -⟩ := trim_spec f
  cases place : s.cur with
  | none => simp only [chunksFrom, place]
  | some chunk =>
    have away : chunk ∉ ids front := by
      intro freed
      have free := unused chunk freed
      rw [inUse_of_cur listed place] at free
      contradiction
    simp only [chunksFrom, place]
    rw [split, Chain.suffix_append_right away]

theorem cursor_trim {chunk : Nat} (listed : s ∈ f.subs) (place : s.cur = some chunk)
    (queued : chunk ∈ ids f.queue) : chunk ∈ ids (trim f).queue := by
  obtain ⟨front, split, unused, -⟩ := trim_spec f
  rw [split, Chain.ids_append, List.mem_append] at queued
  rcases queued with freed | kept
  · have free := unused chunk freed
    rw [inUse_of_cur listed place] at free
    contradiction
  · exact kept

theorem remaining_trim (listed : s ∈ f.subs) :
    remaining (trim f).queue s = remaining f.queue s := by
  rw [remaining, remaining, chunksFrom_trim listed]

theorem Ok.trim {shutdown : Bool} (ok : Ok f.queue shutdown s) (listed : s ∈ f.subs) :
    Ok (trim f).queue shutdown s where
  cursor := fun chunk place => cursor_trim listed place (ok.cursor chunk place)
  __ := ok
  whole := by
    rw [remaining_trim listed]
    exact ok.whole

@[simp] theorem store_queue (f : Fanout α) (s : Sub α) : (store f s).queue = f.queue := rfl
theorem store_ids (f : Fanout α) (s : Sub α) : (store f s).subs.map Sub.id = f.subs.map Sub.id := by
  rw [store, List.map_map]
  refine List.map_congr_left fun t _ => ?_
  by_cases same : t.id = s.id <;> simp [same]

theorem mem_store (listed : t ∈ (store f s).subs) : t = s ∨ t ∈ f.subs ∧ t.id ≠ s.id := by
  obtain ⟨u, member, rfl⟩ := List.mem_map.mp listed
  by_cases same : u.id = s.id
  · left
    exact if_pos same
  · right
    rw [if_neg same]
    exact ⟨member, same⟩

theorem mem_store_other (listed : t ∈ (store f s).subs) (other : t.id ≠ s.id) : t ∈ f.subs :=
  ((mem_store listed).resolve_left fun same => other (congrArg Sub.id same)).1

theorem store_mem (there : s.id ∈ f.subs.map Sub.id) : s ∈ (store f s).subs := by
  obtain ⟨t, member, same⟩ := List.mem_map.mp there
  exact List.mem_map.mpr ⟨t, member, if_pos same⟩

theorem Frame.store (frame : Frame f) (s : Sub α) : Frame (store f s) where
  __ := frame
  subs := by
    rw [store_ids]
    exact frame.subs
  counted := by
    rw [Broadcast.store, List.length_map]
    exact frame.counted

end MisrcGui.Net.Broadcast
