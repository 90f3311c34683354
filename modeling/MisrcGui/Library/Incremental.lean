import Mathlib.Data.List.Basic

/-! Streams of self-delimiting items. A grammar says what the stream begins with; what it says
of a stream it says of every longer one, so the items do not depend on the chunks in which the
stream arrives. -/
namespace Library.Incremental

inductive Next (Symbol Item : Type*) where
  | more
  | bad
  | item (value : Item) (rest : List Symbol)

structure Grammar (Symbol Item : Type*) where
  next : List Symbol → Next Symbol Item
  bad_append : ∀ stream later, next stream = .bad → next (stream ++ later) = .bad
  item_append : ∀ stream later value rest, next stream = .item value rest →
    next (stream ++ later) = .item value (rest ++ later)
  shorter : ∀ stream value rest, next stream = .item value rest → rest.length < stream.length

variable {Symbol Item : Type*} (grammar : Grammar Symbol Item)

/-- The items of a stream, and what is left of it unless it is bad. -/
def parse : ℕ → List Symbol → List Item × Option (List Symbol)
  | 0, stream => ([], some stream)
  | fuel + 1, stream =>
    match grammar.next stream with
    | .more => ([], some stream)
    | .bad => ([], none)
    | .item value rest => (value :: (parse fuel rest).1, (parse fuel rest).2)

def items (stream : List Symbol) : List Item × Option (List Symbol) :=
  parse grammar (stream.length + 1) stream

variable {grammar}

theorem parse_fuel {fuel : ℕ} {stream : List Symbol} (enough : stream.length < fuel) :
    parse grammar fuel stream = items grammar stream := by
  unfold items
  generalize same : stream.length + 1 = least
  have bound : stream.length < least := by omega
  clear same
  induction fuel generalizing stream least with
  | zero => omega
  | succ fuel ih =>
    cases least with
    | zero => omega
    | succ least =>
      unfold parse
      cases shape : grammar.next stream with
      | more => rfl
      | bad => rfl
      | item value rest =>
        have shorter := grammar.shorter stream value rest shape
        dsimp only
        rw [ih (by omega) least (by omega)]

theorem items_more {stream : List Symbol} (h : grammar.next stream = .more) :
    items grammar stream = ([], some stream) := by
  rw [items, parse, h]

theorem items_bad {stream : List Symbol} (h : grammar.next stream = .bad) :
    items grammar stream = ([], none) := by
  rw [items, parse, h]

theorem items_item {stream rest : List Symbol} {value : Item}
    (h : grammar.next stream = .item value rest) :
    items grammar stream = (value :: (items grammar rest).1, (items grammar rest).2) := by
  have shorter := grammar.shorter stream value rest h
  rw [items, parse, h]
  dsimp only
  rw [parse_fuel shorter]

theorem stream_induction (grammar : Grammar Symbol Item) {motive : List Symbol → Prop}
    (more : ∀ stream, grammar.next stream = .more → motive stream)
    (bad : ∀ stream, grammar.next stream = .bad → motive stream)
    (item : ∀ stream value rest, grammar.next stream = .item value rest → motive rest →
      motive stream) (stream : List Symbol) : motive stream := by
  generalize size : stream.length = length
  induction length using Nat.strongRecOn generalizing stream with
  | ind length ih =>
    cases shape : grammar.next stream with
    | more => exact more stream shape
    | bad => exact bad stream shape
    | item value rest =>
      have shorter := grammar.shorter stream value rest shape
      exact item stream value rest shape (ih rest.length (by omega) rest rfl)

theorem items_append (stream later : List Symbol) :
    items grammar (stream ++ later) =
      match items grammar stream with
      | (values, some rest) =>
        (values ++ (items grammar (rest ++ later)).1, (items grammar (rest ++ later)).2)
      | (values, none) => (values, none) := by
  induction stream using stream_induction grammar with
  | more stream h => simp [items_more h]
  | bad stream h => rw [items_bad h, items_bad (grammar.bad_append stream later h)]
  | item stream value rest h ih =>
    rw [items_item h, items_item (grammar.item_append stream later value rest h), ih]
    cases items grammar rest with
    | mk values left => cases left <;> rfl

theorem items_carried {stream rest : List Symbol} (kept : (items grammar stream).2 = some rest)
    (later : List Symbol) : (items grammar (stream ++ later)).1 =
      (items grammar stream).1 ++ (items grammar (rest ++ later)).1 := by
  rw [items_append]
  cases shape : items grammar stream with
  | mk values left =>
    rw [shape] at kept
    cases kept
    rfl

theorem next_rest {stream rest : List Symbol} (h : (items grammar stream).2 = some rest) :
    grammar.next rest = .more := by
  induction stream using stream_induction grammar with
  | more stream shape =>
    rw [items_more shape] at h
    exact Option.some.inj h ▸ shape
  | bad stream shape =>
    rw [items_bad shape] at h
    cases h
  | item stream value rest shape ih =>
    rw [items_item shape] at h
    exact ih h

theorem length_rest_le {stream rest : List Symbol} (h : (items grammar stream).2 = some rest) :
    rest.length ≤ stream.length := by
  induction stream using stream_induction grammar with
  | more stream shape =>
    rw [items_more shape] at h
    exact Option.some.inj h ▸ Nat.le_refl _
  | bad stream shape =>
    rw [items_bad shape] at h
    cases h
  | item stream value left shape ih =>
    rw [items_item shape] at h
    exact Nat.le_of_lt (Nat.lt_of_le_of_lt (ih h) (grammar.shorter stream value left shape))

end Library.Incremental
